import LineFollower.Bcm2835.Registers

/-!
# The pins

`bcm2835.c`: the functions that select what a pin is, and that set, clear and
read it. The pins share registers: ten of them one for their functions, and 32
of them one each to set, to clear and to read them. All the same no call touches
a pin that it does not name, and an interruption leaves the pins after a
beginning of the calls' writes (`calls_pins`).
-/

namespace LineFollower.Bcm2835

open Lib Lib.Exchange

def gpfsel0 : ℕ := 0x0000
def gpset0 : ℕ := 0x001c
def gpclr0 : ℕ := 0x0028
def gplev0 : ℕ := 0x0034

def gpioFselInpt : Byte := 0x00
def gpioFselOutp : Byte := 0x01
def gpioFselAlt0 : Byte := 0x04
def gpioFselMask : Word := 0x07

def high : Byte := 0x1
def low : Byte := 0x0

def gpioFsel (pin mode : Byte) : Driver Unit :=
  let paddr : Register := ⟨.gpio, gpfsel0 / 4 + pin.toNat / 10⟩
  let shift := pin.toNat % 10 * 3
  let mask := gpioFselMask <<< shift
  let value : Word := mode.setWidth 32 <<< shift
  periSetBits paddr value mask

def gpioSet (pin : Byte) : Driver Unit :=
  let paddr : Register := ⟨.gpio, gpset0 / 4 + pin.toNat / 32⟩
  let shift := pin.toNat % 32
  periWrite paddr ((1 : Word) <<< shift)

def gpioClr (pin : Byte) : Driver Unit :=
  let paddr : Register := ⟨.gpio, gpclr0 / 4 + pin.toNat / 32⟩
  let shift := pin.toNat % 32
  periWrite paddr ((1 : Word) <<< shift)

def gpioSetMulti (mask : Word) : Driver Unit := periWrite ⟨.gpio, gpset0 / 4⟩ mask

def gpioClrMulti (mask : Word) : Driver Unit := periWrite ⟨.gpio, gpclr0 / 4⟩ mask

def gpioLev (pin : Byte) : Driver Byte := do
  let paddr : Register := ⟨.gpio, gplev0 / 4 + pin.toNat / 32⟩
  let shift := pin.toNat % 32
  let value ← periRead paddr
  return if value &&& ((1 : Word) <<< shift) ≠ 0 then high else low

def gpioWrite (pin on : Byte) : Driver Unit := if on ≠ 0 then gpioSet pin else gpioClr pin

def gpioWriteMulti (mask : Word) (on : Byte) : Driver Unit :=
  if on ≠ 0 then gpioSetMulti mask else gpioClrMulti mask

def gpioWriteMask (value mask : Word) : Driver Unit := do
  gpioSetMulti (value &&& mask)
  gpioClrMulti (~~~value &&& mask)

-- ---------------------------------------------------------------------------
-- The bank
-- ---------------------------------------------------------------------------

structure Gpio where
  /-- The registers of the functions. -/
  select : ℕ → Word
  /-- What a pin is driven to while it is an output. -/
  latch : ℕ → Bool
  /-- The accesses so far. -/
  now : ℕ

namespace Gpio

def function (d : Gpio) (pin : ℕ) : BitVec 3 := (d.select (pin / 10)).extractLsb' (pin % 10 * 3) 3

/-- The pins of `value` in the register number `n` of a pair. -/
def drive (d : Gpio) (n : ℕ) (value : Word) (on : Bool) : Gpio :=
  { d with latch := fun pin => if pin / 32 = n ∧ value.getLsbD (pin % 32) = true then on
    else d.latch pin }

end Gpio

structure GpioBank where
  /-- The level of a pin that is no output, by the number of the access. -/
  outside : ℕ → ℕ → Bool
  /-- What is read elsewhere. -/
  elsewhere : ℕ → Word

namespace GpioBank

variable (bank : GpioBank)

def level (d : Gpio) (pin : ℕ) : Bool :=
  if d.function pin = gpioFselOutp.setWidth 3 then d.latch pin else bank.outside d.now pin

def levels (d : Gpio) (n : ℕ) : Word :=
  (BitVec.ofBoolListLE ((List.range 32).map fun i => bank.level d (32 * n + i))).setWidth 32

def respond (d : Gpio) : Access → Word × Gpio
  | .read ⟨.gpio, 13⟩ => (bank.levels d 0, d)
  | .read ⟨.gpio, 14⟩ => (bank.levels d 1, d)
  | .read ⟨.gpio, i⟩ => (if i < 6 then d.select i else bank.elsewhere d.now, d)
  | .write ⟨.gpio, 7⟩ value => (0, d.drive 0 value true)
  | .write ⟨.gpio, 8⟩ value => (0, d.drive 1 value true)
  | .write ⟨.gpio, 10⟩ value => (0, d.drive 0 value false)
  | .write ⟨.gpio, 11⟩ value => (0, d.drive 1 value false)
  | .write ⟨.gpio, i⟩ value =>
    (0, if i < 6 then { d with select := Function.update d.select i value } else d)
  | _ => (bank.elsewhere d.now, d)

def device : Device Gpio Access Word := fun d request =>
  bank.respond { d with now := d.now + 1 } request

end GpioBank

-- ---------------------------------------------------------------------------
-- A table of pins
-- ---------------------------------------------------------------------------

/-- What the functions are for: each pin has a function and a latch. -/
@[ext] structure Pins where
  function : ℕ → BitVec 3
  latch : ℕ → Bool

inductive PinWrite
  | select (pin : ℕ) (function : BitVec 3)
  | drive (pins : List ℕ) (on : Bool)
  deriving DecidableEq, Repr

namespace PinWrite

def apply (p : Pins) : PinWrite → Pins
  | select pin function => { p with function := Function.update p.function pin function }
  | drive pins on => { p with latch := fun pin => if pin ∈ pins then on else p.latch pin }

def names : PinWrite → List ℕ
  | select pin _ => [pin]
  | drive pins _ => pins

theorem apply_unnamed {w : PinWrite} {pin : ℕ} (h : pin ∉ w.names) (p : Pins) :
    (w.apply p).function pin = p.function pin ∧ (w.apply p).latch pin = p.latch pin := by
  cases w with
  | select pin' function => exact ⟨Function.update_of_ne (List.ne_of_not_mem_cons h) _ _, rfl⟩
  | drive pins on => exact ⟨rfl, if_neg h⟩

end PinWrite

namespace Pins

def after (p : Pins) (ws : List PinWrite) : Pins := ws.foldl PinWrite.apply p

theorem after_append (p : Pins) (ws ws' : List PinWrite) :
    p.after (ws ++ ws') = (p.after ws).after ws' :=
  List.foldl_append

theorem after_unnamed {ws : List PinWrite} {pin : ℕ} (h : ∀ w ∈ ws, pin ∉ w.names) (p : Pins) :
    (p.after ws).function pin = p.function pin ∧ (p.after ws).latch pin = p.latch pin := by
  induction ws generalizing p with
  | nil => exact ⟨rfl, rfl⟩
  | cons w ws ih =>
    obtain ⟨hw, hws⟩ := List.forall_mem_cons.mp h
    have hrest := ih hws (w.apply p)
    have hfirst := PinWrite.apply_unnamed hw p
    exact ⟨hrest.1.trans hfirst.1, hrest.2.trans hfirst.2⟩

end Pins

def Gpio.pins (d : Gpio) : Pins := ⟨d.function, d.latch⟩

def masked (mask : Word) : List ℕ := (List.range 32).filter fun i => mask.getLsbD i

theorem mem_masked {mask : Word} {pin : ℕ} : pin ∈ masked mask ↔ mask.getLsbD pin = true := by
  rw [masked, List.mem_filter, List.mem_range]
  exact ⟨And.right, fun h => ⟨BitVec.lt_of_getLsbD h, h⟩⟩

-- ---------------------------------------------------------------------------
-- Registers and pins
-- ---------------------------------------------------------------------------

theorem getLsbD_function (d : Gpio) (pin : ℕ) {i : ℕ} (hi : i < 3) :
    (d.function pin).getLsbD i = (d.select (pin / 10)).getLsbD (pin % 10 * 3 + i) := by
  simp only [Gpio.function, BitVec.getLsbD_extractLsb', hi, decide_true, Bool.true_and]

theorem getLsbD_shifted (x : Word) (shift i : ℕ) (hi : i < 32) :
    (x <<< shift).getLsbD i = (decide (shift ≤ i) && x.getLsbD (i - shift)) := by
  by_cases h : shift ≤ i
  · rw [BitVec.getLsbD_shiftLeft]
    simp [hi, h, Nat.not_lt.mpr h]
  · rw [BitVec.getLsbD_shiftLeft]
    simp [h, Nat.lt_of_not_le h]

theorem select_pins (d : Gpio) {pin mode : Byte} {now : ℕ} :
    Gpio.pins ⟨Function.update d.select (pin.toNat / 10)
        ((d.select (pin.toNat / 10) &&& ~~~(gpioFselMask <<< (pin.toNat % 10 * 3))) |||
          (mode.setWidth 32 <<< (pin.toNat % 10 * 3) &&& (gpioFselMask <<< (pin.toNat % 10 * 3)))),
      d.latch, now⟩ = d.pins.after [.select pin.toNat (mode.setWidth 3)] := by
  refine Pins.ext (funext fun pin' => ?_) rfl
  change Gpio.function _ pin' = Function.update d.function pin.toNat (mode.setWidth 3) pin'
  apply BitVec.eq_of_getLsbD_eq
  intro i hi
  rw [getLsbD_function _ _ hi]
  change (Function.update d.select _ _ (pin' / 10)).getLsbD _ = _
  have hmask (j : ℕ) : gpioFselMask.getLsbD j = decide (j < 3) := by
    rw [show gpioFselMask = BitVec.ofNat 32 (2 ^ 3 - 1) from rfl, BitVec.getLsbD_ofNat,
      Nat.testBit_two_pow_sub_one]
    by_cases h : j < 3
    · simp [h, show j < 32 by omega]
    · simp [h]
  by_cases hword : pin' / 10 = pin.toNat / 10
  · rw [hword, Function.update_self, getLsbD_setBits, getLsbD_shifted _ _ _ (by omega), hmask,
      getLsbD_shifted _ _ _ (by omega)]
    by_cases hpin : pin' = pin.toNat
    · subst hpin
      rw [Function.update_self, if_pos (by simp [hi]), Nat.add_sub_cancel_left]
      simp [hi, show i < 32 by omega]
    · -- the bits of another pin of the word
      have hapart : ¬ (pin.toNat % 10 * 3 ≤ pin' % 10 * 3 + i ∧
          pin' % 10 * 3 + i - pin.toNat % 10 * 3 < 3) := by omega
      rw [Function.update_of_ne hpin, if_neg (by simpa using hapart),
        getLsbD_function _ _ hi, hword]
  · have hpin : pin' ≠ pin.toNat := fun h => hword (congrArg (· / 10) h)
    rw [Function.update_of_ne hword, Function.update_of_ne hpin, getLsbD_function _ _ hi]

theorem getLsbD_one_shifted {shift : ℕ} (hs : shift < 32) (i : ℕ) :
    ((1 : Word) <<< shift).getLsbD i = decide (i = shift) := by
  have htwo : (1 : Word) <<< shift = BitVec.twoPow 32 shift := (BitVec.twoPow_eq 32 shift).symm
  rw [htwo, BitVec.getLsbD_twoPow, decide_eq_true hs, Bool.true_and]
  exact decide_eq_decide.mpr eq_comm

theorem drive_pins (d : Gpio) (pin : ℕ) (on : Bool) :
    (d.drive (pin / 32) ((1 : Word) <<< (pin % 32)) on).pins = d.pins.after [.drive [pin] on] := by
  refine Pins.ext rfl (funext fun pin' => ?_)
  change (if _ then _ else _) = if pin' ∈ [pin] then on else d.latch pin'
  refine if_congr ?_ rfl rfl
  rw [getLsbD_one_shifted (Nat.mod_lt _ (by decide)), decide_eq_true_eq, List.mem_singleton]
  omega

theorem driveMulti_pins (d : Gpio) (mask : Word) (on : Bool) :
    (d.drive 0 mask on).pins = d.pins.after [.drive (masked mask) on] := by
  refine Pins.ext rfl (funext fun pin => ?_)
  change (if _ then _ else _) = if pin ∈ masked mask then on else d.latch pin
  refine if_congr ?_ rfl rfl
  rw [mem_masked]
  constructor
  · rintro ⟨hzero, hbit⟩
    rwa [Nat.mod_eq_of_lt (by omega)] at hbit
  · intro hbit
    have hlt := BitVec.lt_of_getLsbD hbit
    rw [Nat.mod_eq_of_lt hlt]
    exact ⟨by omega, hbit⟩

-- ---------------------------------------------------------------------------
-- Accesses
-- ---------------------------------------------------------------------------

def fselRegister (pin : Byte) : Register := ⟨.gpio, gpfsel0 / 4 + pin.toNat / 10⟩

section
variable {bank : GpioBank} {d : Gpio}

theorem device_select {k : ℕ} (hk : k < 6) :
    bank.device d (.read ⟨.gpio, gpfsel0 / 4 + k⟩) = (d.select k, { d with now := d.now + 1 }) ∧
      ∀ value, (bank.device d (.write ⟨.gpio, gpfsel0 / 4 + k⟩ value)).2 =
        ⟨Function.update d.select k value, d.latch, d.now + 1⟩ := by
  match k, hk with
  | 0, _ | 1, _ | 2, _ | 3, _ | 4, _ | 5, _ => exact ⟨rfl, fun _ => rfl⟩

theorem fsel_pins {pin mode : Byte} (hpin : pin.toNat < 54) :
    (bank.device d (.read (fselRegister pin))).2.pins = d.pins ∧
    (bank.device (bank.device d (.read (fselRegister pin))).2 (.write (fselRegister pin)
      (((bank.device d (.read (fselRegister pin))).1 &&& ~~~(gpioFselMask <<<
        (pin.toNat % 10 * 3))) |||
        (mode.setWidth 32 <<<
          (pin.toNat % 10 * 3) &&& (gpioFselMask <<< (pin.toNat % 10 * 3)))))).2.pins =
      d.pins.after [.select pin.toNat (mode.setWidth 3)] := by
  have hword : pin.toNat / 10 < 6 := by omega
  rw [fselRegister, (device_select hword).1, (device_select hword).2]
  exact ⟨rfl, select_pins d⟩

theorem driven_pins {pin : Byte} (hpin : pin.toNat < 54) :
    (bank.device d
        (.write ⟨.gpio, gpset0 / 4 + pin.toNat / 32⟩ ((1 : Word) <<< (pin.toNat % 32)))).2.pins =
        d.pins.after [.drive [pin.toNat] true] ∧
      (bank.device d
        (.write ⟨.gpio, gpclr0 / 4 + pin.toNat / 32⟩ ((1 : Word) <<< (pin.toNat % 32)))).2.pins =
        d.pins.after [.drive [pin.toNat] false] := by
  have hpair : pin.toNat / 32 = 0 ∨ pin.toNat / 32 = 1 := by omega
  have hset := drive_pins d pin.toNat true
  have hclr := drive_pins d pin.toNat false
  rcases hpair with h | h
  · rw [h] at hset hclr ⊢
    exact ⟨hset, hclr⟩
  · rw [h] at hset hclr ⊢
    exact ⟨hset, hclr⟩

theorem lev_device {pin : Byte} (hpin : pin.toNat < 54) :
    (bank.device d (.read ⟨.gpio, gplev0 / 4 + pin.toNat / 32⟩)).2.pins = d.pins ∧
      ((bank.device d (.read ⟨.gpio, gplev0 / 4 + pin.toNat / 32⟩)).1 &&& ((1 : Word) <<<
        (pin.toNat % 32)) ≠ 0 ↔
        bank.level { d with now := d.now + 1 } pin.toNat = true) := by
  have hbit (n : ℕ) : (bank.levels { d with now := d.now + 1 } n).getLsbD (pin.toNat % 32) =
      bank.level { d with now := d.now + 1 } (32 * n + pin.toNat % 32) := by
    have hlt : pin.toNat % 32 < 32 := Nat.mod_lt _ (by decide)
    rw [GpioBank.levels, BitVec.getLsbD_setWidth, BitVec.getLsbD_ofBoolListLE,
      List.getD_eq_getElem?_getD,
      List.getElem?_map, List.getElem?_range hlt]
    simp [hlt]
  have htest (w : Word) : w &&& ((1 : Word) <<< (pin.toNat % 32)) ≠ 0 ↔
      w.getLsbD (pin.toNat % 32) = true := by
    have hlt : pin.toNat % 32 < 32 := Nat.mod_lt _ (by decide)
    have htwo : (1 : Word) <<< (pin.toNat % 32) = BitVec.twoPow 32 (pin.toNat % 32) :=
      (BitVec.twoPow_eq 32 _).symm
    rw [htwo, BitVec.and_twoPow]
    cases w.getLsbD (pin.toNat % 32) with
    | false => simp
    | true =>
      refine ⟨fun _ => rfl, fun _ h0 => ?_⟩
      have hzero := congrArg (fun y => BitVec.getLsbD y (pin.toNat % 32)) h0
      simp [hlt] at hzero
  have hpair : pin.toNat / 32 = 0 ∨ pin.toNat / 32 = 1 := by omega
  rw [htest]
  rcases hpair with h | h
  · rw [h]
    refine ⟨rfl, ?_⟩
    change (bank.levels _ 0).getLsbD _ = true ↔ _
    rw [hbit, show 32 * 0 + pin.toNat % 32 = pin.toNat by omega]
  · rw [h]
    refine ⟨rfl, ?_⟩
    change (bank.levels _ 1).getLsbD _ = true ↔ _
    rw [hbit, show 32 * 1 + pin.toNat % 32 = pin.toNat by omega]

end

-- ---------------------------------------------------------------------------
-- Calls
-- ---------------------------------------------------------------------------

def Drives (bank : GpioBank) (m : Driver Unit) (ws : List PinWrite) : Prop :=
  ∀ lib d, lib.mapped .gpio = true →
    Triple bank.device m lib d (fun _ lib' d' => lib = lib' ∧ d'.pins = d.pins.after ws)
      (fun d' => ∃ done, done <+: ws ∧ d'.pins = d.pins.after done)

namespace Drives

variable {bank : GpioBank} {m n : Driver Unit} {ws ws' : List PinWrite}

theorem nil : Drives bank (pure ()) [] := fun _ _ _ => .pure ⟨rfl, rfl⟩

theorem seq (hm : Drives bank m ws) (hn : Drives bank n ws') :
    Drives bank (do m; n) (ws ++ ws') := by
  intro lib d hgpio
  refine ((hm lib d hgpio).mono (fun _ _ _ => id) ?_).bind ?_
  · rintro d' ⟨done, hdone, hd'⟩
    exact ⟨done, hdone.trans (List.prefix_append ws ws'), hd'⟩
  · rintro _ _ d₁ ⟨rfl, hd₁⟩
    refine (hn lib d₁ hgpio).mono ?_ ?_
    · rintro _ _ d' ⟨rfl, hd'⟩
      exact ⟨rfl, by rw [hd', hd₁, Pins.after_append]⟩
    · rintro d' ⟨done, hdone, hd'⟩
      refine ⟨ws ++ done, (List.prefix_append_right_inj ws).mpr hdone, ?_⟩
      rw [hd', hd₁, Pins.after_append]

theorem write {paddr : Register} {value : Word} {w : PinWrite} (hblock : paddr.block = .gpio)
    (h : ∀ d, (bank.device d (.write paddr value)).2.pins = d.pins.after [w]) :
    Drives bank (periWrite paddr value) [w] := by
  intro lib d hgpio
  refine (periWrite_triple (by rw [hblock]; exact hgpio) ⟨[], List.nil_prefix, rfl⟩).weaken ?_
  rintro _ _ d' ⟨rfl, rfl⟩
  exact ⟨rfl, h d⟩

end Drives

section
variable {bank : GpioBank} {pin : Byte}

theorem gpioFsel_drives (hpin : pin.toNat < 54) (mode : Byte) :
    Drives bank (gpioFsel pin mode) [.select pin.toNat (mode.setWidth 3)] := by
  intro lib d hgpio
  have hread := (@fsel_pins bank d pin mode hpin).1
  refine (periSetBits_triple hgpio ⟨[], List.nil_prefix, rfl⟩ ⟨[], List.nil_prefix, hread⟩).weaken
    ?_
  rintro _ _ d' ⟨rfl, rfl⟩
  exact ⟨rfl, (fsel_pins hpin).2⟩

theorem gpioSet_drives (hpin : pin.toNat < 54) :
    Drives bank (gpioSet pin) [.drive [pin.toNat] true] :=
  .write rfl fun _ => (driven_pins hpin).1

theorem gpioClr_drives (hpin : pin.toNat < 54) :
    Drives bank (gpioClr pin) [.drive [pin.toNat] false] :=
  .write rfl fun _ => (driven_pins hpin).2

theorem gpioSetMulti_drives (mask : Word) :
    Drives bank (gpioSetMulti mask) [.drive (masked mask) true] :=
  .write rfl fun d => driveMulti_pins d mask true

theorem gpioClrMulti_drives (mask : Word) :
    Drives bank (gpioClrMulti mask) [.drive (masked mask) false] :=
  .write rfl fun d => driveMulti_pins d mask false

end

inductive GpioCall
  | fsel (pin mode : Byte)
  | set (pin : Byte)
  | clr (pin : Byte)
  | setMulti (mask : Word)
  | clrMulti (mask : Word)
  | write (pin on : Byte)
  | writeMulti (mask : Word) (on : Byte)
  | writeMask (value mask : Word)
  deriving DecidableEq, Repr

namespace GpioCall

/-- There are 54 pins. The functions do not check it: past them are other
registers. -/
def Valid : GpioCall → Prop
  | fsel pin _ | set pin | clr pin | write pin _ => pin.toNat < 54
  | _ => True

def perform : GpioCall → Driver Unit
  | fsel pin mode => gpioFsel pin mode
  | set pin => gpioSet pin
  | clr pin => gpioClr pin
  | setMulti mask => gpioSetMulti mask
  | clrMulti mask => gpioClrMulti mask
  | write pin on => gpioWrite pin on
  | writeMulti mask on => gpioWriteMulti mask on
  | writeMask value mask => gpioWriteMask value mask

def writes : GpioCall → List PinWrite
  | fsel pin mode => [.select pin.toNat (mode.setWidth 3)]
  | set pin => [.drive [pin.toNat] true]
  | clr pin => [.drive [pin.toNat] false]
  | setMulti mask => [.drive (masked mask) true]
  | clrMulti mask => [.drive (masked mask) false]
  | write pin on => [.drive [pin.toNat] (on ≠ 0)]
  | writeMulti mask on => [.drive (masked mask) (on ≠ 0)]
  | writeMask value mask =>
    [.drive (masked (value &&& mask)) true, .drive (masked (~~~value &&& mask)) false]

theorem drives {bank : GpioBank} {call : GpioCall} (h : call.Valid) :
    Drives bank call.perform call.writes := by
  cases call with
  | fsel pin mode => exact gpioFsel_drives h mode
  | set pin => exact gpioSet_drives h
  | clr pin => exact gpioClr_drives h
  | setMulti mask => exact gpioSetMulti_drives mask
  | clrMulti mask => exact gpioClrMulti_drives mask
  | write pin on =>
    simp only [perform, writes, gpioWrite]
    by_cases hon : on ≠ 0
    · rw [if_pos hon, decide_eq_true hon]
      exact gpioSet_drives h
    · rw [if_neg hon, decide_eq_false hon]
      exact gpioClr_drives h
  | writeMulti mask on =>
    simp only [perform, writes, gpioWriteMulti]
    by_cases hon : on ≠ 0
    · rw [if_pos hon, decide_eq_true hon]
      exact gpioSetMulti_drives mask
    · rw [if_neg hon, decide_eq_false hon]
      exact gpioClrMulti_drives mask
  | writeMask value mask => exact (gpioSetMulti_drives _).seq (gpioClrMulti_drives _)

theorem forM_drives {bank : GpioBank} {calls : List GpioCall} (h : ∀ call ∈ calls, call.Valid) :
    Drives bank (calls.forM perform) (calls.flatMap writes) := by
  induction calls with
  | nil => exact .nil
  | cons call calls ih =>
    obtain ⟨hcall, hcalls⟩ := List.forall_mem_cons.mp h
    exact (drives hcall).seq (ih hcalls)

end GpioCall

theorem gpioLev_triple {bank : GpioBank} {lib : Bcm2835} {d : Gpio} {pin : Byte}
    (hpin : pin.toNat < 54)
    (hgpio : lib.mapped .gpio = true) {cut : Gpio → Prop} (hc : cut d) :
    Triple bank.device (gpioLev pin) lib d
      (fun level lib' d' => lib = lib' ∧ d'.pins = d.pins ∧
        (d.function pin.toNat = gpioFselOutp.setWidth 3 →
          level = if d.latch pin.toNat = true then high else low)) cut := by
  obtain ⟨hpins, hlevel⟩ := @lev_device bank d pin hpin
  refine (@periRead_triple _ _ _ _ _ ⟨.gpio, gplev0 / 4 + pin.toNat / 32⟩ hgpio hc).bind ?_
  rintro _ _ d' ⟨rfl, rfl, rfl⟩
  refine .pure ⟨rfl, hpins, fun hout => ?_⟩
  have hlatch : bank.level { d with now := d.now + 1 } pin.toNat = d.latch pin.toNat := if_pos hout
  rw [hlatch] at hlevel
  exact if_congr hlevel rfl rfl

/-- After any calls the pins are what the calls' writes make of them, one after
the other, and an interruption leaves them after a beginning of the writes. A
pin that no call names is what it was, and an output is read as it was driven. -/
theorem calls_pins (bank : GpioBank) {calls : List GpioCall} (hcalls : ∀ call ∈ calls, call.Valid)
    {pin : Byte} (hpin : pin.toNat < 54) {lib : Bcm2835} (hgpio : lib.mapped .gpio = true)
    (d : Gpio) :
    Triple bank.device
      (do
        calls.forM GpioCall.perform
        gpioLev pin)
      lib d
      (fun level lib' d' => lib = lib' ∧ d'.pins = d.pins.after (calls.flatMap GpioCall.writes) ∧
        (∀ other, (∀ call ∈ calls, ∀ w ∈ call.writes, other ∉ w.names) →
          d'.function other = d.function other ∧ d'.latch other = d.latch other) ∧
        (d'.function pin.toNat = gpioFselOutp.setWidth 3 →
          level = if d'.latch pin.toNat = true then high else low))
      (fun d' => ∃ done, done <+: calls.flatMap GpioCall.writes ∧ d'.pins = d.pins.after done) := by
  refine (GpioCall.forM_drives hcalls lib d hgpio).bind ?_
  rintro _ _ d₁ ⟨rfl, hd₁⟩
  refine (gpioLev_triple hpin hgpio ⟨_, List.prefix_rfl, hd₁⟩).weaken ?_
  rintro level _ d' ⟨rfl, hd', hlevel⟩
  have hpins : d'.pins = d.pins.after (calls.flatMap GpioCall.writes) := hd'.trans hd₁
  have hfunction : d'.function = d₁.function := congrArg Pins.function hd'
  have hlatch : d'.latch = d₁.latch := congrArg Pins.latch hd'
  refine ⟨rfl, hpins, fun other hother => ?_, ?_⟩
  · have hunnamed : ∀ w ∈ calls.flatMap GpioCall.writes, other ∉ w.names := fun w hw =>
      have ⟨call, hcall, hw⟩ := List.mem_flatMap.mp hw
      hother call hcall w hw
    have hsame := Pins.after_unnamed hunnamed d.pins
    rw [← hpins] at hsame
    exact hsame
  · rw [hfunction, hlatch]
    exact hlevel

theorem calls_pins_reset :
    Triple (GpioBank.device ⟨fun _ _ => true, fun _ => 0⟩)
      (do
        [GpioCall.fsel 22 gpioFselOutp, .clr 22].forM GpioCall.perform
        gpioLev 22)
      ⟨fun _ => true, 1, fun _ => 0, 0, 0⟩ ⟨fun _ => 0, fun _ => true, 0⟩
      (fun level lib' d' => ⟨fun _ => true, 1, fun _ => 0, 0, 0⟩ = lib' ∧
        d'.pins = (Gpio.pins ⟨fun _ => 0, fun _ => true, 0⟩).after
          [.select 22 1, .drive [22] false] ∧
        (∀ other, (∀ call ∈ [GpioCall.fsel 22 gpioFselOutp, .clr 22], ∀ w ∈ call.writes,
          other ∉ w.names) →
          d'.function other = Gpio.function ⟨fun _ => 0, fun _ => true, 0⟩ other ∧
            d'.latch other = true) ∧
        (d'.function 22 = gpioFselOutp.setWidth 3 → level = if d'.latch 22 =
          true then high else low))
      (fun d' => ∃ done, done <+: [.select 22 1, .drive [22] false] ∧
        d'.pins = (Gpio.pins ⟨fun _ => 0, fun _ => true, 0⟩).after done) :=
  @calls_pins ⟨fun _ _ => true, fun _ => 0⟩ [.fsel 22 gpioFselOutp, .clr 22]
    (by simp [GpioCall.Valid]) 22
    (by decide) ⟨fun _ => true, 1, fun _ => 0, 0, 0⟩ rfl ⟨fun _ => 0, fun _ => true, 0⟩

end LineFollower.Bcm2835
