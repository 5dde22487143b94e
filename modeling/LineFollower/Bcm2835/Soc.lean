import LineFollower.Lib.View
import LineFollower.Bcm2835.Controller
import LineFollower.Bcm2835.Gpio
import LineFollower.Bcm2835.Timer

/-!
# The blocks together

The pins, the SPI controller and the timer as one device. A pin of it is the
reset line of the slaves: while it is low, and until they are awake again, they
do not answer as they do else. What a low level makes of them is left open, but
that it may depend on how long it was.

A program that keeps to one block sees that block alone, while the slaves are
awake (`shows_spi0`) or while it waits (`shows_st`).
-/

namespace LineFollower.Bcm2835

open Lib Lib.Exchange

def gpioBusyIn : Byte := 27
def gpioResetOut : Byte := 22

-- ---------------------------------------------------------------------------
-- Opening the library
-- ---------------------------------------------------------------------------

/-- What `bcm2835_init` gets of the operating system. -/
structure System where
  /-- `geteuid() == 0` -/
  root : Bool
  /-- `/dev/mem`, or else `/dev/gpiomem`, can be opened. -/
  opens : Bool
  maps : Bool
  deriving DecidableEq, Repr

/-- Without `/dev/mem` there is nothing but the pins. -/
def init (sys : System) (self : Bcm2835) : ℤ × Bcm2835 :=
  if sys.opens && sys.maps then
    (1, { self with
      mapped := fun block => if sys.root then true else block == .gpio || self.mapped block })
  else (0, { self with mapped := fun _ => false })

def spiBegin : Driver ℤ := do
  let self ← getVars
  if self.mapped .spi0 = false then return 0
  else do
    gpioFsel 7 gpioFselAlt0
    gpioFsel 8 gpioFselAlt0
    gpioFsel 9 gpioFselAlt0
    gpioFsel 10 gpioFselAlt0
    gpioFsel 11 gpioFselAlt0
    periWrite spi0Cs 0
    periWriteNb spi0Cs spi0CsClear
    return 1

-- ---------------------------------------------------------------------------
-- The device
-- ---------------------------------------------------------------------------

/-- A sleep is an access to the timer. -/
def Access.block : Access → Block
  | .read paddr => paddr.block
  | .write paddr _ => paddr.block
  | .nanosleep _ _ => .st

def Access.On (block : Block) (request : Access) : Prop := request.block = block

structure Hardware (S : Type) where
  bank : GpioBank
  timer : SystemTimer
  controller : Controller S
  /-- The slaves while they are not awake. -/
  asleep : Bus S
  /-- What so many microseconds of a low level make of them. -/
  raised : ℕ → S → S
  /-- How long they take to wake up. -/
  wakeTime : ℕ

structure Soc (S : Type) where
  gpio : Gpio
  spi0 : Spi0 S
  clock : Clock
  /-- When the level of the reset line has changed last. -/
  since : ℕ

variable {S : Type}

namespace Hardware

variable (hw : Hardware S)

def resetLine (d : Gpio) : Bool := hw.bank.level d gpioResetOut.toNat

def Awake (s : Soc S) : Prop := hw.resetLine s.gpio = true ∧ s.since + hw.wakeTime ≤ s.clock.micros

instance (s : Soc S) : Decidable (hw.Awake s) := inferInstanceAs (Decidable (_ ∧ _))

def wire (clock : Clock) (next : Gpio) (s : Soc S) : Soc S :=
  if hw.resetLine next = hw.resetLine s.gpio then { s with gpio := next, clock }
  else
    { gpio := next
      clock
      since := clock.micros
      spi0 :=
        if hw.resetLine next = true then
          { s.spi0 with port :=
            { s.spi0.port with slave := hw.raised (clock.micros - s.since) s.spi0.port.slave } }
        else s.spi0 }

def controllerAt (s : Soc S) : Controller S :=
  if hw.Awake s then hw.controller else { hw.controller with bus := hw.asleep }

def device : Device (Soc S) Access Word := fun s request =>
  let clock := hw.timer.advance s.clock
  match request.block with
  | .gpio =>
    let next := hw.bank.device s.gpio request
    (next.1, hw.wire clock next.2 s)
  | .spi0 =>
    let next := (hw.controllerAt s).device s.spi0 request
    (next.1, { s with spi0 := next.2, clock })
  | .st => ((hw.timer.device s.clock request).1, { s with clock })

theorem device_gpio (s : Soc S) {request : Access} (h : request.block = .gpio) :
    hw.device s request =
      ((hw.bank.device s.gpio request).1,
        hw.wire (hw.timer.advance s.clock) (hw.bank.device s.gpio request).2 s) := by
  simp only [device, h]

theorem device_spi0 (s : Soc S) {request : Access} (h : request.block = .spi0) :
    hw.device s request =
      (((hw.controllerAt s).device s.spi0 request).1,
        { s with
          spi0 := ((hw.controllerAt s).device s.spi0 request).2
          clock := hw.timer.advance s.clock }) := by
  simp only [device, h]

theorem device_st (s : Soc S) {request : Access} (h : request.block = .st) :
    hw.device s request =
      ((hw.timer.device s.clock request).1, { s with clock := hw.timer.advance s.clock }) := by
  simp only [device, h]

theorem device_clock (s : Soc S) (request : Access) :
    (hw.device s request).2.clock = hw.timer.advance s.clock := by
  cases h : request.block with
  | gpio =>
    rw [device_gpio hw s h, wire]
    split <;> rfl
  | spi0 => rw [device_spi0 hw s h]
  | st => rw [device_st hw s h]

theorem shows_spi0 (g : Gpio) (n : ℕ) :
    Shows hw.device hw.controller.device Soc.spi0 (Access.On .spi0)
      (fun s => hw.Awake s ∧ s.gpio = g ∧ s.since = n) := by
  rintro s request ⟨hawake, rfl, rfl⟩ hblock
  rw [device_spi0 hw s hblock, controllerAt, if_pos hawake]
  refine ⟨rfl, rfl, ⟨hawake.1, ?_⟩, rfl, rfl⟩
  exact hawake.2.trans (SystemTimer.Passed.advance s.clock).le

theorem shows_st (g : Gpio) (p : Spi0 S) (n : ℕ) :
    Shows hw.device hw.timer.device Soc.clock (Access.On .st)
      (fun s => s.gpio = g ∧ s.spi0 = p ∧ s.since = n) := by
  rintro s request ⟨rfl, rfl, rfl⟩ hblock
  rw [device_st hw s hblock]
  exact ⟨rfl, rfl, rfl, rfl, rfl⟩

end Hardware

-- ---------------------------------------------------------------------------
-- Programs that keep to a block
-- ---------------------------------------------------------------------------

theorem access_asks (paddr : Register) {request : Access} (h : request.block = paddr.block) :
    Asks (Access.On paddr.block) (access paddr request) :=
  .bind .getVars fun _ => .ite (.exchange h) (.fault _)

theorem periRead_asks (paddr : Register) : Asks (Access.On paddr.block) (periRead paddr) :=
  access_asks paddr rfl

theorem periWrite_asks (paddr : Register) (value : Word) :
    Asks (Access.On paddr.block) (periWrite paddr value) :=
  (access_asks paddr rfl).seq (.pure ())

theorem periSetBits_asks (paddr : Register) (value mask : Word) :
    Asks (Access.On paddr.block) (periSetBits paddr value mask) :=
  (periRead_asks paddr).bind fun _ => periWrite_asks paddr _

theorem stRead_asks : Asks (Access.On .st) stRead := by
  have hhi : Asks (Access.On .st) (periRead stChi) := periRead_asks stChi
  have hlo : Asks (Access.On .st) (periRead stClo) := periRead_asks stClo
  refine .bind .getVars fun _ => .ite (.pure _) ?_
  exact hhi.bind fun _ => hlo.bind fun _ => hhi.bind fun _ =>
    .ite (.pure _) (hlo.bind fun _ => .pure _)

theorem delayMicroseconds_asks (host : Host) (micros : BitVec 64) :
    Asks (Access.On .st) (delayMicroseconds host micros) := by
  have hsleep (nsec : ℤ) : Asks (Access.On .st) (nanosleep 0 nsec) := by
    have hask : Access.On .st (.nanosleep 0 nsec) := rfl
    exact (Asks.exchange hask).seq (.pure ())
  refine stRead_asks.bind fun _ => .ite (hsleep _) ?_
  exact Asks.seq (.ite (hsleep _) (.pure ())) (stRead_asks.bind fun _ => .pure _).repeatWhile

theorem spiTransfern_asks (buf : ℕ) (len : Word) :
    Asks (Access.On .spi0) (spiTransfern buf len) := by
  have hread : Asks (Access.On .spi0) (periRead spi0Cs) := periRead_asks spi0Cs
  have hbits (value mask : Word) : Asks (Access.On .spi0) (periSetBits spi0Cs value mask) :=
    periSetBits_asks spi0Cs value mask
  have hpush (value : Word) : Asks (Access.On .spi0) (periWriteNb spi0Fifo value) :=
    periWrite_asks spi0Fifo value
  have hpop : Asks (Access.On .spi0) (periReadNb spi0Fifo) := periRead_asks spi0Fifo
  have htx (tbuf len : ℕ) : Asks (Access.On .spi0) (txTurn tbuf len) := by
    refine hread.bind fun _ => .bind .getVars fun _ => .ite ?_ (.pure _)
    exact (hpush _).seq (.seq (.modifyVars _) (.pure _))
  have hrx (rbuf len : ℕ) : Asks (Access.On .spi0) (rxTurn rbuf len) := by
    refine hread.bind fun _ => .bind .getVars fun _ => .ite ?_ (.pure _)
    exact hpop.bind fun _ => .seq (.modifyVars _) (.pure _)
  have hturn (tbuf rbuf len : ℕ) : Asks (Access.On .spi0) (transferTurn tbuf rbuf len) := by
    refine .bind .getVars fun _ => .ite ?_ (.pure _)
    exact (htx tbuf len).repeatWhile.seq ((hrx rbuf len).repeatWhile.seq (.pure _))
  refine .seq (.modifyVars _) (.seq (.seq (hbits _ _) (hbits _ _)) ?_)
  exact (hturn _ _ _).repeatWhile.seq (.seq (hread.bind fun _ => .pure _).repeatWhile (hbits _ _))

-- ---------------------------------------------------------------------------
-- Programs for the pins
-- ---------------------------------------------------------------------------

namespace Hardware

variable {hw : Hardware S}

theorem wire_gpio (clock : Clock) (next : Gpio) (s : Soc S) :
    (hw.wire clock next s).gpio = next := by
  unfold wire
  split <;> rfl

theorem wire_ta (clock : Clock) (next : Gpio) (s : Soc S) :
    (hw.wire clock next s).spi0.ta = s.spi0.ta := by
  unfold wire
  split
  · rfl
  · by_cases h : hw.resetLine next = true <;> simp only [h, ↓reduceIte] <;> rfl

theorem resetLine_output {d : Gpio} (h : d.function gpioResetOut.toNat = gpioFselOutp.setWidth 3) :
    hw.resetLine d = d.latch gpioResetOut.toNat :=
  if_pos h

/-- After `k` accesses the pins have been written to, and no transfer is begun. -/
structure Moved (hw : Hardware S) (k : ℕ) (ws : List PinWrite) (s s' : Soc S) : Prop where
  pins : s'.gpio.pins = s.gpio.pins.after ws
  clock : hw.timer.Passed k s.clock s'.clock
  ta : s.spi0.ta = false → s'.spi0.ta = false

namespace Moved

variable {k m : ℕ} {ws ws' : List PinWrite} {s s' s'' : Soc S}

theorem trans (h : hw.Moved k ws s s') (h' : hw.Moved m ws' s' s'') :
    hw.Moved (k + m) (ws ++ ws') s s'' where
  pins := by rw [h'.pins, h.pins, Pins.after_append]
  clock := h.clock.trans h'.clock
  ta := h'.ta ∘ h.ta

theorem access (s : Soc S) {request : Access} (hblock : request.block = .gpio)
    (h : (hw.bank.device s.gpio request).2.pins = s.gpio.pins.after ws) :
    hw.Moved 1 ws s (hw.device s request).2 where
  pins := by rw [device_gpio hw s hblock, wire_gpio, h]
  clock := by
    rw [device_clock]
    exact .advance s.clock
  ta := by
    rw [device_gpio hw s hblock, wire_ta]
    exact id

end Moved

def Moves (hw : Hardware S) (m : Driver Unit) (k : ℕ) (ws : List PinWrite) : Prop :=
  ∀ lib s, lib.mapped .gpio = true →
    Triple hw.device m lib s (fun _ lib' s' => lib = lib' ∧ hw.Moved k ws s s') (fun _ => True)

theorem Moves.seq {m n : Driver Unit} {k l : ℕ} {ws ws' : List PinWrite} (hm : hw.Moves m k ws)
    (hn : hw.Moves n l ws') : hw.Moves (do m; n) (k + l) (ws ++ ws') := by
  intro lib s hgpio
  refine (hm lib s hgpio).bind ?_
  rintro _ _ s₁ ⟨rfl, h₁⟩
  refine (hn lib s₁ hgpio).weaken ?_
  rintro _ _ s' ⟨rfl, h'⟩
  exact ⟨rfl, h₁.trans h'⟩

theorem gpioFsel_moves {pin : Byte} (hpin : pin.toNat < 54) (mode : Byte) :
    hw.Moves (gpioFsel pin mode) 2 [.select pin.toNat (mode.setWidth 3)] := by
  intro lib s hgpio
  refine (periSetBits_triple hgpio trivial trivial).weaken ?_
  rintro _ _ s' ⟨rfl, rfl⟩
  refine ⟨rfl, ?_⟩
  obtain ⟨hread, hwrite⟩ := @fsel_pins hw.bank s.gpio pin mode hpin
  have hgpio₁ : (hw.device s (.read (fselRegister pin))).2.gpio =
      (hw.bank.device s.gpio (.read (fselRegister pin))).2 := by
    rw [device_gpio hw s rfl, wire_gpio]
  have hanswer : (hw.device s (.read (fselRegister pin))).1 =
      (hw.bank.device s.gpio (.read (fselRegister pin))).1 := by rw [device_gpio hw s rfl]
  have h₁ : hw.Moved 1 [] s (hw.device s (.read (fselRegister pin))).2 := .access s rfl hread
  have hpins : (hw.device s (.read (fselRegister pin))).2.gpio.pins = s.gpio.pins := h₁.pins
  rw [← hgpio₁, ← hanswer, ← hpins] at hwrite
  exact h₁.trans (.access _ rfl hwrite)

theorem gpioSet_moves {pin : Byte} (hpin : pin.toNat < 54) :
    hw.Moves (gpioSet pin) 1 [.drive [pin.toNat] true] := by
  intro lib s hgpio
  refine (periWrite_triple hgpio trivial).weaken ?_
  rintro _ _ s' ⟨rfl, rfl⟩
  exact ⟨rfl, .access s rfl (driven_pins hpin).1⟩

theorem gpioClr_moves {pin : Byte} (hpin : pin.toNat < 54) :
    hw.Moves (gpioClr pin) 1 [.drive [pin.toNat] false] := by
  intro lib s hgpio
  refine (periWrite_triple hgpio trivial).weaken ?_
  rintro _ _ s' ⟨rfl, rfl⟩
  exact ⟨rfl, .access s rfl (driven_pins hpin).2⟩

def spiPins : List PinWrite :=
  [.select 7 4, .select 8 4, .select 9 4, .select 10 4, .select 11 4]

theorem clearCs_triple {lib : Bcm2835} {s : Soc S} (hspi : lib.mapped .spi0 = true) {value : Word}
    (hvalue : (value &&& controlMask).getLsbD 7 = false) :
    Triple hw.device (periWrite spi0Cs value) lib s
      (fun _ lib' s' => lib = lib' ∧ hw.Moved 1 [] s s' ∧ s'.spi0.ta = false) (fun _ => True) := by
  have hmap : lib.mapped spi0Cs.block = true := hspi
  refine (periWrite_triple hmap trivial).weaken ?_
  rintro _ _ s' ⟨rfl, rfl⟩
  have hta : (hw.device s (.write spi0Cs value)).2.spi0.ta = false := by
    rw [device_spi0 hw s rfl]
    exact hvalue
  refine ⟨rfl, ⟨?_, ?_, fun _ => hta⟩, hta⟩
  · rw [device_spi0 hw s rfl]
    rfl
  · rw [device_clock]
    exact .advance s.clock

theorem spiBegin_triple {lib : Bcm2835} {s : Soc S} (hgpio : lib.mapped .gpio = true)
    (hspi : lib.mapped .spi0 = true) :
    Triple hw.device spiBegin lib s
      (fun ok lib' s' => lib = lib' ∧ ok = 1 ∧ hw.Moved 12 spiPins s s' ∧ s'.spi0.ta = false)
      (fun _ => True) := by
  have hfsel {pin : Byte} (hpin : pin.toNat < 54) :
      hw.Moves (gpioFsel pin gpioFselAlt0) 2 [.select pin.toNat (gpioFselAlt0.setWidth 3)] :=
    gpioFsel_moves hpin _
  have hpins := (@hfsel 7 (by decide)).seq ((@hfsel 8 (by decide)).seq ((@hfsel 9 (by decide)).seq
    ((@hfsel 10 (by decide)).seq (@hfsel 11 (by decide)))))
  have hunmapped : ¬ lib.mapped .spi0 = false := by
    rw [hspi]
    exact Bool.noConfusion
  refine Triple.getVars_bind ?_
  rw [if_neg hunmapped]
  have hall : Triple hw.device
      (do
        (do
          gpioFsel 7 gpioFselAlt0
          gpioFsel 8 gpioFselAlt0
          gpioFsel 9 gpioFselAlt0
          gpioFsel 10 gpioFselAlt0
          gpioFsel 11 gpioFselAlt0)
        periWrite spi0Cs 0
        periWriteNb spi0Cs spi0CsClear
        return 1 : Driver ℤ) lib s
      (fun ok lib' s' => lib = lib' ∧ ok = 1 ∧ hw.Moved 12 spiPins s s' ∧ s'.spi0.ta = false)
      (fun _ => True) := by
    refine (hpins lib s hgpio).bind ?_
    rintro _ _ s₁ ⟨rfl, h₁⟩
    refine (clearCs_triple hspi (by decide)).seq ?_
    rintro _ _ s₂ ⟨rfl, h₂, -⟩
    refine (clearCs_triple hspi (by decide)).seq ?_
    rintro _ _ s₃ ⟨rfl, h₃, hta⟩
    exact .pure ⟨rfl, rfl, h₁.trans (h₂.trans h₃), hta⟩
  simpa only [bind_assoc] using hall

end Hardware

end LineFollower.Bcm2835
