import LineFollower.Bcm2835.Spi
import LineFollower.Lib.Serial
import LineFollower.Lib.Triple

/-!
# The SPI controller

The documented behaviour of the SPI0 registers, as far as the polled transfers
use it. While a transfer is active the controller shifts bytes out of the
transmit queue to the slave on the selected line, and stops when there is no
room for an answer. TXD, RXD and DONE say where the bytes are. Setting a CLEAR
bit empties its queue; clearing TA drops the byte in the shifter and releases
the chip select.

How fast the controller is beside the program is left open: `pace n` is how
many steps it makes before the program's access number `n`, and all that is
known of it is that it does not stop for ever (`Fair`). So are the room
of the queues, the slaves, and what an empty queue and the other registers are
read as.
-/

namespace LineFollower.Bcm2835

open Lib Lib.Exchange

/-- How the line is driven: which chip select, in which mode, at which speed. -/
structure Line where
  chipSelect : BitVec 2
  dataMode : BitVec 2
  divider : BitVec 16
  deriving DecidableEq, Repr

/-- The slaves: a byte in and out, and the end of the chip select. -/
structure Bus (S : Type) where
  shift : Line → S → Byte → Byte × S
  release : Line → S → S

/-- A slave that answers with the byte before. -/
def Bus.register : Bus Byte := ⟨fun _ s b => (s, b), fun _ => id⟩

structure Controller (S : Type) where
  bus : Bus S
  txRoom : ℕ
  rxRoom : ℕ
  pace : ℕ → ℕ
  /-- RXF and RXR, by the bytes that wait. -/
  level : ℕ → Word
  /-- What an empty queue is read as. -/
  underrun : Word
  /-- What is read elsewhere, by the number of the access. -/
  elsewhere : ℕ → Word
  txRoom_pos : 0 < txRoom
  rxRoom_pos : 0 < rxRoom
  fair : Fair pace

structure Spi0 (S : Type) where
  control : Word
  clk : Word
  port : Port S Byte
  /-- The accesses so far. -/
  now : ℕ

/-- The bits of CS that are settings: neither a flag nor a CLEAR bit. -/
def controlMask : Word :=
  ~~~(spi0CsRxf ||| spi0CsRxr ||| spi0CsTxd ||| spi0CsRxd ||| spi0CsDone ||| spi0CsClear)

variable {S : Type}

namespace Spi0

def ta (d : Spi0 S) : Bool := d.control.getLsbD 7

def line (d : Spi0 S) : Line :=
  ⟨d.control.extractLsb' 0 2, d.control.extractLsb' 2 2, d.clk.setWidth 16⟩

theorem line_congr {d d' : Spi0 S} (h : ∀ i < 4, d'.control.getLsbD i = d.control.getLsbD i)
    (hclk : d'.clk = d.clk) : d'.line = d.line := by
  simp only [line, hclk, Line.mk.injEq, and_true]
  constructor
  · apply BitVec.eq_of_getLsbD_eq
    intro i hi
    simp only [BitVec.getLsbD_extractLsb', hi, decide_true, Bool.true_and]
    exact h (0 + i) (by omega)
  · apply BitVec.eq_of_getLsbD_eq
    intro i hi
    simp only [BitVec.getLsbD_extractLsb', hi, decide_true, Bool.true_and]
    exact h (2 + i) (by omega)

end Spi0

namespace Controller

variable (hw : Controller S)

def status (d : Spi0 S) : Word :=
  (if d.port.tx.length < hw.txRoom then spi0CsTxd else 0) |||
    (if d.port.rx ≠ [] then spi0CsRxd else 0) |||
    (if d.ta = true ∧ d.port.tx = [] ∧ d.port.shifter = none then spi0CsDone else 0) |||
    (hw.level d.port.rx.length &&& (spi0CsRxf ||| spi0CsRxr))

/-- The CLEAR bits are read as 0. -/
def readCs (d : Spi0 S) : Word :=
  (d.control &&& controlMask) ||| hw.status d

def writeCs (value : Word) (d : Spi0 S) : Spi0 S :=
  { d with
    control := value &&& controlMask
    port :=
      { tx := if value.getLsbD 4 then [] else d.port.tx
        shifter := if value.getLsbD 7 then d.port.shifter else none
        rx := if value.getLsbD 5 then [] else d.port.rx
        slave :=
          if d.ta = true ∧ value.getLsbD 7 = false then hw.bus.release d.line d.port.slave
          else d.port.slave } }

def advance (d : Spi0 S) : Spi0 S :=
  { d with
    port := if d.ta then d.port.ticks (hw.bus.shift d.line) hw.rxRoom (hw.pace d.now) else d.port
    now := d.now + 1 }

def respond (d : Spi0 S) : Access → Word × Spi0 S
  | .read ⟨.spi0, 0⟩ => (hw.readCs d, d)
  | .read ⟨.spi0, 1⟩ =>
    match d.port.rx with
    | [] => (hw.underrun, d)
    | b :: _ => (b.setWidth 32, { d with port := d.port.pop })
  | .read ⟨.spi0, 2⟩ => (d.clk, d)
  | .write ⟨.spi0, 0⟩ value => (0, hw.writeCs value d)
  | .write ⟨.spi0, 1⟩ value => (0, { d with port := d.port.push hw.txRoom (value.setWidth 8) })
  | .write ⟨.spi0, 2⟩ value => (0, { d with clk := value })
  | _ => (hw.elsewhere d.now, d)

def device : Device (Spi0 S) Access Word := fun d request => hw.respond (hw.advance d) request

def setBits (value mask : Word) (d : Spi0 S) : Spi0 S :=
  let d₁ := hw.advance d
  hw.writeCs ((hw.readCs d₁ &&& ~~~mask) ||| (value &&& mask)) (hw.advance d₁)

-- ---------------------------------------------------------------------------
-- Flags
-- ---------------------------------------------------------------------------

theorem and_flag {i : ℕ} (hi : i < 32) (x : Word) :
    x &&& BitVec.twoPow 32 i ≠ 0 ↔ x.getLsbD i = true := by
  have hne : BitVec.twoPow 32 i ≠ 0 := by
    intro h0
    have hbit := congrArg (fun y => BitVec.getLsbD y i) h0
    simp [hi] at hbit
  rw [BitVec.and_twoPow]
  cases x.getLsbD i with
  | false => exact ⟨fun h => absurd rfl h, fun h => absurd h Bool.false_ne_true⟩
  | true => exact ⟨fun _ => rfl, fun _ => hne⟩

theorem getLsbD_ite (c : Prop) [Decidable c] (x : Word) (i : ℕ) :
    (if c then x else 0).getLsbD i = (decide c && x.getLsbD i) := by
  by_cases h : c <;> simp [h]

variable {hw} {d : Spi0 S}

theorem getLsbD_readCs (i : ℕ) :
    (hw.readCs d).getLsbD i =
      ((d.control.getLsbD i && controlMask.getLsbD i) ||
        ((decide (d.port.tx.length < hw.txRoom) && spi0CsTxd.getLsbD i) ||
          (decide (d.port.rx ≠ []) && spi0CsRxd.getLsbD i) ||
          (decide (d.ta = true ∧ d.port.tx = [] ∧ d.port.shifter = none) && spi0CsDone.getLsbD i) ||
          ((hw.level d.port.rx.length).getLsbD i && (spi0CsRxf ||| spi0CsRxr).getLsbD i))) := by
  simp only [readCs, status, BitVec.getLsbD_or, BitVec.getLsbD_and, getLsbD_ite]

theorem txd_iff : hw.readCs d &&& spi0CsTxd ≠ 0 ↔ d.port.tx.length < hw.txRoom := by
  rw [show spi0CsTxd = BitVec.twoPow 32 18 from rfl, and_flag (by decide), getLsbD_readCs,
    show controlMask.getLsbD 18 = false from rfl, show spi0CsTxd.getLsbD 18 = true from rfl,
    show spi0CsRxd.getLsbD 18 = false from rfl, show spi0CsDone.getLsbD 18 = false from rfl,
    show (spi0CsRxf ||| spi0CsRxr).getLsbD 18 = false from rfl]
  simp

theorem rxd_iff : hw.readCs d &&& spi0CsRxd ≠ 0 ↔ d.port.rx ≠ [] := by
  rw [show spi0CsRxd = BitVec.twoPow 32 17 from rfl, and_flag (by decide), getLsbD_readCs,
    show controlMask.getLsbD 17 = false from rfl, show spi0CsTxd.getLsbD 17 = false from rfl,
    show spi0CsRxd.getLsbD 17 = true from rfl, show spi0CsDone.getLsbD 17 = false from rfl,
    show (spi0CsRxf ||| spi0CsRxr).getLsbD 17 = false from rfl]
  simp

theorem done_iff : hw.readCs d &&& spi0CsDone ≠ 0 ↔ d.ta = true ∧ d.port.pending = [] := by
  rw [show spi0CsDone = BitVec.twoPow 32 16 from rfl, and_flag (by decide), getLsbD_readCs,
    show controlMask.getLsbD 16 = false from rfl, show spi0CsTxd.getLsbD 16 = false from rfl,
    show spi0CsRxd.getLsbD 16 = false from rfl, show spi0CsDone.getLsbD 16 = true from rfl,
    show (spi0CsRxf ||| spi0CsRxr).getLsbD 16 = false from rfl]
  simp [Port.pending, and_comm]

-- ---------------------------------------------------------------------------
-- Settings
-- ---------------------------------------------------------------------------

theorem getLsbD_readCs_and {i : ℕ} (h : controlMask.getLsbD i = true) :
    (hw.readCs d).getLsbD i = d.control.getLsbD i := by
  have hflag (x : Word) (hx : x &&& controlMask = 0) : x.getLsbD i = false := by
    have hbit := congrArg (fun y => BitVec.getLsbD y i) hx
    simp only [BitVec.getLsbD_and, h, Bool.and_true] at hbit
    rw [hbit]
    exact BitVec.getLsbD_zero
  rw [getLsbD_readCs, hflag spi0CsTxd rfl, hflag spi0CsRxd rfl, hflag spi0CsDone rfl,
    hflag (spi0CsRxf ||| spi0CsRxr) rfl, h]
  simp

@[simp] theorem advance_control : (hw.advance d).control = d.control := rfl

@[simp] theorem advance_ta : (hw.advance d).ta = d.ta := rfl

@[simp] theorem advance_line : (hw.advance d).line = d.line := rfl

theorem setBits_control (value mask : Word) :
    (hw.setBits value mask d).control =
    ((d.control &&& ~~~mask) ||| (value &&& mask)) &&& controlMask := by
  apply BitVec.eq_of_getLsbD_eq
  intro i _
  simp only [setBits, writeCs, BitVec.getLsbD_and, getLsbD_setBits]
  cases h : controlMask.getLsbD i with
  | false => simp
  | true => rw [getLsbD_readCs_and h, advance_control]

theorem setBits_port {value mask : Word} {on : Bool}
    (hon : (if mask.getLsbD 7 = true then value.getLsbD 7 else d.ta) = on) :
    (hw.setBits value mask d).port =
      { tx := if mask.getLsbD 4 && value.getLsbD 4 then [] else (hw.advance (hw.advance d)).port.tx
        shifter := if on then (hw.advance (hw.advance d)).port.shifter else none
        rx := if mask.getLsbD 5 && value.getLsbD 5 then [] else (hw.advance (hw.advance d)).port.rx
        slave :=
          if d.ta = true ∧ on = false then
            hw.bus.release d.line (hw.advance (hw.advance d)).port.slave
          else (hw.advance (hw.advance d)).port.slave } := by
  have hclear {i : ℕ} (h : controlMask.getLsbD i = false) (ht : spi0CsTxd.getLsbD i = false)
      (hr : spi0CsRxd.getLsbD i = false) (hd : spi0CsDone.getLsbD i = false)
      (hl : (spi0CsRxf ||| spi0CsRxr).getLsbD i = false) :
      (if mask.getLsbD i = true then value.getLsbD i else (hw.readCs (hw.advance d)).getLsbD i) =
        (mask.getLsbD i && value.getLsbD i) := by
    rw [getLsbD_readCs, h, ht, hr, hd, hl]
    cases mask.getLsbD i <;> simp
  have hta : (hw.readCs (hw.advance d)).getLsbD 7 = d.ta := getLsbD_readCs_and rfl
  simp only [setBits, writeCs, getLsbD_setBits, hta, hon, hclear (i := 4) rfl rfl rfl rfl rfl,
    hclear (i := 5) rfl rfl rfl rfl rfl, advance_ta, advance_line]

theorem clear_port :
    (hw.setBits spi0CsClear spi0CsClear d).port =
      { tx := []
        shifter := if d.ta then (hw.advance (hw.advance d)).port.shifter else none
        rx := []
        slave := (hw.advance (hw.advance d)).port.slave } := by
  have hport := @setBits_port S hw d spi0CsClear spi0CsClear d.ta rfl
  have hstay : ¬ (d.ta = true ∧ d.ta = false) := by
    rintro ⟨ht, hf⟩
    exact Bool.false_ne_true (hf.symm.trans ht)
  rw [if_neg hstay] at hport
  exact hport

theorem activate_port :
    (hw.setBits spi0CsTa spi0CsTa d).port = (hw.advance (hw.advance d)).port := by
  have hport := @setBits_port S hw d spi0CsTa spi0CsTa true rfl
  have hstay : ¬ (d.ta = true ∧ true = false) := fun h => Bool.false_ne_true h.2.symm
  rw [if_neg hstay] at hport
  exact hport

theorem deactivate_port (h : d.ta = true) :
    (hw.setBits 0 spi0CsTa d).port =
      { (hw.advance (hw.advance d)).port with
        shifter := none
        slave := hw.bus.release d.line (hw.advance (hw.advance d)).port.slave } := by
  have hport := @setBits_port S hw d 0 spi0CsTa false rfl
  have hgo : d.ta = true ∧ false = false := ⟨h, rfl⟩
  rw [if_pos hgo] at hport
  exact hport

@[simp] theorem setBits_clk (value mask : Word) : (hw.setBits value mask d).clk = d.clk := rfl

theorem setBits_ta (value mask : Word) :
    (hw.setBits value mask d).ta = if mask.getLsbD 7 = true then value.getLsbD 7 else d.ta := by
  have hmask : controlMask.getLsbD 7 = true := rfl
  rw [Spi0.ta, setBits_control, BitVec.getLsbD_and, getLsbD_setBits, hmask, Bool.and_true]
  rfl

theorem setBits_line {value mask : Word} (h : ∀ i < 4, mask.getLsbD i = false) :
    (hw.setBits value mask d).line = d.line := by
  have hmask : ∀ i < 4, controlMask.getLsbD i = true := by decide
  refine Spi0.line_congr (fun i hi => ?_) rfl
  rw [setBits_control, BitVec.getLsbD_and, getLsbD_setBits, h i hi, hmask i hi]
  simp

-- ---------------------------------------------------------------------------
-- The queues
-- ---------------------------------------------------------------------------

theorem device_push (b : Byte) :
    (hw.device d (.write spi0Fifo (b.setWidth 32))).2 =
      { hw.advance d with port := (hw.advance d).port.push hw.txRoom b } := by
  have hbyte : (b.setWidth 32).setWidth 8 = b := by simp
  simp only [device, respond, spi0Fifo, hbyte]

theorem device_pop {b : Byte} {rx : List Byte} (hrx : (hw.advance d).port.rx = b :: rx) :
    hw.device d (.read spi0Fifo) =
      (b.setWidth 32, { hw.advance d with port := (hw.advance d).port.pop }) := by
  simp only [device, respond, spi0Fifo, hrx]

-- ---------------------------------------------------------------------------
-- Time
-- ---------------------------------------------------------------------------

theorem advance_moved (hw : Controller S) (h : d.ta = true) :
    (hw.advance d).port.weight < d.port.weight ∨
      ((hw.advance d).port = d.port ∧ (hw.pace d.now = 0 ∨ d.port.Stuck hw.rxRoom)) := by
  rcases Port.ticks_eq_or_lt (hw.bus.shift d.line) hw.rxRoom d.port (hw.pace d.now) with
    ⟨heq, hwhy⟩ | hlt
  · exact .inr ⟨by simp [advance, h, heq], hwhy⟩
  · exact .inl (by simpa [advance, h] using hlt)

theorem advance_carries {ℓ : Line} {p₀ : Port S Byte} {pushed popped : List Byte}
    (hline : d.line = ℓ)
    (h : Port.Carries (hw.bus.shift ℓ) p₀ pushed popped d.port) :
    Port.Carries (hw.bus.shift ℓ) p₀ pushed popped (hw.advance d).port := by
  simp only [advance, hline]
  split
  · exact h.ticks _
  · exact h

theorem advance_tx_le : (hw.advance d).port.tx.length ≤ d.port.tx.length := by
  simp only [advance]
  split
  · exact Port.ticks_tx_le _
  · exact Nat.le_refl _

theorem advance_rx_ne_nil (h : d.port.rx ≠ []) : (hw.advance d).port.rx ≠ [] := by
  have hpos : 0 < d.port.rx.length := List.length_pos_iff.mpr h
  apply List.length_pos_iff.mp
  simp only [advance]
  split
  · exact Nat.lt_of_lt_of_le hpos (Port.ticks_rx_le _)
  · exact hpos

theorem advance_idle (h : d.port.pending = []) : (hw.advance d).port = d.port := by
  have hstuck : d.port.Stuck hw.rxRoom := by
    simp only [Port.pending, List.append_eq_nil_iff] at h
    exact ⟨Option.toList_eq_nil_iff.mp h.1, .inl h.2⟩
  simp [advance, Port.ticks_stuck hstuck]

theorem release_port (h : d.ta = true) (hp : d.port.pending = []) :
    (hw.setBits 0 spi0CsTa d).port =
      { d.port with shifter := none, slave := hw.bus.release d.line d.port.slave } := by
  have hread : (hw.advance d).port = d.port := advance_idle hp
  have hwritten : (hw.advance (hw.advance d)).port = d.port :=
    (advance_idle (hread ▸ hp)).trans hread
  rw [deactivate_port h, hwritten]

theorem advance_quiet (h : d.ta = false) : (hw.advance d).port = d.port := by
  simp [advance, h]

def inStep (bus : Bus S) : Controller S where
  bus
  txRoom := 16
  rxRoom := 16
  pace _ := 1
  level _ := 0
  underrun := 0
  elsewhere _ := 0
  txRoom_pos := by decide
  rxRoom_pos := by decide
  fair := fair_one

end Controller

end LineFollower.Bcm2835
