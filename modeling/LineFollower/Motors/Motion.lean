import LineFollower.Motors.Drive

/-!
# Motion commands with an argument

`move`, `goTo`, `goToDir` and `goUntil` send their bytes by a loop whose
counter is a `uint8_t` and whose test is `i >= 0`. They send the opcode and
three bytes, and then read outside the argument's storage: no call returns
(`motion_frame`). `run` counts by an `int`, and ends.
-/

namespace LineFollower

open Lib Lib.Exchange

variable {host : Host}

-- ---------------------------------------------------------------------------
-- The loop
-- ---------------------------------------------------------------------------

theorem test_holds (i : Byte) : i ≥ 0 := Nat.zero_le i.toNat

theorem sendBytesUnsigned_inside (value : ULong host) {i : Byte} (h : i.toNat < host.longBits / 8) :
    sendBytesUnsigned host value i = (do
      let _ ← spiXfer (byteAt value i.toNat)
      sendBytesUnsigned host value (i - 1)) := by
  rw [sendBytesUnsigned, if_pos (test_holds i), if_pos h]

theorem sendBytesUnsigned_outside (value : ULong host) {i : Byte}
    (h : ¬ i.toNat < host.longBits / 8) :
    sendBytesUnsigned host value i = fault .outOfBounds := by
  rw [sendBytesUnsigned, if_pos (test_holds i), if_neg h]

/-- Whatever is answered, the loop does not return. -/
theorem sendBytesUnsigned_ne (value : ULong host) (i : Byte) (self v : Motors)
    (as rest : List Packet)
    (log : Log) : sendBytesUnsigned host value i self as ≠ ⟨.ok (), v, rest, log⟩ := by
  induction i using sendBytesUnsigned.induct host generalizing self as log with
  | case1 i _ hin ih =>
    rw [sendBytesUnsigned_inside value hin]
    intro h
    obtain ⟨_, v₁, as₁, l₁, l₂, -, hrest, -⟩ := bind_ok.mp h
    exact ih v₁ as₁ l₂ hrest
  | case2 i _ hout =>
    rw [sendBytesUnsigned_outside value hout]
    intro h
    cases congrArg Outcome.result h
  | case3 i hneg => exact absurd (test_holds i) hneg

theorem sendBytesUnsigned_run {self : Motors} {chip : Chip}
    (hc : packetIndex self.nPosition = some chip)
    (value : ULong host) {n : ℕ} (hn : n < 4) {as : List Packet} (h : n + 1 ≤ as.length) :
    sendBytesUnsigned host value (BitVec.ofNat 8 n) self as =
      ⟨.error (.fault .outOfBounds), self, as.drop (n + 1),
        transfers self chip (bytesBelow value (n + 1)) as⟩ := by
  have hsize := host.longBytes
  induction n generalizing as with
  | zero =>
    cases as with
    | nil => cases h
    | cons a as =>
      have hin : (BitVec.ofNat 8 0).toNat < host.longBits / 8 := by
        rw [BitVec.toNat_ofNat]
        omega
      have hwrap : ¬ (BitVec.ofNat 8 0 - 1).toNat < host.longBits / 8 := by
        change ¬ 255 < host.longBits / 8
        omega
      rw [sendBytesUnsigned_inside value hin, bind_run, spiXfer_cons hc,
        sendBytesUnsigned_outside value hwrap]
      rfl
  | succ n ih =>
    cases as with
    | nil => cases h
    | cons a as =>
      have hcounter : (BitVec.ofNat 8 (n + 1)).toNat = n + 1 := by
        rw [BitVec.toNat_ofNat]
        omega
      have hpred : BitVec.ofNat 8 (n + 1) - 1 = BitVec.ofNat 8 n := by
        rw [BitVec.ofNat_add]
        exact BitVec.add_sub_cancel _ _
      have hrest : sendBytesUnsigned host value (BitVec.ofNat 8 n) self as = _ :=
        ih (by omega) (Nat.le_of_succ_le_succ h)
      rw [sendBytesUnsigned_inside value (by omega), hcounter, hpred, bind_run, spiXfer_cons hc]
      simp only [hrest]
      rfl

-- ---------------------------------------------------------------------------
-- The commands
-- ---------------------------------------------------------------------------

/-- A call of one of the four. A position is a `long`. -/
inductive Motion (host : Host)
  | move (dir : Direction) (numSteps : ULong host)
  | goTo (pos : ULong host)
  | goToDir (dir : Direction) (pos : ULong host)
  | goUntil (action : Action) (dir : Direction) (stepsPerSec : ℚ)

namespace Motion

def perform : Motion host → Spi Unit
  | move dir numSteps => LineFollower.move host dir numSteps
  | goTo pos => LineFollower.goTo host pos
  | goToDir dir pos => LineFollower.goToDir host dir pos
  | goUntil action dir stepsPerSec => LineFollower.goUntil host action dir stepsPerSec

def opcode : Motion host → Byte
  | move dir _ => cmdMove ||| dir.value
  | goTo _ => cmdGoTo
  | goToDir dir _ => cmdGoToDir ||| dir.value
  | goUntil action dir _ => cmdGoUntil ||| action.value ||| dir.value

/-- A position within 22 bits of two's complement. -/
def positionField (pos : ℤ) : ℕ := (max (-2 ^ 21) (min pos (2 ^ 21 - 1)) % 2 ^ 22).toNat

def field : Motion host → ℕ
  | move _ numSteps => min numSteps.toNat 0x3FFFFF
  | goTo pos => positionField pos.toInt
  | goToDir _ pos => positionField pos.toInt
  | goUntil _ _ stepsPerSec => min ⌊stepsPerSec * 67.106⌋₊ 0xFFFFF

def frame (c : Motion host) : List Byte :=
  c.opcode :: bytesBelow (BitVec.ofNat 24 c.field) 3

/-- What the loop is started on. -/
def value : Motion host → ULong host
  | move _ numSteps => if numSteps > 0x3FFFFF then 0x3FFFFF else numSteps
  | goTo pos => if pos.toInt > 0x3FFFFF then 0x3FFFFF else pos
  | goToDir _ pos => if pos.toInt > 0x3FFFFF then 0x3FFFFF else pos
  | goUntil _ _ stepsPerSec =>
    if spdCalc host stepsPerSec > 0x3FFFFF then 0x3FFFFF else spdCalc host stepsPerSec

theorem perform_eq (c : Motion host) :
    c.perform = (do
      let _ ← spiXfer c.opcode
      sendBytesUnsigned host c.value 2) := by
  cases c <;> rfl

end Motion

/-- The call returns, and the selected chip has got this frame. No byte is read
outside the argument, or the call would have faulted. -/
def SendsFrame (m : Spi Unit) (self : Motors) (chip : Chip) (bs : List Byte) : Prop :=
  ∀ as : List Packet, bs.length ≤ as.length → ∃ log, m self as =
    ⟨.ok (), self, as.drop bs.length, log⟩ ∧
    wire chip log = bs

section
variable {self : Motors} {chip : Chip}

theorem Motion.perform_run (hc : packetIndex self.nPosition = some chip) (c : Motion host)
    {as : List Packet} (h : 4 ≤ as.length) :
    c.perform self as = ⟨.error (.fault .outOfBounds), self, as.drop 4,
      transfers self chip (c.opcode :: bytesBelow c.value 3) as⟩ := by
  cases as with
  | nil => cases h
  | cons a as =>
    have hloop : sendBytesUnsigned host c.value 2 self as = _ :=
      sendBytesUnsigned_run hc c.value (by decide) (Nat.le_of_succ_le_succ h)
    simp only [c.perform_eq, bind_run, spiXfer_cons hc, hloop]
    rfl

theorem Motion.perform_ne (c : Motion host) (v : Motors) (as rest : List Packet) (log : Log) :
    c.perform self as ≠ ⟨.ok (), v, rest, log⟩ := by
  intro h
  rw [c.perform_eq] at h
  obtain ⟨_, v₁, as₁, l₁, l₂, -, hloop, -⟩ := bind_ok.mp h
  exact sendBytesUnsigned_ne c.value 2 v₁ v as₁ rest l₂ hloop

theorem Motion.not_sendsFrame (c : Motion host) (bs : List Byte) :
    ¬ SendsFrame c.perform self chip bs := by
  intro h
  obtain ⟨log, hrun, -⟩ := h (List.replicate bs.length Packet.zero) (by simp)
  exact c.perform_ne _ _ _ _ hrun

theorem run_sendsFrame (hc : packetIndex self.nPosition = some chip) (dir : Direction)
    (stepsPerSec : ℚ) : SendsFrame (run host dir stepsPerSec) self chip
      ((cmdRun ||| dir.value) :: bytesBelow (runSpeed host stepsPerSec) 3) := by
  intro as has
  refine ⟨_, run_run hc dir stepsPerSec has, ?_⟩
  rw [wire_transfers has, if_pos rfl]

/-- Each of the four commands puts its opcode and three bytes on the line and
then reads outside its argument; it returns in no run. `run` sends its frame. -/
theorem motion_frame (host : Host) (hc : packetIndex self.nPosition = some chip) :
    (∀ c : Motion host, ¬ SendsFrame c.perform self chip c.frame ∧
      (∀ as : List Packet, 4 ≤ as.length →
        c.perform self as = ⟨.error (.fault .outOfBounds), self, as.drop 4,
          transfers self chip (c.opcode :: bytesBelow c.value 3) as⟩) ∧
      ∀ v as rest log, c.perform self as ≠ ⟨.ok (), v, rest, log⟩) ∧
    ∀ dir stepsPerSec, SendsFrame (run host dir stepsPerSec) self chip
      ((cmdRun ||| dir.value) :: bytesBelow (runSpeed host stepsPerSec) 3) :=
  ⟨fun c => ⟨c.not_sendsFrame c.frame, fun _ has => c.perform_run hc has, c.perform_ne⟩,
    run_sendsFrame hc⟩

end

theorem motion_frame_left :
    (∀ c : Motion .lp64, ¬ SendsFrame c.perform ⟨0, 0, true, true⟩ .left c.frame ∧
      (∀ as : List Packet, 4 ≤ as.length →
        c.perform ⟨0, 0, true, true⟩ as =
          ⟨.error (.fault .outOfBounds), ⟨0, 0, true, true⟩, as.drop 4,
          transfers ⟨0, 0, true, true⟩ .left (c.opcode :: bytesBelow c.value 3) as⟩) ∧
      ∀ v as rest log, c.perform ⟨0, 0, true, true⟩ as ≠ ⟨.ok (), v, rest, log⟩) ∧
    ∀ dir stepsPerSec, SendsFrame (run .lp64 dir stepsPerSec) ⟨0, 0, true, true⟩ .left
      ((cmdRun ||| dir.value) :: bytesBelow (runSpeed .lp64 stepsPerSec) 3) :=
  motion_frame .lp64 rfl

theorem move_one :
    (Motion.move .fwd 1 : Motion .lp64).frame = [0x41, 0x00, 0x00, 0x01] ∧
    ((Motion.move .fwd 1 : Motion .lp64).perform ⟨0, 0, true, true⟩ (atRest 4)).result =
      .error (.fault .outOfBounds) ∧
    ¬ SendsFrame (Motion.move .fwd 1 : Motion .lp64).perform ⟨0, 0, true, true⟩ .left
      (Motion.move .fwd 1 : Motion .lp64).frame := by
  have hrun : (Motion.move .fwd 1 : Motion .lp64).perform ⟨0, 0, true, true⟩ (atRest 4) = _ :=
    Motion.perform_run packetIndex_left _ (by decide)
  refine ⟨by decide, ?_, Motion.not_sendsFrame _ _⟩
  rw [hrun]

end LineFollower
