import LineFollower.Motors.Fields
import Mathlib.Data.Nat.Bitwise

/-!
# The battery voltage

`getBatteryVoltage` adds up what `getVoltageComp` returns for the two chips,
and that is the EN_VSCOMP bit of CONFIG. So its result is 0, 20 or 40 by the
number of chips whose compensation is enabled, whatever ADC_OUT reads
(`getBatteryVoltage_reads`).
-/

namespace LineFollower

open Lib Lib.Exchange

variable {host : Host} {other : ChipState → Byte → Byte} {self : Motors} {regs : Chip → Registers}

-- ---------------------------------------------------------------------------
-- What is returned
-- ---------------------------------------------------------------------------

def compensates (r : Registers) : Bool := (r .config).getLsbD 5

def reading (regs : Chip → Registers) : ℤ :=
  20 * ((compensates (regs .left)).toNat + (compensates (regs .right)).toNat)

theorem enVsComp_eq (r : Registers) :
    (fields.read r .enVsComp).toNat = (compensates r).toNat * 32 := by
  rw [read_toNat]
  exact Nat.and_two_pow _ 5

theorem getVoltageComp_does :
    Does (getVoltageComp host) (fun r => ((compensates r).toNat * 32 : ℤ)) id := by
  refine (getField_does .enVsComp).congr (fun r => ?_) fun _ => rfl
  rw [enVsComp_eq]
  push_cast
  rfl

theorem Does.reads {m : Spi α} {result : Registers → α} (h : Does m result id)
    (other : ChipState → Byte → Byte) (self : Motors) (regs : Chip → Registers) {chip : Chip}
    (hc : packetIndex self.nPosition = some chip) :
    Runs (chain other) m self (idle regs) (result (regs chip)) self (idle regs) := by
  have hrun := h other self chip regs hc
  rwa [id, Function.update_eq_self] at hrun

/-- The scaling of the sum of the two bits. -/
theorem scaled_eq (l r : Bool) :
    trunc (((l.toNat * 32 + r.toNat * 32 : ℤ).tdiv 16 : ℚ) * 3.3 * 3.1) =
      20 * (l.toNat + r.toNat) := by
  cases l <;> cases r <;> decide +kernel

theorem getBatteryVoltage_runs :
    Runs (chain other) (getBatteryVoltage host) self (idle regs) (reading regs)
      { self with nPosition := 1 } (idle regs) := by
  have hcomp : Does (getVoltageComp host) _ id := getVoltageComp_does
  have hleft := hcomp.reads other { self with nPosition := 0 } regs packetIndex_left
  have hright := hcomp.reads other { self with nPosition := 1 } regs packetIndex_right
  have hscaled := scaled_eq (compensates (regs .left)) (compensates (regs .right))
  rw [reading, ← hscaled]
  refine (Runs.modifyVars _ _ _).bind (hleft.bind ?_)
  exact (Runs.modifyVars _ _ _).bind (hright.bind (Runs.pure _ _ _))

-- ---------------------------------------------------------------------------
-- What a supply voltage would be
-- ---------------------------------------------------------------------------

/-- The calls that configure a board, those of a field at the selected chip. -/
inductive ConfigCall
  | setUp
  | setMicrostep (step : Byte)
  | field (setter : FieldSetter)

def ConfigCall.perform (host : Host) : ConfigCall → Spi Unit
  | .setUp => LineFollower.setUp host
  | .setMicrostep step => LineFollower.setMicrostep host step
  | .field setter => setter.perform host

def ReadsAfter (host : Host) (other : ChipState → Byte → Byte) (self : Motors)
    (regs : Chip → Registers)
    (calls : List ConfigCall) (voltage : ℤ) : Prop :=
  ∃ self' regs', Runs (chain other)
    (do calls.forM (ConfigCall.perform host); getBatteryVoltage host) self (idle regs) voltage self'
      (idle regs') ∧ ∀ chip, regs' chip .adcOut = regs chip .adcOut

def withAdc (regs : Chip → Registers) (adc : Chip → Byte) : Chip → Registers :=
  fun chip => Function.update (regs chip) .adcOut (adc chip)

/-- The voltage is a nondecreasing function of the two readings of ADC_OUT, and
it is not constant. -/
def FollowsAdc (host : Host) (other : ChipState → Byte → Byte) (self : Motors)
    (regs : Chip → Registers) : Prop :=
  ∃ voltage : (Chip → Byte) → ℤ,
    (∀ adc, ReadsAfter host other self (withAdc regs adc) [] (voltage adc)) ∧
    (∀ a b, (∀ chip, a chip ≤ b chip) → voltage a ≤ voltage b) ∧ ∃ a b, voltage a ≠ voltage b

def IgnoresConfig (host : Host) (other : ChipState → Byte → Byte) (self : Motors)
    (regs : Chip → Registers) : Prop :=
  ∀ calls voltage voltage', ReadsAfter host other self regs [] voltage →
    ReadsAfter host other self regs calls voltage' → voltage = voltage'

theorem ReadsAfter.of_runs {calls : List ConfigCall} {self' : Motors} {regs' : Chip → Registers}
    (h : Runs (chain other) (calls.forM (ConfigCall.perform host)) self (idle regs) () self'
      (idle regs')) (hadc : ∀ chip, regs' chip .adcOut = regs chip .adcOut) :
    ReadsAfter host other self regs calls (reading regs') :=
  ⟨_, regs', h.bind getBatteryVoltage_runs, hadc⟩

theorem readsAfter_nil {voltage : ℤ} (h : ReadsAfter host other self regs [] voltage) :
    voltage = reading regs := by
  obtain ⟨self', regs', hrun, -⟩ := h
  exact (hrun.unique ((Runs.pure () _ _).bind getBatteryVoltage_runs)).1

theorem reading_withAdc (adc : Chip → Byte) : reading (withAdc regs adc) = reading regs := rfl

theorem not_followsAdc : ¬ FollowsAdc host other self regs := by
  rintro ⟨voltage, hreads, -, a, b, hne⟩
  have hsame (adc : Chip → Byte) : voltage adc = reading regs :=
    (readsAfter_nil (hreads adc)).trans (reading_withAdc adc)
  exact hne ((hsame a).trans (hsame b).symm)

theorem compensates_written (vsCompMode : ℤ) (r : Registers) :
    compensates (written host [.setVoltageComp vsCompMode] r) =
      (BitVec.ofInt host.longBits vsCompMode).getLsbD 5 := by
  have hparam : Field.enVsComp.param = .config := rfl
  exact write_bit .enVsComp hparam _ (r .config) (by decide)

theorem setVoltageComp_reads (vsCompMode : ℤ) :
    ReadsAfter host other self regs [.setUp, .field (.setVoltageComp vsCompMode)]
      (20 * ((compensates (configured host (regs .left))).toNat +
        ((BitVec.ofInt host.longBits vsCompMode).getLsbD 5).toNat)) := by
  let calls : List FieldSetter := [.setVoltageComp vsCompMode]
  have hconfigure : Does (configure host) (fun _ => ()) (configured host) := configure_does
  have hfield : Does (FieldSetter.perform host (.setVoltageComp vsCompMode)) (fun _ => ())
      (written host calls) :=
    FieldSetter.does _
  have hsetUp := leftThenRight_runs hconfigure other self regs
  rw [← setUp_eq] at hsetUp
  have hset :=
    hfield other { self with nPosition := 1 } .right (fun chip => configured host (regs chip))
      packetIndex_right
  have hruns : Runs (chain other)
      ([.setUp, .field (.setVoltageComp vsCompMode)].forM (ConfigCall.perform host))
        self (idle regs)
      () _ _ :=
    hsetUp.bind (hset.bind (Runs.pure () _ _))
  have hadc (r : Registers) : configured host r .adcOut = r .adcOut :=
    configured_unwritten r (by decide)
  have hreads := ReadsAfter.of_runs hruns fun chip => ?_
  · rw [reading, Function.update_self, Function.update_of_ne (by decide),
      compensates_written] at hreads
    exact hreads
  · cases chip with
    | left => exact hadc _
    | right => exact (written_other calls _ (by decide)).trans (hadc _)

theorem not_ignoresConfig : ¬ IgnoresConfig host other self regs := by
  intro h
  have hself : ReadsAfter host other self regs [] (reading regs) :=
    .of_runs (Runs.pure () _ _) fun _ => rfl
  have hoff := h _ _ _ hself (setVoltageComp_reads 0)
  have hon := h _ _ _ hself (setVoltageComp_reads 0x20)
  have hbit : ((BitVec.ofInt host.longBits 0).getLsbD 5).toNat =
      ((BitVec.ofInt host.longBits 0x20).getLsbD 5).toNat := by
    omega
  have hwide : 5 < host.longBits := host.le_longBits.trans_lt' (by decide)
  have hlow : (BitVec.ofInt host.longBits 0).getLsbD 5 = false := by simp
  have hhigh : (BitVec.ofInt host.longBits 0x20).getLsbD 5 = true := by
    rw [show (0x20 : ℤ) = ((0x20 : ℕ) : ℤ) from rfl, BitVec.ofInt_natCast, BitVec.getLsbD_ofNat,
      decide_eq_true hwide]
    rfl
  rw [hlow, hhigh] at hbit
  exact absurd hbit (by decide)

/-- The result is 20 for each chip that compensates. It is the same for all
readings of ADC_OUT, and from every state some configuration changes it. -/
theorem getBatteryVoltage_reads (host : Host) (other : ChipState → Byte → Byte) (self : Motors)
    (regs : Chip → Registers) :
    Runs (chain other) (getBatteryVoltage host) self (idle regs) (reading regs)
      { self with nPosition := 1 } (idle regs) ∧
    ¬ FollowsAdc host other self regs ∧ ¬ IgnoresConfig host other self regs :=
  ⟨getBatteryVoltage_runs, not_followsAdc, not_ignoresConfig⟩

def cleared : Chip → Registers := fun _ _ => 0

theorem getBatteryVoltage_cleared :
    ReadsAfter .lp64 (fun _ _ => 0) ⟨0, 0, true, true⟩ (withAdc cleared fun _ => 0x00) [] 0 ∧
    ReadsAfter .lp64 (fun _ _ => 0) ⟨0, 0, true, true⟩ (withAdc cleared fun _ => 0x1F) [] 0 ∧
    ReadsAfter .lp64 (fun _ _ => 0) ⟨0, 0, true, true⟩ cleared [.field (.setVoltageComp 0x20)] 20 ∧
    ¬ (FollowsAdc .lp64 (fun _ _ => 0) ⟨0, 0, true, true⟩ cleared ∧
      IgnoresConfig .lp64 (fun _ _ => 0) ⟨0, 0, true, true⟩ cleared) := by
  have hset :=
    @FieldSetter.does .lp64 (.setVoltageComp 0x20) (fun _ _ => 0) ⟨0, 0, true, true⟩ .left cleared
      packetIndex_left
  have hruns : Runs (chain fun _ _ => 0)
      ([.field (.setVoltageComp 0x20)].forM (ConfigCall.perform .lp64)) ⟨0, 0, true, true⟩
      (idle cleared) () _ _ := hset.bind (Runs.pure () _ _)
  have hoff : ReadsAfter .lp64 (fun _ _ => 0) ⟨0, 0, true, true⟩ cleared [] 0 :=
    .of_runs (Runs.pure () _ _) fun _ => rfl
  have hon : ReadsAfter .lp64 (fun _ _ => 0) ⟨0, 0, true, true⟩ cleared
      [.field (.setVoltageComp 0x20)] 20 :=
    .of_runs hruns fun chip => by cases chip <;> rfl
  refine ⟨.of_runs (Runs.pure () _ _) fun _ => rfl, .of_runs (Runs.pure () _ _) fun _ =>
    rfl, hon, ?_⟩
  rintro ⟨-, hignores⟩
  exact absurd (hignores _ _ _ hoff hon) (by decide)

end LineFollower
