import LineFollower.Motors.Board
import LineFollower.Motors.RegisterFile

/-!
# What `setUp` leaves in the registers

Every setter writes one register, or reads, modifies and writes it, so it is a
`Modify` of that register. `setUp` makes the same changes to both chips, one
after the other. Of all registers that it changes only STEP_MODE and MIN_SPEED
keep something of what they were, their bits outside the fields that are set.
-/

namespace LineFollower

open Lib Lib.Exchange

variable (host : Host)

-- ---------------------------------------------------------------------------
-- Setters
-- ---------------------------------------------------------------------------

def Change.set (param : ParamRegister) (value : ULong host) : Change :=
  .write param ((wireValue param value).setWidth param.len)

def Change.update (param : ParamRegister) (f : ULong host → ULong host) : Change :=
  ⟨param, fun old => (wireValue param (f (old.setWidth host.longBits))).setWidth param.len⟩

@[simp] theorem Change.set_on_self (param : ParamRegister) (value : ULong host)
    (x : BitVec param.len) :
    (Change.set host param value).on param x = (wireValue param value).setWidth param.len :=
  (Change.set host param value).on_self x

@[simp] theorem Change.update_on_self (param : ParamRegister) (f : ULong host → ULong host)
    (x : BitVec param.len) :
    (Change.update host param f).on param x =
      (wireValue param (f (x.setWidth host.longBits))).setWidth param.len :=
  (Change.update host param f).on_self x

def withStepMode (old stepMode : Byte) : Byte :=
    (old &&& ~~~stepSelMask) ||| (stepMode &&& stepSelMask)

def stepModeChange (stepMode : Byte) : Change :=
  .update host .stepMode fun v => (withStepMode (v.setWidth 8) stepMode).setWidth host.longBits

def minSpeedChange (stepsPerSecond : ℚ) : Change :=
  .update host .minSpeed fun v => minSpdCalc host stepsPerSecond ||| (v &&& BitVec.ofNat _ lspdOpt)

def pwmFreqChange (divisor multiplier : ℤ) : Change :=
  .update host .config fun v =>
    (v &&& ~~~BitVec.ofNat _ configFPwmIntMask &&& ~~~BitVec.ofNat _ configFPwmDecMask) |||
      ((BitVec.ofNat _ configFPwmIntMask &&& BitVec.ofInt _ divisor) |||
        (BitVec.ofNat _ configFPwmDecMask &&& BitVec.ofInt _ multiplier))

def configFieldChange (mask : ℕ) (value : ℤ) : Change :=
  .update host .config fun v => replaceField host v mask value

variable {host}

theorem set_does (param : ParamRegister) (value : ULong host) :
    Does (setParam host param value) (fun _ => ()) (applyAll [Change.set host param value]) :=
  (setParam_does param value).congr (fun _ => rfl) fun r =>
    (applyAll_singleton (Change.set host param value) r).symm

theorem update_does (param : ParamRegister) (f : ULong host → ULong host) :
    Does (do let v ← getParam host param; setParam host param (f v)) (fun _ => ())
      (applyAll [Change.update host param f]) :=
  ((getParam_does param).bind fun v => setParam_does param (f v)).congr (fun _ => rfl)
    fun r => (applyAll_singleton (Change.update host param f) r).symm

theorem configStepMode_does (stepMode : Byte) :
    Does (configStepMode host stepMode) (fun _ => ()) (applyAll [stepModeChange host stepMode]) :=
  update_does .stepMode _

theorem setMinSpeed_does (stepsPerSecond : ℚ) :
    Does (setMinSpeed host stepsPerSecond) (fun _ => ())
      (applyAll [minSpeedChange host stepsPerSecond]) :=
  update_does .minSpeed _

theorem setPWMFreq_does (divisor multiplier : ℤ) :
    Does (setPWMFreq host divisor multiplier) (fun _ => ())
      (applyAll [pwmFreqChange host divisor multiplier]) :=
  update_does .config _

theorem setConfigField_does (mask : ℕ) (value : ℤ) :
    Does (setConfigField host mask value) (fun _ => ())
      (applyAll [configFieldChange host mask value]) :=
  update_does .config _

-- ---------------------------------------------------------------------------
-- One chip
-- ---------------------------------------------------------------------------

def configureChanges (host : Host) : List Change := [
  .set host .config 0x2e8B,
  stepModeChange host 0x06,
  .set host .maxSpeed (maxSpdCalc host 400),
  minSpeedChange host 0,
  .set host .acc (accCalc host 350),
  .set host .decel (decCalc host 1000),
  pwmFreqChange host (0x00 <<< 13) (0x07 <<< 10),
  configFieldChange host configPowSrMask configPowSr260Vus,
  .set host .ocdTh (((0x0F : Byte) &&& 0x09).setWidth host.longBits),
  configFieldChange host configOcSdMask 0x0000,
  .set host .stSlp 0x00,
  .set host .fnSlpAcc 0x00,
  .set host .fnSlpDec 0x00,
  .set host .alarmEn 0x00,
  .set host .kvalAcc ((0x6F : Byte).setWidth host.longBits),
  .set host .kvalDec ((0x64 : Byte).setWidth host.longBits),
  .set host .kvalRun ((0x64 : Byte).setWidth host.longBits),
  .set host .kvalHold ((0x00 : Byte).setWidth host.longBits)]

theorem configure_does :
    Does (configure host) (fun _ => ()) (applyAll (configureChanges host)) :=
  .cons (set_does .config _) <| .cons (configStepMode_does _) <| .cons (set_does .maxSpeed _) <|
  .cons (setMinSpeed_does _) <| .cons (set_does .acc _) <| .cons (set_does .decel _) <|
  .cons (setPWMFreq_does _ _) <| .cons (setConfigField_does _ _) <| .cons (set_does .ocdTh _) <|
  .cons (setConfigField_does _ _) <| .cons (set_does .stSlp _) <| .cons (set_does .fnSlpAcc _) <|
  .cons (set_does .fnSlpDec _) <| .cons (set_does .alarmEn _) <| .cons (set_does .kvalAcc _) <|
  .cons (set_does .kvalDec _) <| .cons (set_does .kvalRun _) <| set_does .kvalHold _

def setUpWrites : List ParamRegister :=
  [.config, .stepMode, .maxSpeed, .minSpeed, .acc, .decel, .ocdTh, .stSlp, .fnSlpAcc, .fnSlpDec,
    .alarmEn, .kvalAcc, .kvalDec, .kvalRun, .kvalHold]

def configured (host : Host) (r : Registers) : Registers := applyAll (configureChanges host) r

def changesOf (host : Host) (param : ParamRegister) : List Change :=
  (configureChanges host).filter fun w => w.cell = param

theorem configured_apply (r : Registers) (param : ParamRegister) :
    configured host r param = onAll (changesOf host param) param (r param) :=
  (onAll_filter _ _ _).symm

theorem configured_unwritten (r : Registers) {param : ParamRegister} (h : param ∉ setUpWrites) :
    configured host r param = r param := by
  have hnone : changesOf host param = [] := by
    revert h
    cases param <;> first | exact fun _ => rfl | exact fun h => absurd (by decide) h
  rw [configured_apply, hnone]
  rfl

/-- All written registers but two are set before they are read. -/
theorem changesOf_set {param : ParamRegister} (h : param ∈ setUpWrites) (hstep : param ≠ .stepMode)
    (hmin : param ≠ .minSpeed) :
    ∃ value rest, changesOf host param = Change.set host param value :: rest := by
  cases param <;>
    first
    | exact ⟨_, _, rfl⟩
    | exact absurd h (by decide)
    | exact absurd rfl hstep
    | exact absurd rfl hmin

theorem configured_written (r r' : Registers) {param : ParamRegister} (h : param ∈ setUpWrites)
    (hstep : param ≠ .stepMode) (hmin : param ≠ .minSpeed) :
    configured host r param = configured host r' param := by
  obtain ⟨value, rest, hchanges⟩ : ∃ value rest,
      changesOf host param = Change.set host param value :: rest := changesOf_set h hstep hmin
  rw [configured_apply, configured_apply, hchanges, onAll, onAll, Change.set_on_self,
    Change.set_on_self]

theorem setWidth_longBits (host : Host) {w : ℕ} (hw : w ≤ 32) (x : BitVec w) :
    (x.setWidth host.longBits).setWidth w = x := by
  have hwide := host.le_longBits
  rw [BitVec.setWidth_setWidth_of_le _ (by omega), BitVec.setWidth_eq]

theorem withStepMode_getLsbD (old stepMode : Byte) (i : ℕ) :
    (withStepMode old stepMode).getLsbD i = if i < 3 then stepMode.getLsbD i
      else old.getLsbD i := by
  have hmask : stepSelMask.getLsbD i = decide (i < 3) := Nat.testBit_two_pow_sub_one 3 i
  simp only [withStepMode, BitVec.getLsbD_or, BitVec.getLsbD_and, BitVec.getLsbD_not, hmask]
  by_cases hi : i < 3
  · simp [hi]
  · by_cases hw : i < 8
    · simp [hi, hw]
    · simp [hi, BitVec.getLsbD_of_ge old i (by omega)]

theorem configured_stepMode (r : Registers) (i : ℕ) :
    (configured host r .stepMode).getLsbD i =
      if i < 3 then (0x06 : Byte).getLsbD i else (r .stepMode).getLsbD i := by
  have hwidth (x : Byte) : (x.setWidth host.longBits).setWidth 8 = x :=
    setWidth_longBits host (by decide) x
  have hvalue : configured host r .stepMode = withStepMode (r .stepMode) 0x06 := by
    rw [configured_apply, show changesOf host .stepMode = [stepModeChange host 0x06] from rfl]
    exact (Change.update_on_self host .stepMode _ _).trans
      ((hwidth _).trans (congrArg (withStepMode · 0x06) (hwidth _)))
  rw [hvalue]
  exact withStepMode_getLsbD _ _ i

theorem minSpdCalc_zero : minSpdCalc host 0 = 0 := by
  have htrunc : trunc ((0 : ℚ) / 0.238) = 0 := by
    rw [zero_div]
    exact trunc_intCast 0
  have hfits : host.toSigned host.longBits (0 / 0.238) = 0 := by
    rw [host.toSigned_fits _ _ (by rw [htrunc]; simp) (by rw [htrunc]; positivity), htrunc]
    rfl
  simp only [minSpdCalc, hfits]
  rfl

theorem configured_minSpeed (r : Registers) (i : ℕ) :
    (configured host r .minSpeed).getLsbD i = (decide (i = 12) && (r .minSpeed).getLsbD 12) := by
  have hwide := host.le_longBits
  have hmask : Nat.testBit lspdOpt i = decide (12 = i) := by
    rw [show lspdOpt = 2 ^ 12 from rfl, Nat.testBit_two_pow]
  have hvalue : configured host r .minSpeed =
      (wireValue .minSpeed (minSpdCalc host 0 |||
        ((r .minSpeed).setWidth host.longBits &&& BitVec.ofNat _ lspdOpt))).setWidth
          ParamRegister.minSpeed.len := by
    rw [configured_apply, show changesOf host .minSpeed = [minSpeedChange host 0] from rfl]
    exact Change.update_on_self host .minSpeed _ _
  rw [hvalue]
  simp only [wireValue, minSpdCalc_zero, BitVec.getLsbD_setWidth, BitVec.getLsbD_or,
    BitVec.getLsbD_and, BitVec.getLsbD_ofNat, hmask]
  by_cases hi : i = 12
  · subst hi
    simp [ParamRegister.len, show 12 < host.longBits by omega]
  · simp [hi, Ne.symm hi]

theorem configured_configured (r : Registers) :
    configured host (configured host r) = configured host r := by
  funext param
  by_cases hwritten : param ∈ setUpWrites
  · by_cases hstep : param = .stepMode
    · subst hstep
      apply BitVec.eq_of_getLsbD_eq
      intro i _
      rw [configured_stepMode, configured_stepMode]
      split
      · rfl
      · rfl
    · by_cases hmin : param = .minSpeed
      · subst hmin
        apply BitVec.eq_of_getLsbD_eq
        intro i _
        rw [configured_minSpeed, configured_minSpeed, configured_minSpeed]
        simp
      · exact configured_written _ _ hwritten hstep hmin
  · rw [configured_unwritten _ hwritten]

-- ---------------------------------------------------------------------------
-- Both chips
-- ---------------------------------------------------------------------------

theorem leftThenRight_runs {m : Spi Unit} {next : Registers → Registers}
    (hm : Does m (fun _ => ()) next)
    (other : ChipState → Byte → Byte) (self : Motors) (regs : Chip → Registers) :
    Runs (chain other) (leftThenRight m m) self (idle regs) () { self with nPosition := 1 }
      (idle fun chip => next (regs chip)) := by
  have hleft := hm other { self with nPosition := 0 } .left regs rfl
  have hright := hm other { self with nPosition := 1 } .right
    (Function.update regs .left (next (regs .left))) rfl
  have hboth : Function.update (Function.update regs .left (next (regs .left))) .right
      (next (Function.update regs .left (next (regs .left)) .right)) = fun chip =>
        next (regs chip) := by
    funext chip
    cases chip <;> rfl
  rw [hboth] at hright
  exact (Runs.modifyVars _ _ _).bind (hleft.bind ((Runs.modifyVars _ _ _).bind hright))

/-- After `setUp` both register files are the same function of what they were.
They agree on every register that is written, but for the bits of STEP_MODE and
MIN_SPEED that are not, no other register has changed, and a second `setUp`
changes none. -/
theorem setUp_registers (host : Host) (other : ChipState → Byte → Byte) (self : Motors)
    (regs : Chip → Registers) :
    Runs (chain other) (setUp host) self (idle regs) () { self with nPosition := 1 }
      (idle fun chip => configured host (regs chip)) ∧
    Runs (chain other) (do setUp host; setUp host) self (idle regs) () { self with nPosition := 1 }
      (idle fun chip => configured host (regs chip)) ∧
    (∀ param ∈ setUpWrites, param ≠ .stepMode → param ≠ .minSpeed →
      configured host (regs .left) param = configured host (regs .right) param) ∧
    (∀ chip i, (configured host (regs chip) .stepMode).getLsbD i =
      if i < 3 then (0x06 : Byte).getLsbD i else (regs chip .stepMode).getLsbD i) ∧
    (∀ chip i, (configured host (regs chip) .minSpeed).getLsbD i =
      (decide (i = 12) && (regs chip .minSpeed).getLsbD 12)) ∧
    ∀ chip, ∀ param ∉ setUpWrites, configured host (regs chip) param = regs chip param := by
  have hchip : Does (configure host) (fun _ => ()) (applyAll (configureChanges host)) :=
    configure_does
  have hfirst := leftThenRight_runs hchip other self regs
  have hsecond := leftThenRight_runs hchip other { self with nPosition := 1 }
    fun chip => configured host (regs chip)
  rw [← setUp_eq] at hfirst hsecond
  have hagain : (fun chip => applyAll (configureChanges host) (configured host (regs chip))) =
      fun chip => configured host (regs chip) :=
    funext fun chip => configured_configured (regs chip)
  rw [hagain] at hsecond
  refine ⟨hfirst, hfirst.seq hsecond, ?_, ?_, ?_, ?_⟩
  · intro param hwritten hstep hmin
    exact configured_written _ _ hwritten hstep hmin
  · intro chip i
    exact configured_stepMode _ i
  · intro chip i
    exact configured_minSpeed _ i
  · intro chip param hunwritten
    exact configured_unwritten _ hunwritten

end LineFollower
