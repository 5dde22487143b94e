import LineFollower.Lib.Fields
import LineFollower.Motors.SetUp

/-!
# Fields of the registers

CONFIG, STEP_MODE and MIN_SPEED are shared by the setters of their fields. The
fields are a `Layout`, and every setter of a field does nothing but write the
fields that it is named for. So the fields are independent under any sequence
of setters (`setters_fields`).
-/

namespace LineFollower

open Lib Lib.Exchange

def minSpeedMask : Nat := 0x0FFF

-- ---------------------------------------------------------------------------
-- The layout
-- ---------------------------------------------------------------------------

inductive Field
  | oscSel | swMode | enVsComp | ocSd | powSr | fPwmDec | fPwmInt
  | stepSel | syncSel | syncEn
  | minSpeed | lspdOpt
  deriving DecidableEq, Repr

namespace Field

def param : Field → ParamRegister
  | oscSel | swMode | enVsComp | ocSd | powSr | fPwmDec | fPwmInt => .config
  | stepSel | syncSel | syncEn => .stepMode
  | minSpeed | lspdOpt => .minSpeed

def mask : Field → Nat
  | oscSel => configOscSelMask
  | swMode => configSwModeMask
  | enVsComp => configEnVsCompMask
  | ocSd => configOcSdMask
  | powSr => configPowSrMask
  | fPwmDec => configFPwmDecMask
  | fPwmInt => configFPwmIntMask
  | stepSel => stepSelMask.toNat
  | syncSel => syncSelMask.toNat
  | syncEn => LineFollower.syncEn.toNat
  | minSpeed => minSpeedMask
  | lspdOpt => LineFollower.lspdOpt

theorem mask_disjoint {f g : Field} (hne : f ≠ g) (hparam : f.param = g.param) :
    f.mask &&& g.mask = 0 := by
  cases f <;> cases g <;> first | exact absurd rfl hne | rfl | cases hparam

theorem mask_lt (f : Field) : f.mask < 2 ^ f.param.len := by
  cases f <;> decide

end Field

def fields : Layout ParamRegister ParamRegister.len Field where
  cell := Field.param
  mask f := BitVec.ofNat _ f.mask
  disjoint f g i hne hparam hf := by
    have hzero := congrArg (Nat.testBit · i) (Field.mask_disjoint hne hparam)
    simp only [Nat.testBit_and, Nat.zero_testBit] at hzero
    rw [BitVec.getLsbD_ofNat, Bool.and_eq_true] at hf
    rw [BitVec.getLsbD_ofNat]
    rw [hf.2, Bool.true_and] at hzero
    rw [hzero, Bool.and_false]

-- ---------------------------------------------------------------------------
-- Setters
-- ---------------------------------------------------------------------------

/-- The setters that read, modify and write one of the three registers. -/
inductive FieldSetter
  | setPWMFreq (divisor multiplier : ℤ)
  | setSlewRate (slewRate : ℤ)
  | setOCShutdown (OCShutdown : ℤ)
  | setVoltageComp (vsCompMode : ℤ)
  | setSwitchMode (switchMode : ℤ)
  | setOscMode (oscillatorMode : ℤ)
  | configStepMode (stepMode : Byte)
  | configSyncPin (pinFunc syncSteps : Byte)
  | setMinSpeed (stepsPerSecond : ℚ)
  | setLoSpdOpt (enable : Bool)

namespace FieldSetter

variable (host : Host)

def perform : FieldSetter → Spi Unit
  | setPWMFreq divisor multiplier => LineFollower.setPWMFreq host divisor multiplier
  | setSlewRate slewRate => LineFollower.setSlewRate host slewRate
  | setOCShutdown OCShutdown => LineFollower.setOCShutdown host OCShutdown
  | setVoltageComp vsCompMode => LineFollower.setVoltageComp host vsCompMode
  | setSwitchMode switchMode => LineFollower.setSwitchMode host switchMode
  | setOscMode oscillatorMode => LineFollower.setOscMode host oscillatorMode
  | configStepMode stepMode => LineFollower.configStepMode host stepMode
  | configSyncPin pinFunc syncSteps => LineFollower.configSyncPin host pinFunc syncSteps
  | setMinSpeed stepsPerSecond => LineFollower.setMinSpeed host stepsPerSecond
  | setLoSpdOpt enable => LineFollower.setLoSpdOpt host enable

def sets : FieldSetter → List (Field × ULong host)
  | setPWMFreq divisor multiplier =>
    [(.fPwmInt, BitVec.ofInt _ divisor), (.fPwmDec, BitVec.ofInt _ multiplier)]
  | setSlewRate slewRate => [(.powSr, BitVec.ofInt _ slewRate)]
  | setOCShutdown OCShutdown => [(.ocSd, BitVec.ofInt _ OCShutdown)]
  | setVoltageComp vsCompMode => [(.enVsComp, BitVec.ofInt _ vsCompMode)]
  | setSwitchMode switchMode => [(.swMode, BitVec.ofInt _ switchMode)]
  | setOscMode oscillatorMode => [(.oscSel, BitVec.ofInt _ oscillatorMode)]
  | configStepMode stepMode => [(.stepSel, stepMode.setWidth _)]
  | configSyncPin pinFunc syncSteps =>
    [(.syncEn, pinFunc.setWidth _), (.syncSel, syncSteps.setWidth _)]
  | setMinSpeed stepsPerSecond => [(.minSpeed, minSpdCalc host stepsPerSecond)]
  | setLoSpdOpt enable => [(.lspdOpt, if enable then BitVec.ofNat _ lspdOpt else 0)]

end FieldSetter

variable {host : Host}

theorem update_writes {param : ParamRegister} {f : ULong host → ULong host}
    {ws : List (Field × ULong host)} (hparam : ∀ e ∈ ws, e.1.param = param)
    (hbits : ∀ x i, i < param.len →
      (wireValue param (f (x.setWidth host.longBits))).getLsbD i =
        (onAll (fields.writes ws) param x).getLsbD i) :
    Does (do let v ← getParam host param; setParam host param (f v)) (fun _ => ())
      (applyAll (fields.writes ws)) := by
  refine (update_does param f).congr (fun _ => rfl) fun r => funext fun p => ?_
  change (Change.update host param f).on p (r p) = onAll (fields.writes ws) p (r p)
  by_cases hp : param = p
  · subst hp
    rw [Change.update_on_self]
    apply BitVec.eq_of_getLsbD_eq
    intro i hi
    rw [BitVec.getLsbD_setWidth, hbits (r param) i hi, decide_eq_true hi, Bool.true_and]
  · rw [Modify.on_ne hp, onAll_ne fun w hw => ?_]
    obtain ⟨e, he, rfl⟩ := List.mem_map.mp hw
    exact fun hcell => hp ((hparam e he).symm.trans hcell)

theorem write_bit (f : Field) {param : ParamRegister} (h : f.param = param) (v : ULong host)
    (x : BitVec param.len) {i : ℕ} (hi : i < param.len) :
    ((fields.write f v).on param x).getLsbD i =
      if f.mask.testBit i then v.getLsbD i else x.getLsbD i := by
  subst h
  have hmask : (fields.mask f).getLsbD i = f.mask.testBit i := by
    change (BitVec.ofNat f.param.len f.mask).getLsbD i = _
    rw [BitVec.getLsbD_ofNat, decide_eq_true hi, Bool.true_and]
  rw [Layout.getLsbD_write, hmask]
  simp only [true_and, show fields.cell f = f.param from rfl]

theorem replace_bit {w : ℕ} (x m v : BitVec w) (i : ℕ) :
    ((x &&& ~~~m) ||| (m &&& v)).getLsbD i = if m.getLsbD i then v.getLsbD i else x.getLsbD i := by
  by_cases hi : i < w
  · simp only [BitVec.getLsbD_or, BitVec.getLsbD_and, BitVec.getLsbD_not, hi]
    cases m.getLsbD i <;> simp
  · simp [BitVec.getLsbD_of_ge _ i (Nat.le_of_not_lt hi)]

theorem lt_longBits {param : ParamRegister} {i : ℕ} (hi : i < param.len) : i < host.longBits := by
  have hlen : param.len ≤ 32 := by cases param <;> decide
  have hwide := host.le_longBits
  omega

theorem long_bit {param : ParamRegister} (x : BitVec param.len) {i : ℕ} (hi : i < param.len) :
    (x.setWidth host.longBits).getLsbD i = x.getLsbD i := by
  rw [BitVec.getLsbD_setWidth, decide_eq_true (lt_longBits hi), Bool.true_and]

theorem mask_bit {param : ParamRegister} (mask : ℕ) {i : ℕ} (hi : i < param.len) :
    (BitVec.ofNat host.longBits mask).getLsbD i = mask.testBit i := by
  rw [BitVec.getLsbD_ofNat, decide_eq_true (lt_longBits hi), Bool.true_and]

theorem setConfigField_writes {f : Field} (hf : f.param = .config) (value : ℤ) :
    Does (setConfigField host f.mask value) (fun _ => ())
      (applyAll (fields.writes [(f, (BitVec.ofInt host.longBits value))])) := by
  refine update_writes (by simpa using hf) fun x i hi => ?_
  refine Eq.trans ?_ (write_bit f hf _ x hi).symm
  simp only [wireValue, replaceField, replace_bit, mask_bit f.mask hi, long_bit x hi]

theorem setPWMFreq_writes (divisor multiplier : ℤ) :
    Does (setPWMFreq host divisor multiplier) (fun _ => ())
      (applyAll (fields.writes [(.fPwmInt, BitVec.ofInt host.longBits divisor),
        (.fPwmDec, BitVec.ofInt host.longBits multiplier)])) := by
  refine update_writes (by simp [Field.param]) fun x i hi => ?_
  have hint : Field.fPwmInt.param = .config := rfl
  have hdec : Field.fPwmDec.param = .config := rfl
  have hapart :=
    congrArg (Nat.testBit · i) (show configFPwmIntMask &&& configFPwmDecMask = 0 from rfl)
  simp only [Nat.testBit_and, Nat.zero_testBit] at hapart
  refine Eq.trans ?_ (write_bit .fPwmDec hdec _ _ hi).symm
  rw [write_bit .fPwmInt hint _ x hi]
  simp only [wireValue, BitVec.getLsbD_or, BitVec.getLsbD_and, BitVec.getLsbD_not,
    mask_bit _ hi, long_bit x hi, lt_longBits hi, Field.mask, decide_true, Bool.true_and]
  by_cases hint : configFPwmIntMask.testBit i = true
  · have hdec : configFPwmDecMask.testBit i = false := by rwa [hint, Bool.true_and] at hapart
    simp [hint, hdec]
  · by_cases hdec : configFPwmDecMask.testBit i = true
    · simp [hint, hdec]
    · simp [hint, hdec]

theorem configStepMode_writes (stepMode : Byte) :
    Does (configStepMode host stepMode) (fun _ => ())
      (applyAll (fields.writes [(.stepSel, stepMode.setWidth host.longBits)])) := by
  have hstep : Field.stepSel.param = .stepMode := rfl
  refine update_writes (by simp [Field.param]) fun x i hi => ?_
  have hbyte : i < 8 := hi
  have hmask : stepSelMask.getLsbD i = Field.stepSel.mask.testBit i := rfl
  refine Eq.trans ?_ (write_bit .stepSel hstep _ x hi).symm
  rw [BitVec.and_comm stepMode]
  simp only [wireValue, BitVec.getLsbD_setWidth, replace_bit, lt_longBits hi, hbyte, hmask,
    decide_true,
    Bool.true_and]

/-- The preserved nibble is what the two fields leave. -/
theorem syncPin_nibble {i : ℕ} (hi : i < 8) :
    (0x0F : Byte).getLsbD i = (!syncEn.getLsbD i && !syncSelMask.getLsbD i) := by
  revert i
  decide

theorem configSyncPin_writes (pinFunc syncSteps : Byte) :
    Does (configSyncPin host pinFunc syncSteps) (fun _ => ())
      (applyAll (fields.writes [(.syncEn, pinFunc.setWidth host.longBits),
        (.syncSel, syncSteps.setWidth host.longBits)])) := by
  have hen : Field.syncEn.param = .stepMode := rfl
  have hsel : Field.syncSel.param = .stepMode := rfl
  refine update_writes (by simp [Field.param]) fun x i hi => ?_
  have hbyte : i < 8 := hi
  have hmaskEn : Field.syncEn.mask.testBit i = syncEn.getLsbD i := rfl
  have hmaskSel : Field.syncSel.mask.testBit i = syncSelMask.getLsbD i := rfl
  have hapart := congrArg (BitVec.getLsbD · i) (show syncEn &&& syncSelMask = 0 from rfl)
  simp only [BitVec.getLsbD_and] at hapart
  refine Eq.trans ?_ (write_bit .syncSel hsel _ _ hi).symm
  rw [write_bit .syncEn hen _ x hi]
  simp only [wireValue, BitVec.getLsbD_setWidth, BitVec.getLsbD_or, BitVec.getLsbD_and,
    syncPin_nibble hbyte, lt_longBits hi, hbyte, hmaskEn, hmaskSel, decide_true, Bool.true_and]
  by_cases hb : syncEn.getLsbD i = true
  · have hs : syncSelMask.getLsbD i = false := by simpa [hb] using hapart
    simp [hb, hs]
  · by_cases hs : syncSelMask.getLsbD i = true
    · simp [hb, hs]
    · simp [hb, hs]

/-- Whatever the speed, and whatever the host makes of it, the value fits its
field. -/
theorem minSpdCalc_le (stepsPerSec : ℚ) : (minSpdCalc host stepsPerSec).toNat ≤ 0xFFF := by
  have hpow : 2 ^ 32 ≤ 2 ^ host.longBits := Nat.pow_le_pow_right (by decide) host.le_longBits
  have hbound : (0x00000FFF : ULong host).toNat = 0xFFF := by
    rw [BitVec.ofNat_eq_ofNat, BitVec.toNat_ofNat, Nat.mod_eq_of_lt (hpow.trans_lt' (by norm_num))]
  simp only [minSpdCalc, GT.gt, BitVec.lt_def, hbound]
  split
  · rw [hbound]
  · omega

theorem lspdOpt_bit (i : ℕ) : lspdOpt.testBit i = decide (12 = i) := by
  rw [show lspdOpt = 2 ^ 12 from rfl, Nat.testBit_two_pow]

theorem minSpeedMask_bit (i : ℕ) : minSpeedMask.testBit i = decide (i < 12) :=
  Nat.testBit_two_pow_sub_one 12 i

theorem setMinSpeed_writes (stepsPerSecond : ℚ) :
    Does (setMinSpeed host stepsPerSecond) (fun _ => ())
      (applyAll (fields.writes [(.minSpeed, minSpdCalc host stepsPerSecond)])) := by
  have hmin : Field.minSpeed.param = .minSpeed := rfl
  refine update_writes (by simp [Field.param]) fun x i hi => ?_
  have hmask : Field.minSpeed.mask.testBit i = decide (i < 12) := minSpeedMask_bit i
  refine Eq.trans ?_ (write_bit .minSpeed hmin _ x hi).symm
  simp only [wireValue, BitVec.getLsbD_or, BitVec.getLsbD_and, mask_bit _ hi, long_bit x hi, hmask,
    lspdOpt_bit]
  by_cases hlow : i < 12
  · simp [hlow, show ¬ 12 = i by omega]
  · -- Only the bit of LSPD_OPT is left, and the value does not reach it.
    have htop : i = 12 := by
      have hlen : i < 13 := hi
      omega
    subst htop
    have hfits : (minSpdCalc host stepsPerSecond).getLsbD 12 = false :=
      Nat.testBit_lt_two_pow (Nat.lt_succ_of_le (minSpdCalc_le stepsPerSecond))
    simp [hfits]

theorem setLoSpdOpt_writes (enable : Bool) :
    Does (setLoSpdOpt host enable) (fun _ => ())
      (applyAll (fields.writes
        [(.lspdOpt, if enable then BitVec.ofNat host.longBits lspdOpt else 0)])) := by
  have hopt : Field.lspdOpt.param = .minSpeed := rfl
  refine update_writes (by simp [Field.param]) fun x i hi => ?_
  have hmask : Field.lspdOpt.mask.testBit i = decide (12 = i) := lspdOpt_bit i
  refine Eq.trans ?_ (write_bit .lspdOpt hopt _ x hi).symm
  cases enable with
  | true =>
    simp only [wireValue, ↓reduceIte, BitVec.getLsbD_or, mask_bit _ hi, long_bit x hi, hmask,
      lspdOpt_bit]
    by_cases htop : 12 = i <;> simp [htop]
  | false =>
    simp only [wireValue, Bool.false_eq_true, ↓reduceIte, BitVec.getLsbD_and, BitVec.getLsbD_not,
      mask_bit _ hi, long_bit x hi, hmask, lspdOpt_bit, lt_longBits hi]
    by_cases htop : 12 = i <;> simp [htop]

theorem FieldSetter.does (s : FieldSetter) :
    Does (s.perform host) (fun _ => ()) (applyAll (fields.writes (s.sets host))) := by
  cases s with
  | setPWMFreq divisor multiplier => exact setPWMFreq_writes divisor multiplier
  | setSlewRate slewRate => exact @setConfigField_writes host .powSr rfl slewRate
  | setOCShutdown OCShutdown => exact @setConfigField_writes host .ocSd rfl OCShutdown
  | setVoltageComp vsCompMode => exact @setConfigField_writes host .enVsComp rfl vsCompMode
  | setSwitchMode switchMode => exact @setConfigField_writes host .swMode rfl switchMode
  | setOscMode oscillatorMode => exact @setConfigField_writes host .oscSel rfl oscillatorMode
  | configStepMode stepMode => exact configStepMode_writes stepMode
  | configSyncPin pinFunc syncSteps => exact configSyncPin_writes pinFunc syncSteps
  | setMinSpeed stepsPerSecond => exact setMinSpeed_writes stepsPerSecond
  | setLoSpdOpt enable => exact setLoSpdOpt_writes enable

-- ---------------------------------------------------------------------------
-- Getters
-- ---------------------------------------------------------------------------

inductive FieldGetter
  | getPWMFreqDivisor
  | getPWMFreqMultiplier
  | getSlewRate
  | getOCShutdown
  | getVoltageComp
  | getSwitchMode
  | getOscMode
  | getStepMode
  | getMinSpeed
  | getLoSpdOpt

namespace FieldGetter

def Result : FieldGetter → Type
  | getStepMode => Byte
  | getMinSpeed => ℚ
  | getLoSpdOpt => Bool
  | _ => ℤ

def field : FieldGetter → Field
  | getPWMFreqDivisor => .fPwmInt
  | getPWMFreqMultiplier => .fPwmDec
  | getSlewRate => .powSr
  | getOCShutdown => .ocSd
  | getVoltageComp => .enVsComp
  | getSwitchMode => .swMode
  | getOscMode => .oscSel
  | getStepMode => .stepSel
  | getMinSpeed => .minSpeed
  | getLoSpdOpt => .lspdOpt

def perform (host : Host) : (g : FieldGetter) → Spi g.Result
  | getPWMFreqDivisor => LineFollower.getPWMFreqDivisor host
  | getPWMFreqMultiplier => LineFollower.getPWMFreqMultiplier host
  | getSlewRate => LineFollower.getSlewRate host
  | getOCShutdown => LineFollower.getOCShutdown host
  | getVoltageComp => LineFollower.getVoltageComp host
  | getSwitchMode => LineFollower.getSwitchMode host
  | getOscMode => LineFollower.getOscMode host
  | getStepMode => LineFollower.getStepMode host
  | getMinSpeed => LineFollower.getMinSpeed host
  | getLoSpdOpt => LineFollower.getLoSpdOpt host

def ofField : (g : FieldGetter) → BitVec g.field.param.len → g.Result
  | getPWMFreqDivisor, x => (x.toNat : ℤ)
  | getPWMFreqMultiplier, x => (x.toNat : ℤ)
  | getSlewRate, x => (x.toNat : ℤ)
  | getOCShutdown, x => (x.toNat : ℤ)
  | getVoltageComp, x => (x.toNat : ℤ)
  | getSwitchMode, x => (x.toNat : ℤ)
  | getOscMode, x => (x.toNat : ℤ)
  | getStepMode, x => (x : Byte)
  | getMinSpeed, x => (x.toNat * 0.238 : ℚ)
  | getLoSpdOpt, x => decide (x ≠ 0)

end FieldGetter

theorem read_toNat (r : Registers) (f : Field) :
    (fields.read r f).toNat = (r f.param).toNat &&& f.mask := by
  have hand :
      (fields.read r f).toNat = (r f.param).toNat &&& (BitVec.ofNat f.param.len f.mask).toNat :=
    BitVec.toNat_and _ _
  rw [hand, BitVec.toNat_ofNat, Nat.mod_eq_of_lt f.mask_lt]

theorem masked_toNat (r : Registers) (f : Field) :
    ((r f.param).setWidth host.longBits &&& BitVec.ofNat host.longBits f.mask).toNat =
      (fields.read r f).toNat := by
  have hlen : f.param.len ≤ 32 := by cases f <;> decide
  have hpow : 2 ^ f.param.len ≤ 2 ^ host.longBits :=
    Nat.pow_le_pow_right (by decide) (hlen.trans host.le_longBits)
  rw [read_toNat, BitVec.toNat_and, BitVec.toNat_setWidth, BitVec.toNat_ofNat,
    Nat.mod_eq_of_lt (f.mask_lt.trans_le hpow), Nat.mod_eq_of_lt ((r f.param).isLt.trans_le hpow)]

theorem read_does {β : Type} (param : ParamRegister) (g : ULong host → β) :
    Does (do return g (← getParam host param)) (fun r => g ((r param).setWidth host.longBits)) id :=
  (getParam_does param).bind fun v => Does.pure (g v)

theorem getField_does (f : Field) :
    Does (do return ((← getParam host f.param) &&& BitVec.ofNat _ f.mask).toInt)
      (fun r => ((fields.read r f).toNat : ℤ)) id := by
  refine (read_does f.param _).congr (fun r => ?_) fun _ => rfl
  -- No mask reaches the sign.
  have hmask : f.mask < 2 ^ 16 := by cases f <;> decide
  have hpow : 2 ^ 32 ≤ 2 ^ host.longBits := Nat.pow_le_pow_right (by decide) host.le_longBits
  have hle : (fields.read r f).toNat ≤ f.mask := by
    rw [read_toNat]
    exact Nat.and_le_right
  rw [BitVec.toInt_eq_toNat_of_lt, masked_toNat]
  rw [masked_toNat]
  omega

theorem getStepMode_does :
    Does (getStepMode host) (fun r => (fields.read r .stepSel : Byte)) id := by
  refine (read_does .stepMode _).congr (fun r => ?_) fun _ => rfl
  have hmask :
      stepSelMask.setWidth host.longBits = BitVec.ofNat host.longBits Field.stepSel.mask := by
    apply BitVec.eq_of_toNat_eq
    rw [BitVec.toNat_setWidth, BitVec.toNat_ofNat]
    rfl
  apply BitVec.eq_of_toNat_eq
  rw [hmask, BitVec.toNat_setWidth]
  refine (congrArg (· % 2 ^ 8) (masked_toNat r .stepSel)).trans (Nat.mod_eq_of_lt ?_)
  exact (fields.read r .stepSel).isLt

theorem getMinSpeed_does :
    Does (getMinSpeed host) (fun r => ((fields.read r .minSpeed).toNat : ℚ) * 0.238) id := by
  refine (read_does .minSpeed _).congr (fun r => ?_) fun _ => rfl
  exact congrArg (fun n : ℕ => (n : ℚ) * 0.238) (masked_toNat r .minSpeed)

theorem getLoSpdOpt_does :
    Does (getLoSpdOpt host) (fun r => decide (fields.read r .lspdOpt ≠ 0)) id := by
  refine (read_does .minSpeed _).congr (fun r => ?_) fun _ => rfl
  rw [decide_eq_decide, not_iff_not, ← BitVec.toNat_inj, ← BitVec.toNat_inj]
  exact (masked_toNat r .lspdOpt).congr_left

theorem FieldGetter.does (g : FieldGetter) :
    Does (g.perform host) (fun r => g.ofField (fields.read r g.field)) id := by
  cases g with
  | getPWMFreqDivisor => exact getField_does .fPwmInt
  | getPWMFreqMultiplier => exact getField_does .fPwmDec
  | getSlewRate => exact getField_does .powSr
  | getOCShutdown => exact getField_does .ocSd
  | getVoltageComp => exact getField_does .enVsComp
  | getSwitchMode => exact getField_does .swMode
  | getOscMode => exact getField_does .oscSel
  | getStepMode => exact getStepMode_does
  | getMinSpeed => exact getMinSpeed_does
  | getLoSpdOpt => exact getLoSpdOpt_does

-- ---------------------------------------------------------------------------
-- Sequences of setters
-- ---------------------------------------------------------------------------

def setBy (host : Host) (calls : List FieldSetter) : List (Field × ULong host) :=
  calls.flatMap (FieldSetter.sets host)

def written (host : Host) (calls : List FieldSetter) (r : Registers) : Registers :=
  applyAll (fields.writes (setBy host calls)) r

theorem setters_does (calls : List FieldSetter) :
    Does (calls.forM (FieldSetter.perform host)) (fun _ => ()) (written host calls) := by
  refine (Does.forM FieldSetter.does calls).congr (fun _ => rfl) fun r => ?_
  rw [written, setBy, Layout.writes, List.map_flatMap]
  rfl

theorem written_outside (calls : List FieldSetter) (r : Registers) {param : ParamRegister} {i : ℕ}
    (h : ∀ f : Field, f.param = param → f.mask.testBit i = false) :
    (written host calls r param).getLsbD i = (r param).getLsbD i := by
  refine Layout.writeAll_outside _ r fun f hf => ?_
  have hbit : (fields.mask f).getLsbD i = (decide (i < f.param.len) && f.mask.testBit i) :=
    BitVec.getLsbD_ofNat _ _ _
  rw [hbit, h f hf, Bool.and_false]

theorem written_other (calls : List FieldSetter) (r : Registers) {param : ParamRegister}
    (h : param ∉ [.config, .stepMode, .minSpeed]) : written host calls r param = r param := by
  apply BitVec.eq_of_getLsbD_eq
  intro i _
  refine written_outside calls r fun f hf => absurd ?_ h
  subst hf
  cases f <;> decide

/-- After any sequence of setters each field holds what the last call that set
it gave, within its mask, or what it held before, and its getter returns it.
Bit 6 of CONFIG, bit 3 of STEP_MODE and all other registers are what they were. -/
theorem setters_fields (host : Host) (calls : List FieldSetter) :
    Does (calls.forM (FieldSetter.perform host)) (fun _ => ()) (written host calls) ∧
    (∀ g : FieldGetter, Does (do calls.forM (FieldSetter.perform host); g.perform host)
      (fun r => g.ofField (fields.read (written host calls r) g.field)) (written host calls)) ∧
    ∀ r : Registers,
      (∀ f, fields.read (written host calls r) f =
        ((Layout.last f (setBy host calls)).map (fields.cut f)).getD (fields.read r f)) ∧
      (written host calls r .config).getLsbD 6 = (r .config).getLsbD 6 ∧
      (written host calls r .stepMode).getLsbD 3 = (r .stepMode).getLsbD 3 ∧
      ∀ param, param ∉ [.config, .stepMode, .minSpeed] → written host calls r param = r param := by
  refine ⟨setters_does calls, fun g => ?_, fun r => ⟨fun f => ?_, ?_, ?_, fun param => ?_⟩⟩
  · exact (setters_does calls).bind fun _ => g.does
  · exact Layout.read_writeAll _ r f
  · refine written_outside calls r fun f hf => ?_
    cases f <;> first | rfl | cases hf
  · refine written_outside calls r fun f hf => ?_
    cases f <;> first | rfl | cases hf
  · exact written_other calls r

end LineFollower
