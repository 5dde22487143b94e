import LineFollower.Motors.Fields
import LineFollower.Motors.Position

/-!
# The settings of a chip

The fields of CONFIG, STEP_MODE and MIN_SPEED, and the registers that are one
setting each. A `Store` holds a value of each. The registers that the motion
or the chip itself changes are no settings.

Every setter of the driver does to the store of the selected chip what its
list of settings says (`Setter.next_store`), and every getter returns what the
store holds (`Getter.does`).
-/

namespace LineFollower

open Lib Lib.Exchange

def wholeRegisters : List ParamRegister :=
  [.mark, .acc, .decel, .maxSpeed, .fsSpd, .kvalHold, .kvalRun, .kvalAcc, .kvalDec, .intSpd, .stSlp,
    .fnSlpAcc, .fnSlpDec, .kTherm, .ocdTh, .stallTh, .alarmEn]

def sharedRegisters : List ParamRegister := [.config, .stepMode, .minSpeed]

inductive Setting
  | field (f : Field)
  | register (param : ParamRegister) (h : param ∈ wholeRegisters)
  deriving DecidableEq

namespace Setting

def param : Setting → ParamRegister
  | field f => f.param
  | register param _ => param

def mask : (s : Setting) → BitVec s.param.len
  | field f => BitVec.ofNat _ f.mask
  | register param _ => BitVec.allOnes param.len

theorem field_ne (f : Field) {param : ParamRegister} (h : param ∈ wholeRegisters) :
    f.param ≠ param := by
  rintro rfl
  cases f <;> exact absurd h (by decide)

end Setting

def settings : Layout ParamRegister ParamRegister.len Setting where
  cell := Setting.param
  mask := Setting.mask
  disjoint s t i hne hparam hs := by
    cases s with
    | field f =>
      cases t with
      | field g => exact fields.disjoint f g i (fun h => hne (congrArg _ h)) hparam hs
      | register param h => exact absurd hparam (Setting.field_ne f h)
    | register param h =>
      cases t with
      | field g => exact absurd hparam.symm (Setting.field_ne g h)
      | register param' h' =>
        obtain rfl : param = param' := hparam
        exact absurd rfl hne

abbrev Store := (s : Setting) → BitVec s.param.len

def Registers.store (r : Registers) : Store := settings.read r

def Store.after {w : ℕ} (st : Store) (sets : List (Setting × BitVec w)) : Store :=
  fun s => ((Layout.last s sets).map (settings.cut s)).getD (st s)

def Field.all : List Field :=
  [.oscSel, .swMode, .enVsComp, .ocSd, .powSr, .fPwmDec, .fPwmInt, .stepSel, .syncSel,
    .syncEn, .minSpeed,
    .lspdOpt]

theorem Field.mem_all (f : Field) : f ∈ Field.all := by
  cases f <;> decide

def ParamRegister.settings (param : ParamRegister) : List Setting :=
  if h : param ∈ wholeRegisters then [.register param h]
  else (Field.all.filter fun f => f.param = param).map .field

theorem mem_settings (s : Setting) (param : ParamRegister) :
    s ∈ param.settings ↔ s.param = param := by
  unfold ParamRegister.settings
  split
  · rename_i h
    rw [List.mem_singleton]
    cases s with
    | field f =>
      exact ⟨fun he => Setting.noConfusion he, fun he => absurd he (Setting.field_ne f h)⟩
    | register param' h' =>
      refine ⟨fun he => congrArg Setting.param he, fun he => ?_⟩
      obtain rfl : param' = param := he
      rfl
  · rename_i h
    rw [List.mem_map]
    cases s with
    | field f =>
      constructor
      · rintro ⟨g, hg, he⟩
        obtain rfl := Setting.field.inj he
        exact of_decide_eq_true (List.mem_filter.mp hg).2
      · intro he
        exact ⟨f, List.mem_filter.mpr ⟨f.mem_all, decide_eq_true he⟩, rfl⟩
    | register param' h' =>
      constructor
      · rintro ⟨g, -, he⟩
        cases he
      · rintro rfl
        exact absurd h' h

namespace Store

theorem after_append {w : ℕ} (st : Store) (sets sets' : List (Setting × BitVec w)) :
    (st.after sets).after sets' = st.after (sets ++ sets') := by
  funext s
  simp only [after, Layout.last_append]
  cases Layout.last s sets' <;> rfl

theorem after_register {w : ℕ} (r : Registers) (param : ParamRegister) (value : BitVec w) :
    Registers.store (Function.update r param (value.setWidth param.len)) =
      r.store.after (param.settings.map fun s => (s, value)) := by
  funext s
  have hread : Registers.store (Function.update r param (value.setWidth param.len)) s =
      if settings.cell s = param then settings.cut s value else settings.read r s :=
    Layout.read_update r param value s
  by_cases h : settings.cell s = param
  · have hlast : Layout.last s (param.settings.map fun t => (t, value)) = some value :=
      (Layout.last_map s _ value).trans (if_pos ((mem_settings s param).mpr h))
    rw [after, hlast]
    exact hread.trans (if_pos h)
  · have hlast : Layout.last s (param.settings.map fun t => (t, value)) = none :=
      (Layout.last_map s _ value).trans (if_neg (mt (mem_settings s param).mp h))
    rw [after, hlast]
    exact hread.trans (if_neg h)

theorem after_fields {w : ℕ} (r : Registers) (ws : List (Field × BitVec w)) :
    Registers.store (applyAll (fields.writes ws) r) =
      r.store.after (ws.map fun e => (.field e.1, e.2)) := by
  have hwrites : fields.writes ws = settings.writes (ws.map fun e => (.field e.1, e.2)) := by
    rw [Layout.writes, Layout.writes, List.map_map]
    rfl
  funext s
  rw [hwrites]
  exact Layout.read_writeAll _ r s

end Store

-- ---------------------------------------------------------------------------
-- Setters
-- ---------------------------------------------------------------------------

variable {host : Host}

/-- The setters that write a register without reading it. -/
inductive RegisterSetter (host : Host)
  | setParam (param : ParamRegister) (h : param ∈ sharedRegisters ++ wholeRegisters)
    (value : ULong host)
  | setMaxSpeed (stepsPerSecond : ℚ)
  | setFullSpeed (stepsPerSecond : ℚ)
  | setAcc (stepsPerSecondPerSecond : ℚ)
  | setDec (stepsPerSecondPerSecond : ℚ)
  | setOCThreshold (threshold : Byte)
  | setAccKVAL (kvalInput : Byte)
  | setDecKVAL (kvalInput : Byte)
  | setRunKVAL (kvalInput : Byte)
  | setHoldKVAL (kvalInput : Byte)
  | setMark (newMark : ULong host)

namespace RegisterSetter

def perform : RegisterSetter host → Spi Unit
  | setParam param _ value => LineFollower.setParam host param value
  | setMaxSpeed stepsPerSecond => LineFollower.setMaxSpeed host stepsPerSecond
  | setFullSpeed stepsPerSecond => LineFollower.setFullSpeed host stepsPerSecond
  | setAcc stepsPerSecondPerSecond => LineFollower.setAcc host stepsPerSecondPerSecond
  | setDec stepsPerSecondPerSecond => LineFollower.setDec host stepsPerSecondPerSecond
  | setOCThreshold threshold => LineFollower.setOCThreshold host threshold
  | setAccKVAL kvalInput => LineFollower.setAccKVAL host kvalInput
  | setDecKVAL kvalInput => LineFollower.setDecKVAL host kvalInput
  | setRunKVAL kvalInput => LineFollower.setRunKVAL host kvalInput
  | setHoldKVAL kvalInput => LineFollower.setHoldKVAL host kvalInput
  | setMark newMark => LineFollower.setMark host newMark

def param : RegisterSetter host → ParamRegister
  | setParam param _ _ => param
  | setMaxSpeed _ => .maxSpeed
  | setFullSpeed _ => .fsSpd
  | setAcc _ => .acc
  | setDec _ => .decel
  | setOCThreshold _ => .ocdTh
  | setAccKVAL _ => .kvalAcc
  | setDecKVAL _ => .kvalDec
  | setRunKVAL _ => .kvalRun
  | setHoldKVAL _ => .kvalHold
  | setMark _ => .mark

def value : RegisterSetter host → ULong host
  | setParam _ _ value => value
  | setMaxSpeed stepsPerSecond => maxSpdCalc host stepsPerSecond
  | setFullSpeed stepsPerSecond => fsCalc host stepsPerSecond
  | setAcc stepsPerSecondPerSecond => accCalc host stepsPerSecondPerSecond
  | setDec stepsPerSecondPerSecond => decCalc host stepsPerSecondPerSecond
  | setOCThreshold threshold => (0x0F &&& threshold).setWidth host.longBits
  | setAccKVAL kvalInput => kvalInput.setWidth host.longBits
  | setDecKVAL kvalInput => kvalInput.setWidth host.longBits
  | setRunKVAL kvalInput => kvalInput.setWidth host.longBits
  | setHoldKVAL kvalInput => kvalInput.setWidth host.longBits
  | setMark newMark => newMark

theorem perform_eq (s : RegisterSetter host) :
    s.perform = LineFollower.setParam host s.param s.value := by
  cases s <;> rfl

theorem param_mem (s : RegisterSetter host) : s.param ∈ sharedRegisters ++ wholeRegisters := by
  cases s with
  | setParam param h value => exact h
  | _ => simp [param, sharedRegisters, wholeRegisters]

end RegisterSetter

inductive Setter (host : Host)
  | field (s : FieldSetter)
  | register (s : RegisterSetter host)

namespace Setter

def perform : Setter host → Spi Unit
  | field s => s.perform host
  | register s => s.perform

def sets : Setter host → List (Setting × ULong host)
  | field s => (s.sets host).map fun e => (.field e.1, e.2)
  | register s => s.param.settings.map fun t => (t, wireValue s.param s.value)

def next : Setter host → Registers → Registers
  | field s => applyAll (fields.writes (s.sets host))
  | register s => fun r => Function.update r s.param
    ((wireValue s.param s.value).setWidth s.param.len)

theorem does (s : Setter host) : Does s.perform (fun _ => ()) s.next := by
  cases s with
  | field s => exact s.does
  | register s =>
    rw [perform, RegisterSetter.perform_eq]
    exact setParam_does s.param s.value

theorem next_store (s : Setter host) (r : Registers) : (s.next r).store = r.store.after s.sets := by
  cases s with
  | field s => exact Store.after_fields r _
  | register s => exact Store.after_register r s.param _

theorem next_other (s : Setter host) (r : Registers) {param : ParamRegister}
    (h : param ∉ sharedRegisters ++ wholeRegisters) : s.next r param = r param := by
  cases s with
  | field s =>
    refine onAll_ne (fun w hw hcell => h ?_) _
    obtain ⟨e, -, rfl⟩ := List.mem_map.mp hw
    obtain ⟨f, v⟩ := e
    obtain rfl : f.param = param := hcell
    cases f <;> decide
  | register s =>
    refine Function.update_of_ne (fun he => h ?_) _ _
    rw [he]
    exact s.param_mem

theorem forM_does (setters : List (Setter host)) :
    Does (setters.forM perform) (fun _ => ()) (fun r => setters.foldl (fun r s => s.next r) r) := by
  induction setters with
  | nil => exact .pure ()
  | cons s ss ih => exact (s.does).bind fun _ => ih

theorem foldl_store (setters : List (Setter host)) (r : Registers) :
    (setters.foldl (fun r s => s.next r) r).store = r.store.after (setters.flatMap sets) := by
  induction setters generalizing r with
  | nil => rfl
  | cons s ss ih => rw [List.foldl_cons, ih, next_store, Store.after_append, List.flatMap_cons]

end Setter

def configureSetters (host : Host) : List (Setter host) := [
  .register (.setParam .config (by decide) 0x2e8B),
  .field (.configStepMode 0x06),
  .register (.setMaxSpeed 400),
  .field (.setMinSpeed 0),
  .register (.setAcc 350),
  .register (.setDec 1000),
  .field (.setPWMFreq (0x00 <<< 13) (0x07 <<< 10)),
  .field (.setSlewRate configPowSr260Vus),
  .register (.setOCThreshold 0x09),
  .field (.setOCShutdown 0x0000),
  .register (.setParam .stSlp (by decide) 0x00),
  .register (.setParam .fnSlpAcc (by decide) 0x00),
  .register (.setParam .fnSlpDec (by decide) 0x00),
  .register (.setParam .alarmEn (by decide) 0x00),
  .register (.setAccKVAL 0x6F),
  .register (.setDecKVAL 0x64),
  .register (.setRunKVAL 0x64),
  .register (.setHoldKVAL 0x00)]

theorem configure_setters : (configureSetters host).forM Setter.perform = configure host := by
  simp only [configureSetters, List.forM_eq_forM, List.forM_cons, List.forM_nil, bind_pure_unit,
    Setter.perform, RegisterSetter.perform, FieldSetter.perform, configure]

/-- What a program makes of the registers is the only thing it makes of them. -/
theorem Does.unique {α : Type} {m : Spi α} {result result' : Registers → α}
    {next next' : Registers → Registers} (h : Does m result next) (h' : Does m result' next') :
    next = next' := by
  funext r
  have hrun := h (fun _ _ => 0) ⟨0, 0, false, false⟩ .left (fun _ => r) rfl
  have hrun' := h' (fun _ _ => 0) ⟨0, 0, false, false⟩ .left (fun _ => r) rfl
  have hchips := congrFun (hrun.unique hrun').2.2 .left
  simpa only [idle, Function.update_self, ChipState.mk.injEq, true_and] using hchips

theorem configured_store (r : Registers) :
    (configured host r).store = r.store.after ((configureSetters host).flatMap Setter.sets) := by
  have hsetters := Setter.forM_does (configureSetters host)
  rw [configure_setters] at hsetters
  have hnext := congrFun (configure_does.unique hsetters) r
  rw [← Setter.foldl_store, ← hnext]
  rfl

-- ---------------------------------------------------------------------------
-- Getters
-- ---------------------------------------------------------------------------

inductive Getter
  | field (g : FieldGetter)
  | getParam (param : ParamRegister) (h : param ∈ wholeRegisters)
  | getMaxSpeed
  | getFullSpeed
  | getAcc
  | getDec
  | getOCThreshold
  | getAccKVAL
  | getDecKVAL
  | getRunKVAL
  | getHoldKVAL
  | getMark

namespace Getter

def Result (host : Host) : Getter → Type
  | field g => g.Result
  | getParam _ _ | getMark => ULong host
  | getMaxSpeed | getFullSpeed | getAcc | getDec => ℚ
  | getOCThreshold | getAccKVAL | getDecKVAL | getRunKVAL | getHoldKVAL => Byte

def perform (host : Host) : (g : Getter) → Spi (g.Result host)
  | field g => g.perform host
  | getParam param _ => LineFollower.getParam host param
  | getMaxSpeed => LineFollower.getMaxSpeed host
  | getFullSpeed => LineFollower.getFullSpeed host
  | getAcc => LineFollower.getAcc host
  | getDec => LineFollower.getDec host
  | getOCThreshold => LineFollower.getOCThreshold host
  | getAccKVAL => LineFollower.getAccKVAL host
  | getDecKVAL => LineFollower.getDecKVAL host
  | getRunKVAL => LineFollower.getRunKVAL host
  | getHoldKVAL => LineFollower.getHoldKVAL host
  | getMark => LineFollower.getMark host

def setting : Getter → Setting
  | field g => .field g.field
  | getParam param h => .register param h
  | getMaxSpeed => .register .maxSpeed (by decide)
  | getFullSpeed => .register .fsSpd (by decide)
  | getAcc => .register .acc (by decide)
  | getDec => .register .decel (by decide)
  | getOCThreshold => .register .ocdTh (by decide)
  | getAccKVAL => .register .kvalAcc (by decide)
  | getDecKVAL => .register .kvalDec (by decide)
  | getRunKVAL => .register .kvalRun (by decide)
  | getHoldKVAL => .register .kvalHold (by decide)
  | getMark => .register .mark (by decide)

def ofSetting (host : Host) : (g : Getter) → BitVec g.setting.param.len → g.Result host
  | field g, x => g.ofField x
  | getParam _ _, x => x.setWidth host.longBits
  | getMaxSpeed, x => (x.toNat / 0.065536 : ℚ)
  | getFullSpeed, x => ((x.toNat + 0.5) / 0.065536 : ℚ)
  | getAcc, x => (x.toNat / 0.137438 : ℚ)
  | getDec, x => (x.toNat / 0.137438 : ℚ)
  | getOCThreshold, x => (x : Byte) &&& 0xF
  | getAccKVAL, x => (x : Byte)
  | getDecKVAL, x => (x : Byte)
  | getRunKVAL, x => (x : Byte)
  | getHoldKVAL, x => (x : Byte)
  | getMark, x => extendPos (x.setWidth host.longBits)

end Getter

theorem store_register (r : Registers) {param : ParamRegister} (h : param ∈ wholeRegisters) :
    r.store (.register param h) = r param := BitVec.and_allOnes

theorem masked_register (r : Registers) {param : ParamRegister} {mask : ℕ}
    (hmask : mask = 2 ^ param.len - 1) :
    ((r param).setWidth host.longBits &&& BitVec.ofNat host.longBits mask).toNat =
    (r param).toNat := by
  have hlen : param.len ≤ 32 := by cases param <;> decide
  have hpow : 2 ^ param.len ≤ 2 ^ host.longBits :=
    Nat.pow_le_pow_right (by decide) (hlen.trans host.le_longBits)
  have hsmall : (r param).toNat < 2 ^ param.len := (r param).isLt
  rw [BitVec.toNat_and, BitVec.toNat_setWidth, BitVec.toNat_ofNat,
    Nat.mod_eq_of_lt (hsmall.trans_le hpow),
    Nat.mod_eq_of_lt (by omega), hmask, Nat.and_two_pow_sub_one_eq_mod, Nat.mod_eq_of_lt hsmall]

theorem getByte_does {param : ParamRegister} (h : param ∈ wholeRegisters) (hlen : param.len ≤ 32) :
    Does (do return ((← getParam host param).setWidth param.len))
      (fun r => r.store (.register param h)) id := by
  refine (read_does param _).congr (fun r => ?_) fun _ => rfl
  exact (setWidth_longBits host hlen (r param)).trans (store_register r h).symm

theorem getUnit_does {param : ParamRegister} (h : param ∈ wholeRegisters) {mask : ℕ}
    (hmask : mask = 2 ^ param.len - 1) (unit : ℕ → ℚ) :
    Does (do return unit ((← getParam host param) &&& BitVec.ofNat _ mask).toNat)
      (fun r => unit (r.store (.register param h)).toNat) id := by
  refine (read_does param _).congr (fun r => ?_) fun _ => rfl
  exact congrArg unit
    ((masked_register r hmask).trans (congrArg BitVec.toNat (store_register r h).symm))

theorem getParam_store {β : Type} {param : ParamRegister} (h : param ∈ wholeRegisters)
    (g : ULong host → β) :
    Does (do return g (← getParam host param))
      (fun r => g ((r.store (.register param h)).setWidth host.longBits)) id := by
  refine (read_does param _).congr (fun r => ?_) fun _ => rfl
  exact congrArg (fun x : BitVec param.len => g (x.setWidth host.longBits))
    (store_register r h).symm

theorem getOCThreshold_does :
    Does (getOCThreshold host)
      (fun r => Getter.getOCThreshold.ofSetting host (r.store Getter.getOCThreshold.setting))
        id := by
  have hwhole : .ocdTh ∈ wholeRegisters := by decide
  refine (getParam_store hwhole _).congr (fun r => ?_) fun _ => rfl
  have hmask : (0xF : ULong host).setWidth 8 = 0xF := by
    have hpow : 2 ^ 32 ≤ 2 ^ host.longBits := Nat.pow_le_pow_right (by decide) host.le_longBits
    apply BitVec.eq_of_toNat_eq
    simp [Nat.mod_eq_of_lt (hpow.trans_lt' (by decide : 15 < 2 ^ 32))]
  rw [BitVec.setWidth_and, hmask]
  exact congrArg (· &&& 0xF) (setWidth_longBits host (by decide) _)

theorem Getter.does (g : Getter) :
    Does (g.perform host) (fun r => g.ofSetting host (r.store g.setting)) id := by
  cases g with
  | field g => exact g.does
  | getParam param h =>
    refine (getParam_does param).congr (fun r => ?_) fun _ => rfl
    exact congrArg (fun x : BitVec param.len => x.setWidth host.longBits) (store_register r h).symm
  | getMaxSpeed => exact getUnit_does _ rfl fun n => n / 0.065536
  | getFullSpeed => exact getUnit_does _ rfl fun n => (n + 0.5) / 0.065536
  | getAcc => exact getUnit_does _ rfl fun n => n / 0.137438
  | getDec => exact getUnit_does _ rfl fun n => n / 0.137438
  | getOCThreshold => exact getOCThreshold_does
  | getAccKVAL => exact getByte_does _ (by decide)
  | getDecKVAL => exact getByte_does _ (by decide)
  | getRunKVAL => exact getByte_does _ (by decide)
  | getHoldKVAL => exact getByte_does _ (by decide)
  | getMark => exact getParam_store _ extendPos

end LineFollower
