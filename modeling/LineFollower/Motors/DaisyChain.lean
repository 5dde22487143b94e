import LineFollower.Motors.Board
import LineFollower.Motors.Chip

/-!
# The board keeps the framing law

Every operation of `Motors` follows `daisyChain` for any set of opcodes that
has those it sends. From that, any sequence of operations after the
constructor is framed, whatever the chips answer (`session_framed`).
-/

namespace LineFollower

open Lib Lib.Exchange

variable {host : Host} {reply : GetReply} {allowed : Byte → Prop}

-- ---------------------------------------------------------------------------
-- Setters and polls
-- ---------------------------------------------------------------------------

section
variable (hnop : allowed cmdNop)
include hnop

theorem busyCheck_follows (hstatus : allowed (ParamRegister.status.value ||| cmdGetParam)) :
    (daisyChain reply allowed).Follows (busyCheck host) := by
  intro self as hself
  rw [busyCheck_eq]
  exact ((getParam_follows hnop hstatus).bind fun _ => .pure _) self as hself

theorem waitWhileBusy_follows (hstatus : allowed (ParamRegister.status.value ||| cmdGetParam)) :
    (daisyChain reply allowed).Follows (waitWhileBusy host) :=
  .repeatWhile ((busyCheck_follows hnop hstatus).bind fun _ => .pure _)

variable (hget : ∀ param : ParamRegister, allowed (param.value ||| cmdGetParam))
include hget

theorem getPos_follows : (daisyChain reply allowed).Follows (getPos host) :=
  (getParam_follows hnop (hget _)).bind fun _ => .pure _

theorem getVoltageComp_follows : (daisyChain reply allowed).Follows (getVoltageComp host) :=
  (getParam_follows hnop (hget _)).bind fun _ => .pure _

variable (hset : ∀ param : ParamRegister, allowed (param.value ||| cmdSetParam))
include hset

theorem configStepMode_follows (stepMode : Byte) :
    (daisyChain reply allowed).Follows (configStepMode host stepMode) :=
  (getParam_follows hnop (hget _)).bind fun _ => setParam_follows hnop (hset _) _

theorem setMinSpeed_follows (stepsPerSecond : ℚ) :
    (daisyChain reply allowed).Follows (setMinSpeed host stepsPerSecond) :=
  (getParam_follows hnop (hget _)).bind fun _ => setParam_follows hnop (hset _) _

theorem setPWMFreq_follows (divisor multiplier : ℤ) :
    (daisyChain reply allowed).Follows (setPWMFreq host divisor multiplier) :=
  (getParam_follows hnop (hget _)).bind fun _ => setParam_follows hnop (hset _) _

theorem setConfigField_follows (mask : Nat) (value : ℤ) :
    (daisyChain reply allowed).Follows (setConfigField host mask value) :=
  (getParam_follows hnop (hget _)).bind fun _ => setParam_follows hnop (hset _) _

end

-- ---------------------------------------------------------------------------
-- Operations
-- ---------------------------------------------------------------------------

section
variable (hnop : allowed cmdNop)
    (hget : ∀ param : ParamRegister, allowed (param.value ||| cmdGetParam))
  (hset : ∀ param : ParamRegister, allowed (param.value ||| cmdSetParam))

theorem leftThenRight_follows {left right : Spi Unit}
    (hleft : (daisyChain reply allowed).Follows left)
    (hright : (daisyChain reply allowed).Follows right) :
    (daisyChain reply allowed).Follows (leftThenRight left right) :=
  (select_follows (.inl rfl)).seq (hleft.seq ((select_follows (.inr rfl)).seq hright))

include hnop

theorem resetPosition_follows (hreset : allowed cmdResetPos) :
    (daisyChain reply allowed).Follows resetPosition :=
  leftThenRight_follows (command_follows hnop argBytes_resetPos hreset)
    (command_follows hnop argBytes_resetPos hreset)

theorem delete_follows (hhard : allowed cmdHardStop) (hhiz : allowed cmdHardHiZ) :
    (daisyChain reply allowed).Follows delete := by
  have hstop : (daisyChain reply allowed).Follows hardStop :=
    command_follows hnop argBytes_hardStop hhard
  rw [delete_eq]
  apply (command_follows hnop argBytes_hardHiZ hhiz).seq
  exact (leftThenRight_follows hstop hstop).seq (.modifyVars fun _ h => h)

theorem setSpeed_follows (hstatus : allowed (ParamRegister.status.value ||| cmdGetParam))
    (hrun : ∀ dir : Direction, allowed (cmdRun ||| dir.value)) (l r : ℤ) :
    (daisyChain reply allowed).Follows (setSpeed host l r) := by
  have hwait : (daisyChain reply allowed).Follows (waitWhileBusy host) :=
    waitWhileBusy_follows hnop hstatus
  have hdrive (speed : ℤ) : (daisyChain reply allowed).Follows (drive host speed) := by
    unfold drive
    split <;> exact run_follows hnop (hrun _) _
  rw [setSpeed_eq]
  exact (leftThenRight_follows hwait hwait).seq (leftThenRight_follows (hdrive l) (hdrive r))

theorem stop_follows (hstatus : allowed (ParamRegister.status.value ||| cmdGetParam))
    (hsoft : allowed cmdSoftStop) (hhiz : allowed cmdHardHiZ) :
    (daisyChain reply allowed).Follows (stop host) := by
  have hwait : (daisyChain reply allowed).Follows (waitWhileBusy host) :=
    waitWhileBusy_follows hnop hstatus
  have hs : (daisyChain reply allowed).Follows softStop :=
    command_follows hnop argBytes_softStop hsoft
  have hz : (daisyChain reply allowed).Follows hardHiZ :=
    command_follows hnop argBytes_hardHiZ hhiz
  rw [stop_eq]
  apply (leftThenRight_follows hs hs).seq
  exact (leftThenRight_follows hwait hwait).seq (leftThenRight_follows hz hz)

include hget

theorem getPositionLeft_follows : (daisyChain reply allowed).Follows (getPositionLeft host) :=
  (select_follows (.inl rfl)).seq ((getPos_follows hnop hget).bind fun _ => .pure _)

theorem getPositionRight_follows : (daisyChain reply allowed).Follows (getPositionRight host) :=
  (select_follows (.inr rfl)).seq ((getPos_follows hnop hget).bind fun _ => .pure _)

theorem getBatteryVoltage_follows :
    (daisyChain reply allowed).Follows (getBatteryVoltage host) := by
  have hv : (daisyChain reply allowed).Follows (getVoltageComp host) :=
    getVoltageComp_follows hnop hget
  refine (select_follows (.inl rfl)).seq (hv.bind fun _ => ?_)
  exact (select_follows (.inr rfl)).seq (hv.bind fun _ => .pure _)

theorem new_follows (nSpiChipSelect : Byte) :
    (daisyChain reply allowed).Follows (new host nSpiChipSelect) := by
  have hconfig : (daisyChain reply allowed).Follows (getParam host .config) :=
    getParam_follows hnop (hget .config)
  refine Discipline.Follows.seq (.modifyVars fun _ _ => .inl rfl) (hconfig.bind fun config => ?_)
  refine Discipline.Follows.seq (.modifyVars fun self h => ?_) ?_
  · split <;> exact h
  refine (select_follows (.inr rfl)).seq (hconfig.bind fun config => .modifyVars fun self h => ?_)
  split <;> exact h

include hset

theorem setMicrostep_follows (step : Byte) :
    (daisyChain reply allowed).Follows (setMicrostep host step) :=
  leftThenRight_follows (configStepMode_follows hnop hget hset step)
    (configStepMode_follows hnop hget hset step)

theorem configure_follows : (daisyChain reply allowed).Follows (configure host) := by
  have hw (param : ParamRegister) (value : ULong host) :
      (daisyChain reply allowed).Follows (setParam host param value) :=
    setParam_follows hnop (hset param) value
  have hfield (mask : Nat) (value : ℤ) :
      (daisyChain reply allowed).Follows (setConfigField host mask value) :=
    setConfigField_follows hnop hget hset mask value
  unfold configure
  refine (hw .config _).seq ((configStepMode_follows hnop hget hset _).seq ?_)
  refine Discipline.Follows.seq (hw .maxSpeed _) ((setMinSpeed_follows hnop hget hset _).seq ?_)
  refine Discipline.Follows.seq (hw .acc _) (Discipline.Follows.seq (hw .decel _) ?_)
  apply (setPWMFreq_follows hnop hget hset _ _).seq
  apply Discipline.Follows.seq (hfield configPowSrMask _)
  apply Discipline.Follows.seq (hw .ocdTh _)
  apply Discipline.Follows.seq (hfield configOcSdMask _)
  refine (hw .stSlp _).seq ((hw .fnSlpAcc _).seq ((hw .fnSlpDec _).seq ((hw .alarmEn _).seq ?_)))
  refine Discipline.Follows.seq (hw .kvalAcc _) (Discipline.Follows.seq (hw .kvalDec _) ?_)
  exact Discipline.Follows.seq (hw .kvalRun _) (hw .kvalHold _)

theorem setUp_follows : (daisyChain reply allowed).Follows (setUp host) := by
  rw [setUp_eq]
  exact leftThenRight_follows (configure_follows hnop hget hset) (configure_follows hnop hget hset)

end

-- ---------------------------------------------------------------------------
-- Sequences of operations
-- ---------------------------------------------------------------------------

inductive Operation
  | new (nSpiChipSelect : Byte)
  | setUp
  | setSpeed (speedLeft speedRight : ℤ)
  | setMicrostep (step : Byte)
  | stop
  | busyCheck
  | getPositionLeft
  | getPositionRight
  | resetPosition
  | getBatteryVoltage
  | delete

def Operation.perform (host : Host) : Operation → Spi Unit
  | .new nSpiChipSelect => LineFollower.new host nSpiChipSelect
  | .setUp => LineFollower.setUp host
  | .setSpeed speedLeft speedRight => LineFollower.setSpeed host speedLeft speedRight
  | .setMicrostep step => LineFollower.setMicrostep host step
  | .stop => LineFollower.stop host
  | .busyCheck => do let _ ← LineFollower.busyCheck host; pure ()
  | .getPositionLeft => do let _ ← LineFollower.getPositionLeft host; pure ()
  | .getPositionRight => do let _ ← LineFollower.getPositionRight host; pure ()
  | .resetPosition => LineFollower.resetPosition
  | .getBatteryVoltage => do let _ ← LineFollower.getBatteryVoltage host; pure ()
  | .delete => LineFollower.delete

def session (host : Host) (nSpiChipSelect : Byte) (ops : List Operation) : Spi Unit := do
  new host nSpiChipSelect
  ops.forM (Operation.perform host)

inductive DriverOpcode : Byte → Prop
  | nop : DriverOpcode cmdNop
  | set (param : ParamRegister) : DriverOpcode (param.value ||| cmdSetParam)
  | get (param : ParamRegister) : DriverOpcode (param.value ||| cmdGetParam)
  | run (dir : Direction) : DriverOpcode (cmdRun ||| dir.value)
  | resetPos : DriverOpcode cmdResetPos
  | softStop : DriverOpcode cmdSoftStop
  | hardStop : DriverOpcode cmdHardStop
  | hardHiZ : DriverOpcode cmdHardHiZ

theorem perform_follows (op : Operation) :
    (daisyChain reply DriverOpcode).Follows (op.perform host) := by
  cases op with
  | new nSpiChipSelect => exact new_follows .nop .get nSpiChipSelect
  | setUp => exact setUp_follows .nop .get .set
  | setSpeed l r => exact setSpeed_follows .nop (.get _) .run l r
  | setMicrostep step => exact setMicrostep_follows .nop .get .set step
  | stop => exact stop_follows .nop (.get _) .softStop .hardHiZ
  | busyCheck => exact (busyCheck_follows .nop (.get _)).bind fun _ => .pure ()
  | getPositionLeft => exact (getPositionLeft_follows .nop .get).bind fun _ => .pure ()
  | getPositionRight => exact (getPositionRight_follows .nop .get).bind fun _ => .pure ()
  | resetPosition => exact resetPosition_follows .nop .resetPos
  | getBatteryVoltage => exact (getBatteryVoltage_follows .nop .get).bind fun _ => .pure ()
  | delete => exact delete_follows .nop .hardStop .hardHiZ

/-- The object's memory before its constructor does not matter. -/
theorem session_meets (nSpiChipSelect : Byte) (ops : List Operation) (self : Motors)
    (as : List Packet) :
    (daisyChain reply DriverOpcode).Meets (session host nSpiChipSelect ops self as) := by
  have hf : (daisyChain reply DriverOpcode).Follows (session host nSpiChipSelect ops) :=
    (new_follows .nop .get nSpiChipSelect).seq (.forM perform_follows ops)
  exact hf ⟨nSpiChipSelect, 0, false, false⟩ as (.inl rfl)

/-- Any sequence of operations, for any answers of the chips. No transfer is
made with a position outside the packet; every transfer names one chip and
sends a NOP to the other; and when the sequence has returned, each chip has
got whole commands only, with opcodes of the driver, and is idle. -/
theorem session_framed (host : Host) (nSpiChipSelect : Byte) (ops : List Operation)
    (self : Motors) (as : List Packet) :
    let o := session host nSpiChipSelect ops self as
    (∀ e, o.result ≠ .error (.fault e)) ∧
      (∀ e ∈ o.log, e.1.Addressed) ∧
      (o.result = .ok () → ∀ chip, (received .counted chip o.log).2 = none ∧
        wire chip o.log = (received .counted chip o.log).1.flatMap Command.bytes ∧
        ∀ cmd ∈ (received .counted chip o.log).1, DriverOpcode cmd.opcode) := by
  intro o
  have h : (daisyChain .counted DriverOpcode).Meets o := session_meets nSpiChipSelect ops self as
  generalize o = o at h
  obtain ⟨result, vars, rest, log⟩ := o
  cases result with
  | error stop =>
    cases stop with
    | fault e => exact h.elim
    | pending => exact ⟨by simp, h.1, by simp⟩
  | ok _ =>
    obtain ⟨-, haddr, hchips⟩ := h
    refine ⟨by simp, haddr, fun _ chip => ⟨(hchips chip).1, ?_, (hchips chip).2⟩⟩
    have hbytes := decode_bytes (none : Decoder (argBytes .counted)) (wire chip log)
    rw [show decode none (wire chip log) = received .counted chip log from rfl,
      (hchips chip).1] at hbytes
    simpa [Decoder.bytes] using hbytes.symm

end LineFollower
