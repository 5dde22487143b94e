import LineFollower.Motors.SetUp
import LineFollower.Motors.DaisyChain

/-!
# Sessions on the register file

What the operations of the board that leave the motors alone make of its variables
and of both register files, from chips whose motors stand still (`Operation.next`):
a running chip takes neither ACC nor DEC. Then no poll waits, and every operation
returns. Whatever such operations a session makes beside `setUp`, each chip keeps the
configuration of `setUp`, and the step mode that was set last
(`session_configuration`).
-/

namespace LineFollower

open Lib Lib.Exchange

variable {host : Host} {other : ChipState → Byte → Byte} {self : Motors} {regs : Chip → Registers}

-- ---------------------------------------------------------------------------
-- Commands that change no register
-- ---------------------------------------------------------------------------

theorem execute_other (r : Registers) {cmd : Command (argBytes .counted)}
    (h : cmd.opcode &&& 0xE0 ≠ cmdSetParam) : ChipState.execute r cmd = r := if_neg h

theorem command_does {b : Byte} (hb : argBytes .counted b = 0) (h : b &&& 0xE0 ≠ cmdSetParam) :
    Does (do let _ ← spiXfer b; pure ()) (fun _ => ()) id := by
  intro other self chip regs hc
  have hrun := @spiXfer_runs other _ _ hc regs ⟨none, regs chip⟩ b
  have hnext : (ChipState.step other ⟨none, regs chip⟩ b).2 = ⟨none, regs chip⟩ := by
    have hend := @ChipState.xfer_command other (regs chip) (Command.bare b hb)
    rw [execute_other _ h] at hend
    exact hend
  rw [hnext, ← idle_update, Function.update_eq_self] at hrun
  rw [id, Function.update_eq_self]
  exact hrun.bind (Runs.pure _ _ _)

-- ---------------------------------------------------------------------------
-- Polls of motors that stand still
-- ---------------------------------------------------------------------------

/-- BUSY is high. -/
def Registers.AtRest (r : Registers) : Prop := (r .status).getLsbD 1 = true

theorem busyFlag_atRest {r : Registers} (h : r.AtRest) :
    busyFlag ((r .status).setWidth host.longBits) = 0 := by
  have hbit : ((r .status).setWidth host.longBits).getLsbD 1 = true := by
    rw [BitVec.getLsbD_setWidth, show (r .status).getLsbD 1 = true from h, Bool.and_true]
    exact decide_eq_true (one_lt_longBits host)
  rw [busyFlag, if_pos ((and_statusBusy_ne_zero (one_lt_longBits host) _).mpr hbit)]

theorem busyCheck_runs {chip : Chip} (hc : packetIndex self.nPosition = some chip)
    (h : (regs chip).AtRest) :
    Runs (chain other) (busyCheck host) self (idle regs) 0 self (idle regs) := by
  have hread : Does (getParam host .status) _ id := getParam_does .status
  have hrun := hread other self chip regs hc
  rw [id, Function.update_eq_self] at hrun
  have hflag := hrun.bind (f := fun status => pure (busyFlag status)) (Runs.pure _ self (idle regs))
  rw [busyFlag_atRest h] at hflag
  have heq : busyCheck host self = (do return busyFlag (← getParam host .status) : Spi ℤ) self :=
    busyCheck_eq self
  constructor
  · rw [heq]
    exact hflag.returns
  · rw [heq]
    exact hflag.only

theorem waitWhileBusy_runs {chip : Chip} (hc : packetIndex self.nPosition = some chip)
    (h : (regs chip).AtRest) :
    Runs (chain other) (waitWhileBusy host) self (idle regs) () self (idle regs) := by
  rw [waitWhileBusy_eq]
  exact (busyCheck_runs hc h).bind (Runs.pure _ _ _)

theorem leftThenRight_both {left right : Spi Unit} {next next' : Registers → Registers}
    (hleft : Does left (fun _ => ()) next) (hright : Does right (fun _ => ()) next') :
    Runs (chain other) (leftThenRight left right) self (idle regs) () { self with nPosition := 1 }
      (idle (Function.update (Function.update regs .left (next (regs .left))) .right
        (next' (regs .right)))) := by
  have hl := hleft other { self with nPosition := 0 } .left regs rfl
  have hr := hright other { self with nPosition := 1 } .right
    (Function.update regs .left (next (regs .left))) rfl
  exact (Runs.modifyVars _ _ _).bind (hl.bind ((Runs.modifyVars _ _ _).bind hr))

theorem waits_runs (h : ∀ chip, (regs chip).AtRest) :
    Runs (chain other) (leftThenRight (waitWhileBusy host) (waitWhileBusy host)) self (idle regs) ()
      { self with nPosition := 1 } (idle regs) := by
  have hl := @waitWhileBusy_runs host other { self with nPosition := 0 } regs .left rfl (h .left)
  have hr := @waitWhileBusy_runs host other { self with nPosition := 1 } regs .right rfl (h .right)
  exact (Runs.modifyVars _ _ _).bind (hl.bind ((Runs.modifyVars _ _ _).bind hr))

theorem commands_runs {left right : Spi Unit} (hleft : Does left (fun _ => ()) id)
    (hright : Does right (fun _ => ()) id) :
    Runs (chain other) (leftThenRight left right) self (idle regs) () { self with nPosition := 1 }
      (idle regs) := by
  have hrun := @leftThenRight_both other self regs _ _ _ _ hleft hright
  simp only [id, Function.update_eq_self] at hrun
  exact hrun

-- ---------------------------------------------------------------------------
-- Operations
-- ---------------------------------------------------------------------------

/-- Neither constructs a board, which makes a reset pulse besides (`powerUp`), nor
ends one, nor drives a motor. -/
def Operation.Still : Operation → Prop
  | .new _ | .setSpeed _ _ | .delete => False
  | _ => True

/-- The board after its constructor, which has read CONFIG of both chips. -/
def constructed (nSpiChipSelect : Byte) (regs : Chip → Registers) : Motors :=
  ⟨nSpiChipSelect, 1, decide (regs .left .config = 0x2e88), decide (regs .right .config = 0x2e88)⟩

/-- What a still operation makes of a register file. -/
def Operation.effect (host : Host) : Operation → Registers → Registers
  | .setUp => configured host
  | .setMicrostep step => applyAll [stepModeChange host step]
  | _ => id

def Operation.vars (self : Motors) : Operation → Motors
  | .busyCheck => self
  | .getPositionLeft => { self with nPosition := 0 }
  | _ => { self with nPosition := 1 }

def Operation.next (host : Host) (b : Motors × (Chip → Registers)) (op : Operation) :
    Motors × (Chip → Registers) :=
  (op.vars b.1, fun chip => op.effect host (b.2 chip))

theorem config_eq_iff (r : Registers) :
    (r .config).setWidth host.longBits = 0x2e88 ↔ r .config = 0x2e88 := by
  have hwidth (x : BitVec 16) : (x.setWidth host.longBits).setWidth 16 = x :=
    setWidth_longBits host (by decide) x
  have hconst : (0x2e88 : BitVec 16).setWidth host.longBits = 0x2e88 := by
    apply BitVec.eq_of_toNat_eq
    simp
  constructor
  · intro h
    have hback := congrArg (BitVec.setWidth 16) (h.trans hconst.symm)
    exact (hwidth (r .config)).symm.trans (hback.trans (hwidth 0x2e88))
  · intro h
    rw [h]
    exact hconst

theorem new_runs (nSpiChipSelect : Byte) :
    Runs (chain other) (new host nSpiChipSelect) self (idle regs) ()
      (constructed nSpiChipSelect regs) (idle regs) := by
  have hread : Does (getParam host .config) _ id := getParam_does .config
  have hget (self : Motors) {chip : Chip} (hc : packetIndex self.nPosition = some chip) :
      Runs (chain other) (getParam host .config) self (idle regs)
        ((regs chip .config).setWidth host.longBits) self (idle regs) := by
    have hrun := hread other self chip regs hc
    rwa [id, Function.update_eq_self] at hrun
  let left : Motors := ⟨nSpiChipSelect, 0, false, false⟩
  let found : Motors := { left with lIsConnected := decide (regs .left .config = 0x2e88) }
  let right : Motors := { found with nPosition := 1 }
  have hleft : Runs (ε := Undefined) (chain other)
      (modifyVars fun self => if (regs .left .config).setWidth host.longBits = 0x2e88 then
        { self with lIsConnected := true } else self) left (idle regs) () found (idle regs) := by
    have hflag : (if (regs .left .config).setWidth host.longBits = 0x2e88 then
        { left with lIsConnected := true } else left) = found := by
      split
      · rename_i h
        simp only [found, (config_eq_iff _).mp h, decide_true]
      · rename_i h
        simp only [found, left, mt (config_eq_iff _).mpr h, decide_false]
    rw [← hflag]
    exact Runs.modifyVars _ _ _
  have hright : Runs (ε := Undefined) (chain other)
      (modifyVars fun self => if (regs .right .config).setWidth host.longBits = 0x2e88 then
        { self with rIsConnected := true } else self) right (idle regs) ()
      { right with rIsConnected := decide (regs .right .config = 0x2e88) } (idle regs) := by
    have hflag : (if (regs .right .config).setWidth host.longBits = 0x2e88 then
        { right with rIsConnected := true } else right) =
        { right with rIsConnected := decide (regs .right .config = 0x2e88) } := by
      split
      · rename_i h
        simp only [(config_eq_iff _).mp h, decide_true]
      · rename_i h
        simp only [right, found, left, mt (config_eq_iff _).mpr h, decide_false]
    rw [← hflag]
    exact Runs.modifyVars _ _ _
  refine (Runs.modifyVars _ _ _).bind ((hget left rfl).bind (hleft.bind ?_))
  exact (Runs.modifyVars _ found _).bind ((hget right rfl).bind hright)

theorem perform_runs (op : Operation) (hop : op.Still)
    (hself : self.nPosition = 0 ∨ self.nPosition = 1)
    (h : ∀ chip, (regs chip).AtRest) :
    Runs (chain other) (op.perform host) self (idle regs) () (op.next host (self, regs)).1
      (idle (op.next host (self, regs)).2) := by
  have hcommand {b : Byte} (hb : argBytes .counted b = 0) (hset : b &&& 0xE0 ≠ cmdSetParam) :
      Does (do let _ ← spiXfer b; pure ()) (fun _ => ()) id := command_does hb hset
  have hpos : Does (getPos host) _ id := (getParam_does .absPos).bind fun _ => .pure _
  have hlong : Does (do return (← getPos host).toInt) _ id := hpos.bind fun _ => .pure _
  have hcomp : Does (getVoltageComp host) _ id := (getParam_does .config).bind fun _ => .pure _
  have hsoft : Does softStop (fun _ => ()) id := hcommand rfl (by decide)
  have hhard : Does hardStop (fun _ => ()) id := hcommand rfl (by decide)
  have hhiz : Does hardHiZ (fun _ => ()) id := hcommand rfl (by decide)
  have hreset : Does resetPos (fun _ => ()) id := hcommand rfl (by decide)
  have hone {α : Type} {m : Spi α} {result : Registers → α} (hm : Does m result id) (self : Motors)
      {chip : Chip} (hc : packetIndex self.nPosition = some chip) :
      Runs (chain other) m self (idle regs) (result (regs chip)) self (idle regs) := by
    have hrun := hm other self chip regs hc
    rwa [id, Function.update_eq_self] at hrun
  cases op with
  | setUp =>
    have hrun := leftThenRight_runs (@configure_does host) other self regs
    rw [← setUp_eq] at hrun
    exact hrun
  | setMicrostep step => exact leftThenRight_runs (configStepMode_does step) other self regs
  | stop =>
    rw [Operation.perform, stop_eq]
    exact (commands_runs hsoft hsoft).bind ((waits_runs h).bind (commands_runs hhiz hhiz))
  | busyCheck =>
    obtain ⟨chip, hc⟩ := exists_packetIndex hself
    exact (busyCheck_runs hc (h chip)).bind (Runs.pure _ _ _)
  | getPositionLeft =>
    have hrun := hone hlong { self with nPosition := 0 } packetIndex_left
    exact ((Runs.modifyVars _ _ _).bind hrun).bind (Runs.pure _ _ _)
  | getPositionRight =>
    have hrun := hone hlong { self with nPosition := 1 } packetIndex_right
    exact ((Runs.modifyVars _ _ _).bind hrun).bind (Runs.pure _ _ _)
  | resetPosition => exact commands_runs hreset hreset
  | getBatteryVoltage =>
    have hl := hone hcomp { self with nPosition := 0 } packetIndex_left
    have hr := hone hcomp { self with nPosition := 1 } packetIndex_right
    obtain ⟨_, hrun⟩ :
        ∃ voltage, Runs (chain other) (getBatteryVoltage host) self (idle regs) voltage
        { self with nPosition := 1 } (idle regs) :=
      ⟨_, (Runs.modifyVars _ _ _).bind
        (hl.bind ((Runs.modifyVars _ _ _).bind (hr.bind (Runs.pure _ _ _))))⟩
    exact hrun.bind (Runs.pure _ _ _)
  | new nSpiChipSelect | setSpeed l r | delete => exact hop.elim

-- ---------------------------------------------------------------------------
-- Sequences of operations
-- ---------------------------------------------------------------------------

structure Steady (b : Motors × (Chip → Registers)) : Prop where
  selected : b.1.nPosition = 0 ∨ b.1.nPosition = 1
  atRest : ∀ chip, (b.2 chip).AtRest

theorem stepMode_effect (step : Byte) (r : Registers) {param : ParamRegister}
    (h : param ≠ .stepMode) :
    (Operation.setMicrostep step).effect host r param = r param := by
  rw [Operation.effect, applyAll_singleton]
  exact Function.update_of_ne h _ _

theorem effect_unwritten (op : Operation) (r : Registers) {param : ParamRegister}
    (h : param ∉ setUpWrites) :
    op.effect host r param = r param := by
  cases op with
  | setUp => exact configured_unwritten r h
  | setMicrostep step =>
    refine stepMode_effect step r fun hstep => h ?_
    rw [hstep]
    decide
  | _ => rfl

theorem Steady.next {b : Motors × (Chip → Registers)} (h : Steady b) (op : Operation) :
    Steady (op.next host b) where
  selected := by
    cases op with
    | busyCheck => exact h.selected
    | getPositionLeft => exact .inl rfl
    | _ => exact .inr rfl
  atRest := by
    intro chip
    have hstatus : op.effect host (b.2 chip) .status = b.2 chip .status :=
      effect_unwritten op _ (by decide)
    change (op.effect host (b.2 chip) .status).getLsbD 1 = true
    rw [hstatus]
    exact h.atRest chip

theorem forM_runs {ops : List Operation} (hops : ∀ op ∈ ops, op.Still)
    {b : Motors × (Chip → Registers)} (h : Steady b) :
    Runs (chain other) (ops.forM (Operation.perform host)) b.1 (idle b.2) ()
      (ops.foldl (Operation.next host) b).1 (idle (ops.foldl (Operation.next host) b).2) := by
  induction ops generalizing b with
  | nil => exact Runs.pure _ _ _
  | cons op ops ih =>
    obtain ⟨hop, hops⟩ := List.forall_mem_cons.mp hops
    exact (perform_runs op hop h.selected h.atRest).bind (ih hops (h.next op))

theorem foldl_next_regs (ops : List Operation) (b : Motors × (Chip → Registers)) (chip : Chip) :
    (ops.foldl (Operation.next host) b).2 chip =
      ops.foldl (fun r op => op.effect host r) (b.2 chip) := by
  induction ops generalizing b with
  | nil => rfl
  | cons op ops ih => exact ih _

theorem session_runs (nSpiChipSelect : Byte) (ops : List Operation) (hops : ∀ op ∈ ops, op.Still)
    (h : ∀ chip, (regs chip).AtRest) :
    ∃ self', Runs (chain other) (session host nSpiChipSelect ops) self (idle regs) () self'
      (idle fun chip => ops.foldl (fun r op => op.effect host r) (regs chip)) := by
  have hregs : (ops.foldl (Operation.next host) (constructed nSpiChipSelect regs, regs)).2 =
      fun chip => ops.foldl (fun r op => op.effect host r) (regs chip) :=
    funext fun chip => foldl_next_regs ops _ chip
  have hcalls :=
    @forM_runs host other ops hops (constructed nSpiChipSelect regs, regs) ⟨.inr rfl, h⟩
  rw [hregs] at hcalls
  exact ⟨_, (new_runs nSpiChipSelect).bind hcalls⟩

-- ---------------------------------------------------------------------------
-- The configuration
-- ---------------------------------------------------------------------------

def Operation.stepMode (step : Byte) : Operation → Byte
  | .setUp => 0x06
  | .setMicrostep step' => step'
  | _ => step

def lastStepMode (ops : List Operation) : Byte := ops.foldl Operation.stepMode 0

/-- What `setUp` makes of `original`, with another step mode. -/
structure SetUpKept (host : Host) (original : Registers) (step : Byte) (r : Registers) : Prop where
  written : ∀ param ∈ setUpWrites, param ≠ .stepMode → r param = configured host original param
  stepMode : ∀ i < 3, (r .stepMode).getLsbD i = step.getLsbD i

theorem stepModeChange_getLsbD (step : Byte) (r : Registers) {i : ℕ} (hi : i < 3) :
    ((Operation.setMicrostep step).effect host r .stepMode).getLsbD i = step.getLsbD i := by
  have hwidth (x : Byte) : (x.setWidth host.longBits).setWidth 8 = x :=
    setWidth_longBits host (by decide) x
  have hvalue :
      (Operation.setMicrostep step).effect host r .stepMode = withStepMode (r .stepMode) step := by
    rw [Operation.effect, applyAll_singleton]
    refine (Function.update_self _ _ _).trans ?_
    exact (hwidth _).trans (congrArg (withStepMode · step) (hwidth _))
  rw [hvalue]
  exact (withStepMode_getLsbD _ _ i).trans (if_pos hi)

/-- MIN_SPEED is never written but by `setUp`, which keeps its LSPD_OPT bit. -/
theorem effect_lspdOpt (op : Operation) (r : Registers) :
    (op.effect host r .minSpeed).getLsbD 12 = (r .minSpeed).getLsbD 12 := by
  cases op with
  | setUp =>
    change (configured host r .minSpeed).getLsbD 12 = _
    rw [configured_minSpeed]
    simp
  | setMicrostep step => rw [stepMode_effect step r (by decide)]
  | _ => rfl

theorem configured_eq {original r : Registers}
    (h : (r .minSpeed).getLsbD 12 = (original .minSpeed).getLsbD 12) {param : ParamRegister}
    (hwritten : param ∈ setUpWrites) (hstep : param ≠ .stepMode) :
    configured host r param = configured host original param := by
  by_cases hmin : param = .minSpeed
  · subst hmin
    apply BitVec.eq_of_getLsbD_eq
    intro i _
    rw [configured_minSpeed, configured_minSpeed, h]
  · exact configured_written r original hwritten hstep hmin

theorem SetUpKept.of_setUp {original r : Registers}
    (h : (r .minSpeed).getLsbD 12 = (original .minSpeed).getLsbD 12) :
    SetUpKept host original 0x06 (configured host r) where
  written := fun _ => configured_eq h
  stepMode := fun i hi => by rw [configured_stepMode, if_pos hi]

theorem SetUpKept.next {original r : Registers} {step : Byte} (h : SetUpKept host original step r)
    (op : Operation) : SetUpKept host original (op.stepMode step) (op.effect host r) := by
  cases op with
  | setUp =>
    refine .of_setUp ?_
    rw [h.written .minSpeed (by decide) (by decide), configured_minSpeed]
    simp
  | setMicrostep step' =>
    refine ⟨fun param hwritten hstep => ?_, fun i hi => stepModeChange_getLsbD step' r hi⟩
    rw [stepMode_effect step' r hstep]
    exact h.written param hwritten hstep
  | _ => exact h

theorem SetUpKept.foldl {original r : Registers} {step : Byte} (h : SetUpKept host original step r)
    (ops : List Operation) :
    SetUpKept host original (ops.foldl Operation.stepMode step)
      (ops.foldl (fun r op => op.effect host r) r) := by
  induction ops generalizing r step with
  | nil => exact h
  | cons op ops ih => exact ih (h.next op)

theorem foldl_lspdOpt (ops : List Operation) (r : Registers) :
    ((ops.foldl (fun r op => op.effect host r) r) .minSpeed).getLsbD 12 =
    (r .minSpeed).getLsbD 12 := by
  induction ops generalizing r with
  | nil => rfl
  | cons op ops ih =>
    rw [List.foldl_cons, ih]
    exact effect_lspdOpt op r

/-- A session of still operations that calls `setUp` returns, from chips whose
motors stand still, and both chips have the configuration of `setUp` and the step
mode that was set last. -/
theorem session_configuration (host : Host) (other : ChipState → Byte → Byte)
    (nSpiChipSelect : Byte)
    {ops : List Operation} (hops : ∀ op ∈ ops, op.Still) (hsetUp : .setUp ∈ ops) (self : Motors)
    {regs : Chip → Registers} (h : ∀ chip, (regs chip).AtRest) :
    ∃ self' regs', Runs (chain other) (session host nSpiChipSelect ops) self (idle regs) () self'
        (idle regs') ∧
      ∀ chip, SetUpKept host (regs chip) (lastStepMode ops) (regs' chip) := by
  obtain ⟨self', hrun⟩ := @session_runs host other self regs nSpiChipSelect ops hops h
  refine ⟨self', _, hrun, fun chip => ?_⟩
  obtain ⟨before, after, rfl⟩ := List.append_of_mem hsetUp
  rw [lastStepMode, List.foldl_append, List.foldl_append]
  exact (SetUpKept.of_setUp (foldl_lspdOpt before (regs chip))).foldl after

theorem session_configuration_microstep :
    ∃ self' regs', Runs (chain fun _ _ => 0)
        (session Host.lp64 0 [.setUp, .setMicrostep 0x03, .stop]) ⟨0, 0, false, false⟩
        (idle fun _ => fun _ => BitVec.allOnes _) () self' (idle regs') ∧
      ∀ chip, SetUpKept Host.lp64 (fun _ => BitVec.allOnes _) 0x03 (regs' chip) :=
  session_configuration Host.lp64 (fun _ _ => 0) 0 (by simp [Operation.Still]) (by simp) _ fun _ =>
    rfl

end LineFollower
