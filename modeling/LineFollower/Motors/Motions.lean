import LineFollower.Lib.Reader
import LineFollower.Motors.Drive

/-!
# Motion commands

The motion commands that each chip decodes of an operation: a RUN from
`setSpeed`, a SOFT_STOP and a HARD_HIZ from `stop`, a HARD_STOP from the
destructor, and none from the others. An operation that is stopped between two
transfers has given a beginning of them, and no other: a command that is cut
short is not a command.
-/

namespace LineFollower

open Lib Lib.Exchange

variable {host : Host} {reply : GetReply} {chip : Chip}

def motions (reply : GetReply) (chip : Chip) (log : Log) : List (Command (argBytes reply)) :=
  (received reply chip log).1.filter fun cmd => isMotion cmd.opcode

def motionReader (reply : GetReply) (chip : Chip) :
    Reader (Transfer × Packet) (Command (argBytes reply)) where
  read := motions reply chip
  settled := Idle reply chip
  read_nil := rfl
  settled_nil := rfl
  read_append h l' := by
    rw [motions, received_append h, List.filter_append]
    rfl
  settled_append h _ h' := (received_append_idle h _).2.mpr h'

/-- One of the two chips is selected. -/
def Motors.Selected (self : Motors) : Prop := self.nPosition = 0 ∨ self.nPosition = 1

theorem isMotion_nop : isMotion cmdNop = false := rfl

theorem selected_of_packetIndex {self : Motors} (h : packetIndex self.nPosition = some chip) :
    self.Selected := by
  rcases packetIndex_eq_some h with ⟨hp, -⟩ | ⟨hp, -⟩
  · exact .inl hp
  · exact .inr hp

-- ---------------------------------------------------------------------------
-- Operations that move nothing
-- ---------------------------------------------------------------------------

/-- The opcodes that are not motion commands. -/
def Quiet (b : Byte) : Prop := isMotion b = false

theorem quiet_set (param : ParamRegister) : Quiet (param.value ||| cmdSetParam) := by
  cases param <;> rfl

theorem quiet_get (param : ParamRegister) : Quiet (param.value ||| cmdGetParam) := by
  cases param <;> rfl

theorem quiet_motions {α : Type} {m : Spi α} (hm : (daisyChain reply Quiet).Follows m)
    (chip : Chip) :
    Tells (motionReader reply chip) Motors.Selected m [] Motors.Selected := by
  have hnone {log : Log} (h : ∀ cmd ∈ (received reply chip log).1, Quiet cmd.opcode) :
      motions reply chip log = [] := by
    refine List.filter_eq_nil_iff.mpr fun cmd hcmd => ?_
    rw [h cmd hcmd]
    exact Bool.false_ne_true
  exact Tells.of_follows (D := daisyChain reply Quiet)
    (fun _ h => ⟨(h.2 chip).1, hnone (h.2 chip).2⟩) (fun _ h => hnone (h.2 chip)) hm

-- ---------------------------------------------------------------------------
-- One command
-- ---------------------------------------------------------------------------

theorem motions_nops (h : wire chip log = List.replicate n cmdNop) :
    motions reply chip log = [] ∧ Idle reply chip log := by
  have hdecode : received reply chip log = (List.replicate n (.bare cmdNop rfl), none) := by
    rw [received, h]
    exact decode_replicate cmdNop argBytes_nop n
  rw [motions, Idle, hdecode]
  refine ⟨List.filter_eq_nil_iff.mpr fun cmd hcmd => ?_, rfl⟩
  rw [List.eq_of_mem_replicate hcmd]
  exact Bool.not_eq_true _ ▸ isMotion_nop

theorem Sends.tells_motion {α : Type} {m : Spi α} {cmd : Command (argBytes reply)}
    (hm : Sends cmd.bytes m)
    (hcmd : isMotion cmd.opcode = true) {position : Byte} {target : Chip}
    (hc : packetIndex position = some target) (chip : Chip) :
    Tells (motionReader reply chip) (·.nPosition = position) m (if chip = target then [cmd] else [])
      (·.nPosition = position) := by
  rintro self as rfl
  obtain ⟨hvars, -, hlog⟩ := hm self target hc as
  generalize m self as = o at hvars hlog ⊢
  obtain ⟨result, v, rest, log⟩ := o
  simp only at hvars hlog ⊢
  subst hvars
  have hone : [cmd].filter (fun cmd => isMotion cmd.opcode) = [cmd] := List.filter_cons_of_pos hcmd
  cases result with
  | ok a =>
    have hwire := @wire_of_frames _ _ chip _ _ hlog
    refine ⟨rfl, ?_⟩
    split at hwire
    · have hdecode : received reply chip log = ([cmd], none) := by
        rw [received, hwire]
        exact decode_command cmd
      simp only [motionReader, motions, Idle, hdecode, hone, true_and, if_pos ‹chip = target›]
    · rw [if_neg ‹¬ chip = target›]
      exact (motions_nops hwire).symm
  | error stop =>
    cases stop with
    | fault e => exact hlog
    | pending =>
      have hpre := List.prefix_iff_eq_take.mp hlog
      rw [← List.map_take] at hpre
      have hwire := @wire_of_frames _ _ chip _ _ hpre
      split at hwire
      · have hdecode := @prefix_decode Byte (argBytes reply) none _ _ (List.take_prefix
          (log.map Prod.fst).length cmd.bytes)
        rw [← hwire, decode_command] at hdecode
        have hread := hdecode.filter fun cmd => isMotion cmd.opcode
        rw [hone] at hread
        rw [if_pos ‹chip = target›]
        exact hread
      · rw [if_neg ‹¬ chip = target›]
        exact (motions_nops hwire).1 ▸ List.nil_prefix

theorem leftThenRight_motions {left right : Spi Unit} {cmd cmd' : Command (argBytes reply)}
    (hleft : Sends cmd.bytes left) (hcmd : isMotion cmd.opcode = true)
    (hright : Sends cmd'.bytes right) (hcmd' : isMotion cmd'.opcode = true) (chip : Chip) :
    Tells (motionReader reply chip) (fun _ => True) (leftThenRight left right)
      [if chip = .left then cmd else cmd'] (·.nPosition = 1) := by
  have hselect {position : Byte} {pre : Motors → Prop} :
      Tells (motionReader reply chip) pre (select position) [] (·.nPosition = position) :=
    .modifyVars fun _ _ => rfl
  have hfirst : Tells (motionReader reply chip) (fun _ => True) (select 0) [] (·.nPosition = 0) :=
    hselect
  have hboth := hfirst.seq ((hleft.tells_motion hcmd packetIndex_left chip).seq
    (hselect.seq (hright.tells_motion hcmd' packetIndex_right chip)))
  cases chip <;> exact hboth

-- ---------------------------------------------------------------------------
-- The operations of main
-- ---------------------------------------------------------------------------

def wheelRun (reply : GetReply) (chip : Chip) (speeds : ℤ × ℤ) : Command (argBytes reply) :=
  if chip = .left then runCommand reply speeds.1 else runCommand reply speeds.2

theorem isMotion_run (speed : ℤ) : isMotion (runCommand reply speed).opcode = true := by
  change isMotion (cmdRun ||| (driveDirection speed).value) = true
  cases driveDirection speed <;> rfl

theorem drive_sends {speed : ℤ} (hspeed : |speed| ≤ 2 ^ 24) :
    Sends (runCommand reply speed).bytes (drive host speed) := by
  have hfits : |(speed : ℚ)| ≤ 2 ^ 24 := by exact_mod_cast hspeed
  have hfield : (runSpeed host |(speed : ℚ)|).toNat = speedField speed :=
    runSpeed_toNat (abs_nonneg _) hfits
  have hbytes : (cmdRun ||| (driveDirection speed).value) ::
      bytesBelow (runSpeed host |(speed : ℚ)|) 3 = (runCommand reply speed).bytes := by
    simp only [bytesBelow, byteAt_eq, hfield, runCommand, Command.bytes, mul_zero, pow_zero,
      Nat.div_one]
  rw [← hbytes, drive_eq]
  exact run_sends _ _

theorem setSpeed_motions {l r : ℤ} (hl : |l| ≤ 2 ^ 24) (hr : |r| ≤ 2 ^ 24) (chip : Chip) :
    Tells (motionReader reply chip) Motors.Selected (setSpeed host l r) [wheelRun reply chip (l, r)]
      Motors.Selected := by
  have hwait : (daisyChain reply Quiet).Follows (waitWhileBusy host) :=
    waitWhileBusy_follows rfl (quiet_get _)
  have hdrive : Tells (motionReader reply chip) Motors.Selected
      (leftThenRight (drive host l) (drive host r)) [wheelRun reply chip (l, r)] Motors.Selected :=
    (leftThenRight_motions (drive_sends hl) (isMotion_run l) (drive_sends hr)
      (isMotion_run r) chip).mono
      (fun _ _ => trivial) fun _ h => .inr h
  rw [setSpeed_eq]
  exact (quiet_motions (leftThenRight_follows hwait hwait) chip).seq hdrive

def stopCommands (reply : GetReply) : List (Command (argBytes reply)) :=
  [.bare cmdSoftStop argBytes_softStop, .bare cmdHardHiZ argBytes_hardHiZ]

theorem both_motions {b : Byte} (hb : argBytes reply b = 0) (hmotion : isMotion b = true)
    (chip : Chip) :
    Tells (motionReader reply chip) Motors.Selected
      (leftThenRight (do let _ ← spiXfer b; pure ()) (do let _ ← spiXfer b; pure ())) [.bare b hb]
      Motors.Selected := by
  have hsends : Sends (Command.bare b hb).bytes (do let _ ← spiXfer b; pure ()) := command_sends b
  have hboth := leftThenRight_motions hsends hmotion hsends hmotion chip
  rw [ite_self] at hboth
  exact hboth.mono (fun _ _ => trivial) fun _ h => .inr h

theorem stop_motions (chip : Chip) :
    Tells (motionReader reply chip) Motors.Selected (stop host) (stopCommands reply)
      Motors.Selected := by
  have hwait : (daisyChain reply Quiet).Follows (waitWhileBusy host) :=
    waitWhileBusy_follows rfl (quiet_get _)
  rw [stop_eq]
  exact (both_motions argBytes_softStop rfl chip).seq
    ((quiet_motions (leftThenRight_follows hwait hwait) chip).seq
      (both_motions argBytes_hardHiZ rfl chip))

/-- What the destructor tells a chip, when it finds `selected` selected. -/
def deleteCommands (reply : GetReply) (selected chip : Chip) : List (Command (argBytes reply)) :=
  (if chip = selected then [.bare cmdHardHiZ argBytes_hardHiZ] else []) ++
    [.bare cmdHardStop argBytes_hardStop]

theorem delete_motions {position : Byte} {selected : Chip}
    (hc : packetIndex position = some selected)
    (chip : Chip) :
    Tells (motionReader reply chip) (·.nPosition = position) delete
      (deleteCommands reply selected chip)
      Motors.Selected := by
  have hhiz : Sends (Command.bare cmdHardHiZ (@argBytes_hardHiZ reply)).bytes hardHiZ :=
    command_sends _
  have hstop :
      Tells (motionReader reply chip) (·.nPosition = position) (leftThenRight hardStop hardStop)
      [.bare cmdHardStop argBytes_hardStop] Motors.Selected :=
    (both_motions argBytes_hardStop rfl chip).mono
      (fun self h => selected_of_packetIndex (h.symm ▸ hc)) fun _ => id
  have hforget : Tells (motionReader reply chip) Motors.Selected
      (modifyVars fun self => { self with lIsConnected := false, rIsConnected := false } : Spi Unit)
      []
      Motors.Selected := .modifyVars fun _ h => h
  have hmotion : isMotion cmdHardHiZ = true := rfl
  have hall := (hhiz.tells_motion hmotion hc chip).seq (hstop.seq hforget)
  rw [List.append_nil] at hall
  rw [delete_eq]
  exact hall

end LineFollower
