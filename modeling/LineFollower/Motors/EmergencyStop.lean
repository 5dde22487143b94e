import LineFollower.Motors.Opcodes

/-!
# SIGINT in the middle of an operation

`sigintHandler` runs `stop` on the board as the interrupted operation left it.
An instant between two transfers is the list of the answers got so far: the
operation run on it is `pending` there, or has returned.

The handler's commands are read as sent exactly when the transfers made so far
are whole commands on both chips (`emergencyStop_iff`). Nothing in the code
waits for such an instant.
-/

namespace LineFollower

open Lib Lib.Exchange

/-- The operations that `main` runs once `globalBoard` is set. -/
inductive MainCall
  | setUp
  | resetPosition
  | setSpeed (speedLeft speedRight : ℤ)

def MainCall.perform (host : Host) : MainCall → Spi Unit
  | .setUp => LineFollower.setUp host
  | .resetPosition => LineFollower.resetPosition
  | .setSpeed speedLeft speedRight => LineFollower.setSpeed host speedLeft speedRight

def mainCalls (host : Host) (calls : List MainCall) : Spi Unit := calls.forM (MainCall.perform host)

/-- The rest of the interrupted operation is not run. -/
def sigintHandler (host : Host) (interrupted : Outcome Motors Transfer Packet Undefined Unit) :
    List Packet → Outcome Motors Transfer Packet Undefined Unit :=
  stop host interrupted.vars

/-- Whatever is answered, each chip reads the commands of the interrupted
prefix and then those of `stop`, with a SOFT_STOP and then a HARD_HIZ among
them when `stop` has returned. -/
def StopSound (host : Host) (reply : GetReply)
    (interrupted : Outcome Motors Transfer Packet Undefined Unit) : Prop :=
  ∀ as chip,
    let stopped := sigintHandler host interrupted as
    (received reply chip (interrupted.log ++ stopped.log)).1 =
        (received reply chip interrupted.log).1 ++ (received reply chip stopped.log).1 ∧
      (stopped.result = .ok () →
        [cmdSoftStop, cmdHardHiZ].Sublist (opcodes reply chip stopped.log))

def AtBoundary (reply : GetReply) (log : Log) : Prop :=
  ∀ chip, ∃ cmds : List (Command (argBytes reply)), wire chip log = cmds.flatMap Command.bytes

variable {host : Host} {reply : GetReply}

theorem atBoundary_iff {log : Log} : AtBoundary reply log ↔ ∀ chip, Idle reply chip log := by
  constructor
  · intro h chip
    obtain ⟨cmds, hcmds⟩ := h chip
    rw [Idle, received, hcmds, decode_flatMap]
  · intro h chip
    refine ⟨(received reply chip log).1, ?_⟩
    have hbytes := decode_bytes (none : Decoder (argBytes reply)) (wire chip log)
    change (received reply chip log).1.flatMap _ ++ (received reply chip log).2.bytes = _ at hbytes
    rw [h chip] at hbytes
    simpa [Decoder.bytes] using hbytes.symm

-- ---------------------------------------------------------------------------
-- At a boundary
-- ---------------------------------------------------------------------------

theorem sublist_stop_opcodes {polls : List Byte} (chip : Chip) :
    [cmdSoftStop, cmdHardHiZ].Sublist
    (onBoth cmdSoftStop chip ++ polls ++ onBoth cmdHardHiZ chip) := by
  have hs : [cmdSoftStop].Sublist (onBoth cmdSoftStop chip ++ polls) := by
    apply List.singleton_sublist.mpr
    apply List.mem_append_left
    cases chip <;> simp [onBoth]
  have hz : [cmdHardHiZ].Sublist (onBoth cmdHardHiZ chip) := by
    apply List.singleton_sublist.mpr
    cases chip <;> simp [onBoth]
  exact hs.append hz

theorem stopSound_of_idle {o : Outcome Motors Transfer Packet Undefined Unit}
    (h : ∀ chip, Idle reply chip o.log) : StopSound host reply o := by
  intro as chip stopped
  refine ⟨?_, fun hok => ?_⟩
  · rw [received_append (h chip)]
  · have hstop : stop host o.vars as = ⟨.ok (), stopped.vars, stopped.rest, stopped.log⟩ :=
      Outcome.ext hok rfl rfl rfl
    obtain ⟨-, polls, -, hops⟩ := stop_opcodes hstop chip
    rw [hops]
    exact sublist_stop_opcodes chip

-- ---------------------------------------------------------------------------
-- Inside a command
-- ---------------------------------------------------------------------------

theorem stop_opens {self v : Motors} {as rest : List Packet} {log : Log}
    (h : stop host self as = ⟨.ok (), v, rest, log⟩) (chip : Chip) :
    ∃ cmd, (received reply chip log).1.head? = some cmd ∧ argBytes reply cmd.opcode = 0 := by
  obtain ⟨-, polls, -, hops⟩ := stop_opcodes h chip
  obtain ⟨b, bs, hb, hops⟩ : ∃ b bs, argBytes reply b = 0 ∧ opcodes reply chip log = b :: bs := by
    cases chip
    · exact ⟨_, _, argBytes_softStop, hops⟩
    · exact ⟨_, _, argBytes_nop, hops⟩
  obtain ⟨cmd, cmds, hcmds, rfl, -⟩ := List.map_eq_cons_iff.mp hops
  exact ⟨cmd, by rw [hcmds]; rfl, hb⟩

/-- A chip in the middle of a command takes the first bytes of `stop` for its
arguments. -/
theorem idle_of_stopSound {o : Outcome Motors Transfer Packet Undefined Unit}
    (h : StopSound host reply o) (chip : Chip) : Idle reply chip o.log := by
  obtain ⟨v, log, hstop⟩ : ∃ v log, stop host o.vars (atRest 10) = ⟨.ok (), v, [], log⟩ :=
    stop_atRest o.vars
  obtain ⟨cmd, hhead, hcmd⟩ :
      ∃ cmd, (received reply chip log).1.head? = some cmd ∧ argBytes reply cmd.opcode = 0 :=
    stop_opens hstop chip
  obtain ⟨heq, -⟩ := h (atRest 10) chip
  simp only [sigintHandler, hstop] at heq
  rw [received, wire_append, decode_append] at heq
  cases hd : (received reply chip o.log).2 with
  | none => exact hd
  | some p =>
    rw [show (decode none (wire chip o.log)).2 = some p from hd] at heq
    exact absurd (List.append_cancel_left heq) (decode_partial_ne p hhead hcmd)

/-- The emergency stop is sound at exactly the instants at which no command is
partly sent. -/
theorem emergencyStop_iff (host : Host) (reply : GetReply) (calls : List MainCall) (self : Motors)
    (as : List Packet) :
    StopSound host reply (mainCalls host calls self as) ↔
      AtBoundary reply (mainCalls host calls self as).log := by
  rw [atBoundary_iff]
  exact ⟨idle_of_stopSound, stopSound_of_idle⟩

/-- SIGINT after the RUN opcode to the left chip, whose wheel then gets a RUN at
the speed made of SOFT_STOP, NOP and GET_PARAM and never a SOFT_STOP. -/
theorem emergencyStop_run_cut :
    let o := mainCalls Host.lp64 [.setSpeed 20 0] ⟨0, 1, true, true⟩ (atRest 7)
    let log := o.log ++ (sigintHandler Host.lp64 o (atRest 10)).log
    ¬ StopSound Host.lp64 .counted o ∧ cmdSoftStop ∉ opcodes .counted .left log ∧
      ∃ cmd ∈ (received .counted .left log).1, cmd.bytes = [0x51, cmdSoftStop, cmdNop, 0x39] := by
  refine ⟨fun h => ?_, ?_, ?_⟩
  · exact absurd (h (atRest 10) .left).1 (by decide +kernel)
  · decide +kernel
  · decide +kernel

end LineFollower
