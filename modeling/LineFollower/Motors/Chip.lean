import LineFollower.Lib.Framing
import LineFollower.Motors.Commands

/-!
# What a chip decodes

A chip reads its byte of every packet, also of the packets that are meant for
the other chip, and those bytes are NOPs. `argBytes` is the number of argument
bytes of an opcode, from the register lengths of `l6470.h`. The chip's own
view of a GET_PARAM is left open: it may count the bytes it answers over as
that command's, or read them as the next commands.

`daisyChain` is the framing law of the line: every transfer is addressed to
one chip, and a program that has returned leaves both decoders idle.
-/

namespace LineFollower

open Lib Lib.Exchange

inductive GetReply
  | counted
  | free
  deriving DecidableEq, Repr

def ParamRegister.bytes (param : ParamRegister) : Nat := (param.len + 7) / 8

def registerAt (address : Byte) : Option ParamRegister :=
  ParamRegister.all.find? fun param => param.value = address

def registerBytes (address : Byte) : Nat :=
  match registerAt address with
  | some param => param.bytes
  | none => 0

def argBytes (reply : GetReply) (opcode : Byte) : Nat :=
  if opcode &&& 0xE0 = cmdSetParam then registerBytes (opcode &&& 0x1F)
  else if opcode &&& 0xE0 = cmdGetParam then
    match reply with
    | .counted => registerBytes (opcode &&& 0x1F)
    | .free => 0
  else if opcode &&& 0xFE ∈ [cmdRun, cmdMove, cmdGoTo, cmdGoToDir] then 3
  else if opcode &&& 0xF6 = cmdGoUntil then 3
  else 0

variable {reply : GetReply}

@[simp] theorem argBytes_set (param : ParamRegister) :
    argBytes reply (param.value ||| cmdSetParam) = byteLength param.len := by
  cases param <;> rfl

theorem argBytes_get_counted (param : ParamRegister) :
    argBytes .counted (param.value ||| cmdGetParam) = byteLength param.len := by
  cases param <;> rfl

theorem argBytes_get_free (param : ParamRegister) :
    argBytes .free (param.value ||| cmdGetParam) = 0 := by
  cases param <;> rfl

@[simp] theorem argBytes_run (dir : Direction) : argBytes reply (cmdRun ||| dir.value) = 3 := by
  cases dir <;> rfl

@[simp] theorem argBytes_nop : argBytes reply cmdNop = 0 := rfl
@[simp] theorem argBytes_resetPos : argBytes reply cmdResetPos = 0 := rfl
@[simp] theorem argBytes_softStop : argBytes reply cmdSoftStop = 0 := rfl
@[simp] theorem argBytes_hardStop : argBytes reply cmdHardStop = 0 := rfl
@[simp] theorem argBytes_hardHiZ : argBytes reply cmdHardHiZ = 0 := rfl

-- ---------------------------------------------------------------------------
-- The bytes of one chip
-- ---------------------------------------------------------------------------

abbrev Log := List (Transfer × Packet)

def wire (chip : Chip) (log : Log) : List Byte := log.map fun e => e.1.dataPacket.get chip

def received (reply : GetReply) (chip : Chip) (log : Log) :
    List (Command (argBytes reply)) × Decoder (argBytes reply) :=
  decode none (wire chip log)

@[simp] theorem wire_nil (chip : Chip) : wire chip [] = [] := rfl

@[simp] theorem wire_append (chip : Chip) (log log' : Log) :
    wire chip (log ++ log') = wire chip log ++ wire chip log' := by
  simp [wire]

theorem wire_of_frames {self : Motors} {target chip : Chip} {bs : List Byte} {log : Log}
    (h : log.map Prod.fst = bs.map (frame self target)) :
    wire chip log = if chip = target then bs else List.replicate bs.length cmdNop := by
  have hw : wire chip log = (log.map Prod.fst).map fun t => t.dataPacket.get chip := by
    simp [wire]
  rw [hw, h, List.map_map]
  split
  · rename_i he
    subst he
    simp [frame, Function.comp_def]
  · rename_i hne
    rw [← List.map_const']
    congr 1
    funext b
    simp [frame, Packet.get_set_ne _ _ hne, cmdNop]

theorem Sends.wire_ok {m : Spi α} {bs : List Byte} {self v : Motors} {target : Chip}
    {as rest : List Packet} {a : α} {log : Log} (hm : Sends bs m)
    (hc : packetIndex self.nPosition = some target) (h : m self as = ⟨.ok a, v, rest, log⟩) :
    v = self ∧ ∀ chip, wire chip log = if chip = target then bs
      else List.replicate bs.length cmdNop := by
  obtain ⟨hv, -, hlog⟩ := hm self target hc as
  simp only [h] at hv hlog
  exact ⟨hv, fun chip => wire_of_frames hlog⟩

/-- The transfer names a chip, and sends a NOP to the other. -/
def Transfer.Addressed (t : Transfer) : Prop :=
  (t.nPosition = 0 ∧ t.dataPacket.right = cmdNop) ∨
    (t.nPosition = 1 ∧ t.dataPacket.left = cmdNop)

theorem packetIndex_eq_some {position : Byte} {chip : Chip} (h : packetIndex position = some chip) :
    (position = 0 ∧ chip = .left) ∨ (position = 1 ∧ chip = .right) := by
  unfold packetIndex at h
  split at h
  · rename_i hp
    exact .inl ⟨hp, (Option.some.inj h).symm⟩
  · split at h
    · rename_i hp
      exact .inr ⟨hp, (Option.some.inj h).symm⟩
    · cases h

theorem exists_packetIndex {position : Byte} (h : position = 0 ∨ position = 1) :
    ∃ chip, packetIndex position = some chip := by
  rcases h with rfl | rfl
  · exact ⟨.left, rfl⟩
  · exact ⟨.right, rfl⟩

theorem frame_addressed {self : Motors} {chip : Chip} (hc : packetIndex self.nPosition = some chip)
    (b : Byte) : (frame self chip b).Addressed := by
  rcases packetIndex_eq_some hc with ⟨hp, rfl⟩ | ⟨hp, rfl⟩
  · exact .inl ⟨hp, rfl⟩
  · exact .inr ⟨hp, rfl⟩

-- ---------------------------------------------------------------------------
-- The framing law
-- ---------------------------------------------------------------------------

theorem received_append {chip : Chip} {log log' : Log} (h : (received reply chip log).2 = none) :
    received reply chip (log ++ log') =
      ((received reply chip log).1 ++ (received reply chip log').1,
        (received reply chip log').2) := by
  rw [received, wire_append]
  exact decode_append_idle h

/-- Both decoders idle after addressed transfers, every opcode `allowed`; for
a program stopped between two transfers, a decoder may be busy. -/
def daisyChain (reply : GetReply) (allowed : Byte → Prop) : Discipline Motors Transfer Packet where
  vars self := self.nPosition = 0 ∨ self.nPosition = 1
  full log := (∀ e ∈ log, e.1.Addressed) ∧ ∀ chip, (received reply chip log).2 = none ∧
    ∀ cmd ∈ (received reply chip log).1, allowed cmd.opcode
  cut log := (∀ e ∈ log, e.1.Addressed) ∧ ∀ chip,
    ∀ cmd ∈ (received reply chip log).1, allowed cmd.opcode
  full_nil := ⟨by simp, fun _ => ⟨rfl, by simp [received, wire_nil, decode_nil]⟩⟩
  cut_nil := ⟨by simp, fun _ => by simp [received, wire_nil, decode_nil]⟩
  full_append := by
    rintro l l' ⟨ha, hd⟩ ⟨ha', hd'⟩
    refine ⟨fun e he => (List.mem_append.mp he).elim (ha e) (ha' e), fun chip => ?_⟩
    rw [received_append (hd chip).1]
    refine ⟨(hd' chip).1, fun cmd hcmd => ?_⟩
    exact (List.mem_append.mp hcmd).elim ((hd chip).2 cmd) ((hd' chip).2 cmd)
  cut_append := by
    rintro l l' ⟨ha, hd⟩ ⟨ha', hd'⟩
    refine ⟨fun e he => (List.mem_append.mp he).elim (ha e) (ha' e), fun chip cmd hcmd => ?_⟩
    rw [received_append (hd chip).1] at hcmd
    exact (List.mem_append.mp hcmd).elim ((hd chip).2 cmd) (hd' chip cmd)

section
variable {allowed : Byte → Prop} {m : Spi α}

theorem Sends.follows {bs : List Byte} (hm : Sends bs m) (cmds : List (Command (argBytes reply)))
    (hbs : decode none bs = (cmds, none)) (hcmds : ∀ cmd ∈ cmds, allowed cmd.opcode)
    (hnop : allowed cmdNop) : (daisyChain reply allowed).Follows m := by
  intro self as hself
  obtain ⟨target, hto⟩ := exists_packetIndex hself
  obtain ⟨hvars, -, hlog⟩ := hm self target hto as
  have haddr {bs' : List Byte} (h : (m self as).log.map Prod.fst = bs'.map (frame self target)) :
      ∀ e ∈ (m self as).log, e.1.Addressed := by
    intro e he
    have hmem : e.1 ∈ bs'.map (frame self target) := h ▸ List.mem_map_of_mem he
    obtain ⟨b, -, hb⟩ := List.mem_map.mp hmem
    exact hb ▸ frame_addressed hto b
  have hzero : argBytes reply cmdNop = 0 := argBytes_nop
  have hnops (n : Nat) : ∀ cmd ∈ List.replicate n (Command.bare cmdNop hzero),
      allowed cmd.opcode := by
    intro cmd hcmd
    exact (List.eq_of_mem_replicate hcmd) ▸ hnop
  unfold Discipline.Meets
  cases hr : (m self as).result with
  | ok a =>
    simp only [hr] at hlog ⊢
    refine ⟨hvars.symm ▸ hself, haddr hlog, fun chip => ?_⟩
    rw [received, wire_of_frames hlog]
    split
    · rw [hbs]
      exact ⟨rfl, hcmds⟩
    · rw [decode_replicate _ argBytes_nop]
      exact ⟨rfl, hnops _⟩
  | error stop =>
    cases stop with
    | fault e => simp [hr] at hlog
    | pending =>
      simp only [hr] at hlog ⊢
      have hpre := List.prefix_iff_eq_take.mp hlog
      rw [← List.map_take] at hpre
      refine ⟨haddr hpre, fun chip => ?_⟩
      rw [received, wire_of_frames hpre]
      split
      · intro cmd hcmd
        have hmem := mem_decode_of_take hcmd
        rw [hbs] at hmem
        exact hcmds cmd hmem
      · rw [decode_replicate _ argBytes_nop]
        exact hnops _

theorem Sends.follows_command (cmd : Command (argBytes reply)) (hm : Sends cmd.bytes m)
    (hcmd : allowed cmd.opcode) (hnop : allowed cmdNop) : (daisyChain reply allowed).Follows m :=
  hm.follows [cmd] (decode_command cmd) (by simpa using hcmd) hnop

theorem select_follows {position : Byte} (h : position = 0 ∨ position = 1) :
    (daisyChain reply allowed).Follows (select position) :=
  .modifyVars fun _ _ => h

variable {host : Host}

theorem setParam_follows (hnop : allowed cmdNop) {param : ParamRegister}
    (hset : allowed (param.value ||| cmdSetParam)) (value : ULong host) :
    (daisyChain reply allowed).Follows (setParam host param value) := by
  let cmd : Command (argBytes reply) :=
    ⟨param.value ||| cmdSetParam,
      bytesBelow (wireValue param value) (byteLength param.len), by simp⟩
  exact Sends.follows_command cmd (setParam_sends param value) hset hnop

theorem getParam_follows (hnop : allowed cmdNop) {param : ParamRegister}
    (hget : allowed (param.value ||| cmdGetParam)) :
    (daisyChain reply allowed).Follows (getParam host param) := by
  cases reply with
  | counted =>
    let cmd : Command (argBytes .counted) :=
      ⟨param.value ||| cmdGetParam, List.replicate (byteLength param.len) 0,
        by simp [argBytes_get_counted]⟩
    exact Sends.follows_command cmd (getParam_sends param) hget hnop
  | free =>
    -- The chip answers over bytes that it reads as NOPs.
    let cmd : Command (argBytes .free) := .bare _ (argBytes_get_free param)
    refine (getParam_sends param).follows
      (cmd :: List.replicate (byteLength param.len) (.bare cmdNop rfl)) ?_ ?_ hnop
    · change decode none (cmd.bytes ++ List.replicate _ cmdNop) = _
      rw [decode_append, decode_command, decode_replicate cmdNop rfl]
      rfl
    · intro c hc
      rcases List.mem_cons.mp hc with rfl | hc
      · exact hget
      · exact List.eq_of_mem_replicate hc ▸ hnop

theorem run_follows (hnop : allowed cmdNop) {dir : Direction}
    (hrun : allowed (cmdRun ||| dir.value))
    (stepsPerSec : ℚ) : (daisyChain reply allowed).Follows (run host dir stepsPerSec) := by
  let cmd : Command (argBytes reply) :=
    ⟨cmdRun ||| dir.value, bytesBelow (runSpeed host stepsPerSec) 3, by simp⟩
  exact Sends.follows_command cmd (run_sends dir stepsPerSec) hrun hnop

theorem command_follows (hnop : allowed cmdNop) {b : Byte} (hb : argBytes reply b = 0)
    (hallowed : allowed b) : (daisyChain reply allowed).Follows (do let _ ← spiXfer b; pure ()) :=
  Sends.follows_command (.bare b hb) (command_sends b) hallowed hnop

end

end LineFollower
