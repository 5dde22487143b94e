import LineFollower.Motors.DaisyChain

/-!
# What the operations send to each chip

The opcodes each chip reads from `stop`, from the destructor and from
`setSpeed`. Between its two SOFT_STOPs and its two HARD_HIZs `stop` sends only
STATUS reads, and the NOPs that go with them to the other chip.
-/

namespace LineFollower

open Lib Lib.Exchange

variable {host : Host} {reply : GetReply}

def opcodes (reply : GetReply) (chip : Chip) (log : Log) : List Byte :=
  (received reply chip log).1.map Command.opcode

def Idle (reply : GetReply) (chip : Chip) (log : Log) : Prop :=
  (received reply chip log).2 = none

theorem received_append_idle {chip : Chip} {log : Log} (h : Idle reply chip log) (log' : Log) :
    opcodes reply chip (log ++ log') = opcodes reply chip log ++ opcodes reply chip log' ∧
      (Idle reply chip (log ++ log') ↔ Idle reply chip log') := by
  simp only [opcodes, Idle, received_append h, List.map_append, and_self]

def onBoth (b : Byte) : Chip → List Byte
  | .left => [b, cmdNop]
  | .right => [cmdNop, b]

theorem command_opcodes {b : Byte} (hb : argBytes reply b = 0) {self v : Motors} {target : Chip}
    {as rest : List Packet} {log : Log} (hc : packetIndex self.nPosition = some target)
    (h : (do let _ ← spiXfer b; pure () : Spi Unit) self as = ⟨.ok (), v, rest, log⟩)
    (chip : Chip) :
    opcodes reply chip log = [if chip = target then b else cmdNop] ∧ Idle reply chip log := by
  obtain ⟨-, hw⟩ := (command_sends b).wire_ok hc h
  have hwire : wire chip log = [if chip = target then b else cmdNop] := by
    rw [hw chip]
    split <;> rfl
  have hbare : argBytes reply (if chip = target then b else cmdNop) = 0 := by
    split
    · exact hb
    · exact argBytes_nop
  have hdec : received reply chip log = ([.bare _ hbare], none) := by
    rw [received, hwire]
    exact decode_command (.bare _ hbare)
  simp only [opcodes, Idle, hdec, and_true]
  rfl

theorem both_opcodes {b : Byte} (hb : argBytes reply b = 0) {self v : Motors}
    {as rest : List Packet} {log : Log}
    (h : leftThenRight (do let _ ← spiXfer b; pure ()) (do let _ ← spiXfer b; pure ()) self as =
      ⟨.ok (), v, rest, log⟩) (chip : Chip) :
    opcodes reply chip log = onBoth b chip ∧ Idle reply chip log := by
  obtain ⟨v₁, as₁, l₁, l₂, hleft, hright, rfl⟩ := leftThenRight_ok.mp h
  obtain ⟨ho₁, hi₁⟩ := command_opcodes hb packetIndex_left hleft chip
  obtain ⟨ho₂, hi₂⟩ := command_opcodes hb packetIndex_right hright chip
  obtain ⟨happ, hidle⟩ := received_append_idle hi₁ l₂
  refine ⟨?_, hidle.mpr hi₂⟩
  rw [happ, ho₁, ho₂]
  cases chip <;> rfl

/-- The opcodes of a poll, and those the other chip reads meanwhile. -/
inductive PollOpcode : Byte → Prop
  | nop : PollOpcode cmdNop
  | status : PollOpcode (ParamRegister.status.value ||| cmdGetParam)

theorem polls_opcodes {self v : Motors} {as rest : List Packet} {log : Log}
    (h : leftThenRight (waitWhileBusy host) (waitWhileBusy host) self as = ⟨.ok (), v, rest, log⟩)
    (chip : Chip) : (∀ b ∈ opcodes reply chip log, PollOpcode b) ∧ Idle reply chip log := by
  obtain ⟨v₁, as₁, l₁, l₂, hleft, hright, rfl⟩ := leftThenRight_ok.mp h
  have hwait : (daisyChain reply PollOpcode).Follows (waitWhileBusy host) :=
    waitWhileBusy_follows .nop .status
  have hfull := (daisyChain reply PollOpcode).full_append (hwait.ok (.inl rfl) hleft).2
    (hwait.ok (.inr rfl) hright).2
  obtain ⟨-, hchips⟩ := hfull
  refine ⟨fun b hb => ?_, (hchips chip).1⟩
  obtain ⟨cmd, hcmd, rfl⟩ := List.mem_map.mp hb
  exact (hchips chip).2 cmd hcmd

theorem stop_opcodes {self v : Motors} {as rest : List Packet} {log : Log}
    (h : stop host self as = ⟨.ok (), v, rest, log⟩) (chip : Chip) :
    Idle reply chip log ∧ ∃ polls, (∀ b ∈ polls, PollOpcode b) ∧
      opcodes reply chip log = onBoth cmdSoftStop chip ++ polls ++ onBoth cmdHardHiZ chip := by
  rw [stop_eq] at h
  obtain ⟨⟨⟩, v₁, as₁, l₁, l', hsoft, hrest, rfl⟩ := bind_ok.mp h
  obtain ⟨⟨⟩, v₂, as₂, l₂, l₃, hpoll, hhiz, rfl⟩ := bind_ok.mp hrest
  obtain ⟨ho₁, hi₁⟩ := both_opcodes argBytes_softStop hsoft chip
  obtain ⟨hp, hi₂⟩ := polls_opcodes hpoll chip
  obtain ⟨ho₃, hi₃⟩ := both_opcodes argBytes_hardHiZ hhiz chip
  obtain ⟨happ, hidle⟩ := received_append_idle hi₁ (l₂ ++ l₃)
  obtain ⟨happ', hidle'⟩ := received_append_idle hi₂ l₃
  refine ⟨hidle.mpr (hidle'.mpr hi₃), opcodes reply chip l₂, hp, ?_⟩
  rw [happ, happ', ho₁, ho₃, List.append_assoc]

theorem delete_opcodes {self v : Motors} {as rest : List Packet} {log : Log}
    (hself : self.nPosition = 0 ∨ self.nPosition = 1)
    (h : delete self as = ⟨.ok (), v, rest, log⟩) (chip : Chip) :
    ∃ first, opcodes reply chip log = first ++ onBoth cmdHardStop chip := by
  rw [delete_eq] at h
  obtain ⟨⟨⟩, v₁, as₁, l₁, l', hhiz, hrest, rfl⟩ := bind_ok.mp h
  obtain ⟨⟨⟩, v₂, as₂, l₂, l₃, hstop, hmod, rfl⟩ := bind_ok.mp hrest
  obtain ⟨target, hc⟩ := exists_packetIndex hself
  obtain ⟨-, hi₁⟩ := command_opcodes argBytes_hardHiZ hc hhiz chip
  obtain ⟨ho₂, hi₂⟩ := both_opcodes argBytes_hardStop hstop chip
  obtain ⟨happ, -⟩ := received_append_idle hi₁ (l₂ ++ l₃)
  obtain ⟨happ', -⟩ := received_append_idle hi₂ l₃
  have hl₃ : l₃ = [] := by
    simp only [modifyVars, Outcome.mk.injEq] at hmod
    exact hmod.2.2.2.symm
  refine ⟨opcodes reply chip l₁, ?_⟩
  rw [happ, happ', ho₂, hl₃]
  exact congrArg _ (List.append_nil _)

-- ---------------------------------------------------------------------------
-- Driving
-- ---------------------------------------------------------------------------

theorem run_opcodes {dir : Direction} {stepsPerSec : ℚ} {self v : Motors} {target : Chip}
    {as rest : List Packet} {log : Log} (hc : packetIndex self.nPosition = some target)
    (h : run host dir stepsPerSec self as = ⟨.ok (), v, rest, log⟩) (chip : Chip) :
    opcodes reply chip log =
        (if chip = target then [cmdRun ||| dir.value] else List.replicate 4 cmdNop) ∧
      Idle reply chip log := by
  obtain ⟨-, hw⟩ := (run_sends dir stepsPerSec).wire_ok hc h
  unfold opcodes Idle received
  rw [hw chip]
  split
  · let cmd : Command (argBytes reply) :=
      ⟨cmdRun ||| dir.value, bytesBelow (runSpeed host stepsPerSec) 3, by simp⟩
    rw [show _ :: _ = cmd.bytes from rfl, decode_command]
    exact ⟨rfl, rfl⟩
  · rw [List.length_cons, length_bytesBelow, decode_replicate cmdNop argBytes_nop]
    exact ⟨by simp [Command.bare], rfl⟩

def driveDirection (speed : ℤ) : Direction := if speed ≥ 0 then .fwd else .rev

theorem drive_opcodes {speed : ℤ} {self v : Motors} {target : Chip} {as rest : List Packet}
    {log : Log} (hc : packetIndex self.nPosition = some target)
    (h : drive host speed self as = ⟨.ok (), v, rest, log⟩) (chip : Chip) :
    opcodes reply chip log =
        (if chip = target then [cmdRun ||| (driveDirection speed).value]
          else List.replicate 4 cmdNop) ∧ Idle reply chip log := by
  unfold drive at h
  unfold driveDirection
  split at h
  · rename_i hpos
    rw [if_pos hpos]
    exact run_opcodes hc h chip
  · rename_i hneg
    rw [if_neg hneg]
    exact run_opcodes hc h chip

def runs (speedLeft speedRight : ℤ) : Chip → List Byte
  | .left => (cmdRun ||| (driveDirection speedLeft).value) :: List.replicate 4 cmdNop
  | .right => List.replicate 4 cmdNop ++ [cmdRun ||| (driveDirection speedRight).value]

theorem setSpeed_opcodes {l r : ℤ} {self v : Motors} {as rest : List Packet} {log : Log}
    (h : setSpeed host l r self as = ⟨.ok (), v, rest, log⟩) (chip : Chip) :
    Idle reply chip log ∧ ∃ polls, (∀ b ∈ polls, PollOpcode b) ∧
      opcodes reply chip log = polls ++ runs l r chip := by
  rw [setSpeed_eq] at h
  obtain ⟨⟨⟩, v₁, as₁, l₁, l', hpoll, hdrive, rfl⟩ := bind_ok.mp h
  obtain ⟨v₂, as₂, l₂, l₃, hleft, hright, rfl⟩ := leftThenRight_ok.mp hdrive
  obtain ⟨hp, hi₁⟩ := polls_opcodes hpoll chip
  obtain ⟨ho₂, hi₂⟩ := drive_opcodes packetIndex_left hleft chip
  obtain ⟨ho₃, hi₃⟩ := drive_opcodes packetIndex_right hright chip
  obtain ⟨happ, hidle⟩ := received_append_idle hi₁ (l₂ ++ l₃)
  obtain ⟨happ', hidle'⟩ := received_append_idle hi₂ l₃
  refine ⟨hidle.mpr (hidle'.mpr hi₃), opcodes reply chip l₁, hp, ?_⟩
  rw [happ, happ', ho₂, ho₃]
  cases chip <;> rfl

-- ---------------------------------------------------------------------------
-- The last motion command
-- ---------------------------------------------------------------------------

/-- The commands that start, change or end a motion. -/
def isMotion (b : Byte) : Bool :=
  [cmdRun, cmdStepClock, cmdMove, cmdGoToDir].contains (b &&& 0xFE) ||
    [cmdGoUntil, cmdReleaseSw].contains (b &&& 0xF6) ||
    [cmdGoTo, cmdGoHome, cmdGoMark, cmdSoftStop, cmdHardStop, cmdSoftHiZ, cmdHardHiZ].contains b

def lastMotion (bs : List Byte) : Option Byte := (bs.filter isMotion).getLast?

theorem lastMotion_append (xs ys : List Byte) :
    lastMotion (xs ++ ys) = (lastMotion ys).or (lastMotion xs) := by
  rw [lastMotion, List.filter_append, List.getLast?_append]
  rfl

theorem lastMotion_hardStop (chip : Chip) :
    lastMotion (onBoth cmdHardStop chip) = some cmdHardStop := by
  cases chip <;> rfl

theorem lastMotion_hardHiZ (chip : Chip) :
    lastMotion (onBoth cmdHardHiZ chip) = some cmdHardHiZ := by
  cases chip <;> rfl

theorem lastMotion_runs (l r : ℤ) (chip : Chip) :
    ∃ dir : Direction, lastMotion (runs l r chip) = some (cmdRun ||| dir.value) := by
  cases chip with
  | left =>
    refine ⟨driveDirection l, ?_⟩
    unfold runs
    cases driveDirection l <;> rfl
  | right =>
    refine ⟨driveDirection r, ?_⟩
    unfold runs
    cases driveDirection r <;> rfl

/-- The opcodes `main` sends while it drives: no stop among them. -/
inductive DriveOpcode : Byte → Prop
  | nop : DriveOpcode cmdNop
  | set (param : ParamRegister) : DriveOpcode (param.value ||| cmdSetParam)
  | get (param : ParamRegister) : DriveOpcode (param.value ||| cmdGetParam)
  | run (dir : Direction) : DriveOpcode (cmdRun ||| dir.value)
  | resetPos : DriveOpcode cmdResetPos

theorem DriveOpcode.motion {b : Byte} (h : DriveOpcode b) (hm : isMotion b = true) :
    ∃ dir : Direction, b = cmdRun ||| dir.value := by
  cases h with
  | nop => exact absurd hm (by decide)
  | set param => exact absurd hm (by cases param <;> decide)
  | get param => exact absurd hm (by cases param <;> decide)
  | run dir => exact ⟨dir, rfl⟩
  | resetPos => exact absurd hm (by decide)

theorem lastMotion_drive {bs : List Byte} (h : ∀ b ∈ bs, DriveOpcode b) {b : Byte}
    (hb : lastMotion bs = some b) : ∃ dir : Direction, b = cmdRun ||| dir.value := by
  obtain ⟨hmem, hm⟩ := List.mem_filter.mp (List.mem_of_getLast? hb)
  exact (h b hmem).motion hm

-- ---------------------------------------------------------------------------
-- Chips at rest
-- ---------------------------------------------------------------------------

def atRest (n : Nat) : List Packet := List.replicate n ⟨0xFF, 0xFF⟩

theorem command_run {self : Motors} {chip : Chip} (hc : packetIndex self.nPosition = some chip)
    (b : Byte) (a : Packet) (rest : List Packet) :
    (do let _ ← spiXfer b; pure () : Spi Unit) self (a :: rest) =
      ⟨.ok (), self, rest, [(frame self chip b, a)]⟩ := by
  simp [bind_run, spiXfer_cons hc]

theorem both_run (b : Byte) (self : Motors) (a a' : Packet) (rest : List Packet) :
    ∃ v log, leftThenRight (do let _ ← spiXfer b; pure ()) (do let _ ← spiXfer b; pure ()) self
      (a :: a' :: rest) = ⟨.ok (), v, rest, log⟩ := by
  exact ⟨_, _, leftThenRight_ok.mpr ⟨_, _, _, _, command_run packetIndex_left b a _,
    command_run packetIndex_right b a' rest, rfl⟩⟩

theorem polls_run (self : Motors) {c c' : Packet} (hleft : (c.get .left).getLsbD 1 = true)
    (hright : (c'.get .right).getLsbD 1 = true) (a b a' b' : Packet) (rest : List Packet) :
    ∃ v log, leftThenRight (waitWhileBusy host) (waitWhileBusy host) self
      (a :: b :: c :: a' :: b' :: c' :: rest) = ⟨.ok (), v, rest, log⟩ := by
  exact ⟨_, _, leftThenRight_ok.mpr
    ⟨_, _, _, _, waitWhileBusy_run packetIndex_left hleft _,
      waitWhileBusy_run packetIndex_right hright rest, rfl⟩⟩

theorem polls_atRest (self : Motors) (n : Nat) :
    ∃ v log, leftThenRight (waitWhileBusy host) (waitWhileBusy host) self (atRest (n + 6)) =
      ⟨.ok (), v, atRest n, log⟩ :=
  polls_run self rfl rfl _ _ _ _ _

theorem stop_atRest (self : Motors) :
    ∃ v log, stop host self (atRest 10) = ⟨.ok (), v, [], log⟩ := by
  obtain ⟨v₁, l₁, hsoft⟩ := both_run cmdSoftStop self _ _ (atRest 8)
  obtain ⟨v₂, l₂, hpolls⟩ := polls_atRest v₁ 2
  obtain ⟨v₃, l₃, hhiz⟩ := both_run cmdHardHiZ v₂ _ _ (atRest 0)
  rw [stop_eq]
  exact ⟨v₃, _, bind_ok.mpr ⟨(), v₁, _, l₁, _, hsoft,
    bind_ok.mpr ⟨(), v₂, _, l₂, l₃, hpolls, hhiz, rfl⟩, rfl⟩⟩

end LineFollower
