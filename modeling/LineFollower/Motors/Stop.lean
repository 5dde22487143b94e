import LineFollower.Motors.Drive

/-!
# Stopping

The runs of `stop` that return: a SOFT_STOP to each chip, reads of STATUS
until each chip has answered with BUSY high, and a HARD_HIZ to each chip. A run
whose loops have not ended has sent no HARD_HIZ (`stop_releases`).
-/

namespace LineFollower

open Lib Lib.Exchange

variable {host : Host} {self v : Motors} {as rest : List Packet} {log : Log}

-- ---------------------------------------------------------------------------
-- A command to both chips
-- ---------------------------------------------------------------------------

def Told (self : Motors) (b : Byte) (log : Log) : Prop :=
  ∃ a a', log = [(frame { self with nPosition := 0 } .left b, a),
    (frame { self with nPosition := 1 } .right b, a')]

theorem command_ok {chip : Chip} (hc : packetIndex self.nPosition = some chip) {b : Byte} :
    (do let _ ← spiXfer b; pure () : Spi Unit) self as = ⟨.ok (), v, rest, log⟩ ↔
      ∃ a, as = a :: rest ∧ v = self ∧ log = [(frame self chip b, a)] := by
  cases as with
  | nil => simp [bind_run, spiXfer_nil hc]
  | cons a as =>
    rw [command_run hc]
    constructor
    · intro h
      simp only [Outcome.mk.injEq] at h
      obtain ⟨-, rfl, rfl, rfl⟩ := h
      exact ⟨a, rfl, rfl, rfl⟩
    · rintro ⟨a', h, rfl, rfl⟩
      obtain ⟨rfl, rfl⟩ := List.cons.inj h
      rfl

theorem both_ok {b : Byte} :
    leftThenRight (do let _ ← spiXfer b; pure ()) (do let _ ← spiXfer b; pure ()) self as =
        ⟨.ok (), v, rest, log⟩ ↔
      v = { self with nPosition := 1 } ∧ as = log.map Prod.snd ++ rest ∧ Told self b log := by
  rw [leftThenRight_ok]
  constructor
  · rintro ⟨v₁, as₁, l₁, l₂, hleft, hright, rfl⟩
    obtain ⟨a, rfl, rfl, rfl⟩ := (command_ok packetIndex_left).mp hleft
    obtain ⟨a', rfl, rfl, rfl⟩ := (command_ok packetIndex_right).mp hright
    exact ⟨rfl, rfl, a, a', rfl⟩
  · rintro ⟨rfl, rfl, a, a', rfl⟩
    exact ⟨_, _, _, _, (command_ok packetIndex_left).mpr ⟨a, rfl, rfl, rfl⟩,
      (command_ok packetIndex_right).mpr ⟨a', rfl, rfl, rfl⟩, rfl⟩

theorem waits_ok :
    leftThenRight (waitWhileBusy host) (waitWhileBusy host) self as = ⟨.ok (), v, rest, log⟩ ↔
      v = { self with nPosition := 1 } ∧ as = log.map Prod.snd ++ rest ∧
        ∃ left right, log = left ++ right ∧ Polls { self with nPosition := 0 } .left left ∧
          Polls { self with nPosition := 1 } .right right := by
  rw [leftThenRight_ok]
  constructor
  · rintro ⟨v₁, as₁, l₁, l₂, hleft, hright, rfl⟩
    obtain ⟨rfl, rfl, hpl⟩ := (waitWhileBusy_ok packetIndex_left).mp hleft
    obtain ⟨rfl, rfl, hpr⟩ := (waitWhileBusy_ok packetIndex_right).mp hright
    exact ⟨rfl, by simp, l₁, l₂, rfl, hpl, hpr⟩
  · rintro ⟨rfl, rfl, left, right, rfl, hpl, hpr⟩
    have hleft : waitWhileBusy host { self with nPosition := 0 }
        ((left ++ right).map Prod.snd ++ rest) =
          ⟨.ok (), { self with nPosition := 0 }, right.map Prod.snd ++ rest, left⟩ :=
      (waitWhileBusy_ok packetIndex_left).mpr ⟨rfl, by rw [List.map_append, List.append_assoc], hpl⟩
    have hright : waitWhileBusy host { self with nPosition := 1 } (right.map Prod.snd ++ rest) =
        ⟨.ok (), { self with nPosition := 1 }, rest, right⟩ :=
      (waitWhileBusy_ok packetIndex_right).mpr ⟨rfl, rfl, hpr⟩
    exact ⟨_, _, _, _, hleft, hright, rfl⟩

-- ---------------------------------------------------------------------------
-- The runs that return
-- ---------------------------------------------------------------------------

/-- The transfers of a `stop` that has returned. -/
structure Stops (board : Motors) (softs left right hizs : Log) : Prop where
  softs : Told board cmdSoftStop softs
  left : Polls { board with nPosition := 0 } .left left
  right : Polls { board with nPosition := 1 } .right right
  hizs : Told board cmdHardHiZ hizs

theorem stop_ok :
    stop host self as = ⟨.ok (), v, rest, log⟩ ↔
      v = { self with nPosition := 1 } ∧ as = log.map Prod.snd ++ rest ∧
        ∃ softs left right hizs, log = softs ++ ((left ++ right) ++ hizs) ∧
          Stops self softs left right hizs := by
  rw [stop_eq, bind_ok]
  constructor
  · rintro ⟨⟨⟩, v₁, as₁, softs, l', hsoft, hrest, rfl⟩
    obtain ⟨⟨⟩, v₂, as₂, polls, hizs, hpoll, hhiz, rfl⟩ := bind_ok.mp hrest
    obtain ⟨rfl, rfl, hsofts⟩ := both_ok.mp hsoft
    obtain ⟨rfl, rfl, left, right, rfl, hl, hr⟩ := waits_ok.mp hpoll
    obtain ⟨rfl, rfl, hhizs⟩ := both_ok.mp hhiz
    exact ⟨rfl, by simp, softs, left, right, hizs, rfl, hsofts, hl, hr, hhizs⟩
  · rintro ⟨rfl, rfl, softs, left, right, hizs, rfl, hsofts, hl, hr, hhizs⟩
    have hsoft : leftThenRight softStop softStop self
        ((softs ++ ((left ++ right) ++ hizs)).map Prod.snd ++ rest) =
          ⟨.ok (), { self with nPosition := 1 }, ((left ++ right) ++ hizs).map Prod.snd ++
            rest, softs⟩ :=
      both_ok.mpr ⟨rfl, by simp, hsofts⟩
    have hpoll :
        leftThenRight (waitWhileBusy host) (waitWhileBusy host) { self with nPosition := 1 }
        (((left ++ right) ++ hizs).map Prod.snd ++ rest) =
          ⟨.ok (), { self with nPosition := 1 }, hizs.map Prod.snd ++ rest, left ++ right⟩ :=
      waits_ok.mpr ⟨rfl, by simp, left, right, rfl, hl, hr⟩
    have hhiz : leftThenRight hardHiZ hardHiZ { self with nPosition := 1 }
        (hizs.map Prod.snd ++ rest) = ⟨.ok (), { self with nPosition := 1 }, rest, hizs⟩ :=
      both_ok.mpr ⟨rfl, rfl, hhizs⟩
    exact ⟨_, _, _, _, _, hsoft, bind_ok.mpr ⟨_, _, _, _, _, hpoll, hhiz, rfl⟩, rfl⟩

-- ---------------------------------------------------------------------------
-- What the chips are told
-- ---------------------------------------------------------------------------

section
variable {reply : GetReply}

theorem commands_opcodes (chip : Chip) (log : Log) :
    (commands reply chip log).map Command.opcode = (opcodes reply chip log).filter
    (· ≠ cmdNop) := by
  rw [opcodes, List.filter_map]
  rfl

theorem Told.commands {b : Byte} (h : Told self b log) (hb : argBytes reply b = 0)
    (hnop : b ≠ cmdNop)
    (chip : Chip) :
    (commands reply chip log).map Command.opcode = [b] ∧ Idle reply chip log := by
  have hrun : leftThenRight (do let _ ← spiXfer b; pure ()) (do let _ ← spiXfer b; pure ()) self
      (log.map Prod.snd) = ⟨.ok (), { self with nPosition := 1 }, [], log⟩ :=
    both_ok.mpr ⟨rfl, (List.append_nil _).symm, h⟩
  obtain ⟨hopcodes, hidle⟩ := both_opcodes hb hrun chip
  refine ⟨?_, hidle⟩
  rw [commands_opcodes, hopcodes]
  cases chip <;> simp [onBoth, hnop]

variable {softs left right hizs : Log}

theorem Stops.polled (h : Stops self softs left right hizs) (chip : Chip) :
    (∀ cmd ∈ commands reply chip (left ++ right),
      cmd.opcode = ParamRegister.status.value ||| cmdGetParam) ∧
        Idle reply chip (left ++ right) := by
  have hrun : leftThenRight (waitWhileBusy .lp64) (waitWhileBusy .lp64) self
      ((left ++ right).map Prod.snd) = ⟨.ok (), { self with nPosition := 1 }, [], left ++ right⟩ :=
    waits_ok.mpr ⟨rfl, (List.append_nil _).symm, left, right, rfl, h.left, h.right⟩
  exact ⟨fun cmd hcmd => commands_polls hrun hcmd, (polls_opcodes hrun chip).2⟩

/-- What each chip gets: one SOFT_STOP, reads of STATUS, and one HARD_HIZ. -/
structure Gets (reply : GetReply) (chip : Chip) (softs polls hizs : Log) : Prop where
  soft : (commands reply chip softs).map Command.opcode = [cmdSoftStop]
  polled : ∀ cmd ∈ commands reply chip polls, cmd.opcode =
    ParamRegister.status.value ||| cmdGetParam
  hiz : (commands reply chip hizs).map Command.opcode = [cmdHardHiZ]
  whole : commands reply chip (softs ++ (polls ++ hizs)) =
    commands reply chip softs ++ (commands reply chip polls ++ commands reply chip hizs)
  idle : Idle reply chip (softs ++ (polls ++ hizs))

theorem Stops.gets (h : Stops self softs left right hizs) (reply : GetReply) (chip : Chip) :
    Gets reply chip softs (left ++ right) hizs := by
  obtain ⟨hsoft, hidle₁⟩ : _ ∧ Idle reply chip softs :=
    h.softs.commands argBytes_softStop (by decide) chip
  obtain ⟨hpolled, hidle₂⟩ : _ ∧ Idle reply chip (left ++ right) := h.polled chip
  obtain ⟨hhiz, hidle₃⟩ : _ ∧ Idle reply chip hizs :=
    h.hizs.commands argBytes_hardHiZ (by decide) chip
  refine ⟨hsoft, hpolled, hhiz, ?_, ?_⟩
  · rw [commands_append hidle₁, commands_append hidle₂]
  · exact (received_append_idle hidle₁ _).2.mpr ((received_append_idle hidle₂ _).2.mpr hidle₃)

end

-- ---------------------------------------------------------------------------
-- The runs that do not
-- ---------------------------------------------------------------------------

/-- `stop` up to its last two commands. -/
def halt (host : Host) : Spi Unit := do
  leftThenRight softStop softStop
  leftThenRight (waitWhileBusy host) (waitWhileBusy host)

theorem halt_follows {reply : GetReply} :
    (daisyChain reply (· ≠ cmdHardHiZ)).Follows (halt host) := by
  have hsoft : (daisyChain reply (· ≠ cmdHardHiZ)).Follows softStop :=
    command_follows (by decide) argBytes_softStop (by decide)
  have hwait : (daisyChain reply (· ≠ cmdHardHiZ)).Follows (waitWhileBusy host) :=
    waitWhileBusy_follows (by decide) (by decide)
  exact (leftThenRight_follows hsoft hsoft).seq (leftThenRight_follows hwait hwait)

theorem halt_cases (self : Motors) (as : List Packet) :
    ((∃ stop, (halt host self as).result = .error stop) ∧
      ∀ reply chip, cmdHardHiZ ∉ opcodes reply chip (halt host self as).log) ∨
    ∃ v rest softs left right, halt host self as = ⟨.ok (), v, rest, softs ++ (left ++ right)⟩ ∧
      Told self cmdSoftStop softs ∧ Polls { self with nPosition := 0 } .left left ∧
      Polls { self with nPosition := 1 } .right right := by
  -- The position before does not matter.
  have hstart : halt host self as = halt host { self with nPosition := 0 } as := rfl
  cases hr : (halt host self as).result with
  | ok u =>
    have hrun : halt host self as = ⟨.ok u, _, _, _⟩ := Outcome.ext hr rfl rfl rfl
    obtain ⟨⟨⟩, v₁, as₁, softs, polls, hsoft, hpoll, hlog⟩ := bind_ok.mp hrun
    obtain ⟨rfl, -, hsofts⟩ := both_ok.mp hsoft
    obtain ⟨-, -, left, right, rfl, hl, hr⟩ := waits_ok.mp hpoll
    exact .inr ⟨_, _, softs, left, right, hlog ▸ hrun, hsofts, hl, hr⟩
  | error stop =>
    refine .inl ⟨⟨stop, rfl⟩, fun reply chip hmem => ?_⟩
    have hmeets := @halt_follows host reply { self with nPosition := 0 } as (.inl rfl)
    rw [← hstart, Discipline.Meets, hr] at hmeets
    cases stop with
    | fault e => exact hmeets
    | pending =>
      obtain ⟨cmd, hcmd, hopcode⟩ := List.mem_map.mp hmem
      exact hmeets.2 chip cmd hcmd hopcode

theorem stop_eq_halt : stop host = (do halt host; leftThenRight hardHiZ hardHiZ) := by
  rw [stop_eq, halt, bind_assoc]

/-- Also a run that is cut off sends no HARD_HIZ before both loops have ended. -/
theorem stop_cases (self : Motors) (as : List Packet) :
    (∀ reply chip, cmdHardHiZ ∉ opcodes reply chip (stop host self as).log) ∨
    ∃ softs left right hizs, (stop host self as).log = softs ++ ((left ++ right) ++ hizs) ∧
      Told self cmdSoftStop softs ∧ Polls { self with nPosition := 0 } .left left ∧
      Polls { self with nPosition := 1 } .right right := by
  rw [stop_eq_halt, bind_run]
  rcases @halt_cases host self as with ⟨⟨stop, hr⟩, hnone⟩ |
    ⟨v, rest, softs, left, right, hrun, hpolls⟩
  · rw [hr]
    exact .inl hnone
  · rw [hrun]
    exact .inr ⟨softs, left, right, _, List.append_assoc _ _ _, hpolls⟩

/-- A `stop` returns after a SOFT_STOP to each chip, reads of STATUS until each
chip has answered with BUSY high, and a HARD_HIZ to each chip, and only then.
A chip gets these commands and no others. No run, cut off or not, sends a
HARD_HIZ before both chips have answered. -/
theorem stop_releases (host : Host) (self : Motors) (as : List Packet) :
    (∀ v rest log, stop host self as = ⟨.ok (), v, rest, log⟩ ↔
      v = { self with nPosition := 1 } ∧ as = log.map Prod.snd ++ rest ∧
        ∃ softs left right hizs, log = softs ++ ((left ++ right) ++ hizs) ∧
          Stops self softs left right hizs) ∧
    (∀ softs left right hizs, Stops self softs left right hizs → ∀ reply chip,
      Gets reply chip softs (left ++ right) hizs) ∧
    ((∀ reply chip, cmdHardHiZ ∉ opcodes reply chip (stop host self as).log) ∨
      ∃ softs left right hizs, (stop host self as).log = softs ++ ((left ++ right) ++ hizs) ∧
        Told self cmdSoftStop softs ∧ Polls { self with nPosition := 0 } .left left ∧
        Polls { self with nPosition := 1 } .right right) :=
  ⟨fun _ _ _ => stop_ok, fun _ _ _ _ h => h.gets, stop_cases self as⟩

end LineFollower
