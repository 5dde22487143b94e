import LineFollower.Motors.Opcodes

/-!
# The selected chip

`m_nPosition` is left at the chip that an operation addressed last. Every
operation assigns it before its first transfer, but for the destructor, whose
first HARD_HIZ goes to the chip that happens to be selected, and for
`busyCheck`, which its callers point at a chip. So of the operations the
destructor alone depends on what was called before (`selection_iff`).
-/

namespace LineFollower

open Lib Lib.Exchange

variable {host : Host}

-- ---------------------------------------------------------------------------
-- Reachable objects
-- ---------------------------------------------------------------------------

def Reachable (host : Host) (self : Motors) : Prop :=
  ∃ nSpiChipSelect ops start as rest log,
    session host nSpiChipSelect ops start as = ⟨.ok (), self, rest, log⟩

theorem Reachable.selected {self : Motors} (h : Reachable host self) :
    ∃ chip, packetIndex self.nPosition = some chip := by
  obtain ⟨nSpiChipSelect, ops, start, as, rest, log, hrun⟩ := h
  have hmeets := @session_meets host .counted nSpiChipSelect ops start as
  rw [hrun] at hmeets
  exact exists_packetIndex hmeets.1

-- ---------------------------------------------------------------------------
-- Operations that select
-- ---------------------------------------------------------------------------

/-- Runs alike whichever chip is selected. -/
def Selects (m : Spi α) : Prop :=
    ∀ self position as, m { self with nPosition := position } as = m self as

theorem select_selects (position : Byte) (m : Spi α) : Selects (do select position; m) :=
  fun _ _ _ => rfl

theorem Selects.bind {m : Spi α} (h : Selects m) (f : α → Spi β) : Selects (m >>= f) := by
  intro self position as
  rw [bind_run, bind_run, h self position as]

theorem perform_selects {op : Operation} (hbusy : op ≠ .busyCheck) (hdelete : op ≠ .delete) :
    Selects (op.perform host) := by
  cases op with
  | new nSpiChipSelect => exact fun _ _ _ => rfl
  | setUp => exact select_selects _ _
  | setSpeed l r => exact select_selects _ _
  | setMicrostep step => exact select_selects _ _
  | stop => exact select_selects _ _
  | busyCheck => exact absurd rfl hbusy
  | getPositionLeft => exact (select_selects _ _).bind _
  | getPositionRight => exact (select_selects _ _).bind _
  | resetPosition => exact select_selects _ _
  | getBatteryVoltage => exact (select_selects _ _).bind _
  | delete => exact absurd rfl hdelete

-- ---------------------------------------------------------------------------
-- The destructor
-- ---------------------------------------------------------------------------

theorem delete_first {self : Motors} {chip : Chip} (hc : packetIndex self.nPosition = some chip)
    (a : Packet) : (delete self [a]).log = [(frame self chip cmdHardHiZ, a)] := by
  have hfirst : hardHiZ self [a] = _ := command_run hc cmdHardHiZ a []
  rw [delete_eq, bind_run, hfirst]
  rfl

theorem packetIndex_inj {p q : Byte} {chip : Chip} (hp : packetIndex p = some chip)
    (hq : packetIndex q = some chip) : p = q := by
  rcases packetIndex_eq_some hp with ⟨rfl, rfl⟩ | ⟨rfl, rfl⟩
  · rcases packetIndex_eq_some hq with ⟨rfl, -⟩ | ⟨-, h⟩
    · rfl
    · cases h
  · rcases packetIndex_eq_some hq with ⟨-, h⟩ | ⟨rfl, -⟩
    · cases h
    · rfl

/-- The chips can tell from the first transfer which of them is selected. -/
theorem delete_tells {self self' : Motors} {chip chip' : Chip}
    (hc : packetIndex self.nPosition = some chip) (hc' : packetIndex self'.nPosition = some chip')
    (h : ∀ as c, wire c (delete self as).log = wire c (delete self' as).log) :
    self.nPosition = self'.nPosition := by
  have hwire := h [Packet.zero] chip
  rw [delete_first hc, delete_first hc'] at hwire
  have hbyte :
      (Packet.zero.set chip cmdHardHiZ).get chip = (Packet.zero.set chip' cmdHardHiZ).get chip :=
    List.head_eq_of_cons_eq hwire
  by_cases hsame : chip = chip'
  · subst hsame
    exact packetIndex_inj hc hc'
  · rw [Packet.get_set_self, Packet.get_set_ne _ _ hsame, Packet.get_zero] at hbyte
    exact absurd hbyte (by decide)

-- ---------------------------------------------------------------------------
-- Two selections
-- ---------------------------------------------------------------------------

theorem reachable_right : Reachable .lp64 ⟨0, 1, false, false⟩ :=
  ⟨0, [], ⟨0, 0, false, false⟩, List.replicate 6 Packet.zero, _, _, rfl⟩

theorem reachable_left : Reachable .lp64 ⟨0, 0, false, false⟩ :=
  ⟨0, [.getPositionLeft], ⟨0, 0, false, false⟩, List.replicate 10 Packet.zero, _, _, rfl⟩

/-- Two reachable states that differ at most in the selection: an operation
sends each chip the same bytes from both, for all answers, unless it is the
destructor and they select different chips. -/
theorem selection_iff (host : Host) {self self' : Motors} (hr : Reachable host self)
    (hr' : Reachable host self') (hsame : self' = { self with nPosition := self'.nPosition })
    {op : Operation} (hop : op ≠ .busyCheck) :
    (∀ as chip, wire chip (op.perform host self as).log =
      wire chip (op.perform host self' as).log) ↔
      op ≠ .delete ∨ self.nPosition = self'.nPosition := by
  obtain ⟨chip, hc⟩ := hr.selected
  obtain ⟨chip', hc'⟩ := hr'.selected
  constructor
  · intro h
    by_cases hdelete : op = .delete
    · subst hdelete
      exact .inr (delete_tells hc hc' h)
    · exact .inl hdelete
  · rintro (hdelete | hposition) as c
    · rw [hsame, perform_selects hop hdelete self self'.nPosition as]
    · rw [hsame, ← hposition]

theorem selection_iff_stop :
    (∀ as chip, wire chip (Operation.perform .lp64 .stop ⟨0, 0, false, false⟩ as).log =
      wire chip (Operation.perform .lp64 .stop ⟨0, 1, false, false⟩ as).log) ↔
      Operation.stop ≠ .delete ∨ (0 : Byte) = 1 :=
  selection_iff .lp64 reachable_left reachable_right rfl (by simp)

/-- The destructor after `getPositionLeft`, and right after the constructor. -/
theorem delete_selection :
    Reachable .lp64 ⟨0, 0, false, false⟩ ∧ Reachable .lp64 ⟨0, 1, false, false⟩ ∧
    wire .left (delete ⟨0, 0, false, false⟩ (atRest 3)).log = [cmdHardHiZ, cmdHardStop, cmdNop] ∧
    wire .left (delete ⟨0, 1, false, false⟩ (atRest 3)).log = [cmdNop, cmdHardStop, cmdNop] ∧
    ¬ ∀ self self', Reachable .lp64 self → Reachable .lp64 self' →
      self' = { self with nPosition := self'.nPosition } → ∀ as chip,
        wire chip (delete self as).log = wire chip (delete self' as).log := by
  refine ⟨reachable_left, reachable_right, by decide, by decide, fun h => ?_⟩
  have hwire := h _ _ reachable_left reachable_right rfl (atRest 3) .left
  exact absurd hwire (by decide)

end LineFollower
