import Mathlib.Data.List.Basic

/-!
# A serial port with two queues

A full-duplex port: words that are pushed wait in a queue, are shifted out one
at a time to a slave that gives a word back for each, and these wait in a
second queue until they are popped. A port with no room for an answer does not
start the next word, so nothing is lost: what was pushed is what the slave has
had, what is being shifted and what waits, and what the slave gave is what was
popped and what waits (`Port.Carries`).

Every step that has an effect moves a word one place on, which `Port.weight`
counts.
-/

namespace LineFollower.Lib

variable {S β : Type} (shift : S → β → β × S)

def serve (s : S) : List β → List β × S
  | [] => ([], s)
  | b :: bs =>
    let first := shift s b
    let rest := serve first.2 bs
    (first.1 :: rest.1, rest.2)

@[simp] theorem serve_nil (s : S) : serve shift s [] = ([], s) := rfl

theorem serve_append (s : S) (bs cs : List β) :
    serve shift s (bs ++ cs) =
      ((serve shift s bs).1 ++ (serve shift (serve shift s bs).2 cs).1,
        (serve shift (serve shift s bs).2 cs).2) := by
  induction bs generalizing s with
  | nil => rfl
  | cons b bs ih => simp [serve, ih]

theorem serve_append_snd (s : S) (bs cs : List β) :
    (serve shift s (bs ++ cs)).2 = (serve shift (serve shift s bs).2 cs).2 := by
  rw [serve_append]

theorem length_serve (s : S) (bs : List β) : (serve shift s bs).1.length = bs.length := by
  induction bs generalizing s with
  | nil => rfl
  | cons b bs ih => simp [serve, ih]

structure Port (S β : Type) where
  tx : List β
  /-- The word that is being shifted out. -/
  shifter : Option β
  rx : List β
  slave : S

namespace Port

def push (room : Nat) (b : β) (p : Port S β) : Port S β :=
  if p.tx.length < room then { p with tx := p.tx ++ [b] } else p

def pop (p : Port S β) : Port S β := { p with rx := p.rx.tail }

def tick (room : Nat) (p : Port S β) : Port S β :=
  match p.shifter with
  | some b =>
    let answer := shift p.slave b
    { p with shifter := none, rx := p.rx ++ [answer.1], slave := answer.2 }
  | none =>
    match p.tx with
    | [] => p
    | b :: tx => if p.rx.length < room then { p with tx, shifter := some b } else p

def ticks (room : Nat) : Nat → Port S β → Port S β
  | 0, p => p
  | n + 1, p => ticks room n (p.tick shift room)

def pending (p : Port S β) : List β := p.shifter.toList ++ p.tx

-- ---------------------------------------------------------------------------
-- Nothing is lost
-- ---------------------------------------------------------------------------

/-- The port `p₀` after the words `pushed` and the answers `popped`. -/
def Carries (p₀ : Port S β) (pushed popped : List β) (p : Port S β) : Prop :=
  ∃ done, p₀.pending ++ pushed = done ++ p.pending ∧
    popped ++ p.rx = p₀.rx ++ (serve shift p₀.slave done).1 ∧
    p.slave = (serve shift p₀.slave done).2

variable {shift} {room : Nat} {pushed popped : List β} {p₀ p : Port S β}

theorem Carries.refl (p : Port S β) : Carries shift p [] [] p := ⟨[], by simp, by simp, rfl⟩

theorem Carries.push (h : Carries shift p₀ pushed popped p) (hroom : p.tx.length < room) (b : β) :
    Carries shift p₀ (pushed ++ [b]) popped (p.push room b) := by
  obtain ⟨done, hsent, hgot, hslave⟩ := h
  refine ⟨done, ?_, ?_, ?_⟩
  · rw [← List.append_assoc, hsent]
    simp [Port.push, pending, hroom]
  · simpa [Port.push, hroom] using hgot
  · simpa [Port.push, hroom] using hslave

theorem Carries.pop {b : β} {rx : List β} (h : Carries shift p₀ pushed popped p)
    (hrx : p.rx = b :: rx) :
    Carries shift p₀ pushed (popped ++ [b]) p.pop := by
  obtain ⟨done, hsent, hgot, hslave⟩ := h
  exact ⟨done, hsent, by simpa [Port.pop, hrx] using hgot, hslave⟩

theorem Carries.tick (h : Carries shift p₀ pushed popped p) :
    Carries shift p₀ pushed popped (p.tick shift room) := by
  obtain ⟨done, hsent, hgot, hslave⟩ := h
  obtain ⟨tx, shifter, rx, slave⟩ := p
  simp only [pending] at hsent hgot hslave
  subst hslave
  cases shifter with
  | some b =>
    refine ⟨done ++ [b], ?_, ?_, ?_⟩
    · simpa [Port.tick, pending] using hsent
    · rw [serve_append, ← List.append_assoc, ← hgot]
      simp [Port.tick, serve]
    · rw [serve_append]
      rfl
  | none =>
    cases tx with
    | nil => exact ⟨done, hsent, hgot, rfl⟩
    | cons b tx =>
      by_cases hroom : rx.length < room
      · refine ⟨done, ?_, ?_, ?_⟩
        · simpa [Port.tick, hroom, pending] using hsent
        · simpa [Port.tick, hroom] using hgot
        · simp [Port.tick, hroom]
      · refine ⟨done, ?_, ?_, ?_⟩
        · simpa [Port.tick, hroom, pending] using hsent
        · simpa [Port.tick, hroom] using hgot
        · simp [Port.tick, hroom]

theorem Carries.ticks (h : Carries shift p₀ pushed popped p) (n : Nat) :
    Carries shift p₀ pushed popped (p.ticks shift room n) := by
  induction n generalizing p with
  | zero => exact h
  | succ n ih => exact ih h.tick

theorem Carries.length (h : Carries shift p₀ pushed popped p) :
    popped.length + p.rx.length + p.pending.length =
      p₀.rx.length + p₀.pending.length + pushed.length := by
  obtain ⟨done, hsent, hgot, -⟩ := h
  have hs := congrArg List.length hsent
  have hg := congrArg List.length hgot
  simp only [List.length_append, length_serve] at hs hg
  omega

theorem Carries.popped_prefix (h : Carries shift p₀ pushed popped p) :
    popped <+: p₀.rx ++ (serve shift p₀.slave (p₀.pending ++ pushed)).1 := by
  obtain ⟨done, hsent, hgot, -⟩ := h
  rw [hsent, serve_append, ← List.append_assoc, ← hgot, List.append_assoc]
  exact List.prefix_append _ _

theorem Carries.slave_prefix (h : Carries shift p₀ pushed popped p) :
    ∃ done, done <+: p₀.pending ++ pushed ∧ p.slave = (serve shift p₀.slave done).2 := by
  obtain ⟨done, hsent, -, hslave⟩ := h
  exact ⟨done, hsent ▸ List.prefix_append _ _, hslave⟩

theorem Carries.slave_eq (h : Carries shift p₀ pushed popped p) (hp : p.pending = []) :
    p.slave = (serve shift p₀.slave (p₀.pending ++ pushed)).2 := by
  obtain ⟨done, hsent, -, hslave⟩ := h
  rw [hsent, hp, List.append_nil, hslave]

-- ---------------------------------------------------------------------------
-- Progress
-- ---------------------------------------------------------------------------

def weight (p : Port S β) : Nat := 3 * p.tx.length + 2 * p.shifter.toList.length + p.rx.length

theorem weight_push (hroom : p.tx.length < room) (b : β) :
    (p.push room b).weight = p.weight + 3 := by
  simp only [weight, push, hroom, ↓reduceIte, List.length_append, List.length_singleton]
  omega

theorem weight_pop {b : β} {rx : List β} (hrx : p.rx = b :: rx) : p.pop.weight + 1 = p.weight := by
  simp [weight, pop, hrx]
  omega

def Stuck (room : Nat) (p : Port S β) : Prop :=
  p.shifter = none ∧ (p.tx = [] ∨ room ≤ p.rx.length)

theorem tick_stuck (h : p.Stuck room) : p.tick shift room = p := by
  obtain ⟨hshift, htx | hrx⟩ := h
  · simp [tick, hshift, htx]
  · cases htx : p.tx with
    | nil => simp [tick, hshift, htx]
    | cons b tx => simp [tick, hshift, htx, Nat.not_lt.mpr hrx]

theorem tick_weight (h : ¬ p.Stuck room) : (p.tick shift room).weight < p.weight := by
  obtain ⟨tx, shifter, rx, slave⟩ := p
  cases shifter with
  | some b =>
    simp [tick, weight]
    omega
  | none =>
    cases tx with
    | nil => exact absurd ⟨rfl, .inl rfl⟩ h
    | cons b tx =>
      have hroom : rx.length < room := by
        by_contra hfull
        exact h ⟨rfl, .inr (Nat.le_of_not_lt hfull)⟩
      simp only [tick, hroom, ↓reduceIte, weight, List.length_cons, Option.toList_some,
        Option.toList_none, List.length_nil]
      omega

theorem tick_tx_le : (p.tick shift room).tx.length ≤ p.tx.length := by
  obtain ⟨tx, shifter, rx, slave⟩ := p
  cases shifter with
  | some b => exact Nat.le_refl _
  | none =>
    cases tx with
    | nil => exact Nat.le_refl _
    | cons b tx => by_cases hroom : rx.length < room <;> simp [tick, hroom]

theorem ticks_tx_le (n : Nat) : (p.ticks shift room n).tx.length ≤ p.tx.length := by
  induction n generalizing p with
  | zero => exact Nat.le_refl _
  | succ n ih => exact Nat.le_trans ih tick_tx_le

theorem tick_rx_le : p.rx.length ≤ (p.tick shift room).rx.length := by
  obtain ⟨tx, shifter, rx, slave⟩ := p
  cases shifter with
  | some b => simp [tick]
  | none =>
    cases tx with
    | nil => exact Nat.le_refl _
    | cons b tx => by_cases hroom : rx.length < room <;> simp [tick, hroom]

theorem ticks_rx_le (n : Nat) : p.rx.length ≤ (p.ticks shift room n).rx.length := by
  induction n generalizing p with
  | zero => exact Nat.le_refl _
  | succ n ih => exact Nat.le_trans tick_rx_le ih

theorem ticks_stuck (h : p.Stuck room) (n : Nat) : p.ticks shift room n = p := by
  induction n with
  | zero => rfl
  | succ n ih => rw [ticks, tick_stuck h, ih]

theorem tick_weight_le : (p.tick shift room).weight ≤ p.weight := by
  by_cases h : p.Stuck room
  · exact Nat.le_of_eq (congrArg weight (tick_stuck h))
  · exact Nat.le_of_lt (tick_weight h)

theorem ticks_weight_le (n : Nat) : (p.ticks shift room n).weight ≤ p.weight := by
  induction n generalizing p with
  | zero => exact Nat.le_refl _
  | succ n ih => exact Nat.le_trans ih tick_weight_le

theorem ticks_eq_or_lt (shift : S → β → β × S) (room : Nat) (p : Port S β) (n : Nat) :
    (p.ticks shift room n = p ∧ (n = 0 ∨ p.Stuck room)) ∨ (p.ticks shift room n).weight <
      p.weight := by
  by_cases h : p.Stuck room
  · exact .inl ⟨ticks_stuck h n, .inr h⟩
  · cases n with
    | zero => exact .inl ⟨rfl, .inl rfl⟩
    | succ n => exact .inr (Nat.lt_of_le_of_lt (ticks_weight_le n) (tick_weight h))

end Port

end LineFollower.Lib
