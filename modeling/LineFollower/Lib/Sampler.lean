import LineFollower.Lib.Transition
import Mathlib.Order.Defs.PartialOrder

/-!
# Sampling a growing value

One party offers values, each above the one before; the other takes the newest
one when it has not taken it yet. Values may be skipped, and what is taken
grows strictly (`taken_increasing`).
-/

namespace LineFollower.Lib

universe u

structure Sampler (α : Type u) where
  newest : Option α
  taken : List α

namespace Sampler

inductive Action (α : Type u)
  | offer (a : α)
  | take

variable {α : Type u} [PartialOrder α]

def step [DecidableEq α] [DecidableLT α] (s : Sampler α) : Action α → Option (Sampler α)
  | .offer a =>
    match s.newest with
    | none => some { s with newest := some a }
    | some b => if b < a then some { s with newest := some a } else none
  | .take =>
    match s.newest with
    | none => none
    | some a => if a ∈ s.taken then none else some { s with taken := s.taken ++ [a] }

def machine (α : Type u) [PartialOrder α] [DecidableEq α] [DecidableLT α] :
    Machine (Sampler α) (Action α) where
  init := ⟨none, []⟩
  step := step

/-- Nothing above the newest value has been taken, and what has been taken
grows. -/
structure Inv (s : Sampler α) : Prop where
  below : ∀ a ∈ s.taken, ∃ b, s.newest = some b ∧ a ≤ b
  increasing : s.taken.Pairwise (· < ·)

theorem Inv.offer {s : Sampler α} (h : Inv s) {a : α} (ha : ∀ b, s.newest = some b → b < a) :
    Inv { s with newest := some a } := by
  refine ⟨fun c hc => ?_, h.increasing⟩
  obtain ⟨b, hb, hle⟩ := h.below c hc
  exact ⟨a, rfl, le_trans hle (le_of_lt (ha b hb))⟩

theorem Inv.take {s : Sampler α} (h : Inv s) {a : α} (ha : s.newest = some a) (hnew : a ∉ s.taken) :
    Inv { s with taken := s.taken ++ [a] } := by
  have hlt : ∀ c ∈ s.taken, c < a := by
    intro c hc
    obtain ⟨b, hb, hle⟩ := h.below c hc
    obtain rfl := Option.some.inj (ha.symm.trans hb)
    exact lt_of_le_of_ne hle fun heq => hnew (heq ▸ hc)
  constructor
  · intro c hc
    rcases List.mem_append.mp hc with hc | hc
    · exact ⟨a, ha, le_of_lt (hlt c hc)⟩
    · obtain rfl := List.mem_singleton.mp hc
      exact ⟨c, ha, le_refl c⟩
  · refine List.pairwise_append.mpr ⟨h.increasing, List.pairwise_singleton _ _, ?_⟩
    intro c hc b hb
    obtain rfl := List.mem_singleton.mp hb
    exact hlt c hc

variable [DecidableEq α] [DecidableLT α]

theorem Inv.step {s s' : Sampler α} {l : Action α} (h : Inv s) (hs : s.step l = some s') :
    Inv s' := by
  cases l with
  | offer a =>
    cases hn : s.newest with
    | none =>
      simp only [Sampler.step, hn, Option.some.injEq] at hs
      exact hs ▸ h.offer (by simp [hn])
    | some b =>
      simp only [Sampler.step, hn, Option.ite_none_right_eq_some, Option.some.injEq] at hs
      obtain ⟨hlt, rfl⟩ := hs
      exact h.offer fun c hc => Option.some.inj (hn.symm.trans hc) ▸ hlt
  | take =>
    cases hn : s.newest with
    | none => simp [Sampler.step, hn] at hs
    | some a =>
      simp only [Sampler.step, hn, Option.ite_none_left_eq_some, Option.some.injEq] at hs
      obtain ⟨hnew, rfl⟩ := hs
      exact hn ▸ h.take hn hnew

theorem taken_increasing {s : Sampler α} (h : (machine α).Reachable s) :
    s.taken.Pairwise (· < ·) := by
  have hinv : Inv s := by
    apply h.invariant ⟨by simp [machine], List.Pairwise.nil⟩
    intro _ _ _ hi _ hs
    exact hi.step hs
  exact hinv.increasing

end Sampler

end LineFollower.Lib
