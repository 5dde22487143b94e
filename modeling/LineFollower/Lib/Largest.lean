import Mathlib.Order.Lattice

/-!
# The running maximum

A scan that keeps the best value so far and its index, and replaces it on a
strictly better one. `largest_cases` says all a scan can end with: the value
it started with, or the first of the largest values of the list.
-/

namespace LineFollower.Lib

universe u

variable {β : Type u} [LinearOrder β]

/-- The scan of the list from index `i`, with the best value and index so far. -/
def largest (best : β × Nat) (i : Nat) : List β → β × Nat
  | [] => best
  | b :: bs => if b > best.1 then largest (b, i) (i + 1) bs else largest best (i + 1) bs

theorem largest_cases (best : β × Nat) (i : Nat) (bs : List β) :
    (largest best i bs = best ∧ ∀ b ∈ bs, b ≤ best.1) ∨
      ∃ pre b post, bs = pre ++ b :: post ∧ largest best i bs = (b, i + pre.length) ∧
        best.1 < b ∧ (∀ x ∈ pre, x < b) ∧ ∀ x ∈ post, x ≤ b := by
  induction bs generalizing best i with
  | nil =>
    left
    rw [largest]
    exact ⟨rfl, by simp⟩
  | cons b bs ih =>
    by_cases hb : b > best.1
    · right
      rw [largest, if_pos hb]
      rcases ih (b, i) (i + 1) with ⟨heq, hle⟩ | ⟨pre, c, post, rfl, heq, hlt, hpre, hpost⟩
      · exact ⟨[], b, bs, rfl, heq, hb, by simp, hle⟩
      · refine ⟨b :: pre, c, post, rfl, ?_, lt_trans hb hlt, ?_, hpost⟩
        · rw [heq, List.length_cons, Nat.add_assoc, Nat.add_comm 1]
        · rintro x (_ | ⟨_, hx⟩)
          · exact hlt
          · exact hpre x hx
    · rw [largest, if_neg hb]
      rcases ih best (i + 1) with ⟨heq, hle⟩ | ⟨pre, c, post, rfl, heq, hlt, hpre, hpost⟩
      · refine .inl ⟨heq, ?_⟩
        rintro x (_ | ⟨_, hx⟩)
        · exact not_lt.mp hb
        · exact hle x hx
      · refine .inr ⟨b :: pre, c, post, rfl, ?_, hlt, ?_, hpost⟩
        · rw [heq, List.length_cons, Nat.add_assoc, Nat.add_comm 1]
        · rintro x (_ | ⟨_, hx⟩)
          · exact lt_of_le_of_lt (not_lt.mp hb) hlt
          · exact hpre x hx

end LineFollower.Lib
