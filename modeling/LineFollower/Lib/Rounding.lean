import Mathlib.Algebra.Order.Floor.Ring
import Mathlib.Tactic.Linarith
import Mathlib.Tactic.Ring
import Mathlib.Tactic.NormNum

/-!
# The two roundings of C

`trunc` is the conversion of a floating-point value to an integer, which drops
the fraction. `roundAway` is `round`, to the nearest integer and away from
zero on a tie. Both are over any ordered field with a floor.
-/

namespace LineFollower.Lib

variable {α : Type*} [Field α] [LinearOrder α] [IsStrictOrderedRing α] [FloorRing α]

def trunc (q : α) : ℤ := if 0 ≤ q then ⌊q⌋ else ⌈q⌉

def roundAway (q : α) : ℤ := if 0 ≤ q then ⌊q + 1 / 2⌋ else ⌈q - 1 / 2⌉

@[simp] theorem trunc_intCast (n : ℤ) : trunc (n : α) = n := by
  unfold trunc
  split
  · exact Int.floor_intCast n
  · exact Int.ceil_intCast n

theorem trunc_lt_add_one (q : α) : (trunc q : α) < q + 1 := by
  unfold trunc
  split
  · exact (Int.floor_le q).trans_lt (lt_add_one q)
  · exact Int.ceil_lt_add_one q

omit [IsStrictOrderedRing α] in
theorem trunc_mono {p q : α} (h : p ≤ q) : trunc p ≤ trunc q := by
  unfold trunc
  split
  · rename_i hp
    rw [if_pos (hp.trans h)]
    exact Int.floor_mono h
  · rename_i hp
    split
    · rename_i hq
      exact (Int.ceil_nonpos.mpr (not_le.mp hp).le).trans (Int.floor_nonneg.mpr hq)
    · exact Int.ceil_mono h

theorem trunc_neg (q : α) : trunc (-q) = -trunc q := by
  rcases lt_trichotomy q 0 with hq | rfl | hq
  · simp only [trunc, not_le.mpr hq, if_pos (neg_nonneg.mpr hq.le), ↓reduceIte, Int.floor_neg]
  · simp [trunc]
  · simp only [trunc, if_pos hq.le, if_neg (not_le.mpr (neg_lt_zero.mpr hq)), Int.ceil_neg]

theorem trunc_eq_zero {q : α} (h : |q| < 1) : trunc q = 0 := by
  obtain ⟨hl, hu⟩ := abs_lt.mp h
  unfold trunc
  split
  · rename_i hq
    exact Int.floor_eq_zero_iff.mpr ⟨hq, hu⟩
  · rename_i hq
    exact Int.ceil_eq_zero_iff.mpr ⟨hl, (not_le.mp hq).le⟩

/-- A fraction below one half does not change what an integer rounds to. -/
theorem roundAway_intCast_add (n : ℤ) {d : α} (h : |d| < 1 / 2) : roundAway ((n : α) + d) = n := by
  obtain ⟨hl, hu⟩ := abs_lt.mp h
  unfold roundAway
  split
  · rw [Int.floor_eq_iff]
    constructor <;> linarith
  · rw [Int.ceil_eq_iff]
    constructor <;> linarith

theorem le_roundAway {n : ℤ} {q : α} (h : (n : α) ≤ q) : n ≤ roundAway q := by
  unfold roundAway
  split
  · exact Int.le_floor.mpr (by linarith)
  · exact Int.le_ceil_iff.mpr (by linarith)

theorem roundAway_le {n : ℤ} {q : α} (h : q ≤ n) : roundAway q ≤ n := by
  unfold roundAway
  split
  · exact Int.floor_le_iff.mpr (by linarith)
  · exact Int.ceil_le.mpr (by linarith)

theorem roundAway_mono {p q : α} (h : p ≤ q) : roundAway p ≤ roundAway q := by
  unfold roundAway
  split
  · rename_i hp
    rw [if_pos (hp.trans h)]
    exact Int.floor_mono (by linarith)
  · rename_i hp
    split
    · rename_i hq
      exact (Int.ceil_nonpos.mpr (by linarith)).trans (Int.floor_nonneg.mpr (by linarith))
    · exact Int.ceil_mono (by linarith)

theorem roundAway_neg (q : α) : roundAway (-q) = -roundAway q := by
  have hshift : -q - 1 / 2 = -(q + 1 / 2) := by ring
  have hshift' : -q + 1 / 2 = -(q - 1 / 2) := by ring
  rcases lt_trichotomy q 0 with hq | rfl | hq
  · simp only [roundAway, not_le.mpr hq, if_pos (neg_nonneg.mpr hq.le), ↓reduceIte, hshift',
      Int.floor_neg]
  · have hhalf : ⌊(1 / 2 : α)⌋ = 0 := Int.floor_eq_zero_iff.mpr ⟨by norm_num, by norm_num⟩
    simp only [roundAway, neg_zero, le_refl, ↓reduceIte, zero_add, hhalf]
  · simp only [roundAway, if_pos hq.le, if_neg (not_le.mpr (neg_lt_zero.mpr hq)), hshift,
      Int.ceil_neg]

@[simp] theorem roundAway_intCast (n : ℤ) : roundAway (n : α) = n :=
  le_antisymm (roundAway_le le_rfl) (le_roundAway le_rfl)

end LineFollower.Lib
