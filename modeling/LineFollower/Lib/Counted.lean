import Mathlib.Data.Nat.Notation

/-!
# Counted loops

`for (i = 0; i < n; i++)` over variables of any type, in any monad: the
variables after each turn as a function of the number of turns.
-/

namespace LineFollower.Lib

universe u v

variable {m : Type u → Type v} [Monad m] [LawfulMonad m] {S : Type u} {body : S → ℕ → m S}

theorem foldlM_range_succ (s : S) (n : ℕ) :
    (List.range (n + 1)).foldlM body s = (do body (← (List.range n).foldlM body s) n) := by
  rw [List.range_succ, List.foldlM_append]
  simp

/-- The rule of the loop: what each turn makes of the variables. -/
theorem foldlM_range_eq (f : ℕ → S) {s : S} (hs : f 0 = s) {n : ℕ}
    (h : ∀ i < n, body (f i) i = pure (f (i + 1))) : (List.range n).foldlM body s = pure (f n) := by
  subst hs
  induction n with
  | zero => simp
  | succ n ih =>
    have hn := ih fun i hi => h i (Nat.lt_succ_of_lt hi)
    rw [foldlM_range_succ, hn, pure_bind, h n (Nat.lt_succ_self n)]

end LineFollower.Lib
