import Mathlib.Data.Nat.Notation

/-!
# Two runs in lockstep

A step function takes an input and gives an output and the next state. Two of
them are compared over runs of any length by a relation between their states
that each step keeps: `Lockstep` asks this of one step, and gives it of all
(`Lockstep.states`), with what the step says of the outputs
(`Lockstep.outputs`).
-/

namespace LineFollower.Lib

universe u v w

section
variable {S : Type u} {I : Type v} {O : Type w}

def stateAfter (step : S → I → O × S) (s : S) (x : ℕ → I) : ℕ → S
  | 0 => s
  | n + 1 => (step (stateAfter step s x n) (x (n + 1))).2

def outputAt (step : S → I → O × S) (s : S) (x : ℕ → I) (n : ℕ) : O :=
  (step (stateAfter step s x n) (x (n + 1))).1

end

section
variable {S S' : Type u} {I I' : Type v} {O O' : Type w}

/-- Related states, fed related inputs, give related outputs and related states. -/
def Lockstep (step : S → I → O × S) (step' : S' → I' → O' × S') (R : S → S' → Prop)
    (P : I → I' → Prop) (Q : O → O' → Prop) : Prop :=
  ∀ s s' a a', R s s' → P a a' →
    Q (step s a).1 (step' s' a').1 ∧ R (step s a).2 (step' s' a').2

namespace Lockstep

variable {step : S → I → O × S} {step' : S' → I' → O' × S'} {R : S → S' → Prop}
  {P : I → I' → Prop} {Q : O → O' → Prop} {s : S} {s' : S'} {x : ℕ → I} {x' : ℕ → I'}

theorem states (h : Lockstep step step' R P Q) (hs : R s s') {n : ℕ}
    (hx : ∀ i, 1 ≤ i → i ≤ n → P (x i) (x' i)) :
    R (stateAfter step s x n) (stateAfter step' s' x' n) := by
  induction n with
  | zero => exact hs
  | succ n ih =>
    have hn := ih fun i hpos hle => hx i hpos (Nat.le_succ_of_le hle)
    exact (h _ _ _ _ hn (hx (n + 1) (Nat.succ_pos n) (Nat.le_refl _))).2

theorem outputs (h : Lockstep step step' R P Q) (hs : R s s') {n : ℕ}
    (hx : ∀ i, 1 ≤ i → i ≤ n + 1 → P (x i) (x' i)) :
    Q (outputAt step s x n) (outputAt step' s' x' n) := by
  have hn := h.states hs fun i hpos hle => hx i hpos (Nat.le_succ_of_le hle)
  exact (h _ _ _ _ hn (hx (n + 1) (Nat.succ_pos n) (Nat.le_refl _))).1

end Lockstep

end

end LineFollower.Lib
