import Mathlib.Logic.Function.Basic

/-!
# Changes of single cells

A store has cells of different types. `Modify` changes one of them by a
function of its old value, as a write does, and a read, modify and write.
After any sequence of such changes a cell depends on its own old value only
(`onAll`), so each cell can be looked at alone.
-/

namespace LineFollower.Lib

universe u v

variable {ι : Type u} [DecidableEq ι] {V : ι → Type v}

structure Modify (V : ι → Type v) where
  cell : ι
  change : V cell → V cell

namespace Modify

def write (i : ι) (x : V i) : Modify V := ⟨i, fun _ => x⟩

def on (w : Modify V) (i : ι) (x : V i) : V i :=
  if h : w.cell = i then h ▸ w.change (h ▸ x) else x

@[simp] theorem on_self (w : Modify V) (x : V w.cell) : w.on w.cell x = w.change x := by
  simp [on]

theorem on_ne {w : Modify V} {i : ι} (h : w.cell ≠ i) (x : V i) : w.on i x = x := by
  simp [on, h]

end Modify

def onAll : List (Modify V) → (i : ι) → V i → V i
  | [], _, x => x
  | w :: ws, i, x => onAll ws i (w.on i x)

def applyAll (ws : List (Modify V)) (r : (i : ι) → V i) : (i : ι) → V i := fun i => onAll ws i (r i)

theorem applyAll_append (ws ws' : List (Modify V)) (r : (i : ι) → V i) :
    applyAll (ws ++ ws') r = applyAll ws' (applyAll ws r) := by
  funext i
  have hcell (x : V i) : onAll (ws ++ ws') i x = onAll ws' i (onAll ws i x) := by
    induction ws generalizing x with
    | nil => rfl
    | cons w ws ih => exact ih (w.on i x)
  exact hcell (r i)

theorem applyAll_singleton (w : Modify V) (r : (i : ι) → V i) :
    applyAll [w] r = Function.update r w.cell (w.change (r w.cell)) := by
  funext i
  by_cases h : w.cell = i
  · subst h
    simp [applyAll, onAll]
  · rw [Function.update_of_ne (Ne.symm h)]
    exact Modify.on_ne h (r i)

theorem onAll_ne {ws : List (Modify V)} {i : ι} (h : ∀ w ∈ ws, w.cell ≠ i) (x : V i) :
    onAll ws i x = x := by
  induction ws generalizing x with
  | nil => rfl
  | cons w ws ih =>
    obtain ⟨hw, hws⟩ := List.forall_mem_cons.mp h
    rw [onAll, Modify.on_ne hw, ih hws]

theorem onAll_filter (ws : List (Modify V)) (i : ι) (x : V i) :
    onAll (ws.filter fun w => w.cell = i) i x = onAll ws i x := by
  induction ws generalizing x with
  | nil => rfl
  | cons w ws ih =>
    by_cases h : w.cell = i
    · rw [List.filter_cons_of_pos (by simpa using h), onAll, onAll, ih]
    · rw [List.filter_cons_of_neg (by simpa using h), onAll, ih, Modify.on_ne h]

end LineFollower.Lib
