import LineFollower.Lib.Cells
import Mathlib.Logic.Function.Basic

/-!
# Fields of registers

Registers of different widths, with fields that are masks of their bits. A
`Layout` is a family of fields of which no two share a bit. A write of a field
replaces its bits and leaves the others, so after any sequence of writes each
field holds what was last written to it, cut to its mask (`read_writeAll`), and
a bit of no field is what it was (`writeAll_outside`).
-/

namespace LineFollower.Lib

/-- Fields `φ` of registers `ι`. -/
structure Layout (ι : Type) (len : ι → Nat) (φ : Type) where
  cell : φ → ι
  mask : (f : φ) → BitVec (len (cell f))
  disjoint : ∀ f g i, f ≠ g → cell f = cell g → (mask f).getLsbD i = true →
    (mask g).getLsbD i = false

namespace Layout

variable {ι φ : Type} {len : ι → Nat} (L : Layout ι len φ) {w : Nat}

def cut (f : φ) (v : BitVec w) : BitVec (len (L.cell f)) := v.setWidth _ &&& L.mask f

def read (r : (c : ι) → BitVec (len c)) (f : φ) : BitVec (len (L.cell f)) :=
    r (L.cell f) &&& L.mask f

def write (f : φ) (v : BitVec w) : Modify fun c => BitVec (len c) :=
  ⟨L.cell f, fun old => (old &&& ~~~L.mask f) ||| L.cut f v⟩

def writes (ws : List (φ × BitVec w)) : List (Modify fun c => BitVec (len c)) :=
  ws.map fun e => L.write e.1 e.2

def last [DecidableEq φ] (f : φ) : List (φ × BitVec w) → Option (BitVec w)
  | [] => none
  | e :: es => (last f es).or (if e.1 = f then some e.2 else none)

theorem last_append [DecidableEq φ] (f : φ) (ws ws' : List (φ × BitVec w)) :
    last f (ws ++ ws') = (last f ws').or (last f ws) := by
  induction ws with
  | nil => simp [last]
  | cons e es ih => rw [List.cons_append, last, ih, last, Option.or_assoc]

theorem last_map [DecidableEq φ] (f : φ) (fs : List φ) (v : BitVec w) :
    last f (fs.map fun g => (g, v)) = if f ∈ fs then some v else none := by
  induction fs with
  | nil => rfl
  | cons g gs ih =>
    rw [List.map_cons, last, ih]
    by_cases hg : g = f
    · by_cases hgs : f ∈ gs
      · simp [hg, hgs]
      · simp [hg, hgs]
    · simp [hg, Ne.symm hg]

variable {L}

theorem getLsbD_cut (f : φ) (v : BitVec w) (i : Nat) :
    (L.cut f v).getLsbD i = (v.getLsbD i && (L.mask f).getLsbD i) := by
  cases hm : (L.mask f).getLsbD i with
  | false => simp [cut, hm]
  | true =>
    have hi : i < len (L.cell f) := BitVec.lt_of_getLsbD hm
    simp [cut, hm, hi]

variable [DecidableEq ι]

theorem getLsbD_write (f : φ) (v : BitVec w) (c : ι) (x : BitVec (len c)) (i : Nat) :
    ((L.write f v).on c x).getLsbD i =
      if L.cell f = c ∧ (L.mask f).getLsbD i = true then v.getLsbD i else x.getLsbD i := by
  by_cases hc : L.cell f = c
  · subst hc
    have hon : (L.write f v).on (L.cell f) x = (x &&& ~~~L.mask f) ||| L.cut f v :=
      (L.write f v).on_self x
    rw [hon, BitVec.getLsbD_or, getLsbD_cut, BitVec.getLsbD_and, BitVec.getLsbD_not]
    cases hm : (L.mask f).getLsbD i with
    | true => simp
    | false =>
      by_cases hi : i < len (L.cell f)
      · simp [hi]
      · simp [BitVec.getLsbD_of_ge x i (Nat.le_of_not_lt hi)]
  · rw [Modify.on_ne hc, if_neg fun h => hc h.1]

theorem on_write_self (f : φ) (v : BitVec w) (x : BitVec (len (L.cell f))) :
    (L.write f v).on (L.cell f) x &&& L.mask f = L.cut f v := by
  apply BitVec.eq_of_getLsbD_eq
  intro i _
  rw [BitVec.getLsbD_and, getLsbD_write, getLsbD_cut]
  cases (L.mask f).getLsbD i <;> simp

theorem on_write_ne {f g : φ} (h : g ≠ f) (v : BitVec w) (x : BitVec (len (L.cell f))) :
    (L.write g v).on (L.cell f) x &&& L.mask f = x &&& L.mask f := by
  apply BitVec.eq_of_getLsbD_eq
  intro i _
  rw [BitVec.getLsbD_and, getLsbD_write, BitVec.getLsbD_and]
  split
  · rename_i hg
    rw [L.disjoint g f i h hg.1 hg.2, Bool.and_false, Bool.and_false]
  · rfl

theorem read_writeAll [DecidableEq φ] (ws : List (φ × BitVec w))
    (r : (c : ι) → BitVec (len c)) (f : φ) :
    L.read (applyAll (L.writes ws) r) f = ((last f ws).map (L.cut f)).getD (L.read r f) := by
  have hcell (x : BitVec (len (L.cell f))) : onAll (L.writes ws) (L.cell f) x &&& L.mask f =
      ((last f ws).map (L.cut f)).getD (x &&& L.mask f) := by
    induction ws generalizing x with
    | nil => rfl
    | cons e es ih =>
      obtain ⟨g, v⟩ := e
      have hstep : onAll (L.writes ((g, v) :: es)) (L.cell f) x =
          onAll (L.writes es) (L.cell f) ((L.write g v).on (L.cell f) x) := rfl
      rw [hstep, ih, last]
      by_cases hg : g = f
      · subst hg
        rw [on_write_self]
        cases last g es <;> simp
      · rw [on_write_ne hg]
        cases last f es <;> simp [hg]
  exact hcell (r (L.cell f))

theorem read_update (r : (c : ι) → BitVec (len c)) (c : ι) (v : BitVec w) (f : φ) :
    L.read (Function.update r c (v.setWidth _)) f = if L.cell f = c then L.cut f v
      else L.read r f := by
  split
  · rename_i hc
    subst hc
    rw [read, Function.update_self, cut]
  · rename_i hc
    rw [read, Function.update_of_ne hc, read]

theorem writeAll_outside (ws : List (φ × BitVec w)) (r : (c : ι) → BitVec (len c)) {c : ι} {i : Nat}
    (h : ∀ f, L.cell f = c → (L.mask f).getLsbD i = false) :
    (applyAll (L.writes ws) r c).getLsbD i = (r c).getLsbD i := by
  have hcell (x : BitVec (len c)) : (onAll (L.writes ws) c x).getLsbD i = x.getLsbD i := by
    induction ws generalizing x with
    | nil => rfl
    | cons e es ih =>
      have hstep :
          onAll (L.writes (e :: es)) c x = onAll (L.writes es) c ((L.write e.1 e.2).on c x) :=
        rfl
      rw [hstep, ih, getLsbD_write]
      refine if_neg fun hbit => ?_
      rw [h e.1 hbit.1] at hbit
      exact Bool.false_ne_true hbit.2
  exact hcell (r c)

end Layout

end LineFollower.Lib
