import LineFollower.Lib.Exchange

/-!
# Programs answered by a device

A device answers a message from its state. `Runs` says what a program gives
when every answer is the device's: the result, the program's variables and the
device's state. Such a run exists, and no other list of answers that agrees
with the device ends otherwise. The rules follow the program.
-/

namespace LineFollower.Lib

abbrev Device (D Q A : Type) := D → Q → A × D

variable {σ Q A ε α β D : Type}

/-- The answers of the log are those of the device, which it leaves in `d'`. -/
def Serves (dev : Device D Q A) : D → List (Q × A) → D → Prop
  | d, [], d' => d = d'
  | d, (q, a) :: log, d' => (dev d q).1 = a ∧ Serves dev (dev d q).2 log d'

theorem serves_append {dev : Device D Q A} {d d' : D} {l l' : List (Q × A)} :
    Serves dev d (l ++ l') d' ↔ ∃ d₁, Serves dev d l d₁ ∧ Serves dev d₁ l' d' := by
  induction l generalizing d with
  | nil => simp [Serves]
  | cons e l ih =>
    obtain ⟨q, a⟩ := e
    simp only [List.cons_append, Serves, ih]
    constructor
    · rintro ⟨ha, d₁, h, h'⟩
      exact ⟨d₁, ⟨ha, h⟩, h'⟩
    · rintro ⟨d₁, ⟨ha, h⟩, h'⟩
      exact ⟨ha, d₁, h, h'⟩

/-- With the device in `d`, the program returns `a` and leaves `v'` and `d'`. -/
structure Runs (dev : Device D Q A) (m : Exchange σ Q A ε α) (v : σ) (d : D) (a : α) (v' : σ)
    (d' : D) : Prop where
  returns : ∃ log, Serves dev d log d' ∧
    ∀ rest, m v (log.map Prod.snd ++ rest) = ⟨.ok a, v', rest, log⟩
  only : ∀ as rest log b v₁ d₁, m v as = ⟨.ok b, v₁, rest, log⟩ → Serves dev d log d₁ →
    b = a ∧ v₁ = v' ∧ d₁ = d'

namespace Runs

open Exchange

variable {dev : Device D Q A} {m : Exchange σ Q A ε α} {f : α → Exchange σ Q A ε β}
  {v v₁ v₂ : σ} {d d₁ d₂ : D} {a a' : α} {b : β}

theorem unique (h : Runs dev m v d a v₁ d₁) (h' : Runs dev m v d a' v₂ d₂) :
    a = a' ∧ v₁ = v₂ ∧ d₁ = d₂ := by
  obtain ⟨log, hserves, hreturns⟩ := h.returns
  exact h'.only _ _ _ _ _ _ (hreturns []) hserves

theorem pure (a : α) (v : σ) (d : D) : Runs dev (pure a : Exchange σ Q A ε α) v d a v d where
  returns := ⟨[], rfl, fun _ => rfl⟩
  only as rest log b v₁ d₁ h hd := by
    obtain ⟨rfl, rfl, -, rfl⟩ : a = b ∧ v = v₁ ∧ as = rest ∧ [] = log := by simpa using h
    exact ⟨rfl, rfl, hd.symm⟩

theorem modifyVars (f : σ → σ) (v : σ) (d : D) :
    Runs dev (modifyVars f : Exchange σ Q A ε Unit) v d () (f v) d where
  returns := ⟨[], rfl, fun _ => rfl⟩
  only as rest log b v₁ d₁ h hd := by
    obtain ⟨rfl, -, rfl⟩ : f v = v₁ ∧ as = rest ∧ [] = log := by simpa [Exchange.modifyVars] using h
    exact ⟨rfl, rfl, hd.symm⟩

theorem getVars (v : σ) (d : D) : Runs dev (getVars : Exchange σ Q A ε σ) v d v v d where
  returns := ⟨[], rfl, fun _ => rfl⟩
  only as rest log b v₁ d₁ h hd := by
    obtain ⟨rfl, rfl, -, rfl⟩ : v = b ∧ v = v₁ ∧ as = rest ∧ [] = log := by
      simpa [Exchange.getVars] using h
    exact ⟨rfl, rfl, hd.symm⟩

theorem exchange (q : Q) (v : σ) (d : D) :
    Runs dev (exchange q : Exchange σ Q A ε A) v d (dev d q).1 v (dev d q).2 where
  returns := ⟨[(q, (dev d q).1)], ⟨rfl, rfl⟩, fun _ => rfl⟩
  only as rest log b v₁ d₁ h hd := by
    cases as with
    | nil => simp [Exchange.exchange] at h
    | cons a as =>
      obtain ⟨rfl, rfl, -, rfl⟩ : a = b ∧ v = v₁ ∧ as = rest ∧ [(q, a)] = log := by
        simpa [Exchange.exchange] using h
      obtain ⟨ha, hd⟩ := hd
      exact ⟨ha.symm, rfl, hd.symm⟩

theorem bind (hm : Runs dev m v d a v₁ d₁) (hf : Runs dev (f a) v₁ d₁ b v₂ d₂) :
    Runs dev (m >>= f) v d b v₂ d₂ where
  returns := by
    obtain ⟨l, hl, hreturns⟩ := hm.returns
    obtain ⟨l', hl', hreturns'⟩ := hf.returns
    refine ⟨l ++ l', serves_append.mpr ⟨d₁, hl, hl'⟩, fun rest => ?_⟩
    rw [List.map_append, List.append_assoc]
    exact bind_ok.mpr ⟨a, v₁, _, l, l', hreturns _, hreturns' rest, rfl⟩
  only as rest log b' v' d' h hd := by
    obtain ⟨a', v₁', as', l, l', hfirst, hnext, rfl⟩ := bind_ok.mp h
    obtain ⟨d₁', hl, hl'⟩ := serves_append.mp hd
    obtain ⟨rfl, rfl, rfl⟩ := hm.only _ _ _ _ _ _ hfirst hl
    exact hf.only _ _ _ _ _ _ hnext hl'

theorem seq {next : Exchange σ Q A ε β} (hm : Runs dev m v d a v₁ d₁)
    (hn : Runs dev next v₁ d₁ b v₂ d₂) : Runs dev (do let _ ← m; next) v d b v₂ d₂ :=
  hm.bind hn

end Runs

end LineFollower.Lib
