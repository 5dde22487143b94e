import LineFollower.Lib.Device
import Mathlib.Data.Nat.Find

/-!
# Triples of programs answered by a device

`Triple` is total correctness from one state. Answered by the device the
program returns, with `post`; and wherever it is stopped before an exchange,
as by an interruption, the device has `cut`. The rules follow the program. A
loop needs an invariant, and a well-founded relation that every turn goes
down; for a loop that waits for the device this is `Waits`.
-/

namespace LineFollower.Lib

open Exchange

variable {σ Q A ε α β D : Type}

def Outcome.Satisfies (o : Outcome σ Q A ε α) (post : α → σ → D → Prop) (cut : D → Prop) (d : D) :
    Prop :=
  match o.result with
  | .ok a => post a o.vars d
  | .error .pending => cut d
  | .error (.fault _) => False

structure Triple (dev : Device D Q A) (m : Exchange σ Q A ε α) (v : σ) (d : D)
    (post : α → σ → D → Prop) (cut : D → Prop) : Prop where
  ends : ∃ a v' d', Runs dev m v d a v' d'
  safe : ∀ as d', Serves dev d (m v as).log d' → (m v as).Satisfies post cut d'

namespace Triple

variable {dev : Device D Q A} {m : Exchange σ Q A ε α} {f : α → Exchange σ Q A ε β} {v v' : σ}
  {d d' : D} {a : α} {post post' mid : α → σ → D → Prop} {goal : β → σ → D → Prop}
  {cut cut' : D → Prop}

theorem of_runs (h : Triple dev m v d post cut) (hr : Runs dev m v d a v' d') : post a v' d' := by
  obtain ⟨log, hserves, hreturns⟩ := hr.returns
  have ho := h.safe (log.map Prod.snd ++ []) d'
  rw [hreturns []] at ho
  exact ho hserves

theorem runs (h : Triple dev m v d post cut) :
    ∃ a v' d', Runs dev m v d a v' d' ∧ post a v' d' := by
  obtain ⟨a, v', d', hrun⟩ := h.ends
  exact ⟨a, v', d', hrun, h.of_runs hrun⟩

theorem mono (h : Triple dev m v d post cut) (hp : ∀ a v' d', post a v' d' → post' a v' d')
    (hc : ∀ d', cut d' → cut' d') : Triple dev m v d post' cut' where
  ends := h.ends
  safe := by
    intro as d' hd
    have ho := h.safe as d' hd
    generalize m v as = o at ho hd ⊢
    obtain ⟨result, v', rest, log⟩ := o
    cases result with
    | ok a => exact hp _ _ _ ho
    | error stop =>
      cases stop with
      | pending => exact hc _ ho
      | fault e => exact ho

theorem weaken (h : Triple dev m v d post cut) (hp : ∀ a v' d', post a v' d' → post' a v' d') :
    Triple dev m v d post' cut :=
  h.mono hp fun _ => id

theorem congr {m' : Exchange σ Q A ε α} (he : m v = m' v) (h : Triple dev m' v d post cut) :
    Triple dev m v d post cut where
  ends := by
    obtain ⟨a, v', d', hrun⟩ := h.ends
    refine ⟨a, v', d', ?_, ?_⟩
    · rw [he]
      exact hrun.returns
    · rw [he]
      exact hrun.only
  safe := by
    rw [he]
    exact h.safe

protected theorem pure (h : post a v d) :
    Triple dev (pure a : Exchange σ Q A ε α) v d post cut where
  ends := ⟨_, _, _, Runs.pure a v d⟩
  safe := by
    rintro as _ rfl
    exact h

theorem exchange {q : Q} {post : A → σ → D → Prop} (hc : cut d)
    (h : post (dev d q).1 v (dev d q).2) :
    Triple dev (exchange q : Exchange σ Q A ε A) v d post cut where
  ends := ⟨_, _, _, Runs.exchange q v d⟩
  safe := by
    intro as d' hd
    cases as with
    | nil =>
      obtain rfl : d = d' := hd
      exact hc
    | cons a rest =>
      obtain ⟨rfl, rfl⟩ : (dev d q).1 = a ∧ (dev d q).2 = d' := hd
      exact h

theorem bind (hm : Triple dev m v d mid cut)
    (hf : ∀ a v' d', mid a v' d' → Triple dev (f a) v' d' goal cut) :
    Triple dev (m >>= f) v d goal cut where
  ends := by
    obtain ⟨a, v₁, d₁, hrun, hmid⟩ := hm.runs
    obtain ⟨b, v₂, d₂, hnext⟩ := (hf a v₁ d₁ hmid).ends
    exact ⟨b, v₂, d₂, hrun.bind hnext⟩
  safe := by
    intro as d' hd
    rw [bind_run] at hd ⊢
    have ho := hm.safe as
    generalize m v as = o at ho hd ⊢
    obtain ⟨result, v₁, as₁, l₁⟩ := o
    cases result with
    | error stop => cases stop <;> exact ho _ hd
    | ok a =>
      obtain ⟨d₁, hl, hd⟩ := serves_append.mp hd
      exact (hf a v₁ d₁ (ho d₁ hl)).safe as₁ d' hd

theorem seq {n : Exchange σ Q A ε β} (hm : Triple dev m v d mid cut)
    (hn : ∀ a v' d', mid a v' d' → Triple dev n v' d' goal cut) :
    Triple dev (do let _ ← m; n) v d goal cut :=
  hm.bind hn

theorem getVars_bind {g : σ → Exchange σ Q A ε β} (h : Triple dev (g v) v d goal cut) :
    Triple dev (Exchange.getVars >>= g) v d goal cut := by
  have he : (Exchange.getVars >>= g) v = g v v := rfl
  exact congr he h

theorem modifyVars_seq {g : σ → σ} {n : Exchange σ Q A ε β} (h : Triple dev n (g v) d goal cut) :
    Triple dev (do Exchange.modifyVars g; n) v d goal cut where
  ends := by
    obtain ⟨a, v', d', hrun⟩ := h.ends
    exact ⟨a, v', d', (Runs.modifyVars g v d).bind hrun⟩
  safe := h.safe

/-- A loop keeps what a turn keeps, and ends when each turn goes down a
well-founded relation. -/
theorem repeatWhile {body : Exchange σ Q A ε Bool} (hb : Consumes body) (inv : σ → D → Prop)
    {post : Unit → σ → D → Prop} {r : σ × D → σ × D → Prop} (wf : WellFounded r)
    (hbody : ∀ v d, inv v d → Triple dev body v d
      (fun again v' d' => if again then inv v' d' ∧ r (v', d') (v, d) else post () v' d') cut)
    (hcut : ∀ v d, inv v d → cut d) (hv : inv v d) :
    Triple dev (repeatWhile body) v d post cut where
  ends := by
    have hall : ∀ p : σ × D, inv p.1 p.2 →
        ∃ a v' d', Runs dev (Exchange.repeatWhile body) p.1 p.2 a v' d' := by
      intro p
      induction p using wf.induction with
      | _ p ih =>
        intro hp
        obtain ⟨again, v₁, d₁, hrun, hturn⟩ := (hbody p.1 p.2 hp).runs
        rw [repeatWhile_eq hb]
        cases again with
        | false => exact ⟨_, _, _, hrun.bind (Runs.pure _ _ _)⟩
        | true =>
          obtain ⟨hinv, hless⟩ := hturn
          obtain ⟨_, v₂, d₂, hrest⟩ := ih (v₁, d₁) hless hinv
          exact ⟨_, v₂, d₂, hrun.bind hrest⟩
    exact hall (v, d) hv
  safe := by
    have hfuel (n : Nat) : ∀ v d, inv v d → ∀ as d', Serves dev d (repeatFuel body n v as).log d' →
        (repeatFuel body n v as).Satisfies post cut d' := by
      induction n with
      | zero =>
        rintro v d hv as _ rfl
        exact hcut v d hv
      | succ n ih =>
        intro v d hv as d' hd
        have ho := (hbody v d hv).safe as
        simp only [repeatFuel] at hd ⊢
        rw [bind_run] at hd ⊢
        generalize body v as = o at ho hd ⊢
        obtain ⟨result, v₁, as₁, l₁⟩ := o
        cases result with
        | error stop => cases stop <;> exact ho _ hd
        | ok again =>
          obtain ⟨d₁, hl, hd⟩ := serves_append.mp hd
          have hturn := ho d₁ hl
          cases again with
          | true => exact ih v₁ d₁ hturn.1 as₁ d' hd
          | false =>
            obtain rfl : d₁ = d' := hd
            exact hturn
    exact fun as => hfuel (as.length + 1) v d hv as

theorem forM_range {n : Nat} {op : Nat → Exchange σ Q A ε Unit} (inv : Nat → σ → D → Prop)
    (hstep : ∀ i < n, ∀ v d, inv i v d →
      Triple dev (op i) v d (fun _ v' d' => inv (i + 1) v' d') cut)
    (hv : inv 0 v d) :
    Triple dev ((List.range n).forM op) v d (fun _ v' d' => inv n v' d') cut := by
  have hfrom (k : Nat) : ∀ i v d, i + k = n → inv i v d →
      Triple dev ((List.range' i k).forM op) v d (fun _ v' d' => inv n v' d') cut := by
    induction k with
    | zero =>
      rintro i v d rfl h
      exact Triple.pure h
    | succ k ih =>
      intro i v d hn h
      rw [List.range'_succ]
      change Triple dev (do op i; (List.range' (i + 1) k).forM op) v d _ cut
      refine (hstep i (by omega) v d h).seq ?_
      rintro _ v' d' h'
      exact ih (i + 1) v' d' (by omega) h'
  rw [List.range_eq_range']
  exact hfrom n 0 v d (Nat.zero_add n) hv

end Triple

-- ---------------------------------------------------------------------------
-- Answers used
-- ---------------------------------------------------------------------------

/-- A program that returns has used at least `n` answers. -/
def Uses (n : Nat) (m : Exchange σ Q A ε α) : Prop :=
  ∀ v as a v' rest log, m v as = ⟨.ok a, v', rest, log⟩ → rest.length + n ≤ as.length

namespace Uses

variable {n k : Nat} {m m' : Exchange σ Q A ε α} {f : α → Exchange σ Q A ε β}

theorem consumes {body : Exchange σ Q A ε Bool} (h : Uses (n + 1) body) : Consumes body := by
  intro v as v' rest log hrun
  have hlen := h v as true v' rest log hrun
  omega

theorem consumes_guard {c : σ → Prop} [DecidablePred c] {m : σ → Exchange σ Q A ε Bool}
    (hm : ∀ v, Uses 1 (m v)) :
    Consumes (do
      let v ← Exchange.getVars
      if c v then m v else Pure.pure false) := by
  intro v as v' rest log hrun
  change (if c v then m v else Pure.pure false) v as = _ at hrun
  split at hrun
  · have hlen := hm v v as true v' rest log hrun
    omega
  · simp at hrun

protected theorem pure (a : α) : Uses 0 (pure a : Exchange σ Q A ε α) := by
  intro v as b v' rest log h
  obtain ⟨-, -, rfl, -⟩ : a = b ∧ v = v' ∧ as = rest ∧ [] = log := by simpa using h
  exact Nat.le_refl _

theorem getVars : Uses 0 (getVars : Exchange σ Q A ε σ) := by
  intro v as b v' rest log h
  obtain ⟨-, -, rfl, -⟩ : v = b ∧ v = v' ∧ as = rest ∧ [] = log := by
    simpa [Exchange.getVars] using h
  exact Nat.le_refl _

theorem modifyVars (g : σ → σ) : Uses 0 (modifyVars g : Exchange σ Q A ε Unit) := by
  intro v as b v' rest log h
  obtain ⟨-, rfl, -⟩ : g v = v' ∧ as = rest ∧ [] = log := by simpa [Exchange.modifyVars] using h
  exact Nat.le_refl _

theorem exchange (q : Q) : Uses 1 (exchange q : Exchange σ Q A ε A) := by
  intro v as b v' rest log h
  cases as with
  | nil => simp [Exchange.exchange] at h
  | cons a as =>
    obtain ⟨-, -, rfl, -⟩ : a = b ∧ v = v' ∧ as = rest ∧ [(q, a)] = log := by
      simpa [Exchange.exchange] using h
    exact Nat.le_refl _

theorem fault (e : ε) : Uses n (fault e : Exchange σ Q A ε α) := by
  intro v as b v' rest log h
  simp [Exchange.fault] at h

theorem bind (hm : Uses n m) (hf : ∀ a, Uses k (f a)) : Uses (n + k) (m >>= f) := by
  intro v as b v' rest log h
  obtain ⟨a, v₁, as₁, l₁, l₂, hfirst, hnext, -⟩ := bind_ok.mp h
  have h₁ := hm v as a v₁ as₁ l₁ hfirst
  have h₂ := hf a v₁ as₁ b v' rest l₂ hnext
  omega

theorem getVars_bind {g : σ → Exchange σ Q A ε β} (h : ∀ v, Uses n (g v)) :
    Uses n (Exchange.getVars >>= g) := by
  have hbind : Uses (0 + n) (Exchange.getVars >>= g) := getVars.bind h
  rwa [Nat.zero_add] at hbind

theorem seq {next : Exchange σ Q A ε β} (hm : Uses n m) (hn : Uses k next) :
    Uses (n + k) (do let _ ← m; next) :=
  hm.bind fun _ => hn

theorem mono (h : Uses n m) (hk : k ≤ n) : Uses k m := by
  intro v as a v' rest log hrun
  have hlen := h v as a v' rest log hrun
  omega

theorem ite {c : Prop} [Decidable c] (h : Uses n m) (h' : Uses n m') :
    Uses n (if c then m else m') := by
  split
  · exact h
  · exact h'

theorem repeatWhile {body : Exchange σ Q A ε Bool} (hb : Uses n body) :
    Uses n (repeatWhile body) := by
  intro v as _ v' rest log h
  have hturns : Turns body v as v' rest log := repeatFuel_turns h
  clear h
  induction hturns with
  | last h => exact hb _ _ _ _ _ _ h
  | next h _ ih =>
    have hlen := hb _ _ _ _ _ _ h
    omega

end Uses

-- ---------------------------------------------------------------------------
-- Variables
-- ---------------------------------------------------------------------------

/-- The variables keep `inv`, also where the program is stopped. -/
def Keeps (inv : σ → Prop) (m : Exchange σ Q A ε α) : Prop := ∀ v as, inv v → inv (m v as).vars

namespace Keeps

variable {inv : σ → Prop} {m m' : Exchange σ Q A ε α} {f : α → Exchange σ Q A ε β}

protected theorem pure (a : α) : Keeps inv (pure a : Exchange σ Q A ε α) := fun _ _ => id

theorem getVars : Keeps inv (getVars : Exchange σ Q A ε σ) := fun _ _ => id

theorem modifyVars {g : σ → σ} (h : ∀ v, inv v → inv (g v)) :
    Keeps inv (modifyVars g : Exchange σ Q A ε Unit) := fun v _ => h v

theorem exchange (q : Q) : Keeps inv (exchange q : Exchange σ Q A ε A) := by
  intro v as hv
  cases as with
  | nil => exact hv
  | cons a as => exact hv

theorem fault (e : ε) : Keeps inv (fault e : Exchange σ Q A ε α) := fun _ _ => id

theorem bind (hm : Keeps inv m) (hf : ∀ a, Keeps inv (f a)) : Keeps inv (m >>= f) := by
  intro v as hv
  have hfirst := hm v as hv
  rw [bind_run]
  generalize m v as = o at hfirst ⊢
  obtain ⟨result, v₁, as₁, l₁⟩ := o
  cases result with
  | error stop => exact hfirst
  | ok a => exact hf a v₁ as₁ hfirst

theorem seq {next : Exchange σ Q A ε β} (hm : Keeps inv m) (hn : Keeps inv next) :
    Keeps inv (do let _ ← m; next) :=
  hm.bind fun _ => hn

theorem ite {c : Prop} [Decidable c] (h : Keeps inv m) (h' : Keeps inv m') :
    Keeps inv (if c then m else m') := by
  split
  · exact h
  · exact h'

theorem repeatWhile {body : Exchange σ Q A ε Bool} (hb : Keeps inv body) :
    Keeps inv (repeatWhile body) := by
  have hfuel (n : Nat) : Keeps inv (repeatFuel body n) := by
    induction n with
    | zero => exact fun _ _ => id
    | succ n ih =>
      refine hb.bind fun again => ?_
      cases again with
      | true => exact ih
      | false => exact .pure ()
  exact fun v as => hfuel _ v as

theorem repeatWhile_congr {body body' : Exchange σ Q A ε Bool} (hk : Keeps inv body')
    (h : ∀ v, inv v → body v = body' v) {v : σ} (hv : inv v) :
    Exchange.repeatWhile body v = Exchange.repeatWhile body' v := by
  have hfuel (n : Nat) : ∀ v as, inv v → repeatFuel body n v as = repeatFuel body' n v as := by
    induction n with
    | zero => exact fun _ _ _ => rfl
    | succ n ih =>
      intro v as hv
      have hkeep := hk v as hv
      simp only [repeatFuel, bind_run, h v hv]
      generalize body' v as = o at hkeep ⊢
      obtain ⟨result, v₁, as₁, l₁⟩ := o
      cases result with
      | error stop => rfl
      | ok again =>
        cases again with
        | false => rfl
        | true =>
          simp only [↓reduceIte]
          rw [ih v₁ as₁ hkeep]
  funext as
  exact hfuel _ v as hv

end Keeps

-- ---------------------------------------------------------------------------
-- Waiting
-- ---------------------------------------------------------------------------

/-- However long it takes, the device moves again: `pace n` is how far it has
moved before the exchange number `n`. -/
def Fair (pace : Nat → Nat) : Prop := ∀ n, ∃ k, 0 < pace (n + k)

theorem fair_one : Fair fun _ => 1 := fun _ => ⟨0, Nat.one_pos⟩

/-- From `q` to `p` the weight has gone down, or exchanges have been made before
which the device has not moved. -/
def Waits {τ : Type} (pace : Nat → Nat) (weight clock : τ → Nat) (p q : τ) : Prop :=
  weight p < weight q ∨
    (weight p = weight q ∧ clock q < clock p ∧ ∀ n, clock q ≤ n → n < clock p → pace n = 0)

theorem waits_wellFounded {τ : Type} {pace : Nat → Nat} (fair : Fair pace)
    (weight clock : τ → Nat) :
    WellFounded (Waits pace weight clock) := by
  -- the exchanges up to the next move
  let distance (n : Nat) : Nat := Nat.find (fair n)
  have hless {n m : Nat} (hnm : n < m) (hzero : ∀ i, n ≤ i → i < m → pace i = 0) :
      distance m < distance n := by
    have hmoves : 0 < pace (n + distance n) := Nat.find_spec (fair n)
    have hfar : m ≤ n + distance n := by
      by_contra hnear
      exact absurd (hzero _ (Nat.le_add_right _ _) (Nat.lt_of_not_le hnear)) (Nat.ne_of_gt hmoves)
    have hle : distance m ≤ n + distance n - m := by
      apply Nat.find_min' (fair m)
      rwa [show m + (n + distance n - m) = n + distance n by omega]
    omega
  have hlex : WellFounded (Prod.Lex (· < · : Nat → Nat → Prop) (· < · : Nat → Nat → Prop)) :=
    (Prod.lex Nat.lt_wfRel Nat.lt_wfRel).wf
  refine Subrelation.wf ?_ (InvImage.wf (fun p => (weight p, distance (clock p))) hlex)
  rintro p q (hlt | ⟨heq, hclock, hzero⟩)
  · exact Prod.Lex.left _ _ hlt
  · have hdistance := hless hclock hzero
    simp only [InvImage, heq]
    exact Prod.Lex.right _ hdistance

end LineFollower.Lib
