/-!
# Machines and their runs

A machine is an initial state and a partial step function on labels. A run is
a list of labels. `Reach ok` collects the states of the runs whose every step
meets `ok`, so that a law of restricted runs and a law of all runs are proved
by one rule, `Reach.invariant`. `Forward` is a simulation in which the
abstract machine answers every concrete step with one step or with none.
-/

namespace LineFollower.Lib

universe u v w x

structure Machine (S : Type u) (L : Type v) where
  init : S
  step : S → L → Option S

namespace Machine

variable {S : Type u} {L : Type v} {M : Machine S L}

def run (M : Machine S L) : S → List L → Option S
  | s, [] => some s
  | s, l :: ls => (M.step s l).bind fun next => M.run next ls

/-- The states of the runs from `init` in which every step meets `ok`. -/
inductive Reach (M : Machine S L) (ok : S → L → Prop) : S → Prop
  | init : Reach M ok M.init
  | step {s s' : S} {l : L} : Reach M ok s → ok s l → M.step s l = some s' → Reach M ok s'

abbrev Reachable (M : Machine S L) : S → Prop := M.Reach fun _ _ => True

/-- What holds at the start and is kept by every step that meets `ok` holds
in every state of a run of such steps. -/
theorem Reach.invariant {ok : S → L → Prop} {I : S → Prop} {s : S} (h : M.Reach ok s)
    (hinit : I M.init)
    (hstep : ∀ s l s', I s → ok s l → M.step s l = some s' → I s') : I s := by
  induction h with
  | init => exact hinit
  | step _ hok hs ih => exact hstep _ _ _ ih hok hs

/-- A run continues a reached state when each of its labels meets `ok`
whatever the state is. -/
theorem Reach.run {ok : S → L → Prop} {s s' : S} {ls : List L} (h : M.Reach ok s)
    (hok : ∀ l ∈ ls, ∀ t, ok t l) (hr : M.run s ls = some s') : M.Reach ok s' := by
  induction ls generalizing s with
  | nil =>
    simp only [Machine.run, Option.some.injEq] at hr
    exact hr ▸ h
  | cons l ls ih =>
    simp only [Machine.run, Option.bind_eq_some_iff] at hr
    obtain ⟨next, hs, hr⟩ := hr
    exact ih (.step h (hok l (by simp) s) hs) (fun l' hl => hok l' (by simp [hl])) hr

theorem reachable_of_run {s : S} {ls : List L} (hr : M.run M.init ls = some s) : M.Reachable s :=
  Reach.init.run (fun _ _ _ => trivial) hr

theorem run_append (s : S) (ls ls' : List L) : M.run s (ls ++ ls') = (M.run s ls).bind fun t =>
    M.run t ls' := by
  induction ls generalizing s with
  | nil => rfl
  | cons l ls ih =>
    simp only [List.cons_append, run, Option.bind_assoc]
    exact congrArg _ (funext ih)

/-- What holds of the empty run and is kept by one more step holds of every run
and the state that it leads to. -/
theorem run_invariant {I : List L → S → Prop} (hinit : I [] M.init)
    (hstep : ∀ ls s l s', I ls s → M.step s l = some s' → I (ls ++ [l]) s') {ls : List L} {s : S}
    (h : M.run M.init ls = some s) : I ls s := by
  have hfrom (done : List L) (t : S) (hdone : I done t) (ht : M.run t ls = some s) :
      I (done ++ ls) s := by
    clear h
    induction ls generalizing done t with
    | nil =>
      obtain rfl := Option.some.inj ht
      rwa [List.append_nil]
    | cons l ls ih =>
      obtain ⟨next, hs, hnext⟩ := Option.bind_eq_some_iff.mp ht
      rw [List.append_cons]
      exact ih (done ++ [l]) next (hstep done t l next hdone hs) hnext
  exact hfrom [] M.init hinit h

/-- A forward simulation: related states stay related, the abstract machine
taking at most one step for each concrete one, and one that meets `ok'` for
one that meets `ok`. -/
structure Forward {T : Type w} {K : Type x} (M : Machine S L) (A : Machine T K) (ok : S → L → Prop)
    (ok' : T → K → Prop) (R : S → T → Prop) : Prop where
  init : R M.init A.init
  step : ∀ {s s' l t}, R s t → ok s l → M.step s l = some s' →
    R s' t ∨ ∃ k t', ok' t k ∧ A.step t k = some t' ∧ R s' t'

theorem Forward.reach {T : Type w} {K : Type x} {A : Machine T K} {ok : S → L → Prop}
    {ok' : T → K → Prop} {R : S → T → Prop} (hsim : M.Forward A ok ok' R) {s : S}
    (h : M.Reach ok s) : ∃ t, A.Reach ok' t ∧ R s t := by
  induction h with
  | init => exact ⟨A.init, .init, hsim.init⟩
  | step _ hok hs ih =>
    obtain ⟨t, ht, hr⟩ := ih
    rcases hsim.step hr hok hs with hr' | ⟨k, t', hk, ha, hr'⟩
    · exact ⟨t, ht, hr'⟩
    · exact ⟨t', .step ht hk ha, hr'⟩

end Machine

end LineFollower.Lib
