import LineFollower.Lib.Exchange

/-!
# What a log says

A `Reader` reads a log as a list of items. It reads a log in pieces where the
first piece leaves it settled. `Tells` says what is read of a program's log:
`items` when the program returns, and a beginning of them when it is stopped
between two exchanges. The rules follow the program.
-/

namespace LineFollower.Lib

open Exchange

variable {σ Q A ε α β M C : Type}

structure Reader (M C : Type) where
  read : List M → List C
  settled : List M → Prop
  read_nil : read [] = []
  settled_nil : settled []
  read_append : ∀ {l}, settled l → ∀ l', read (l ++ l') = read l ++ read l'
  settled_append : ∀ {l}, settled l → ∀ {l'}, settled l' → settled (l ++ l')

def Tells (R : Reader (Q × A) C) (pre : σ → Prop) (m : Exchange σ Q A ε α) (items : List C)
    (post : σ → Prop) : Prop :=
  ∀ v as, pre v →
    match (m v as).result with
    | .ok _ => post (m v as).vars ∧ R.settled (m v as).log ∧ R.read (m v as).log = items
    | .error .pending => R.read (m v as).log <+: items
    | .error (.fault _) => False

namespace Tells

variable {R : Reader (Q × A) C} {pre mid post : σ → Prop} {m : Exchange σ Q A ε α}
  {f : α → Exchange σ Q A ε β} {items items' : List C}

theorem ok (h : Tells R pre m items post) {v v' : σ} (hv : pre v) {as rest : List A} {a : α}
    {log : List (Q × A)} (hm : m v as = ⟨.ok a, v', rest, log⟩) :
    post v' ∧ R.settled log ∧ R.read log = items := by
  have ho := h v as hv
  rw [hm] at ho
  exact ho

theorem pending (h : Tells R pre m items post) {v v' : σ} (hv : pre v) {as rest : List A}
    {log : List (Q × A)} (hm : m v as = ⟨.error .pending, v', rest, log⟩) :
    R.read log <+: items := by
  have ho := h v as hv
  rw [hm] at ho
  exact ho

theorem modifyVars {g : σ → σ} (hg : ∀ v, pre v → post (g v)) :
    Tells R pre (modifyVars g : Exchange σ Q A ε Unit) [] post :=
  fun v _ hv => ⟨hg v hv, R.settled_nil, R.read_nil⟩

theorem mono {pre' post' : σ → Prop} (h : Tells R pre m items post) (hpre : ∀ v, pre' v → pre v)
    (hpost : ∀ v, post v → post' v) : Tells R pre' m items post' := by
  intro v as hv
  have ho := h v as (hpre v hv)
  generalize m v as = o at ho ⊢
  obtain ⟨result, v', rest, log⟩ := o
  cases result with
  | ok a => exact ⟨hpost _ ho.1, ho.2⟩
  | error stop => cases stop <;> exact ho

theorem bind (hm : Tells R pre m items mid) (hf : ∀ a, Tells R mid (f a) items' post) :
    Tells R pre (m >>= f) (items ++ items') post := by
  intro v as hv
  have hfirst := hm v as hv
  rw [bind_run]
  generalize m v as = o at hfirst ⊢
  obtain ⟨result, v₁, as₁, l₁⟩ := o
  cases result with
  | error stop =>
    cases stop with
    | pending => exact hfirst.trans (List.prefix_append _ _)
    | fault e => exact hfirst
  | ok a =>
    obtain ⟨hv₁, hsettled, hread⟩ := hfirst
    have hnext := hf a v₁ as₁ hv₁
    simp only
    generalize f a v₁ as₁ = o at hnext ⊢
    obtain ⟨result, v₂, as₂, l₂⟩ := o
    cases result with
    | ok b =>
      obtain ⟨hv₂, hsettled₂, rfl⟩ := hnext
      refine ⟨hv₂, R.settled_append hsettled hsettled₂, ?_⟩
      rw [R.read_append hsettled, hread]
    | error stop =>
      cases stop with
      | pending =>
        simp only [R.read_append hsettled, hread]
        exact (List.prefix_append_right_inj _).mpr hnext
      | fault e => exact hnext

theorem seq {next : Exchange σ Q A ε β} (hm : Tells R pre m items mid)
    (hn : Tells R mid next items' post) : Tells R pre (do let _ ← m; next) (items ++ items') post :=
  hm.bind fun _ => hn

theorem of_follows {D : Discipline σ Q A} (hfull : ∀ l, D.full l → R.settled l ∧ R.read l = [])
    (hcut : ∀ l, D.cut l → R.read l = []) (hm : D.Follows m) : Tells R D.vars m [] D.vars := by
  intro v as hv
  have ho := hm v as hv
  unfold Discipline.Meets at ho
  generalize m v as = o at ho ⊢
  obtain ⟨result, v', rest, log⟩ := o
  cases result with
  | ok a => exact ⟨ho.1, hfull log ho.2⟩
  | error stop =>
    cases stop with
    | pending => exact (hcut log ho).symm ▸ List.nil_prefix
    | fault e => exact ho

end Tells

end LineFollower.Lib
