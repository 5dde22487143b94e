/-!
# Programs that exchange messages with a device

A program owns variables and talks to a device by `exchange`: it sends a
message and waits for the answer. The answers are a given list. When it runs
out the program is `pending`: exactly that many exchanges have been made and
the next one has not, which is also where an interruption between two
exchanges leaves it. A program can neither read nor change its own log, so the
log of a sequence is the concatenation of the logs.

A `Discipline` is a law of logs that holds of a sequence when it holds of its
parts. `Follows` is the claim that a program keeps it from any variables it
admits, whatever is answered, and never faults.
-/

namespace LineFollower.Lib

inductive Halt (ε : Type)
  | pending
  | fault (e : ε)
  deriving DecidableEq, Repr

@[ext] structure Outcome (σ Q A ε α : Type) where
  result : Except (Halt ε) α
  vars : σ
  /-- Answers not used. -/
  rest : List A
  log : List (Q × A)

def Exchange (σ Q A ε α : Type) := σ → List A → Outcome σ Q A ε α

namespace Exchange

variable {σ Q A ε α β : Type}

instance : Monad (Exchange σ Q A ε) where
  pure a := fun v as => ⟨.ok a, v, as, []⟩
  bind m f := fun v as =>
    let first := m v as
    match first.result with
    | .error h => ⟨.error h, first.vars, first.rest, first.log⟩
    | .ok a =>
      let next := f a first.vars first.rest
      { next with log := first.log ++ next.log }

def getVars : Exchange σ Q A ε σ := fun v as => ⟨.ok v, v, as, []⟩

def modifyVars (f : σ → σ) : Exchange σ Q A ε Unit := fun v as => ⟨.ok (), f v, as, []⟩

def fault (e : ε) : Exchange σ Q A ε α := fun v as => ⟨.error (.fault e), v, as, []⟩

def exchange (q : Q) : Exchange σ Q A ε A := fun v as =>
  match as with
  | [] => ⟨.error .pending, v, [], []⟩
  | a :: rest => ⟨.ok a, v, rest, [(q, a)]⟩

def repeatFuel (body : Exchange σ Q A ε Bool) : Nat → Exchange σ Q A ε Unit
  | 0 => fun v as => ⟨.error .pending, v, as, []⟩
  | n + 1 => do if ← body then repeatFuel body n else pure ()

/-- `while (body) ;` for a body that makes an exchange whenever it asks for
another turn (`repeatWhile_eq`): there are no more turns than answers. -/
def repeatWhile (body : Exchange σ Q A ε Bool) : Exchange σ Q A ε Unit :=
  fun v as => repeatFuel body (as.length + 1) v as

-- ---------------------------------------------------------------------------
-- Laws of the monad
-- ---------------------------------------------------------------------------

@[simp] theorem pure_run (a : α) (v : σ) (as : List A) :
    (pure a : Exchange σ Q A ε α) v as = ⟨.ok a, v, as, []⟩ := rfl

theorem bind_run (m : Exchange σ Q A ε α) (f : α → Exchange σ Q A ε β) (v : σ) (as : List A) :
    (m >>= f) v as =
      match (m v as).result with
      | .error h => ⟨.error h, (m v as).vars, (m v as).rest, (m v as).log⟩
      | .ok a =>
        { f a (m v as).vars (m v as).rest with
          log := (m v as).log ++ (f a (m v as).vars (m v as).rest).log } := rfl

theorem bind_ok {m : Exchange σ Q A ε α} {f : α → Exchange σ Q A ε β} {v v' : σ}
    {as rest : List A} {b : β} {log : List (Q × A)} :
    (m >>= f) v as = ⟨.ok b, v', rest, log⟩ ↔
      ∃ a v₁ as₁ l₁ l₂, m v as = ⟨.ok a, v₁, as₁, l₁⟩ ∧ f a v₁ as₁ = ⟨.ok b, v', rest, l₂⟩ ∧
        log = l₁ ++ l₂ := by
  rw [bind_run]
  obtain ⟨result, v₁, as₁, l₁⟩ := m v as
  cases result with
  | error h => simp
  | ok a =>
    constructor
    · intro h
      simp only [Outcome.mk.injEq] at h
      obtain ⟨hr, hv, has, rfl⟩ := h
      exact ⟨a, v₁, as₁, l₁, _, rfl, Outcome.ext hr hv has rfl, rfl⟩
    · rintro ⟨_, _, _, _, l₂, h, hf, rfl⟩
      simp only [Outcome.mk.injEq, Except.ok.injEq] at h
      obtain ⟨rfl, rfl, rfl, rfl⟩ := h
      simp [hf]

instance : LawfulMonad (Exchange σ Q A ε) := by
  refine LawfulMonad.mk' _ ?_ ?_ ?_
  · intro α m
    funext v as
    change (m >>= fun a => pure a) v as = m v as
    rw [bind_run]
    obtain ⟨result, v₁, as₁, l₁⟩ := m v as
    cases result <;> simp
  · intro α β a f
    funext v as
    simp [bind_run]
  · intro α β γ m f g
    funext v as
    simp only [bind_run]
    obtain ⟨result, v₁, as₁, l₁⟩ := m v as
    cases result with
    | error h => rfl
    | ok a =>
      simp only
      obtain ⟨result, v₂, as₂, l₂⟩ := f a v₁ as₁
      cases result with
      | error h => rfl
      | ok b => simp

-- ---------------------------------------------------------------------------
-- The polling loop
-- ---------------------------------------------------------------------------

/-- A body that asks for another turn has used an answer. -/
def Consumes (body : Exchange σ Q A ε Bool) : Prop :=
  ∀ v as v' rest log, body v as = ⟨.ok true, v', rest, log⟩ → rest.length < as.length

theorem repeatFuel_enough {body : Exchange σ Q A ε Bool} (hb : Consumes body) (n m : Nat)
    (v : σ) (as : List A) (hn : as.length < n) (hm : as.length < m) :
    repeatFuel body n v as = repeatFuel body m v as := by
  induction n generalizing m v as with
  | zero => exact absurd hn (Nat.not_lt_zero _)
  | succ n ih =>
    cases m with
    | zero => exact absurd hm (Nat.not_lt_zero _)
    | succ m =>
      simp only [repeatFuel, bind_run]
      cases ho : body v as with
      | mk result v₁ as₁ l₁ =>
        cases result with
        | error h => rfl
        | ok again =>
          cases again with
          | false => rfl
          | true =>
            have hlt : as₁.length < as.length := hb v as v₁ as₁ l₁ ho
            simp only [↓reduceIte]
            rw [ih m v₁ as₁ (Nat.lt_of_lt_of_le hlt (Nat.le_of_lt_succ hn))
              (Nat.lt_of_lt_of_le hlt (Nat.le_of_lt_succ hm))]

/-- The loop is its own unfolding: the bound on its turns is never met. -/
theorem repeatWhile_eq {body : Exchange σ Q A ε Bool} (hb : Consumes body) :
    repeatWhile body = (do if ← body then repeatWhile body else pure ()) := by
  funext v as
  simp only [repeatWhile, repeatFuel, bind_run]
  cases ho : body v as with
  | mk result v₁ as₁ l₁ =>
    cases result with
    | error h => rfl
    | ok again =>
      cases again with
      | false => rfl
      | true =>
        have hlt : as₁.length < as.length := hb v as v₁ as₁ l₁ ho
        simp only [↓reduceIte]
        rw [repeatFuel_enough hb as.length (as₁.length + 1) v₁ as₁ hlt (Nat.lt_succ_self _)]
        rfl

/-- The turns of `while (body) ;` when it ends. -/
inductive Turns (body : Exchange σ Q A ε Bool) : σ → List A → σ → List A → List (Q × A) → Prop
  | last {v v' : σ} {as rest : List A} {log : List (Q × A)}
      (h : body v as = ⟨.ok false, v', rest, log⟩) : Turns body v as v' rest log
  | next {v v₁ v' : σ} {as as₁ rest : List A} {l log : List (Q × A)}
      (h : body v as = ⟨.ok true, v₁, as₁, l⟩) (hrest : Turns body v₁ as₁ v' rest log) :
      Turns body v as v' rest (l ++ log)

theorem repeatFuel_turns {body : Exchange σ Q A ε Bool} {n : Nat} {v v' : σ} {as rest : List A}
    {log : List (Q × A)} (h : repeatFuel body n v as = ⟨.ok (), v', rest, log⟩) :
    Turns body v as v' rest log := by
  induction n generalizing v as log with
  | zero => cases congrArg Outcome.result h
  | succ n ih =>
    obtain ⟨again, v₁, as₁, l, l', hbody, hnext, rfl⟩ := bind_ok.mp h
    cases again with
    | true => exact .next hbody (ih hnext)
    | false =>
      obtain ⟨rfl, rfl, rfl⟩ : v₁ = v' ∧ as₁ = rest ∧ [] = l' := by simpa using hnext
      rw [List.append_nil]
      exact .last hbody

theorem repeatWhile_ok {body : Exchange σ Q A ε Bool} (hb : Consumes body) {v v' : σ}
    {as rest : List A} {log : List (Q × A)} :
    repeatWhile body v as = ⟨.ok (), v', rest, log⟩ ↔ Turns body v as v' rest log := by
  refine ⟨repeatFuel_turns, fun h => ?_⟩
  induction h with
  | last h =>
    rw [repeatWhile_eq hb]
    exact bind_ok.mpr ⟨_, _, _, _, [], h, rfl, (List.append_nil _).symm⟩
  | next h _ ih =>
    rw [repeatWhile_eq hb]
    exact bind_ok.mpr ⟨_, _, _, _, _, h, ih, rfl⟩

-- ---------------------------------------------------------------------------
-- Programs with a fixed script
-- ---------------------------------------------------------------------------

/-- From the variables `v`, which it leaves alone, the program sends the
messages `qs` whatever is answered, and sends a beginning of them when the
answers run out. The answers it uses are the ones it logs. -/
def Emits (v : σ) (qs : List Q) (m : Exchange σ Q A ε α) : Prop :=
  ∀ as, (m v as).vars = v ∧ (m v as).log.map Prod.snd ++ (m v as).rest = as ∧
    match (m v as).result with
    | .ok _ => (m v as).log.map Prod.fst = qs
    | .error .pending => (m v as).log.map Prod.fst <+: qs
    | .error (.fault _) => False

theorem Emits.pure (v : σ) (a : α) : Emits v [] (pure a : Exchange σ Q A ε α) :=
  fun _ => ⟨rfl, rfl, rfl⟩

theorem Emits.bind {v : σ} {qs qs' : List Q} {m : Exchange σ Q A ε α}
    {f : α → Exchange σ Q A ε β} (hm : Emits v qs m) (hf : ∀ a, Emits v qs' (f a)) :
    Emits v (qs ++ qs') (m >>= f) := by
  intro as
  obtain ⟨hv, has, hl⟩ := hm as
  rw [bind_run]
  generalize m v as = o at hv has hl ⊢
  obtain ⟨result, v₁, as₁, l₁⟩ := o
  simp only at hv
  subst hv
  cases result with
  | error stop =>
    cases stop with
    | pending => exact ⟨rfl, has, hl.trans (List.prefix_append _ _)⟩
    | fault e => exact ⟨rfl, has, hl⟩
  | ok a =>
    obtain ⟨hv₂, has₂, hl₂⟩ := hf a as₁
    simp only at has hl ⊢
    generalize f a v₁ as₁ = o at hv₂ has₂ hl₂ ⊢
    obtain ⟨result, v₂, as₂, l₂⟩ := o
    refine ⟨hv₂, ?_, ?_⟩
    · simp only at has₂
      rw [List.map_append, List.append_assoc, has₂, has]
    · cases result with
      | ok b => simp_all
      | error stop =>
        cases stop with
        | pending => simpa [hl] using hl₂
        | fault e => exact hl₂

theorem Emits.length_rest {v v' : σ} {qs : List Q} {m : Exchange σ Q A ε α} {as rest : List A}
    {a : α} {log : List (Q × A)} (hm : Emits v qs m) (h : m v as = ⟨.ok a, v', rest, log⟩) :
    rest.length + qs.length = as.length := by
  obtain ⟨-, has, hl⟩ := hm as
  simp only [h] at has hl
  rw [← has, ← hl]
  simp [Nat.add_comm]

end Exchange

-- ---------------------------------------------------------------------------
-- Disciplines
-- ---------------------------------------------------------------------------

/-- A law of logs. `full` is for a program that has returned, `cut` for one
stopped between two exchanges. -/
structure Discipline (σ Q A : Type) where
  vars : σ → Prop
  full : List (Q × A) → Prop
  cut : List (Q × A) → Prop
  full_nil : full []
  cut_nil : cut []
  full_append : ∀ {l l'}, full l → full l' → full (l ++ l')
  cut_append : ∀ {l l'}, full l → cut l' → cut (l ++ l')

namespace Discipline

open Exchange

variable {σ Q A ε α β : Type} {D : Discipline σ Q A}

def Meets (D : Discipline σ Q A) (o : Outcome σ Q A ε α) : Prop :=
  match o.result with
  | .ok _ => D.vars o.vars ∧ D.full o.log
  | .error .pending => D.cut o.log
  | .error (.fault _) => False

def Follows (D : Discipline σ Q A) (m : Exchange σ Q A ε α) : Prop :=
  ∀ v as, D.vars v → D.Meets (m v as)

theorem Follows.ok {m : Exchange σ Q A ε α} {v v' : σ} {as rest : List A} {a : α}
    {log : List (Q × A)} (hm : D.Follows m) (hv : D.vars v) (h : m v as = ⟨.ok a, v', rest, log⟩) :
    D.vars v' ∧ D.full log := by
  have ho := hm v as hv
  rw [h] at ho
  exact ho

theorem Follows.pure (a : α) : D.Follows (pure a : Exchange σ Q A ε α) :=
  fun _ _ hv => ⟨hv, D.full_nil⟩

theorem Follows.bind {m : Exchange σ Q A ε α} {f : α → Exchange σ Q A ε β}
    (hm : D.Follows m) (hf : ∀ a, D.Follows (f a)) : D.Follows (m >>= f) := by
  intro v as hv
  have h := hm v as hv
  rw [bind_run]
  generalize m v as = o at h ⊢
  obtain ⟨result, v₁, as₁, l₁⟩ := o
  cases result with
  | error stop => cases stop <;> exact h
  | ok a =>
    obtain ⟨hv₁, hl₁⟩ := h
    have hnext := hf a v₁ as₁ hv₁
    simp only
    generalize f a v₁ as₁ = o at hnext ⊢
    obtain ⟨result, v₂, as₂, l₂⟩ := o
    cases result with
    | ok b => exact ⟨hnext.1, D.full_append hl₁ hnext.2⟩
    | error stop =>
      cases stop with
      | pending => exact D.cut_append hl₁ hnext
      | fault e => exact hnext

theorem Follows.seq {m : Exchange σ Q A ε Unit} {next : Exchange σ Q A ε β}
    (hm : D.Follows m) (hn : D.Follows next) : D.Follows (do m; next) :=
  hm.bind fun _ => hn

theorem Follows.modifyVars {f : σ → σ} (hf : ∀ v, D.vars v → D.vars (f v)) :
    D.Follows (modifyVars f : Exchange σ Q A ε Unit) :=
  fun v _ hv => ⟨hf v hv, D.full_nil⟩

theorem Follows.repeatFuel {body : Exchange σ Q A ε Bool} (hb : D.Follows body) (n : Nat) :
    D.Follows (Exchange.repeatFuel body n) := by
  induction n with
  | zero => exact fun _ _ _ => D.cut_nil
  | succ n ih =>
    apply hb.bind
    intro again
    cases again
    · exact .pure ()
    · exact ih

theorem Follows.repeatWhile {body : Exchange σ Q A ε Bool} (hb : D.Follows body) :
    D.Follows (Exchange.repeatWhile body) :=
  fun v as hv => Follows.repeatFuel hb (as.length + 1) v as hv

theorem Follows.forM {γ : Type} {op : γ → Exchange σ Q A ε Unit} (h : ∀ c, D.Follows (op c))
    (cs : List γ) : D.Follows (cs.forM op) := by
  induction cs with
  | nil => exact .pure ()
  | cons c cs ih => exact (h c).seq ih

end Discipline

end LineFollower.Lib
