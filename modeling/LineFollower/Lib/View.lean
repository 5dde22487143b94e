import LineFollower.Lib.Triple

/-!
# Views of a device

A program that sends only some of the messages may see no more than a part of a
device. `Shows` says that while `inv` holds, the messages of `asks` are answered
as by a smaller device, from the part `view` of the state. Then what is known of
a program on the smaller device is true of it on the whole one (`Shows.triple`).
`Asks` is the claim that a program sends no other messages.
-/

namespace LineFollower.Lib

open Exchange

variable {σ Q A ε α β D D' : Type}

-- ---------------------------------------------------------------------------
-- Messages of a program
-- ---------------------------------------------------------------------------

/-- All messages are of `asks`, and a device leaves the program no choice. -/
structure Asks (asks : Q → Prop) (m : Exchange σ Q A ε α) : Prop where
  within : ∀ v as, ∀ e ∈ (m v as).log, asks e.1
  decided :
    ∀ {D : Type} (dev : Device D Q A) {v v₁ v₂ as as' rest rest' a a' log log'} {d d₁ d₂ : D},
    m v as = ⟨.ok a, v₁, rest, log⟩ → m v as' = ⟨.ok a', v₂, rest', log'⟩ → Serves dev d log d₁ →
    Serves dev d log' d₂ → a = a' ∧ v₁ = v₂ ∧ d₁ = d₂

namespace Asks

variable {asks : Q → Prop} {m m' : Exchange σ Q A ε α} {f : α → Exchange σ Q A ε β}

theorem silent {r : σ → Except (Halt ε) α} {g : σ → σ} (h : ∀ v as, m v as = ⟨r v, g v, as, []⟩) :
    Asks asks m where
  within := by
    intro v as e he
    rw [h] at he
    exact absurd he List.not_mem_nil
  decided := by
    intro D dev v v₁ v₂ as as' rest rest' a a' log log' d d₁ d₂ hm hm' hd hd'
    rw [h] at hm hm'
    obtain ⟨hr, rfl, -, rfl⟩ := (Outcome.mk.injEq ..).mp hm
    obtain ⟨hr', rfl, -, rfl⟩ := (Outcome.mk.injEq ..).mp hm'
    exact ⟨Except.ok.inj (hr.symm.trans hr'), rfl, hd.symm.trans hd'⟩

protected theorem pure (a : α) : Asks asks (pure a : Exchange σ Q A ε α) := .silent fun _ _ => rfl

theorem getVars : Asks asks (getVars : Exchange σ Q A ε σ) := .silent fun _ _ => rfl

theorem modifyVars (g : σ → σ) : Asks asks (modifyVars g : Exchange σ Q A ε Unit) :=
  .silent fun _ _ => rfl

theorem fault (e : ε) : Asks asks (fault e : Exchange σ Q A ε α) := .silent fun _ _ => rfl

theorem exchange {q : Q} (h : asks q) : Asks asks (exchange q : Exchange σ Q A ε A) where
  within := by
    intro v as e he
    cases as with
    | nil => exact absurd he List.not_mem_nil
    | cons a as =>
      obtain rfl : e = (q, a) := List.mem_singleton.mp he
      exact h
  decided := by
    intro D dev v v₁ v₂ as as' rest rest' a a' log log' d d₁ d₂ hm hm' hd hd'
    obtain ⟨rfl, rfl, rfl⟩ := (Runs.exchange q v d).only _ _ _ _ _ _ hm hd
    obtain ⟨rfl, rfl, rfl⟩ := (Runs.exchange q v₁ d).only _ _ _ _ _ _ hm' hd'
    exact ⟨rfl, rfl, rfl⟩

theorem bind (hm : Asks asks m) (hf : ∀ a, Asks asks (f a)) : Asks asks (m >>= f) where
  within := by
    intro v as
    have hfirst := hm.within v as
    rw [bind_run]
    generalize m v as = o at hfirst ⊢
    obtain ⟨result, v₁, as₁, l₁⟩ := o
    cases result with
    | error stop => exact hfirst
    | ok a =>
      intro e he
      rcases List.mem_append.mp he with he | he
      · exact hfirst e he
      · exact (hf a).within v₁ as₁ e he
  decided := by
    intro D dev v v' v'' as as' rest rest' b b' log log' d d' d'' h h' hd hd'
    obtain ⟨a, v₁, as₁, l₁, l₂, hfirst, hnext, rfl⟩ := bind_ok.mp h
    obtain ⟨a', v₁', as₁', l₁', l₂', hfirst', hnext', rfl⟩ := bind_ok.mp h'
    obtain ⟨d₁, hl, hl₂⟩ := serves_append.mp hd
    obtain ⟨d₁', hl', hl₂'⟩ := serves_append.mp hd'
    obtain ⟨rfl, rfl, rfl⟩ := hm.decided dev hfirst hfirst' hl hl'
    exact (hf a).decided dev hnext hnext' hl₂ hl₂'

theorem seq {next : Exchange σ Q A ε β} (hm : Asks asks m) (hn : Asks asks next) :
    Asks asks (do let _ ← m; next) :=
  hm.bind fun _ => hn

theorem ite {c : Prop} [Decidable c] (h : Asks asks m) (h' : Asks asks m') :
    Asks asks (if c then m else m') := by
  split
  · exact h
  · exact h'

theorem repeatFuel {body : Exchange σ Q A ε Bool} (hb : Asks asks body) (n : Nat) :
    Asks asks (repeatFuel body n) := by
  induction n with
  | zero => exact .silent (r := fun _ => .error .pending) (g := id) fun _ _ => rfl
  | succ n ih =>
    refine hb.bind fun again => ?_
    cases again with
    | true => exact ih
    | false => exact .pure ()

theorem turns {body : Exchange σ Q A ε Bool} (hb : Asks asks body) (dev : Device D Q A)
    {v v₁ v₂ : σ}
    {as as' rest rest' : List A} {log log' : List (Q × A)} {d d₁ d₂ : D}
    (h : Turns body v as v₁ rest log) (h' : Turns body v as' v₂ rest' log')
    (hd : Serves dev d log d₁)
    (hd' : Serves dev d log' d₂) : v₁ = v₂ ∧ d₁ = d₂ := by
  induction h generalizing as' d log' with
  | last h =>
    cases h' with
    | last h' => exact (hb.decided dev h h' hd hd').2
    | next h' _ =>
      obtain ⟨_, hl, -⟩ := serves_append.mp hd'
      exact absurd (hb.decided dev h h' hd hl).1 Bool.false_ne_true
  | next h _ ih =>
    obtain ⟨_, hl, hrest⟩ := serves_append.mp hd
    cases h' with
    | last h' => exact absurd (hb.decided dev h' h hd' hl).1 Bool.false_ne_true
    | next h' hturns' =>
      obtain ⟨_, hl', hrest'⟩ := serves_append.mp hd'
      obtain ⟨-, rfl, rfl⟩ := hb.decided dev h h' hl hl'
      exact ih hturns' hrest hrest'

theorem repeatWhile {body : Exchange σ Q A ε Bool} (hb : Asks asks body) :
    Asks asks (repeatWhile body) where
  within := fun v as => (hb.repeatFuel _).within v as
  decided := by
    intro D dev v v₁ v₂ as as' rest rest' _ _ log log' d d₁ d₂ h h' hd hd'
    exact ⟨rfl, hb.turns dev (repeatFuel_turns h) (repeatFuel_turns h') hd hd'⟩

end Asks

-- ---------------------------------------------------------------------------
-- Views
-- ---------------------------------------------------------------------------

/-- While `inv` holds, the messages of `asks` are answered by `part` from
`view`, and it goes on holding. -/
def Shows (whole : Device D' Q A) (part : Device D Q A) (view : D' → D) (asks : Q → Prop)
    (inv : D' → Prop) : Prop :=
  ∀ d q, inv d → asks q →
    (whole d q).1 = (part (view d) q).1 ∧ view (whole d q).2 = (part (view d) q).2 ∧
      inv (whole d q).2

namespace Shows

variable {whole : Device D' Q A} {part : Device D Q A} {view : D' → D} {asks : Q → Prop}
  {inv : D' → Prop} {m : Exchange σ Q A ε α} {v v' : σ} {a : α} {d d' : D'} {c : D}
  {log : List (Q × A)}

theorem serves (h : Shows whole part view asks inv) (hlog : ∀ e ∈ log, asks e.1) (hinv : inv d)
    (hd : Serves whole d log d') : Serves part (view d) log (view d') ∧ inv d' := by
  induction log generalizing d with
  | nil =>
    obtain rfl : d = d' := hd
    exact ⟨rfl, hinv⟩
  | cons e log ih =>
    obtain ⟨q, b⟩ := e
    obtain ⟨hanswer, hview, hnext⟩ := h d q hinv (hlog _ List.mem_cons_self)
    obtain ⟨hb, hd⟩ := hd
    have hrest := ih (fun e he => hlog e (List.mem_cons_of_mem _ he)) hnext hd
    rw [hview] at hrest
    exact ⟨⟨hanswer.symm.trans hb, hrest.1⟩, hrest.2⟩

theorem exists_serves (h : Shows whole part view asks inv) (hlog : ∀ e ∈ log, asks e.1)
    (hinv : inv d)
    (hc : Serves part (view d) log c) : ∃ d', Serves whole d log d' ∧ view d' = c := by
  induction log generalizing d with
  | nil => exact ⟨d, rfl, hc⟩
  | cons e log ih =>
    obtain ⟨q, b⟩ := e
    obtain ⟨hanswer, hview, hnext⟩ := h d q hinv (hlog _ List.mem_cons_self)
    obtain ⟨hb, hc⟩ := hc
    rw [← hview] at hc
    obtain ⟨d', hd, hd'⟩ := ih (fun e he => hlog e (List.mem_cons_of_mem _ he)) hnext hc
    exact ⟨d', ⟨hanswer.trans hb, hd⟩, hd'⟩

theorem triple (h : Shows whole part view asks inv) (hm : Asks asks m) (hinv : inv d)
    {post : α → σ → D → Prop} {cut : D → Prop} (ht : Triple part m v (view d) post cut) :
    Triple whole m v d (fun a v' d' => post a v' (view d') ∧ inv d')
      (fun d' => cut (view d') ∧ inv d') where
  ends := by
    obtain ⟨a, v', c, hrun⟩ := ht.ends
    obtain ⟨log, hc, hreturns⟩ := hrun.returns
    have hwithin := hm.within v (log.map Prod.snd ++ [])
    rw [hreturns []] at hwithin
    obtain ⟨d', hd, -⟩ := h.exists_serves hwithin hinv hc
    refine ⟨a, v', d', ⟨log, hd, hreturns⟩, fun as rest log' b v₁ d₁ hm' hd₁ => ?_⟩
    exact hm.decided whole hm' (hreturns []) hd₁ hd
  safe := by
    intro as d' hd
    obtain ⟨hc, hinv'⟩ := h.serves (hm.within v as) hinv hd
    have ho := ht.safe as _ hc
    generalize m v as = o at ho ⊢
    obtain ⟨result, v', rest, log⟩ := o
    cases result with
    | ok a => exact ⟨ho, hinv'⟩
    | error stop =>
      cases stop with
      | pending => exact ⟨ho, hinv'⟩
      | fault e => exact ho

end Shows

end LineFollower.Lib
