import LineFollower.Lib.Device

/-!
# Clients of an interface

A client calls the operations of an interface one after the other, and may
choose each call by the answers to the ones before. Its calls can be made by
programs (`perform`), or be functions of an abstract state (`eval`). Where the
program of every operation does what its function says, no client can tell the
two apart (`runs`).
-/

namespace LineFollower.Lib

/-- Calls `C`, each with the type of its answer. -/
inductive Client (C : Type) (R : C → Type) (α : Type)
  | done (a : α)
  | call (c : C) (next : R c → Client C R α)

namespace Client

variable {C : Type} {R : C → Type} {σ Q A ε α D S : Type}

def perform (op : (c : C) → Exchange σ Q A ε (R c)) : Client C R α → Exchange σ Q A ε α
  | done a => pure a
  | call c next => do perform op (next (← op c))

def eval (step : S → (c : C) → R c × S) : S → Client C R α → α × S
  | s, done a => (a, s)
  | s, call c next => eval step (step s c).2 (next (step s c).1)

variable {op : (c : C) → Exchange σ Q A ε (R c)}

theorem runs {dev : Device D Q A} {step : S → (c : C) → R c × S} {rel : σ → D → S → Prop}
    (hop : ∀ c v d s, rel v d s →
      ∃ v' d', Runs dev (op c) v d (step s c).1 v' d' ∧ rel v' d' (step s c).2)
    (client : Client C R α) {v : σ} {d : D} {s : S} (h : rel v d s) :
    ∃ v' d', Runs dev (client.perform op) v d (client.eval step s).1 v' d' ∧
      rel v' d' (client.eval step s).2 := by
  induction client generalizing v d s with
  | done a => exact ⟨v, d, Runs.pure a v d, h⟩
  | call c next ih =>
    obtain ⟨v₁, d₁, hcall, h₁⟩ := hop c v d s h
    obtain ⟨v₂, d₂, hrest, h₂⟩ := ih (step s c).1 h₁
    exact ⟨v₂, d₂, hcall.bind hrest, h₂⟩

theorem follows {L : Discipline σ Q A} (hop : ∀ c, L.Follows (op c)) (client : Client C R α) :
    L.Follows (client.perform op) := by
  induction client with
  | done a => exact .pure a
  | call c next ih => exact (hop c).bind ih

end Client

end LineFollower.Lib
