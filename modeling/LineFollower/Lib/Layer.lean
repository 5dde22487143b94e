import LineFollower.Lib.Triple

/-!
# Devices made of programs

A device may itself be made of programs that talk to a lower one: `Relays` says
how the lower device and the programs' variables go through a log, and
`RunsOver` what a program gives on it. When the programs implement the device,
all that a program gives on the device it gives over them, and nothing else.
-/

namespace LineFollower.Lib

open Exchange

variable {σ τ Q Q' A A' ε ε' α D D' : Type}

inductive Relays (low : Device D' Q' A') (op : Q → Exchange τ Q' A' ε' A) :
    τ → D' → List (Q × A) → τ → D' → Prop
  | nil {w : τ} {c : D'} : Relays low op w c [] w c
  | cons {w w₁ w₂ : τ} {c c₁ c₂ : D'} {q : Q} {a : A} {log : List (Q × A)}
      (h : Runs low (op q) w c a w₁ c₁) (hrest : Relays low op w₁ c₁ log w₂ c₂) :
      Relays low op w c ((q, a) :: log) w₂ c₂

/-- With the lower device in `c` and the variables `w` below it, the program
returns `a` and leaves `v'`, `w'` and `c'`. -/
structure RunsOver (low : Device D' Q' A') (op : Q → Exchange τ Q' A' ε' A) (m : Exchange σ Q A ε α)
    (v : σ) (w : τ) (c : D') (a : α) (v' : σ) (w' : τ) (c' : D') : Prop where
  returns : ∃ log, Relays low op w c log w' c' ∧
    ∀ rest, m v (log.map Prod.snd ++ rest) = ⟨.ok a, v', rest, log⟩

/-- While `rel` holds, the program of a message that is admitted answers it as
the device does. -/
def Implements (low : Device D' Q' A') (op : Q → Exchange τ Q' A' ε' A) (dev : Device D Q A)
    (admits : Q → Prop) (rel : τ → D' → D → Prop) : Prop :=
  ∀ q w c d, admits q → rel w c d →
    ∃ w' c', Runs low (op q) w c (dev d q).1 w' c' ∧ rel w' c' (dev d q).2

namespace Implements

variable {low : Device D' Q' A'} {op : Q → Exchange τ Q' A' ε' A} {dev : Device D Q A}
  {admits : Q → Prop} {rel : τ → D' → D → Prop} {v v' : σ} {w w' : τ} {c c' : D'} {d d' : D} {a : α}
  {log : List (Q × A)} {m : Exchange σ Q A ε α}

theorem relays (h : Implements low op dev admits rel) (hlog : ∀ e ∈ log, admits e.1)
    (hrel : rel w c d) (hd : Serves dev d log d') :
    ∃ w' c', Relays low op w c log w' c' ∧ rel w' c' d' := by
  induction log generalizing w c d with
  | nil =>
    obtain rfl : d = d' := hd
    exact ⟨w, c, .nil, hrel⟩
  | cons e log ih =>
    obtain ⟨q, b⟩ := e
    obtain ⟨rfl, hd⟩ := hd
    obtain ⟨w₁, c₁, hrun, hrel₁⟩ := h q w c d (hlog _ List.mem_cons_self) hrel
    obtain ⟨w₂, c₂, hrest, hrel₂⟩ := ih (fun e he => hlog e (List.mem_cons_of_mem _ he)) hrel₁ hd
    exact ⟨w₂, c₂, .cons hrun hrest, hrel₂⟩

theorem serves (h : Implements low op dev admits rel) (hlog : ∀ e ∈ log, admits e.1)
    (hrel : rel w c d) (hr : Relays low op w c log w' c') :
    ∃ d', Serves dev d log d' ∧ rel w' c' d' := by
  induction hr generalizing d with
  | nil => exact ⟨d, rfl, hrel⟩
  | @cons w w₁ w₂ c c₁ c₂ q b log hrun _ ih =>
    obtain ⟨w₁', c₁', hrun', hrel₁⟩ := h q w c d (hlog _ List.mem_cons_self) hrel
    obtain ⟨rfl, rfl, rfl⟩ := hrun'.unique hrun
    obtain ⟨d₂, hd, hrel₂⟩ := ih (fun e he => hlog e (List.mem_cons_of_mem _ he)) hrel₁
    exact ⟨d₂, ⟨rfl, hd⟩, hrel₂⟩

/-- What a program does on the device it does over the programs. -/
theorem runsOver (h : Implements low op dev admits rel) (hm : ∀ as, ∀ e ∈ (m v as).log, admits e.1)
    (hrel : rel w c d) (hr : Runs dev m v d a v' d') :
    ∃ w' c', RunsOver low op m v w c a v' w' c' ∧ rel w' c' d' := by
  obtain ⟨log, hd, hreturns⟩ := hr.returns
  have hlog := hm (log.map Prod.snd ++ [])
  rw [hreturns []] at hlog
  obtain ⟨w', c', hrelays, hrel'⟩ := h.relays hlog hrel hd
  exact ⟨w', c', ⟨log, hrelays, hreturns⟩, hrel'⟩

theorem only (h : Implements low op dev admits rel) (hm : ∀ as, ∀ e ∈ (m v as).log, admits e.1)
    (hrel : rel w c d) (hr : Runs dev m v d a v' d') {b : α} {v₁ : σ}
    (ho : RunsOver low op m v w c b v₁ w' c') : b = a ∧ v₁ = v' ∧ rel w' c' d' := by
  obtain ⟨log, hrelays, hreturns⟩ := ho.returns
  have hlog := hm (log.map Prod.snd ++ [])
  rw [hreturns []] at hlog
  obtain ⟨d₁, hd, hrel'⟩ := h.serves hlog hrel hrelays
  obtain ⟨rfl, rfl, rfl⟩ := hr.only _ _ _ _ _ _ (hreturns []) hd
  exact ⟨rfl, rfl, hrel'⟩

end Implements

end LineFollower.Lib
