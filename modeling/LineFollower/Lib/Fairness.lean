import LineFollower.Lib.Transition
import Mathlib.Order.Nat
import Mathlib.Tactic.Choose

/-!
# Progress in fair runs

An endless run of a machine is fair to a party when the party is not passed
over for ever: again and again it makes a step or has none to make. `Trace.leads`
is the rule for progress. A rank says how far the goal is and which party is to
move next; that party's steps lower the rank, and no step of another party
raises it, or changes who is to move without lowering it.
-/

namespace LineFollower.Lib

universe u v w

namespace Machine

variable {S : Type u} {L : Type v} {M : Machine S L}

/-- A run that does not end. -/
structure Trace (M : Machine S L) where
  state : ℕ → S
  label : ℕ → L
  init : state 0 = M.init
  step : ∀ n, M.step (state n) (label n) = some (state (n + 1))

namespace Trace

variable {t : M.Trace} {P : Type w} {acts : P → L → Prop}

theorem reach {ok : S → L → Prop} (h : ∀ n, ok (t.state n) (t.label n)) (n : ℕ) :
    M.Reach ok (t.state n) := by
  induction n with
  | zero => exact t.init ▸ .init
  | succ n ih => exact .step ih (h n) (t.step n)

theorem keeps {I : S → Prop} (hstep : ∀ n, I (t.state n) → I (t.state (n + 1))) {n k : ℕ}
    (hnk : n ≤ k)
    (h : I (t.state n)) : I (t.state k) := by
  induction hnk with
  | refl => exact h
  | step _ ih => exact hstep _ ih

/-- Again and again the party makes a step, or has none to make. -/
def FairTo (t : M.Trace) (acts : L → Prop) : Prop :=
  ∀ n, ∃ k, n ≤ k ∧ (acts (t.label k) ∨ ∀ l, acts l → M.step (t.state k) l = none)

theorem leads (I goal : S → Prop) (rank : S → ℕ) (next : S → P) (hfair : ∀ p, t.FairTo (acts p))
    (hcan : ∀ s, I s → ¬ goal s → ∃ l, acts (next s) l ∧ M.step s l ≠ none)
    (hstep : ∀ k, I (t.state k) → ¬ goal (t.state k) → goal (t.state (k + 1)) ∨
      rank (t.state (k + 1)) < rank (t.state k) ∨
      (rank (t.state (k + 1)) = rank (t.state k) ∧ next (t.state (k + 1)) = next (t.state k) ∧
        ¬ acts (next (t.state k)) (t.label k)))
    {n : ℕ} (hinv : ∀ k, n ≤ k → I (t.state k)) : ∃ k, n ≤ k ∧ goal (t.state k) := by
  induction hr : rank (t.state n) using Nat.strongRecOn generalizing n with
  | ind r ih =>
    by_contra hnever
    have hno (k : ℕ) (hk : n ≤ k) : ¬ goal (t.state k) := fun hgoal => hnever ⟨k, hk, hgoal⟩
    -- until the rank is lower the same party is to move
    have hlower : ¬ ∃ j, n ≤ j ∧ rank (t.state j) < r := by
      rintro ⟨j, hj, hlt⟩
      obtain ⟨k, hk, hgoal⟩ := ih _ hlt (fun k hk => hinv k (Nat.le_trans hj hk)) rfl
      exact hno k (Nat.le_trans hj hk) hgoal
    have hsame (k : ℕ) (hk : n ≤ k) :
        rank (t.state k) = r ∧ next (t.state k) = next (t.state n) := by
      induction hk with
      | refl => exact ⟨hr, rfl⟩
      | @step k hk ihk =>
        obtain hgoal | hlt | ⟨heq, hnext, -⟩ := hstep k (hinv k hk) (hno k hk)
        · exact absurd hgoal (hno _ (Nat.le_succ_of_le hk))
        · exact absurd ⟨k + 1, Nat.le_succ_of_le hk, ihk.1 ▸ hlt⟩ hlower
        · exact ⟨heq.trans ihk.1, hnext.trans ihk.2⟩
    obtain ⟨k, hk, hmoves⟩ := hfair (next (t.state n)) n
    obtain ⟨hrank, hparty⟩ := hsame k hk
    rcases hmoves with hacts | hnone
    · obtain hgoal | hlt | ⟨-, -, hother⟩ := hstep k (hinv k hk) (hno k hk)
      · exact hno _ (Nat.le_succ_of_le hk) hgoal
      · exact hlower ⟨k + 1, Nat.le_succ_of_le hk, hrank ▸ hlt⟩
      · exact hother (hparty ▸ hacts)
    · obtain ⟨l, hl, hsome⟩ := hcan _ (hinv k hk) (hno k hk)
      exact hsome (hnone l (hparty ▸ hl))

end Trace

theorem exists_trace (I : S → Prop) (cycle : List L) (hinit : I M.init) (hpos : 0 < cycle.length)
    (hrun : ∀ s, I s → ∃ s', M.run s cycle = some s' ∧ I s') :
    ∃ t : M.Trace, ∀ n, t.label n = cycle.get ⟨n % cycle.length, Nat.mod_lt n hpos⟩ := by
  let label (n : ℕ) : L := cycle.get ⟨n % cycle.length, Nat.mod_lt n hpos⟩
  let after (n : ℕ) (s : S) : Prop := ∃ s₀, I s₀ ∧ M.run s₀ (cycle.take (n % cycle.length)) = some s
  have hnext (n : ℕ) (s : S) (h : after n s) :
      ∃ s', M.step s (label n) = some s' ∧ after (n + 1) s' := by
    obtain ⟨s₀, hs₀, hs⟩ := h
    obtain ⟨s₂, hcycle, hs₂⟩ := hrun s₀ hs₀
    have hlt := Nat.mod_lt n hpos
    have htake : cycle.take (n % cycle.length) ++ [label n] = cycle.take (n % cycle.length + 1) :=
      List.take_append_getElem hlt
    have hsplit : cycle = cycle.take (n % cycle.length) ++ [label n] ++
        cycle.drop (n % cycle.length + 1) := by
      rw [htake, List.take_append_drop]
    rw [hsplit, run_append] at hcycle
    obtain ⟨s₁, hfirst, hrest⟩ := Option.bind_eq_some_iff.mp hcycle
    have hfirst' := hfirst
    rw [run_append, hs, Option.bind_some] at hfirst'
    obtain ⟨_, hstep, hend⟩ := Option.bind_eq_some_iff.mp hfirst'
    obtain rfl := Option.some.inj hend
    refine ⟨_, hstep, ?_⟩
    have hmod : (n % cycle.length + 1) % cycle.length = (n + 1) % cycle.length :=
      Nat.mod_add_mod n _ 1
    by_cases hlast : n % cycle.length + 1 = cycle.length
    · have hzero : (n + 1) % cycle.length = 0 := by rw [← hmod, hlast, Nat.mod_self]
      rw [hlast, List.drop_length] at hrest
      obtain rfl := Option.some.inj hrest
      exact ⟨_, hs₂, by rw [hzero]; rfl⟩
    · rw [Nat.mod_eq_of_lt (lt_of_le_of_ne hlt hlast)] at hmod
      exact ⟨s₀, hs₀, by rw [← hmod, ← htake, hfirst]⟩
  choose next hstep hafter using hnext
  have hfirst : after 0 M.init := ⟨M.init, hinit, by rw [Nat.zero_mod]; rfl⟩
  let states (n : ℕ) : { s // after n s } :=
    Nat.rec ⟨M.init, hfirst⟩ (fun n s => ⟨next n s.1 s.2, hafter n s.1 s.2⟩) n
  exact ⟨⟨fun n => (states n).1, label, rfl, fun n => hstep n _ _⟩, fun _ => rfl⟩

end Machine

end LineFollower.Lib
