import LineFollower.Lib.Rounding
import Mathlib.Data.Rat.Floor

/-!
# The controller

`Pid` with its tuning and the two values it keeps between calls. A `double` is
an exact rational and an `int` an unbounded integer. The stored integral
`uiPast` is an `int`, so every call drops the fraction of the new one.
-/

namespace LineFollower

open Lib

structure Pid where
  uMax : ℤ
  uMin : ℤ
  setPoint : ℤ
  uWorkPoint : ℤ
  K : ℚ
  Ti : ℚ
  Td : ℚ
  T : ℚ
  uiPast : ℤ
  ePast : ℤ
  deriving DecidableEq

namespace Pid

def new (K Ti Td T : ℚ) (setPoint uWorkPoint uMin uMax : ℤ) : Pid :=
  { K, Ti, Td, T, uMin, uMax, setPoint, uiPast := 0, ePast := 0, uWorkPoint }

/-- The two limits, the lower one last. -/
def limit (self : Pid) (u : ℤ) : ℤ :=
  let u := if u > self.uMax then self.uMax else u
  if u < self.uMin then self.uMin else u

def calculateControl (self : Pid) (processOutput : ℤ) : (ℤ × ℤ) × Pid :=
  let e := self.setPoint - processOutput
  let up : ℚ := self.K * e
  let ui : ℚ := self.uiPast + self.K / self.Ti * self.T * ((self.ePast + e : ℤ) : ℚ) / 2
  let ud : ℚ := self.K * self.Td * ((e - self.ePast : ℤ) : ℚ) / self.T
  let u := roundAway (up + ui + ud)
  let next := { self with ePast := e, uiPast := trunc ui }
  let u := self.limit u
  ((self.uWorkPoint - u, self.uWorkPoint + u), next)

theorem limit_eq (self : Pid) (u : ℤ) : self.limit u = max self.uMin (min self.uMax u) := by
  unfold limit
  grind

-- ---------------------------------------------------------------------------
-- Runs
-- ---------------------------------------------------------------------------

def after (self : Pid) (y : ℕ → ℤ) : ℕ → Pid
  | 0 => self
  | n + 1 => ((self.after y n).calculateControl (y (n + 1))).2

def output (self : Pid) (y : ℕ → ℤ) (n : ℕ) : ℤ × ℤ :=
  ((self.after y n).calculateControl (y (n + 1))).1

theorem calculateControl_next (self : Pid) (x : ℤ) :
    ∃ ui, (self.calculateControl x).2 = { self with ePast := self.setPoint - x, uiPast := ui } :=
  ⟨_, rfl⟩

theorem after_frame (self : Pid) (y : ℕ → ℤ) (n : ℕ) :
    ∃ e ui, self.after y n = { self with ePast := e, uiPast := ui } := by
  induction n with
  | zero => exact ⟨self.ePast, self.uiPast, rfl⟩
  | succ n ih =>
    obtain ⟨e, ui, ih⟩ := ih
    obtain ⟨ui', hnext⟩ := calculateControl_next (self.after y n) (y (n + 1))
    rw [after, hnext, ih]
    exact ⟨_, ui', rfl⟩

end Pid

end LineFollower
