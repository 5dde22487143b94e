import LineFollower.Pid.Controller
import Mathlib.Algebra.BigOperators.Group.Finset.Basic

/-!
# The discrete PID law

`law` is what a controller without rounding in its memory commands: the
proportional, integral and derivative terms of the error, the integral by the
trapezoid rule over the whole history. A call of the code's controller gives
`pairAt` with its own integral in the place of the history's (`output_eq`), and
of that integral `int uiPast` keeps what is left of the point. So the code
follows the law as long as the history's integral is an integer
(`output_of_integerIntegral`).
-/

namespace LineFollower.Pid

open Lib

/-- The error at call `i`, the first call being number one; zero before it. -/
def errorAt (self : Pid) (y : ℕ → ℤ) : ℕ → ℤ
  | 0 => 0
  | i + 1 => self.setPoint - y (i + 1)

def integralAt (self : Pid) (y : ℕ → ℤ) (n : ℕ) : ℚ :=
  self.K * self.T / self.Ti *
    ∑ i ∈ Finset.range n, ((self.errorAt y i : ℚ) + self.errorAt y (i + 1)) / 2

def controlAt (self : Pid) (y : ℕ → ℤ) (n : ℕ) (integral : ℚ) : ℤ :=
  roundAway (self.K * self.errorAt y (n + 1) + integral +
    self.K * self.Td * (self.errorAt y (n + 1) - self.errorAt y n) / self.T)

def pairAt (self : Pid) (y : ℕ → ℤ) (n : ℕ) (integral : ℚ) : ℤ × ℤ :=
  let u := max self.uMin (min self.uMax (self.controlAt y n integral))
  (self.uWorkPoint - u, self.uWorkPoint + u)

def law (self : Pid) (y : ℕ → ℤ) (n : ℕ) : ℤ × ℤ := self.pairAt y n (self.integralAt y (n + 1))

/-- The integral is an integer after each of the first `n` calls. -/
def IntegerIntegral (self : Pid) (y : ℕ → ℤ) (n : ℕ) : Prop :=
  ∀ m ≤ n, ∃ z : ℤ, self.integralAt y m = z

def gain (self : Pid) : ℚ := self.K * self.T / (2 * self.Ti)

variable {y : ℕ → ℤ}

theorem integralAt_succ (self : Pid) (y : ℕ → ℤ) (n : ℕ) :
    self.integralAt y (n + 1) =
      self.integralAt y n + self.gain * (self.errorAt y n + self.errorAt y (n + 1) : ℤ) := by
  rw [integralAt, integralAt, gain, Finset.sum_range_succ, mul_add]
  push_cast
  ring

-- ---------------------------------------------------------------------------
-- A call
-- ---------------------------------------------------------------------------

def storedAt (self : Pid) (y : ℕ → ℤ) (n : ℕ) : ℚ :=
  (self.after y n).uiPast + self.gain * (self.errorAt y n + self.errorAt y (n + 1) : ℤ)

theorem calculateControl_eq (self : Pid) (x : ℤ) :
    self.calculateControl x =
      let e := self.setPoint - x
      let ui : ℚ := self.uiPast + self.gain * (self.ePast + e : ℤ)
      let u := max self.uMin (min self.uMax
        (roundAway (self.K * e + ui + self.K * self.Td * (e - self.ePast) / self.T)))
      ((self.uWorkPoint - u, self.uWorkPoint + u),
        { self with ePast := e, uiPast := trunc ui }) := by
  have hui (e : ℤ) :
      (self.uiPast : ℚ) + self.K / self.Ti * self.T * ((self.ePast + e : ℤ) : ℚ) / 2 =
      self.uiPast + self.gain * (self.ePast + e : ℤ) := by
    rw [gain]
    ring
  have hud (e : ℤ) : ((e - self.ePast : ℤ) : ℚ) = e - self.ePast := Int.cast_sub e self.ePast
  simp only [calculateControl, limit_eq, hui, hud]

def integral (self : Pid) (x : ℤ) : ℚ :=
  self.uiPast + self.gain * (self.ePast + (self.setPoint - x) : ℤ)

def control (self : Pid) (x : ℤ) : ℚ :=
  self.K * (self.setPoint - x : ℤ) + self.integral x +
    self.K * self.Td * ((self.setPoint - x : ℤ) - self.ePast) / self.T

/-- What is left of the two after the conversions to `int`. -/
theorem calculateControl_converted (self : Pid) (x : ℤ) :
    self.calculateControl x =
      ((self.uWorkPoint - self.limit (roundAway (self.control x)),
        self.uWorkPoint + self.limit (roundAway (self.control x))),
        { self with ePast := self.setPoint - x, uiPast := trunc (self.integral x) }) := by
  rw [calculateControl_eq, limit_eq, control, integral]

theorem after_ePast (self : Pid) (h : self.ePast = 0) (y : ℕ → ℤ) (n : ℕ) :
    (self.after y n).ePast = self.errorAt y n := by
  cases n with
  | zero => exact h
  | succ n =>
    obtain ⟨e, ui, hn⟩ := self.after_frame y n
    obtain ⟨ui', hnext⟩ := calculateControl_next (self.after y n) (y (n + 1))
    rw [after, hnext, hn]
    rfl

theorem output_eq {self : Pid} (h : self.ePast = 0) (y : ℕ → ℤ) (n : ℕ) :
    self.output y n = self.pairAt y n (self.storedAt y n) ∧
      (self.after y (n + 1)).uiPast = trunc (self.storedAt y n) := by
  have he := self.after_ePast h y n
  obtain ⟨e, ui, hn⟩ := self.after_frame y n
  rw [hn] at he
  subst he
  constructor
  · simp only [output, storedAt, hn, calculateControl_eq]
    rfl
  · simp only [after, storedAt, hn, calculateControl_eq]
    rfl

-- ---------------------------------------------------------------------------
-- Runs
-- ---------------------------------------------------------------------------

theorem after_uiPast {self : Pid} (he : self.ePast = 0) (hi : self.uiPast = 0) {n : ℕ}
    (hint : self.IntegerIntegral y n) : ((self.after y n).uiPast : ℚ) = self.integralAt y n := by
  induction n with
  | zero => simp [after, integralAt, hi]
  | succ n ih =>
    have hn := ih fun m hm => hint m (Nat.le_succ_of_le hm)
    obtain ⟨z, hz⟩ := hint (n + 1) le_rfl
    rw [(output_eq he y n).2, storedAt, hn, ← integralAt_succ, hz, trunc_intCast]

/-- A controller follows the law up to the call after which the integral first
has a fraction, that call included. -/
theorem output_of_integerIntegral {self : Pid} (he : self.ePast = 0) (hi : self.uiPast = 0) {n : ℕ}
    (hint : self.IntegerIntegral y n) : self.output y n = self.law y n := by
  rw [(output_eq he y n).1, storedAt, after_uiPast he hi hint, ← integralAt_succ, law]

theorem after_uiPast_zero {self : Pid} (he : self.ePast = 0) (hi : self.uiPast = 0) {n : ℕ}
    (hsmall : ∀ i < n, |self.gain * (self.errorAt y i + self.errorAt y (i + 1) : ℤ)| < 1) :
    (self.after y n).uiPast = 0 := by
  induction n with
  | zero => exact hi
  | succ n ih =>
    have hn := ih fun i hlt => hsmall i (Nat.lt_succ_of_lt hlt)
    rw [(output_eq he y n).2, storedAt, hn, Int.cast_zero, zero_add]
    exact trunc_eq_zero (hsmall n (Nat.lt_succ_self n))

end LineFollower.Pid
