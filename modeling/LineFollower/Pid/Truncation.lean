import LineFollower.Pid.Law
import Mathlib.Algebra.Order.Archimedean.Basic

/-!
# What the truncated integral costs

`int uiPast` drops the fraction of the integral at every call. A tuning whose
gain is an integer has no fraction to drop. With any other gain the loss can
be made as large as one likes, by an error of one in every other call, and one
more error then moves the law's control value above the lower limit and the
code's below it. So the code follows the law on every run exactly for the
tunings with an integer gain, limits that admit one value only apart
(`output_eq_law`).
-/

namespace LineFollower.Pid

open Lib

variable {y : ℕ → ℤ} {self : Pid}

-- ---------------------------------------------------------------------------
-- Tunings that lose nothing
-- ---------------------------------------------------------------------------

theorem integerIntegral_of_gain {z : ℤ} (h : self.gain = z) (y : ℕ → ℤ) (n : ℕ) :
    self.IntegerIntegral y n := by
  rintro m -
  induction m with
  | zero => exact ⟨0, by simp [integralAt]⟩
  | succ m ih =>
    obtain ⟨w, hw⟩ := ih
    refine ⟨w + z * (self.errorAt y m + self.errorAt y (m + 1)), ?_⟩
    rw [integralAt_succ, hw, h]
    push_cast
    ring

theorem pairAt_of_limits (h : self.uMax ≤ self.uMin) (n : ℕ) (a b : ℚ) :
    self.pairAt y n a = self.pairAt y n b := by
  have hu (u : ℤ) : max self.uMin (min self.uMax u) = self.uMin :=
    max_eq_left ((min_le_left _ _).trans h)
  simp only [pairAt, hu]

theorem pairAt_ne {n : ℕ} {a b : ℚ} (hlimits : self.uMin < self.uMax)
    (ha : self.controlAt y n a ≤ self.uMin) (hb : self.uMin < self.controlAt y n b) :
    self.pairAt y n a ≠ self.pairAt y n b := by
  have hua : max self.uMin (min self.uMax (self.controlAt y n a)) = self.uMin :=
    max_eq_left ((min_le_right _ _).trans ha)
  have hub : self.uMin < max self.uMin (min self.uMax (self.controlAt y n b)) :=
    lt_max_of_lt_right (lt_min hlimits hb)
  intro heq
  obtain ⟨-, hsum⟩ := Prod.mk.inj heq
  rw [hua] at hsum
  exact hub.ne (add_left_cancel hsum)

-- ---------------------------------------------------------------------------
-- A run that loses
-- ---------------------------------------------------------------------------

/-- Errors `σ`, 0, `σ`, 0, … in the first `2 * k` calls, then `m`, then 0. -/
def losing (σ m : ℤ) (k : ℕ) (i : ℕ) : ℤ :=
  if i ≤ 2 * k then (if i % 2 = 1 then σ else 0) else if i = 2 * k + 1 then m else 0

theorem losing_add {σ m : ℤ} {k i : ℕ} (hi : i < 2 * k) :
    losing σ m k i + losing σ m k (i + 1) = σ := by
  rw [losing, losing, if_pos hi.le, if_pos (Nat.succ_le_of_lt hi)]
  rcases Nat.mod_two_eq_zero_or_one i with h | h
  · simp [h, Nat.add_mod]
  · simp [h, Nat.add_mod]

theorem losing_two_mul (σ m : ℤ) (k : ℕ) : losing σ m k (2 * k) = 0 := by
  simp [losing]

theorem losing_bump (σ m : ℤ) (k : ℕ) : losing σ m k (2 * k + 1) = m := by
  simp [losing]

theorem losing_end {σ m : ℤ} {k i : ℕ} (hi : 2 * k + 1 < i) : losing σ m k i = 0 := by
  rw [losing, if_neg (by omega), if_neg (by omega)]

def outputsFor (self : Pid) (e : ℕ → ℤ) (i : ℕ) : ℤ := self.setPoint - e i

theorem errorAt_outputsFor {e : ℕ → ℤ} (h : e 0 = 0) (i : ℕ) :
    self.errorAt (self.outputsFor e) i = e i := by
  cases i with
  | zero => exact h.symm
  | succ i => exact sub_sub_cancel self.setPoint (e (i + 1))

section
variable {σ m : ℤ} {k : ℕ}

theorem errorAt_losing (i : ℕ) :
    self.errorAt (self.outputsFor (losing σ m k)) i = losing σ m k i :=
  errorAt_outputsFor (by simp [losing]) i

theorem alternating {g : ℚ} (hg : 0 ≤ g) (hgain : self.gain * σ = g) (he : self.ePast = 0)
    (hi : self.uiPast = 0) {n : ℕ} (hn : n ≤ 2 * k) :
    (self.after (self.outputsFor (losing σ m k)) n).uiPast = n * ⌊g⌋ ∧
      self.integralAt (self.outputsFor (losing σ m k)) n = n * g := by
  induction n with
  | zero => exact ⟨by simp [after, hi], by simp [integralAt]⟩
  | succ n ih =>
    obtain ⟨hcode, hlaw⟩ := ih (Nat.le_of_succ_le hn)
    have hsum : self.gain * (losing σ m k n + losing σ m k (n + 1) : ℤ) = g := by
      rw [losing_add (Nat.lt_of_succ_le hn), hgain]
    constructor
    · have hpos : 0 ≤ ((n * ⌊g⌋ : ℤ) : ℚ) + g :=
        add_nonneg (Int.cast_nonneg (mul_nonneg n.cast_nonneg (Int.floor_nonneg.mpr hg))) hg
      rw [(output_eq he _ n).2, storedAt, errorAt_losing, errorAt_losing, hsum, hcode, trunc,
        if_pos hpos, Int.floor_intCast_add]
      push_cast
      ring
    · rw [integralAt_succ, errorAt_losing, errorAt_losing, hsum, hlaw]
      push_cast
      ring

/-- At the end of the run the code's integral is short of the law's by the
fractions of all steps, up to the two roundings of the last ones. -/
theorem storedAt_losing {g : ℚ} (hg : 0 ≤ g) (hgain : self.gain * σ = g) (he : self.ePast = 0)
    (hi : self.uiPast = 0) :
    let y := self.outputsFor (losing σ m k)
    self.integralAt y (2 * k + 3) = 2 * k * g + 2 * (self.gain * m) ∧
      self.storedAt y (2 * k + 2) < self.integralAt y (2 * k + 3) - 2 * k * Int.fract g + 2 := by
  intro y
  obtain ⟨hcode, hlaw⟩ := alternating (m := m) hg hgain he hi (le_refl (2 * k))
  have hbump : self.errorAt y (2 * k) + self.errorAt y (2 * k + 1) = m := by
    rw [errorAt_losing, errorAt_losing, losing_two_mul, losing_bump, zero_add]
  have hback : self.errorAt y (2 * k + 1) + self.errorAt y (2 * k + 2) = m := by
    rw [errorAt_losing, errorAt_losing, losing_bump, losing_end (by omega), add_zero]
  have hrest : self.errorAt y (2 * k + 2) + self.errorAt y (2 * k + 3) = 0 := by
    rw [errorAt_losing, errorAt_losing, losing_end (by omega), losing_end (by omega), add_zero]
  have hend : self.integralAt y (2 * k + 3) = 2 * k * g + 2 * (self.gain * m) := by
    rw [integralAt_succ, integralAt_succ, integralAt_succ, hrest, hback, hbump, hlaw]
    push_cast
    ring
  have hfirst : ((self.after y (2 * k + 1)).uiPast : ℚ) < 2 * k * ⌊g⌋ + self.gain * m + 1 := by
    rw [(output_eq he y _).2, storedAt, hbump, hcode]
    apply (trunc_lt_add_one _).trans_eq
    push_cast
    ring
  have hsecond : ((self.after y (2 * k + 2)).uiPast : ℚ) <
      (self.after y (2 * k + 1)).uiPast + self.gain * m + 1 := by
    rw [(output_eq he y _).2, storedAt, hback]
    exact trunc_lt_add_one _
  refine ⟨hend, ?_⟩
  rw [storedAt, hrest, hend, Int.fract]
  push_cast
  linarith

end

theorem controlAt_losing {σ m : ℤ} {k : ℕ} (integral : ℚ) :
    self.controlAt (self.outputsFor (losing σ m k)) (2 * k + 2) integral = roundAway integral := by
  rw [controlAt, errorAt_losing, errorAt_losing, losing_end (by omega), losing_end (by omega)]
  simp

-- ---------------------------------------------------------------------------
-- Which tunings follow the law
-- ---------------------------------------------------------------------------

theorem exists_unit (q : ℚ) : ∃ σ : ℤ, q * σ = |q| := by
  rcases abs_choice q with h | h
  · exact ⟨1, by simp [h]⟩
  · exact ⟨-1, by simp [h]⟩

theorem fract_abs_pos {q : ℚ} (h : ∀ z : ℤ, q ≠ z) : 0 < Int.fract |q| := by
  apply (Int.fract_nonneg _).lt_of_ne'
  intro hzero
  obtain ⟨z, hz⟩ := Int.fract_eq_zero_iff.mp hzero
  rcases abs_choice q with hq | hq
  · exact h z (hq.symm.trans hz.symm)
  · apply h (-z)
    rw [Int.cast_neg, hz, hq, neg_neg]

/-- With a fraction in the gain some run leaves the law. -/
theorem exists_output_ne_law (he : self.ePast = 0) (hi : self.uiPast = 0)
    (hgain : ∀ z : ℤ, self.gain ≠ z) (hlimits : self.uMin < self.uMax) :
    ∃ y n, self.output y n ≠ self.law y n := by
  obtain ⟨σ, hunit⟩ := exists_unit self.gain
  have hfract := fract_abs_pos hgain
  have hpos : 0 < |self.gain| := abs_pos.mpr (by simpa using hgain 0)
  -- `k` rounds lose more than one step can move.
  obtain ⟨k, hk⟩ := exists_nat_ge ((2 * |self.gain| + 3) / (2 * Int.fract |self.gain|))
  have hloss : 2 * |self.gain| + 3 ≤ 2 * k * Int.fract |self.gain| := by
    rw [div_le_iff₀ (by linarith)] at hk
    linarith
  -- `s` steps bring the law just over the lower limit.
  obtain ⟨s, ⟨hover, hunder⟩, -⟩ := existsUnique_add_zsmul_mem_Ico
    (by linarith : 0 < 2 * |self.gain|) 0 (self.uMin + 1 : ℚ)
  rw [zero_add, zsmul_eq_mul] at hover hunder
  obtain ⟨hlaw, hcode⟩ := storedAt_losing (m := σ * (s - k)) (k := k) hpos.le hunit he hi
  have hend : 2 * k * |self.gain| + 2 * (self.gain * ((σ * (s - k) : ℤ) : ℚ)) =
      s * (2 * |self.gain|) := by
    rw [← hunit]
    push_cast
    ring
  rw [hlaw, hend] at hcode
  rw [hend] at hlaw
  refine ⟨self.outputsFor (losing σ (σ * (s - k)) k), 2 * k + 2, ?_⟩
  rw [(output_eq he _ _).1, law, hlaw]
  apply pairAt_ne hlimits
  · rw [controlAt_losing]
    exact roundAway_le (by linarith)
  · rw [controlAt_losing]
    exact le_roundAway (by exact_mod_cast hover)

/-- A new controller follows the law in every run up to the call after which
the integral first has a fraction, that call included. It follows the law in
every run to the end exactly when its tuning gives no fraction, or when its
limits admit one value only. -/
theorem output_eq_law (K Ti Td T : ℚ) (setPoint uWorkPoint uMin uMax : ℤ) :
    (∀ y n, (new K Ti Td T setPoint uWorkPoint uMin uMax).IntegerIntegral y n →
      (new K Ti Td T setPoint uWorkPoint uMin uMax).output y n =
        (new K Ti Td T setPoint uWorkPoint uMin uMax).law y n) ∧
    ((∀ y n, (new K Ti Td T setPoint uWorkPoint uMin uMax).output y n =
        (new K Ti Td T setPoint uWorkPoint uMin uMax).law y n) ↔
      (∃ z : ℤ, K * T / (2 * Ti) = z) ∨ uMax ≤ uMin) := by
  have he : (new K Ti Td T setPoint uWorkPoint uMin uMax).ePast = 0 := rfl
  have hi : (new K Ti Td T setPoint uWorkPoint uMin uMax).uiPast = 0 := rfl
  refine ⟨fun y n => output_of_integerIntegral he hi, ?_, ?_⟩
  · intro hall
    by_contra! hfails
    obtain ⟨hgain, hlimits⟩ := hfails
    obtain ⟨y, n, hne⟩ := exists_output_ne_law he hi hgain hlimits
    exact hne (hall y n)
  · rintro (⟨z, hz⟩ | hlimits) y n
    · have hgain : (new K Ti Td T setPoint uWorkPoint uMin uMax).gain = z := hz
      exact output_of_integerIntegral he hi (integerIntegral_of_gain hgain y n)
    · rw [(output_eq he y n).1]
      exact pairAt_of_limits hlimits n _ _

theorem output_eq_law_first_two :
    let self := new 1 1 0 1 2 0 (-10) 10
    self.IntegerIntegral (fun _ => 0) 1 ∧ self.output (fun _ => 0) 1 = self.law (fun _ => 0) 1 := by
  have hint : (new 1 1 0 1 2 0 (-10) 10).IntegerIntegral (fun _ => 0) 1 := by
    intro m hm
    rcases Nat.le_one_iff_eq_zero_or_eq_one.mp hm with rfl | rfl
    · exact ⟨0, by decide +kernel⟩
    · exact ⟨1, by decide +kernel⟩
  exact ⟨hint, (output_eq_law 1 1 0 1 2 0 (-10) 10).1 _ _ hint⟩

/-- After a constant error of one the law integrates to one half, which is
lost: the second call gives 2 where the law gives 3. -/
theorem output_ne_law :
    let self := new 1 1 0 1 1 0 (-10) 10
    self.output (fun _ => 0) 1 = (-2, 2) ∧ self.law (fun _ => 0) 1 = (-3, 3) := by
  decide +kernel

end LineFollower.Pid
