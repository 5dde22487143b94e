import LineFollower.Host
import LineFollower.Pid.Law

/-!
# When `int` overflows

`checkedControl` is a call that has no result when one of its `int`s does not
fit: the error, its sum with the past one and the difference of the two,
`round(up + ui + ud)`, the new `uiPast`, or one of the pair. The limits come
after both conversions and never touch the integral, so a constant error that is
worth a unit of integral at every call overflows in the end. A tuning whose
integral stays below one unit stores none, and then each call sees two errors
only: it is enough to look at the largest and the smallest ones
(`checkedOutput_iff`).
-/

namespace LineFollower.Pid

open Lib

/-- The value of an `int`, when there is one. -/
def toInt (n : ℤ) : Option ℤ := if FitsInt n then some n else none

def checkedControl (self : Pid) (processOutput : ℤ) : Option ((ℤ × ℤ) × Pid) := do
  let e ← toInt (self.setPoint - processOutput)
  let up : ℚ := self.K * e
  let sum ← toInt (self.ePast + e)
  let ui : ℚ := self.uiPast + self.K / self.Ti * self.T * (sum : ℚ) / 2
  let step ← toInt (e - self.ePast)
  let ud : ℚ := self.K * self.Td * (step : ℚ) / self.T
  let u ← toInt (roundAway (up + ui + ud))
  let uiPast ← toInt (trunc ui)
  let u := self.limit u
  let left ← toInt (self.uWorkPoint - u)
  let right ← toInt (self.uWorkPoint + u)
  pure ((left, right), { self with ePast := e, uiPast })

def checkedAfter (self : Pid) (y : ℕ → ℤ) : ℕ → Option Pid
  | 0 => some self
  | n + 1 => do
    let s ← self.checkedAfter y n
    let r ← s.checkedControl (y (n + 1))
    pure r.2

def checkedOutput (self : Pid) (y : ℕ → ℤ) (n : ℕ) : Option (ℤ × ℤ) := do
  let s ← self.checkedAfter y n
  let r ← s.checkedControl (y (n + 1))
  pure r.1

-- ---------------------------------------------------------------------------
-- Calls that fit
-- ---------------------------------------------------------------------------

/-- The control value fits when it is rounded, and the pair does when it is
limited. -/
structure Answers (pid : Pid) (control : ℚ) : Prop where
  rounded : FitsInt (roundAway control)
  left : FitsInt (pid.uWorkPoint - pid.limit (roundAway control))
  right : FitsInt (pid.uWorkPoint + pid.limit (roundAway control))

/-- Every `int` of the call fits. -/
structure Fits (pid : Pid) (x : ℤ) : Prop where
  error : FitsInt (pid.setPoint - x)
  sum : FitsInt (pid.ePast + (pid.setPoint - x))
  step : FitsInt (pid.setPoint - x - pid.ePast)
  answers : pid.Answers (pid.control x)
  stored : FitsInt (trunc (pid.integral x))

theorem toInt_eq_some {n m : ℤ} : toInt n = some m ↔ FitsInt n ∧ n = m := by
  simp [toInt]

theorem checkedControl_eq_some {self : Pid} {x : ℤ} {r : (ℤ × ℤ) × Pid} :
    self.checkedControl x = some r ↔ self.Fits x ∧ r = self.calculateControl x := by
  have hui : (self.uiPast : ℚ) + self.K / self.Ti * self.T *
      ((self.ePast + (self.setPoint - x) : ℤ) : ℚ) / 2 = self.integral x := by
    rw [integral, gain]
    ring
  have hcontrol : self.K * (self.setPoint - x : ℤ) + self.integral x +
      self.K * self.Td * ((self.setPoint - x - self.ePast : ℤ) : ℚ) / self.T = self.control x := by
    rw [control, Int.cast_sub (self.setPoint - x)]
  rw [calculateControl_converted]
  simp only [checkedControl, Option.bind_eq_bind, Option.pure_def, Option.bind_eq_some_iff,
    toInt_eq_some, Option.some.injEq]
  constructor
  · rintro ⟨_, ⟨herror, rfl⟩, _, ⟨hsum, rfl⟩, _, ⟨hstep, rfl⟩, _, ⟨hround, rfl⟩, _, ⟨hstored, rfl⟩,
      _, ⟨hleft, rfl⟩, _, ⟨hright, rfl⟩, rfl⟩
    rw [hui, hcontrol] at hround hleft hright
    rw [hui] at hstored
    exact ⟨⟨herror, hsum, hstep, ⟨hround, hleft, hright⟩, hstored⟩, by rw [hui, hcontrol]⟩
  · rintro ⟨⟨herror, hsum, hstep, ⟨hround, hleft, hright⟩, hstored⟩, rfl⟩
    refine ⟨_, ⟨herror, rfl⟩, _, ⟨hsum, rfl⟩, _, ⟨hstep, rfl⟩, _, ⟨?_, rfl⟩, _, ⟨?_, rfl⟩,
      _, ⟨?_, rfl⟩, _, ⟨?_, rfl⟩, by rw [hui, hcontrol]⟩
    · rwa [hui, hcontrol]
    · rwa [hui]
    · rwa [hui, hcontrol]
    · rwa [hui, hcontrol]

theorem checkedAfter_eq_some {self s : Pid} {y : ℕ → ℤ} {n : ℕ} :
    self.checkedAfter y n = some s ↔
      (∀ i < n, (self.after y i).Fits (y (i + 1))) ∧ s = self.after y n := by
  induction n generalizing s with
  | zero => simp [checkedAfter, after, eq_comm]
  | succ n ih =>
    simp only [checkedAfter, Option.bind_eq_bind, Option.pure_def, Option.bind_eq_some_iff, ih,
      checkedControl_eq_some, Option.some.injEq]
    constructor
    · rintro ⟨_, ⟨hbefore, rfl⟩, _, ⟨hlast, rfl⟩, rfl⟩
      refine ⟨fun i hi => ?_, rfl⟩
      rcases Nat.lt_succ_iff_lt_or_eq.mp hi with hi | rfl
      · exact hbefore i hi
      · exact hlast
    · rintro ⟨hall, rfl⟩
      exact ⟨_, ⟨fun i hi => hall i (Nat.lt_succ_of_lt hi), rfl⟩, _,
        ⟨hall n (Nat.lt_succ_self n), rfl⟩, rfl⟩

theorem checkedOutput_eq_some {self : Pid} {y : ℕ → ℤ} {n : ℕ} {o : ℤ × ℤ} :
    self.checkedOutput y n = some o ↔
      (∀ i ≤ n, (self.after y i).Fits (y (i + 1))) ∧ o = self.output y n := by
  simp only [checkedOutput, Option.bind_eq_bind, Option.pure_def, Option.bind_eq_some_iff,
    checkedAfter_eq_some, checkedControl_eq_some, Option.some.injEq]
  constructor
  · rintro ⟨_, ⟨hbefore, rfl⟩, _, ⟨hlast, rfl⟩, rfl⟩
    refine ⟨fun i hi => ?_, rfl⟩
    rcases Nat.le_iff_lt_or_eq.mp hi with hi | rfl
    · exact hbefore i hi
    · exact hlast
  · rintro ⟨hall, rfl⟩
    exact ⟨_, ⟨fun i hi => hall i hi.le, rfl⟩, _, ⟨hall n le_rfl, rfl⟩, rfl⟩

theorem output_limits (self : Pid) (y : ℕ → ℤ) (n : ℕ) :
    ∃ u, self.output y n = (self.uWorkPoint - u, self.uWorkPoint + u) ∧
      self.uMin ≤ u ∧ u ≤ max self.uMin self.uMax := by
  obtain ⟨e, ui, hn⟩ := self.after_frame y n
  rw [output, hn, calculateControl_converted, limit_eq]
  exact ⟨_, rfl, le_max_left _ _, max_le_max_left _ (min_le_left _ _)⟩

-- ---------------------------------------------------------------------------
-- A growing integral
-- ---------------------------------------------------------------------------

theorem trunc_mul_sign {σ : ℤ} (hσ : σ = 1 ∨ σ = -1) (q : ℚ) : trunc (q * σ) = trunc q * σ := by
  rcases hσ with rfl | rfl
  · simp
  · simp [trunc_neg]

section
variable {self : Pid} {e σ : ℤ}

/-- A constant error that is worth a unit of integral at every call, from the
second one on, adds a unit to the stored integral. -/
theorem growing (he : self.ePast = 0) (hi : self.uiPast = 0) (hσ : σ = 1 ∨ σ = -1)
    (hunit : 1 ≤ self.gain * (2 * e) * σ) (n : ℕ) :
    n ≤ (self.after (fun _ => self.setPoint - e) (n + 1)).uiPast * σ := by
  have herror (i : ℕ) : self.errorAt (fun _ => self.setPoint - e) (i + 1) = e :=
    sub_sub_cancel self.setPoint e
  induction n with
  | zero =>
    have hfirst : self.storedAt (fun _ => self.setPoint - e) 0 * σ = self.gain * e * σ := by
      rw [storedAt, herror, after, hi, errorAt]
      push_cast
      ring
    have hpos : (((0 : ℤ) : ℚ)) ≤ self.storedAt (fun _ => self.setPoint - e) 0 * σ := by
      rw [hfirst, Int.cast_zero]
      linarith
    have hstored := trunc_mono hpos
    rwa [trunc_intCast, trunc_mul_sign hσ, ← (output_eq he _ 0).2] at hstored
  | succ n ih =>
    have hnext : self.storedAt (fun _ => self.setPoint - e) (n + 1) * σ =
        (self.after (fun _ => self.setPoint - e) (n + 1)).uiPast * σ + self.gain * (2 * e) * σ := by
      rw [storedAt, herror, herror]
      push_cast
      ring
    have ih' : (n : ℚ) ≤ (self.after (fun _ => self.setPoint - e) (n + 1)).uiPast * σ := by
      exact_mod_cast ih
    have hpos : ((n + 1 : ℤ) : ℚ) ≤ self.storedAt (fun _ => self.setPoint - e) (n + 1) * σ := by
      rw [hnext]
      push_cast
      linarith
    have hstored := trunc_mono hpos
    rw [trunc_intCast, trunc_mul_sign hσ, ← (output_eq he _ (n + 1)).2] at hstored
    exact_mod_cast hstored

theorem growing_overflows (he : self.ePast = 0) (hi : self.uiPast = 0) (hσ : σ = 1 ∨ σ = -1)
    (hunit : 1 ≤ self.gain * (2 * e) * σ) {n : ℕ} (hn : 2 ^ 31 < n) :
    self.checkedOutput (fun _ => self.setPoint - e) n = none := by
  rw [Option.eq_none_iff_forall_ne_some]
  intro o ho
  have hall := (checkedOutput_eq_some.mp ho).1
  have hfits : FitsInt (self.after (fun _ => self.setPoint - e) (n + 1)).uiPast := by
    have hlast := (hall n le_rfl).stored
    rw [after, calculateControl_converted]
    exact hlast
  have hgrown := growing he hi hσ hunit n
  obtain ⟨hl, hu⟩ := hfits
  rcases hσ with rfl | rfl <;> omega

end

-- ---------------------------------------------------------------------------
-- A controller that stores nothing
-- ---------------------------------------------------------------------------

variable {self : Pid}

/-- The control value for the last two errors, with no integral stored. -/
def memoryless (self : Pid) (ePast e : ℤ) : ℚ :=
  self.K * e + self.gain * (ePast + e) + self.K * self.Td * (e - ePast) / self.T

theorem control_of_uiPast {s : Pid} (h : s.uiPast = 0) (x : ℤ) :
    s.control x = s.memoryless s.ePast (s.setPoint - x) := by
  rw [control, integral, h, memoryless]
  push_cast
  ring

theorem Answers.between {p q r : ℚ} (hp : self.Answers p) (hr : self.Answers r) (hpq : p ≤ q)
    (hqr : q ≤ r) : self.Answers q := by
  have hlow := roundAway_mono hpq
  have hhigh := roundAway_mono hqr
  have hlimit {m n : ℤ} (h : m ≤ n) : self.limit m ≤ self.limit n := by
    rw [limit_eq, limit_eq]
    exact max_le_max_left _ (min_le_min_left _ h)
  have hlow' := hlimit hlow
  have hhigh' := hlimit hhigh
  obtain ⟨⟨hp₁, -⟩, ⟨-, hp₂⟩, hp₃, -⟩ := hp
  obtain ⟨⟨-, hr₁⟩, ⟨hr₂, -⟩, -, hr₃⟩ := hr
  exact ⟨⟨by omega, by omega⟩, ⟨by omega, by omega⟩, ⟨by omega, by omega⟩⟩

theorem Answers.affine {a b lo hi x : ℚ} (hlo : self.Answers (a * lo + b))
    (hhi : self.Answers (a * hi + b)) (hl : lo ≤ x) (hu : x ≤ hi) : self.Answers (a * x + b) := by
  rcases le_total 0 a with ha | ha
  · have hleft := mul_le_mul_of_nonneg_left hl ha
    have hright := mul_le_mul_of_nonneg_left hu ha
    exact hlo.between hhi (by linarith) (by linarith)
  · have hleft := mul_le_mul_of_nonpos_left hl ha
    have hright := mul_le_mul_of_nonpos_left hu ha
    exact hhi.between hlo (by linarith) (by linarith)

def FitsAt (self : Pid) (ePast e : ℤ) : Prop := self.Answers (self.memoryless ePast e)

section
variable {lo hi ePast e : ℤ}

theorem FitsAt.between_current (hlo : self.FitsAt ePast lo) (hhi : self.FitsAt ePast hi)
    (hl : lo ≤ e) (hu : e ≤ hi) : self.FitsAt ePast e := by
  have haffine (e : ℤ) : self.memoryless ePast e =
      (self.K + self.gain + self.K * self.Td / self.T) * e +
        (self.gain - self.K * self.Td / self.T) * ePast := by
    rw [memoryless]
    ring
  rw [FitsAt, haffine] at hlo hhi ⊢
  exact hlo.affine hhi (by exact_mod_cast hl) (by exact_mod_cast hu)

theorem FitsAt.between_past (hlo : self.FitsAt lo e) (hhi : self.FitsAt hi e)
    (hl : lo ≤ ePast) (hu : ePast ≤ hi) : self.FitsAt ePast e := by
  have haffine (ePast : ℤ) : self.memoryless ePast e =
      (self.gain - self.K * self.Td / self.T) * ePast +
        (self.K + self.gain + self.K * self.Td / self.T) * e := by
    rw [memoryless]
    ring
  rw [FitsAt, haffine] at hlo hhi ⊢
  exact hlo.affine hhi (by exact_mod_cast hl) (by exact_mod_cast hu)

end

-- ---------------------------------------------------------------------------
-- Which tunings never overflow
-- ---------------------------------------------------------------------------

def maxError (self : Pid) : ℚ := max |((self.setPoint - 65535 : ℤ) : ℚ)| |(self.setPoint : ℚ)|

def InRange (y : ℕ → ℤ) : Prop := ∀ i, 0 ≤ y i ∧ y i ≤ 65535

def SumsFit (self : Pid) : Prop := -2 ^ 30 + 65535 ≤ self.setPoint ∧ self.setPoint < 2 ^ 30

section
variable {y : ℕ → ℤ}

theorem errorAt_between (self : Pid) (hy : InRange y) (i : ℕ) :
    self.setPoint - 65535 ≤ self.errorAt y (i + 1) ∧ self.errorAt y (i + 1) ≤ self.setPoint := by
  obtain ⟨hl, hu⟩ := hy (i + 1)
  rw [errorAt]
  omega

theorem abs_errorAt_le (self : Pid) (hy : InRange y) (i : ℕ) :
    |(self.errorAt y i : ℚ)| ≤ self.maxError := by
  cases i with
  | zero =>
    rw [errorAt, Int.cast_zero, abs_zero]
    exact le_max_of_le_left (abs_nonneg _)
  | succ i =>
    obtain ⟨hl, hu⟩ := self.errorAt_between hy i
    exact abs_le_max_abs_abs (by exact_mod_cast hl) (by exact_mod_cast hu)

theorem abs_step_lt (hsmall : |self.K * self.T / self.Ti| * self.maxError < 1)
    (hy : InRange y) (i : ℕ) :
    |self.gain * (self.errorAt y i + self.errorAt y (i + 1) : ℤ)| < 1 := by
  have hgain : self.K * self.T / self.Ti = self.gain * 2 := by
    rw [gain]
    ring
  have hsum : |((self.errorAt y i + self.errorAt y (i + 1) : ℤ) : ℚ)| ≤ 2 * self.maxError := by
    rw [Int.cast_add]
    linarith [abs_add_le (self.errorAt y i : ℚ) (self.errorAt y (i + 1)),
      self.abs_errorAt_le hy i, self.abs_errorAt_le hy (i + 1)]
  rw [abs_mul]
  calc |self.gain| * |((self.errorAt y i + self.errorAt y (i + 1) : ℤ) : ℚ)|
      ≤ |self.gain| * (2 * self.maxError) := mul_le_mul_of_nonneg_left hsum (abs_nonneg _)
    _ = |self.K * self.T / self.Ti| * self.maxError := by rw [hgain, abs_mul, abs_two]; ring
    _ < 1 := hsmall

theorem SumsFit.errorAt (hset : self.SumsFit) (hy : InRange y) (i : ℕ) :
    -2 ^ 30 ≤ self.errorAt y i ∧ self.errorAt y i < 2 ^ 30 := by
  obtain ⟨hl, hu⟩ := hset
  cases i with
  | zero =>
    rw [Pid.errorAt]
    decide
  | succ i =>
    have hbetween := self.errorAt_between hy i
    omega

theorem fits_iff (he : self.ePast = 0) (hi : self.uiPast = 0) (hset : self.SumsFit)
    (hsmall : |self.K * self.T / self.Ti| * self.maxError < 1) (hy : InRange y) (i : ℕ) :
    (self.after y i).Fits (y (i + 1)) ↔
      self.FitsAt (self.errorAt y i) (self.errorAt y (i + 1)) := by
  have hstored := after_uiPast_zero he hi (n := i) fun j _ => abs_step_lt hsmall hy j
  have hpast := self.after_ePast he y i
  have hstep := abs_step_lt hsmall hy i
  obtain ⟨hl, hu⟩ := hset.errorAt hy i
  obtain ⟨hl', hu'⟩ : -2 ^ 30 ≤ self.setPoint - y (i + 1) ∧ self.setPoint - y (i + 1) < 2 ^ 30 :=
    hset.errorAt hy (i + 1)
  obtain ⟨e, ui, hn⟩ := self.after_frame y i
  rw [hn] at hstored hpast ⊢
  subst hstored hpast
  have hzero : trunc (integral { self with ePast := self.errorAt y i, uiPast := 0 } (y (i + 1))) =
      0 := by
    rw [integral, Int.cast_zero, zero_add]
    exact trunc_eq_zero hstep
  have hcontrol := control_of_uiPast (s := { self with ePast := self.errorAt y i, uiPast := 0 }) rfl
    (y (i + 1))
  constructor
  · rintro ⟨-, -, -, hanswers, -⟩
    rw [hcontrol] at hanswers
    exact ⟨hanswers.rounded, hanswers.left, hanswers.right⟩
  · rintro ⟨hround, hleft, hright⟩
    have herror : FitsInt (self.setPoint - y (i + 1)) := ⟨by omega, by omega⟩
    have hsum : FitsInt (self.errorAt y i + (self.setPoint - y (i + 1))) := ⟨by omega, by omega⟩
    have hdiff : FitsInt (self.setPoint - y (i + 1) - self.errorAt y i) := ⟨by omega, by omega⟩
    refine ⟨herror, hsum, hdiff, ?_, ?_⟩
    · rw [hcontrol]
      exact ⟨hround, hleft, hright⟩
    · rw [hzero]
      decide

theorem sumsFit_of_fits (he : self.ePast = 0)
    (hall : ∀ y, InRange y → ∀ n i, i ≤ n → (self.after y i).Fits (y (i + 1))) : self.SumsFit := by
  have hsum (y₀ : ℤ) (hy₀ : 0 ≤ y₀ ∧ y₀ ≤ 65535) :
      FitsInt (self.setPoint - y₀ + (self.setPoint - y₀)) := by
    have hpast := self.after_ePast he (fun _ => y₀) 1
    obtain ⟨e, ui, hn⟩ := self.after_frame (fun _ => y₀) 1
    have hfits := (hall (fun _ => y₀) (fun _ => hy₀) 1 1 le_rfl).sum
    rw [hn] at hpast hfits
    subst hpast
    exact hfits
  obtain ⟨-, hu⟩ := hsum 0 ⟨le_rfl, by decide⟩
  obtain ⟨hl, -⟩ := hsum 65535 ⟨by decide, le_rfl⟩
  exact ⟨by omega, by omega⟩

/-- A tuning that never overflows has a small integral: the error of the largest
magnitude, kept up, would overflow. -/
theorem small_of_defined (he : self.ePast = 0) (hi : self.uiPast = 0)
    (hall : ∀ y, InRange y → ∀ n, self.checkedOutput y n ≠ none) :
    |self.K * self.T / self.Ti| * self.maxError < 1 := by
  by_contra! hlarge
  obtain ⟨e, hrange, habs⟩ : ∃ e : ℤ, (0 ≤ self.setPoint - e ∧ self.setPoint - e ≤ 65535) ∧
      |(e : ℚ)| = self.maxError := by
    rcases max_choice |((self.setPoint - 65535 : ℤ) : ℚ)| |(self.setPoint : ℚ)| with h | h
    · exact ⟨self.setPoint - 65535, by omega, h.symm⟩
    · exact ⟨self.setPoint, by omega, h.symm⟩
  have hstep : 1 ≤ |self.gain * (2 * e)| := by
    have hdouble : self.gain * (2 * e) = self.K * self.T / self.Ti * e := by
      rw [gain]
      ring
    rwa [hdouble, abs_mul, habs]
  obtain ⟨σ, hσ, hunit⟩ : ∃ σ : ℤ, (σ = 1 ∨ σ = -1) ∧ 1 ≤ self.gain * (2 * e) * σ := by
    rcases abs_choice (self.gain * (2 * e)) with h | h
    · exact ⟨1, .inl rfl, by rw [h] at hstep; simpa using hstep⟩
    · exact ⟨-1, .inr rfl, by rw [h] at hstep; simpa using hstep⟩
  exact hall (fun _ => self.setPoint - e) (fun _ => hrange) (2 ^ 31 + 1)
    (growing_overflows he hi hσ hunit (Nat.lt_succ_self _))

theorem fitsAt_of_fits (he : self.ePast = 0) (hi : self.uiPast = 0)
    (hall : ∀ y, InRange y → ∀ n i, i ≤ n → (self.after y i).Fits (y (i + 1)))
    (hsmall : |self.K * self.T / self.Ti| * self.maxError < 1) {e ePast : ℤ}
    (hrange : self.setPoint - 65535 ≤ e ∧ e ≤ self.setPoint)
    (hpast : ePast = 0 ∨ self.setPoint - 65535 ≤ ePast ∧ ePast ≤ self.setPoint) :
    self.FitsAt ePast e := by
  have hset := sumsFit_of_fits he hall
  rcases hpast with rfl | hpast
  · have hy : InRange fun _ => self.setPoint - e := by
      intro i
      simp only
      omega
    have hfits := (fits_iff he hi hset hsmall hy 0).mp (hall _ hy 0 0 le_rfl)
    rwa [errorAt, errorAt, sub_sub_cancel] at hfits
  · have hy : InRange fun i => if i = 1 then self.setPoint - ePast else self.setPoint - e := by
      intro i
      simp only
      split <;> omega
    have hfits := (fits_iff he hi hset hsmall hy 1).mp (hall _ hy 1 1 le_rfl)
    simpa [errorAt] using hfits

end

/-- In every run with outputs between 0 and 65535 every `int` fits, and every
result is within the limits, exactly for the tunings whose set point can be
doubled, of which the largest error, kept up, is worth less than a unit of
integral, and of which no two extreme errors overflow at once. -/
theorem checkedOutput_iff (K Ti Td T : ℚ) (setPoint uWorkPoint uMin uMax : ℤ) :
    (∀ y, InRange y → ∀ n, ∃ u,
      (new K Ti Td T setPoint uWorkPoint uMin uMax).checkedOutput y n =
        some (uWorkPoint - u, uWorkPoint + u) ∧ uMin ≤ u ∧ u ≤ max uMin uMax) ↔
    (-2 ^ 30 + 65535 ≤ setPoint ∧ setPoint < 2 ^ 30) ∧
    |K * T / Ti| * max |((setPoint - 65535 : ℤ) : ℚ)| |(setPoint : ℚ)| < 1 ∧
      ∀ e ∈ [setPoint - 65535, setPoint], ∀ ePast ∈ [0, setPoint - 65535, setPoint],
        let u := roundAway (K * e + K * T / (2 * Ti) * (ePast + e) + K * Td * (e - ePast) / T)
        FitsInt u ∧ FitsInt (uWorkPoint - max uMin (min uMax u)) ∧
          FitsInt (uWorkPoint + max uMin (min uMax u)) := by
  let self := new K Ti Td T setPoint uWorkPoint uMin uMax
  have he : self.ePast = 0 := rfl
  have hi : self.uiPast = 0 := rfl
  have hanswers (control : ℚ) : self.Answers control ↔ FitsInt (roundAway control) ∧
      FitsInt (uWorkPoint - max uMin (min uMax (roundAway control))) ∧
      FitsInt (uWorkPoint + max uMin (min uMax (roundAway control))) := by
    have hlimit : max uMin (min uMax (roundAway control)) = self.limit (roundAway control) :=
      (self.limit_eq _).symm
    rw [hlimit]
    constructor
    · rintro ⟨hround, hleft, hright⟩
      exact ⟨hround, hleft, hright⟩
    · rintro ⟨hround, hleft, hright⟩
      exact ⟨hround, hleft, hright⟩
  constructor
  · intro hruns
    have hall (y) (hy : InRange y) (n i) (hin : i ≤ n) : (self.after y i).Fits (y (i + 1)) := by
      obtain ⟨u, hsome, -⟩ := hruns y hy n
      exact (checkedOutput_eq_some.mp hsome).1 i hin
    have hsmall := small_of_defined he hi fun y hy n hnone => by
      obtain ⟨u, hsome, -⟩ := hruns y hy n
      cases hnone.symm.trans hsome
    refine ⟨sumsFit_of_fits he hall, hsmall, fun e hemem ePast hpmem => ?_⟩
    have hrange : setPoint - 65535 ≤ e ∧ e ≤ setPoint := by
      simp at hemem
      omega
    have hpast : ePast = 0 ∨ setPoint - 65535 ≤ ePast ∧ ePast ≤ setPoint := by
      simp at hpmem
      omega
    exact (hanswers _).mp (fitsAt_of_fits he hi hall hsmall hrange hpast)
  · rintro ⟨hset, hsmall, hcorners⟩ y hy n
    have hfits (ePast e : ℤ) (hp : ePast ∈ [0, setPoint - 65535, setPoint])
        (hl : setPoint - 65535 ≤ e) (hu : e ≤ setPoint) : self.FitsAt ePast e := by
      have hleft : self.FitsAt ePast (setPoint - 65535) :=
        (hanswers _).mpr (hcorners _ (by simp) ePast hp)
      have hright : self.FitsAt ePast setPoint := (hanswers _).mpr (hcorners _ (by simp) ePast hp)
      exact hleft.between_current hright hl hu
    have hall (i : ℕ) : (self.after y i).Fits (y (i + 1)) := by
      rw [fits_iff he hi hset hsmall hy]
      obtain ⟨hl, hu⟩ := self.errorAt_between hy i
      cases i with
      | zero => exact hfits 0 _ (by simp) hl hu
      | succ i =>
        obtain ⟨hl', hu'⟩ := self.errorAt_between hy i
        exact FitsAt.between_past (hfits (setPoint - 65535) _ (by simp) hl hu)
          (hfits setPoint _ (by simp) hl hu) hl' hu'
    obtain ⟨u, hout, hlimits⟩ := self.output_limits y n
    exact ⟨u, checkedOutput_eq_some.mpr ⟨fun i _ => hall i, hout.symm⟩, hlimits⟩

/-- One unit of error at every call is half a unit of integral in the first
call and one in each other. -/
theorem checkedOutput_constant_error :
    InRange (fun _ => 0) ∧
      (new 1 1 0 1 1 20 0 40).checkedOutput (fun _ => 0) (2 ^ 31 + 1) = none := by
  refine ⟨fun _ => ⟨le_rfl, by norm_num⟩, ?_⟩
  have hgain : (new 1 1 0 1 1 20 0 40).gain = 1 / 2 := by norm_num [gain, new]
  apply growing_overflows (e := 1) rfl rfl (.inl rfl)
  · rw [hgain]
    norm_num
  · exact Nat.lt_succ_self _

end LineFollower.Pid
