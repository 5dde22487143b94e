import LineFollower.Pid.Law

/-!
# Steering

The block of `main` that turns the line's abscissa into the two speeds of
`setSpeed`. Forward is the negative direction. A controller is built for every
frame, with the frame's centre as set point and the limits 0 and 40.

With 0 as the lower limit the control value is never negative, so the wheels
differ only for a line left of the centre (`steers_iff`).
-/

namespace LineFollower

open Lib

/-- `round(contourFinder.getSourceFrame().cols/2)`, an integer division. -/
def center (cols : ℤ) : ℤ := roundAway ((cols.tdiv 2 : ℤ) : ℚ)

def mainPid (center : ℤ) : Pid := .new 1 10000 0 (1 / 10) center 20 0 40

def speeds (p : ℤ × ℤ) : ℤ × ℤ := (-p.1, -p.2)

def commandedSpeeds (cols x : ℤ) : ℤ × ℤ :=
  speeds ((mainPid (center cols)).calculateControl x).1

/-- The order of the two speeds tells the side of the line. -/
def SteersTowards (center x : ℤ) (lr : ℤ × ℤ) : Prop :=
  (lr.2 < lr.1 ↔ x < center) ∧ (lr.2 = lr.1 ↔ x = center) ∧ (lr.2 > lr.1 ↔ x > center)

/-- Mirroring the line in the centre swaps the speeds, where the mirror image
is in the frame. -/
def MirrorSwaps (cols x : ℤ) : Prop :=
  0 ≤ 2 * center cols - x → 2 * center cols - x < cols →
    commandedSpeeds cols (2 * center cols - x) = (commandedSpeeds cols x).swap

theorem center_eq (cols : ℤ) : center cols = cols.tdiv 2 := roundAway_intCast _

-- ---------------------------------------------------------------------------
-- One frame
-- ---------------------------------------------------------------------------

theorem mainPid_gain (c : ℤ) : (mainPid c).gain = 1 / 200000 := by
  norm_num [Pid.gain, mainPid, Pid.new]

theorem mainPid_first (c x : ℤ) :
    ((mainPid c).calculateControl x).1 =
      let u := max 0 (min 40 (roundAway ((c - x : ℤ) * (1 + 1 / 200000) : ℚ)))
      (20 - u, 20 + u) := by
  have harg : (1 : ℚ) * (c - x : ℤ) + (((0 : ℤ) : ℚ) + (mainPid c).gain * (0 + (c - x) : ℤ)) +
      1 * 0 * ((c - x : ℤ) - (0 : ℤ)) / (1 / 10) = (c - x : ℤ) * (1 + 1 / 200000) := by
    rw [mainPid_gain]
    push_cast
    ring
  simp only [Pid.calculateControl_eq, mainPid, Pid.new] at harg ⊢
  rw [harg]

theorem commandedSpeeds_cases (cols x : ℤ) :
    ∃ u, commandedSpeeds cols x = (u - 20, -u - 20) ∧
      (x < center cols → 0 < u) ∧ (center cols ≤ x → u = 0) := by
  refine ⟨max 0 (min 40 (roundAway ((center cols - x : ℤ) * (1 + 1 / 200000) : ℚ))), ?_, ?_, ?_⟩
  · simp only [commandedSpeeds, speeds, mainPid_first]
    refine Prod.ext ?_ ?_ <;> simp only <;> ring
  · intro hx
    have he : (1 : ℚ) ≤ ((center cols - x : ℤ) : ℚ) := by exact_mod_cast Int.sub_pos_of_lt hx
    have hone : 1 ≤ roundAway ((center cols - x : ℤ) * (1 + 1 / 200000) : ℚ) :=
      le_roundAway (by push_cast at he ⊢; linarith)
    exact lt_max_of_lt_right (lt_min (by norm_num) (Int.lt_of_add_one_le hone))
  · intro hx
    have he : ((center cols - x : ℤ) : ℚ) ≤ 0 := by exact_mod_cast Int.sub_nonpos_of_le hx
    have hzero : roundAway ((center cols - x : ℤ) * (1 + 1 / 200000) : ℚ) ≤ 0 :=
      roundAway_le (by push_cast at he ⊢; linarith)
    exact max_eq_left ((min_le_right _ _).trans hzero)

theorem steersTowards_control {c x u : ℤ} :
    SteersTowards c x (u - 20, -u - 20) ↔
      (0 < u ↔ x < c) ∧ (u = 0 ↔ x = c) ∧ (u < 0 ↔ c < x) := by
  have hlt : -u - 20 < u - 20 ↔ 0 < u := by omega
  have heq : -u - 20 = u - 20 ↔ u = 0 := by omega
  have hgt : -u - 20 > u - 20 ↔ u < 0 := by omega
  simp only [SteersTowards, hlt, heq, hgt, gt_iff_lt]

theorem steersTowards_iff {cols x : ℤ} :
    SteersTowards (center cols) x (commandedSpeeds cols x) ↔ x ≤ center cols := by
  obtain ⟨u, hu, hleft, hright⟩ := commandedSpeeds_cases cols x
  rw [hu, steersTowards_control]
  constructor
  · rintro ⟨-, -, hfar⟩
    by_contra hx
    have hgt := not_le.mp hx
    exact (hfar.mpr hgt).ne (hright hgt.le)
  · intro hx
    rcases hx.lt_or_eq with hlt | heq
    · have hpos := hleft hlt
      exact ⟨iff_of_true hpos hlt, iff_of_false hpos.ne' hlt.ne,
        iff_of_false hpos.not_gt hlt.not_gt⟩
    · have hzero := hright heq.ge
      exact ⟨iff_of_false hzero.not_gt heq.not_lt, iff_of_true hzero heq,
        iff_of_false hzero.not_lt heq.not_gt⟩

theorem mirrorSwaps_iff {cols x : ℤ} (hpos : 0 ≤ x) (hx : x < center cols) :
    MirrorSwaps cols x ↔ cols ≤ 2 * center cols - x := by
  obtain ⟨u, hu, hleft, -⟩ := commandedSpeeds_cases cols x
  obtain ⟨u', hu', -, hright⟩ := commandedSpeeds_cases cols (2 * center cols - x)
  have hne := hleft hx
  have hzero := hright (by omega)
  simp only [MirrorSwaps, hu, hu', hzero, Prod.swap_prod_mk, Prod.mk.injEq]
  constructor
  · intro h
    by_contra hin
    have hswap := h (by omega) (not_le.mp hin)
    omega
  · intro hout _ hin
    omega

-- ---------------------------------------------------------------------------
-- Which positions are steered as intended
-- ---------------------------------------------------------------------------

/-- The order of the speeds is right exactly up to the centre. With the
mirrored positions it is right only at the centre, and at the left edge of a
frame of even width, whose mirror image is outside. -/
theorem steers_iff (cols x : ℤ) (hx : 0 ≤ x) (hin : x < cols) :
    (SteersTowards (center cols) x (commandedSpeeds cols x) ↔ x ≤ center cols) ∧
      (SteersTowards (center cols) x (commandedSpeeds cols x) ∧ MirrorSwaps cols x ↔
        x = center cols ∨ x = 0 ∧ cols % 2 = 0) := by
  refine ⟨steersTowards_iff, ?_⟩
  rw [steersTowards_iff]
  have hc : center cols = cols / 2 := by
    rw [center_eq, Int.tdiv_eq_ediv_of_nonneg (by omega)]
  constructor
  · rintro ⟨hle, hswap⟩
    rcases hle.lt_or_eq with hlt | heq
    · have hout := (mirrorSwaps_iff hx hlt).mp hswap
      exact .inr (by omega)
    · exact .inl heq
  · rintro (heq | ⟨rfl, heven⟩)
    · refine ⟨heq.le, fun _ _ => ?_⟩
      obtain ⟨u, hu, -, hright⟩ := commandedSpeeds_cases cols (center cols)
      have hzero := hright le_rfl
      have hself : 2 * center cols - x = x := by omega
      rw [hself, heq, hu, hzero]
      rfl
    · have hlt : 0 < center cols := by omega
      exact ⟨hlt.le, (mirrorSwaps_iff le_rfl hlt).mpr (by omega)⟩

theorem steers_iff_middle :
    (SteersTowards (center 192) 96 (commandedSpeeds 192 96) ↔ (96 : ℤ) ≤ center 192) ∧
      (SteersTowards (center 192) 96 (commandedSpeeds 192 96) ∧ MirrorSwaps 192 96 ↔
        96 = center 192 ∨ (96 : ℤ) = 0 ∧ (192 : ℤ) % 2 = 0) :=
  steers_iff 192 96 (by decide) (by decide)

/-- A contour at the right edge of a frame of 192 columns has its centroid in
column 190: both wheels get the work point, and the mirror image gets (20, -60). -/
theorem steers_right_edge :
    commandedSpeeds 192 190 = (-20, -20) ∧ commandedSpeeds 192 2 = (20, -60) ∧
      ¬ SteersTowards (center 192) 190 (commandedSpeeds 192 190) ∧ ¬ MirrorSwaps 192 190 := by
  have hright : commandedSpeeds 192 190 = (-20, -20) := by decide +kernel
  have hleft : commandedSpeeds 192 2 = (20, -60) := by decide +kernel
  have hc : center 192 = 96 := by decide +kernel
  refine ⟨hright, hleft, ?_, ?_⟩
  · simp [SteersTowards, hright, hc]
  · simp [MirrorSwaps, hright, hleft, hc]

-- ---------------------------------------------------------------------------
-- One controller for all frames
-- ---------------------------------------------------------------------------

theorem mainPid_integral_small {c e : ℤ} (h : |e| < 100000) :
    |(mainPid c).gain * (e : ℚ)| < 1 / 2 := by
  have hq : |(e : ℚ)| < 100000 := by exact_mod_cast h
  rw [mainPid_gain, abs_mul, abs_of_pos (by norm_num : (0 : ℚ) < 1 / 200000)]
  linarith

/-- A call with nothing stored by the integral gives the limited error,
whatever the past error is. -/
theorem mainPid_output {c : ℤ} {x : ℕ → ℤ} {n : ℕ} (hstored : ((mainPid c).after x n).uiPast = 0)
    (h : |(mainPid c).errorAt x n + (mainPid c).errorAt x (n + 1)| < 100000) :
    (mainPid c).output x n =
      (20 - max 0 (min 40 (c - x (n + 1))), 20 + max 0 (min 40 (c - x (n + 1)))) := by
  have hround := roundAway_intCast_add (c - x (n + 1)) (mainPid_integral_small (c := c) h)
  have hcontrol : (mainPid c).controlAt x n ((mainPid c).storedAt x n) = c - x (n + 1) := by
    rw [Pid.storedAt, hstored, Int.cast_zero, zero_add, Pid.controlAt, ← hround]
    simp only [mainPid, Pid.new, Pid.errorAt, one_mul, mul_zero, zero_mul, zero_div, add_zero]
  rw [(Pid.output_eq rfl x n).1, Pid.pairAt, hcontrol]
  rfl

theorem errorAt_bound {cols : ℤ} {x : ℕ → ℤ} (hcols : cols ≤ 65535) {n : ℕ}
    (hx : ∀ i, 1 ≤ i → i ≤ n → 0 ≤ x i ∧ x i < cols) {i : ℕ} (hi : i ≤ n) :
    |(mainPid (center cols)).errorAt x i| ≤ 32767 := by
  cases i with
  | zero => simp [Pid.errorAt]
  | succ i =>
    obtain ⟨hlo, hhi⟩ := hx (i + 1) (Nat.succ_pos i) hi
    have hc : center cols = cols / 2 := by
      rw [center_eq, Int.tdiv_eq_ediv_of_nonneg (by omega)]
    have he : (mainPid (center cols)).errorAt x (i + 1) = cols / 2 - x (i + 1) := by
      rw [← hc]
      rfl
    rw [he, abs_le]
    omega

/-- The speeds of a controller built for each frame are those of one kept for
the whole run: the kept integral stays zero, and its fraction is too small to
move the rounded control value. -/
theorem rebuilt_eq_kept {cols : ℤ} (hcols : cols ≤ 65535) (x : ℕ → ℤ) (n : ℕ)
    (hx : ∀ i, 1 ≤ i → i ≤ n + 1 → 0 ≤ x i ∧ x i < cols) :
    commandedSpeeds cols (x (n + 1)) = speeds ((mainPid (center cols)).output x n) := by
  have hbound {i : ℕ} (hi : i ≤ n + 1) : |(mainPid (center cols)).errorAt x i| ≤ 32767 :=
    errorAt_bound hcols hx hi
  have hsum {i : ℕ} (hi : i ≤ n) : |(mainPid (center cols)).errorAt x i +
      (mainPid (center cols)).errorAt x (i + 1)| < 100000 := by
    have h₁ := hbound (Nat.le_succ_of_le hi)
    have h₂ : |(mainPid (center cols)).errorAt x (i + 1)| ≤ 32767 := hbound (Nat.succ_le_succ hi)
    exact (abs_add_le _ _).trans_lt (by omega)
  have hstored : ((mainPid (center cols)).after x n).uiPast = 0 := by
    apply Pid.after_uiPast_zero rfl rfl
    intro i hi
    exact (mainPid_integral_small (hsum hi.le)).trans (by norm_num)
  -- The controller of the frame is one whose first call is for it.
  have hnew : |(mainPid (center cols)).errorAt (fun _ => x (n + 1)) 0 +
      (mainPid (center cols)).errorAt (fun _ => x (n + 1)) (0 + 1)| < 100000 := by
    have hsame : (mainPid (center cols)).errorAt (fun _ => x (n + 1)) (0 + 1) =
        (mainPid (center cols)).errorAt x (n + 1) := rfl
    have h := hbound (le_refl (n + 1))
    rw [hsame]
    exact (abs_add_le _ _).trans_lt (by rw [Pid.errorAt, abs_zero]; omega)
  have hfresh : commandedSpeeds cols (x (n + 1)) =
      speeds ((mainPid (center cols)).output (fun _ => x (n + 1)) 0) := rfl
  rw [hfresh, mainPid_output rfl hnew, mainPid_output hstored (hsum le_rfl)]

theorem rebuilt_eq_kept_second :
    commandedSpeeds 192 ((fun _ => 50) (1 + 1)) =
      speeds ((mainPid (center 192)).output (fun _ => 50) 1) :=
  rebuilt_eq_kept (by decide) (fun _ => 50) 1 fun _ _ _ => by decide

end LineFollower
