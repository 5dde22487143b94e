import LineFollower.Lib.Lockstep
import LineFollower.Pid.Law

/-!
# Two controllers compared

Two runs of one tuning, call by call. Outputs that are nowhere larger make
every error and every stored integral at least as large, so a controller
without a derivative term moves both speeds the one way (`output_mono`).
Outputs mirrored at the set point make every error and every stored integral
the opposite one, so with symmetric limits the two speeds change places
(`output_mirror`). What each call loses must agree with this: the truncation
and the rounding keep the order, and both are odd.
-/

namespace LineFollower.Pid

open Lib

theorem after_eq_stateAfter (self : Pid) (y : ℕ → ℤ) (n : ℕ) :
    self.after y n = stateAfter calculateControl self y n := by
  induction n with
  | zero => rfl
  | succ n ih => rw [after, stateAfter, ih]

theorem output_eq_outputAt (self : Pid) (y : ℕ → ℤ) (n : ℕ) :
    self.output y n = outputAt calculateControl self y n := by
  rw [output, outputAt, after_eq_stateAfter]

theorem gain_nonneg {self : Pid} (hK : 0 ≤ self.K) (hTi : 0 < self.Ti) (hT : 0 < self.T) :
    0 ≤ self.gain :=
  div_nonneg (mul_nonneg hK hT.le) (mul_nonneg zero_le_two hTi.le)

-- ---------------------------------------------------------------------------
-- Larger outputs
-- ---------------------------------------------------------------------------

/-- Controllers of one tuning, without a derivative term, the second of which
has the smaller memory. -/
structure Above (s t : Pid) : Prop where
  next : ∃ e ui, t = { s with ePast := e, uiPast := ui }
  K : 0 ≤ s.K
  Td : s.Td = 0
  gain : 0 ≤ s.gain
  ePast : t.ePast ≤ s.ePast
  uiPast : t.uiPast ≤ s.uiPast

theorem Above.integral_le {s t : Pid} (h : Above s t) {x y : ℤ} (hxy : x ≤ y) :
    t.integral y ≤ s.integral x := by
  obtain ⟨⟨e, ui, rfl⟩, -, -, hgain, hePast, huiPast⟩ := h
  have hsum : e + (s.setPoint - y) ≤ s.ePast + (s.setPoint - x) :=
    Int.add_le_add hePast (Int.sub_le_sub_left hxy s.setPoint)
  have hstored : (ui : ℚ) ≤ s.uiPast := by exact_mod_cast huiPast
  exact add_le_add hstored (mul_le_mul_of_nonneg_left (by exact_mod_cast hsum) hgain)

theorem control_of_Td {self : Pid} (h : self.Td = 0) (x : ℤ) :
    self.control x = self.K * (self.setPoint - x : ℤ) + self.integral x := by
  rw [control, h, mul_zero, zero_mul, zero_div, add_zero]

theorem Above.control_le {s t : Pid} (h : Above s t) {x y : ℤ} (hxy : x ≤ y) :
    t.control y ≤ s.control x := by
  have hintegral := h.integral_le hxy
  have hTd : t.Td = 0 := by
    obtain ⟨e, ui, rfl⟩ := h.next
    exact h.Td
  rw [control_of_Td hTd, control_of_Td h.Td]
  obtain ⟨⟨e, ui, rfl⟩, hK, -, -, -, -⟩ := h
  have herror : s.setPoint - y ≤ s.setPoint - x := Int.sub_le_sub_left hxy s.setPoint
  exact add_le_add (mul_le_mul_of_nonneg_left (by exact_mod_cast herror) hK) hintegral

theorem Above.limit_le {s t : Pid} (h : Above s t) {u u' : ℤ} (hu : u' ≤ u) :
    t.limit u' ≤ s.limit u := by
  obtain ⟨⟨e, ui, rfl⟩, -, -, -, -, -⟩ := h
  rw [limit_eq, limit_eq]
  exact max_le_max_left s.uMin (min_le_min_left s.uMax hu)

theorem above_lockstep :
    Lockstep calculateControl calculateControl Above (· ≤ ·) fun o o' => o.1 ≤ o'.1 ∧
      o'.2 ≤ o.2 := by
  intro s t x y h hxy
  have hintegral := trunc_mono (h.integral_le hxy)
  have hlimit := h.limit_le (roundAway_mono (h.control_le hxy))
  rw [calculateControl_converted, calculateControl_converted]
  obtain ⟨⟨e, ui, rfl⟩, hK, hTd, hgain, -, -⟩ := h
  have herror : s.setPoint - y ≤ s.setPoint - x := Int.sub_le_sub_left hxy s.setPoint
  exact ⟨⟨Int.sub_le_sub_left hlimit _, Int.add_le_add_left hlimit _⟩,
    ⟨_, _, rfl⟩, hK, hTd, hgain, herror, hintegral⟩

/-- Outputs that are nowhere larger give a first speed that is nowhere larger
and a second one that is nowhere smaller. -/
theorem output_mono {K Ti T : ℚ} (hK : 0 ≤ K) (hTi : 0 < Ti) (hT : 0 < T)
    (setPoint uWorkPoint uMin uMax : ℤ) {x y : ℕ → ℤ} {n : ℕ}
    (hxy : ∀ i, 1 ≤ i → i ≤ n + 1 → x i ≤ y i) :
    ((new K Ti 0 T setPoint uWorkPoint uMin uMax).output x n).1 ≤
        ((new K Ti 0 T setPoint uWorkPoint uMin uMax).output y n).1 ∧
      ((new K Ti 0 T setPoint uWorkPoint uMin uMax).output y n).2 ≤
        ((new K Ti 0 T setPoint uWorkPoint uMin uMax).output x n).2 := by
  have hnew : Above (new K Ti 0 T setPoint uWorkPoint uMin uMax)
      (new K Ti 0 T setPoint uWorkPoint uMin uMax) :=
    ⟨⟨0, 0, rfl⟩, hK, rfl, gain_nonneg hK hTi hT, le_rfl, le_rfl⟩
  rw [output_eq_outputAt, output_eq_outputAt]
  exact above_lockstep.outputs hnew hxy

theorem output_mono_third :
    ((new 1 1 0 1 0 20 0 40).output (fun _ => -3) 2).1 ≤
        ((new 1 1 0 1 0 20 0 40).output (fun i => i - 2) 2).1 ∧
      ((new 1 1 0 1 0 20 0 40).output (fun i => i - 2) 2).2 ≤
        ((new 1 1 0 1 0 20 0 40).output (fun _ => -3) 2).2 :=
  output_mono (by norm_num) (by norm_num) (by norm_num) 0 20 0 40 fun i _ _ => by omega

-- ---------------------------------------------------------------------------
-- Mirrored outputs
-- ---------------------------------------------------------------------------

/-- Controllers of one tuning with symmetric limits and opposite memories. -/
structure Mirrored (setPoint : ℤ) (s t : Pid) : Prop where
  next : t = { s with ePast := -s.ePast, uiPast := -s.uiPast }
  setPoint : s.setPoint = setPoint
  limits : s.uMin = -s.uMax
  uMax : 0 ≤ s.uMax

theorem limit_neg {self : Pid} (h : self.uMin = -self.uMax) (hmax : 0 ≤ self.uMax) (u : ℤ) :
    self.limit (-u) = -self.limit u := by
  rw [limit_eq, limit_eq, h]
  omega

theorem Mirrored.integral_eq {c : ℤ} {s t : Pid} (h : Mirrored c s t) (y : ℤ) :
    t.integral (2 * c - y) = -s.integral y := by
  obtain ⟨rfl, rfl, -, -⟩ := h
  have hgain : gain { s with ePast := -s.ePast, uiPast := -s.uiPast } = s.gain := rfl
  rw [integral, integral, hgain]
  push_cast
  ring

theorem Mirrored.control_eq {c : ℤ} {s t : Pid} (h : Mirrored c s t) (y : ℤ) :
    t.control (2 * c - y) = -s.control y := by
  rw [control, control, h.integral_eq y]
  obtain ⟨rfl, rfl, -, -⟩ := h
  push_cast
  ring

theorem mirrored_lockstep (c : ℤ) :
    Lockstep calculateControl calculateControl (Mirrored c) (fun y y' => y' = 2 * c - y)
      fun o o' => o' = o.swap := by
  rintro s t y _ h rfl
  have hintegral : trunc (t.integral (2 * c - y)) = -trunc (s.integral y) := by
    rw [h.integral_eq, trunc_neg]
  have hround : roundAway (t.control (2 * c - y)) = -roundAway (s.control y) := by
    rw [h.control_eq, roundAway_neg]
  rw [calculateControl_converted, calculateControl_converted, hintegral, hround]
  obtain ⟨rfl, rfl, hlimits, hmax⟩ := h
  have hlimit : limit { s with ePast := -s.ePast, uiPast := -s.uiPast } (-roundAway (s.control y)) =
      -s.limit (roundAway (s.control y)) := limit_neg hlimits hmax _
  have herror : s.setPoint - (2 * s.setPoint - y) = -(s.setPoint - y) := by ring
  rw [hlimit]
  refine ⟨?_, ?_, rfl, hlimits, hmax⟩
  · simp only [Prod.swap_prod_mk, sub_neg_eq_add, ← sub_eq_add_neg]
  · simp only [herror]

/-- Outputs mirrored at the set point exchange the two speeds. -/
theorem output_mirror (K Ti Td T : ℚ) (setPoint uWorkPoint : ℤ) {uMax : ℤ} (hmax : -uMax ≤ 0)
    (y : ℕ → ℤ) (n : ℕ) :
    (new K Ti Td T setPoint uWorkPoint (-uMax) uMax).output (fun i => 2 * setPoint - y i) n =
      ((new K Ti Td T setPoint uWorkPoint (-uMax) uMax).output y n).swap := by
  have hnew : Mirrored setPoint (new K Ti Td T setPoint uWorkPoint (-uMax) uMax)
      (new K Ti Td T setPoint uWorkPoint (-uMax) uMax) :=
    ⟨rfl, rfl, rfl, neg_nonpos.mp hmax⟩
  rw [output_eq_outputAt, output_eq_outputAt]
  exact (mirrored_lockstep setPoint).outputs hnew fun _ _ _ => rfl

theorem output_mirror_third :
    (new 1 2 1 1 5 20 (-40) 40).output (fun i => 2 * 5 - i) 2 =
      ((new 1 2 1 1 5 20 (-40) 40).output (fun i => i) 2).swap :=
  output_mirror 1 2 1 1 5 20 (by norm_num) (fun i => i) 2

end LineFollower.Pid
