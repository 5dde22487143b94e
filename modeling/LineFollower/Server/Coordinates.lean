import LineFollower.Camera.ContourFinding
import LineFollower.Server.Steering

/-!
# The coordinates of a frame

A frame is scaled twice and cut once, the cutting points are set anew from the
scaled frame, and `drawPoints` adds the corner of the cut to what was found in
it. `coordinates_agree`: the cut, the centres, the drawing and the set point of
the controller all mean the rows and columns of one scaled frame.
-/

namespace LineFollower

open Lib

variable {Mat : Type}

-- ---------------------------------------------------------------------------
-- What is drawn
-- ---------------------------------------------------------------------------

inductive Mark
  | contour (c : Contour)
  | rectangle (p q : Point)
  | circle (center : Point)
  | column (x : ℤ)
  deriving DecidableEq, Repr

def Mark.draw (cv : OpenCv Mat) (frame : Mat) : Mark → Except Fault Mat
  | .contour c => call (cv.drawContours frame [c] 0 ⟨0, 0, 255⟩ 2 8)
  | .rectangle p q => call (cv.rectangle frame p q ⟨0, 255, 0⟩ 0 8)
  | .circle center => call (cv.circle frame center 5 ⟨0, 0, 255⟩ (-1) 8)
  | .column x => call (cv.line frame ⟨x, 0⟩ ⟨x, cv.rows frame⟩ ⟨0, 0, 255⟩ 2)

def drawMarks (cv : OpenCv Mat) (frame : Mat) (marks : List Mark) : Except Fault Mat :=
  marks.foldlM (Mark.draw cv) frame

namespace ContourFinding

variable {cv : OpenCv Mat} {self : ContourFinding Mat}

def contourMark (self : ContourFinding Mat) : List Mark :=
  if self.contour = [] then []
  else [.contour (self.contour.map fun p => p + self.pointToStartCutting)]

def centerMarks (self : ContourFinding Mat) : List Point → List Mark
  | [] => []
  | center :: centers =>
    (center :: centers).map (fun p => .circle (p + self.pointToStartCutting)) ++ [.column center.x]

theorem drawCenters_eq (frame : Mat) (centers : List Point) :
    drawCenters cv self ⟨0, 0, 255⟩ frame centers =
      drawMarks cv frame (centers.map fun p => .circle (p + self.pointToStartCutting)) := by
  induction centers generalizing frame with
  | nil => rfl
  | cons center centers ih =>
    rw [List.map_cons, drawMarks, List.foldlM_cons]
    exact bind_congr fun frame => ih frame

theorem drawPoints_eq (self : ContourFinding Mat) (centers : List Point) :
    drawPoints cv self centers =
      drawMarks cv self.sourceFrame (self.contourMark ++
        .rectangle self.pointToStartCutting self.pointToFinishCutting :: self.centerMarks
          centers) := by
  rw [drawMarks, List.foldlM_append]
  simp only [List.foldlM_cons]
  have hcontour : self.contourMark.foldlM (Mark.draw cv) self.sourceFrame =
      if (self.contour.map fun p => p + self.pointToStartCutting).isEmpty then pure self.sourceFrame
      else call (cv.drawContours self.sourceFrame
        [self.contour.map fun p => p + self.pointToStartCutting] 0 ⟨0, 0, 255⟩ 2 8) := by
    cases h : self.contour <;> simp [contourMark, h, Mark.draw]
  rw [hcontour]
  refine bind_congr fun frame => bind_congr fun frame => ?_
  cases centers with
  | nil => rfl
  | cons center centers =>
    rw [centerMarks, List.foldlM_append, ← drawMarks, ← drawCenters_eq]
    simp [Mark.draw]

-- ---------------------------------------------------------------------------
-- The cut
-- ---------------------------------------------------------------------------

def framed (cv : OpenCv Mat) (self : ContourFinding Mat) (src : Mat) (scaleFactor : ℚ)
    (threshold : ℤ) :
    ContourFinding Mat :=
  ((self.setFrame cv src).setScaleFactor scaleFactor).setThreshold threshold

def scaledTo (cv : OpenCv Mat) (self : ContourFinding Mat) (frame : Mat) : ContourFinding Mat :=
  setCutting cv { self with outputFrame := frame, sourceFrame := frame }

def cutRect (self : ContourFinding Mat) : Rect :=
  Rect.ofPoints self.pointToStartCutting self.pointToFinishCutting

/-- Factors of a cut within the frame. -/
structure Factors (finder : ContourFinding Mat) : Prop where
  start : 0 ≤ finder.pointFactorToStartCutting
  le : finder.pointFactorToStartCutting ≤ finder.pointFactorToFinishCutting
  finish : finder.pointFactorToFinishCutting ≤ 1

/-- Both frames hold the source, so that the two calls of `resize` are one. -/
theorem scaleImage_framed {src frame : Mat} {k : ℚ} {t : ℤ}
    (h : cv.resize src ⟨0, 0⟩ k k interCubic = .ok frame) :
    scaleImage cv (framed cv self src k t) = .ok (scaledTo cv (framed cv self src k t) frame) := by
  have hout : cv.resize (framed cv self src k t).outputFrame ⟨0, 0⟩ k k interCubic = .ok frame := h
  have hsrc : cv.resize (framed cv self src k t).sourceFrame ⟨0, 0⟩ k k interCubic = .ok frame := h
  exact except_bind_ok.mpr ⟨frame, call_ok.mpr hout,
    except_bind_ok.mpr ⟨frame, call_ok.mpr hsrc, rfl⟩⟩

section Cut

variable {frame : Mat} {r c : ℕ}

theorem trunc_row_nonneg {a : ℚ} (ha : 0 ≤ a) (r : ℕ) : 0 ≤ trunc ((r : ℤ) * a) := by
  have h : ((0 : ℤ) : ℚ) ≤ (r : ℤ) * a := by
    rw [Int.cast_zero]
    positivity
  exact (trunc_intCast _).symm.trans_le (trunc_mono h)

theorem trunc_row_le {a : ℚ} (ha : a ≤ 1) (r : ℕ) : trunc ((r : ℤ) * a) ≤ r := by
  have h : ((r : ℤ) : ℚ) * a ≤ (r : ℤ) := mul_le_of_le_one_right (by positivity) ha
  exact (trunc_mono h).trans_eq (trunc_intCast _)

theorem trunc_row_mono {a b : ℚ} (h : a ≤ b) (r : ℕ) : trunc ((r : ℤ) * a) ≤ trunc ((r : ℤ) * b) :=
  trunc_mono (mul_le_mul_of_nonneg_left h (by positivity))

theorem cutRect_scaledTo (hf : Factors self) (hrows : cv.rows frame = r)
    (hcols : cv.cols frame = c) :
    cutRect (scaledTo cv self frame) =
      ⟨0, trunc ((r : ℤ) * self.pointFactorToStartCutting), c,
        trunc ((r : ℤ) * self.pointFactorToFinishCutting) -
          trunc ((r : ℤ) * self.pointFactorToStartCutting)⟩ := by
  have hle := trunc_row_mono hf.le r
  simp only [cutRect, scaledTo, setCutting, Rect.ofPoints, hrows, hcols, min_eq_left hle,
    max_eq_right hle, Int.natCast_nonneg, min_eq_left, max_eq_right, sub_zero]

theorem cutRect_inside (hf : Factors self) (hrows : cv.rows frame = r) (hcols : cv.cols frame = c) :
    (cutRect (scaledTo cv self frame)).Inside r c := by
  have hstart := trunc_row_nonneg hf.start r
  have hle := trunc_row_mono hf.le r
  have hfinish := trunc_row_le hf.finish r
  rw [cutRect_scaledTo hf hrows hcols]
  constructor <;> dsimp only <;> omega

/-- The middle third of two rows or more has a row. -/
theorem trunc_third_lt {r : ℕ} (hr : 2 ≤ r) :
    trunc ((r : ℤ) * (1 / 3 : ℚ)) < trunc ((r : ℤ) * (2 / 3 : ℚ)) := by
  have hthird : (0 : ℚ) ≤ (r : ℤ) * (1 / 3) := by positivity
  have hthirds : (0 : ℚ) ≤ (r : ℤ) * (2 / 3) := by positivity
  rw [trunc, trunc, if_pos hthird, if_pos hthirds, Int.lt_iff_add_one_le, Int.le_floor]
  have hfloor := Int.floor_le (((r : ℤ) : ℚ) * (1 / 3))
  generalize ⌊((r : ℤ) : ℚ) * (1 / 3)⌋ = row at hfloor ⊢
  have hrow : ((3 * row : ℤ) : ℚ) ≤ (r : ℤ) := by
    push_cast at hfloor ⊢
    linarith
  have hnext : 3 * (row + 1) ≤ 2 * (r : ℤ) := by
    have := Int.cast_le.mp hrow
    omega
  have hnext' : ((3 * (row + 1) : ℤ) : ℚ) ≤ ((2 * r : ℤ) : ℚ) := Int.cast_le.mpr hnext
  push_cast at hnext' ⊢
  linarith

/-- `cut` is the part of the scaled frame that begins at the cutting point. -/
structure IsCut (cv : OpenCv Mat) (frame : Mat) (r c : ℕ) (scaled cut : ContourFinding Mat) :
    Prop where
  sourceFrame : scaled.sourceFrame = frame
  inside : (cutRect scaled).Inside r c
  cols_le : cv.cols cut.outputFrame ≤ c
  size : 0 < (cutRect scaled).height →
    cv.rows cut.outputFrame = (cutRect scaled).height ∧ cv.cols cut.outputFrame = c
  pixel : ∀ x y : ℤ, 0 ≤ x → x < c → 0 ≤ y → y < (cutRect scaled).height →
    cv.pixel cut.outputFrame y x =
      cv.pixel frame (y + scaled.pointToStartCutting.y) (x + scaled.pointToStartCutting.x)

theorem cutImage_scaledTo (hgeo : cv.Geometric) (hf : Factors self) (hrows : cv.rows frame = r)
    (hcols : cv.cols frame = c) (hc : 1 ≤ c) :
    ∃ part, cutImage cv (scaledTo cv self frame) =
        .ok { scaledTo cv self frame with outputFrame := part } ∧
      IsCut cv frame r c (scaledTo cv self frame)
        { scaledTo cv self frame with outputFrame := part } := by
  have hinside := cutRect_inside hf hrows hcols
  have hrect := cutRect_scaledTo hf hrows hcols
  have hcorner : (scaledTo cv self frame).pointToStartCutting =
      ⟨(cutRect (scaledTo cv self frame)).x, (cutRect (scaledTo cv self frame)).y⟩ := by
    rw [hrect, scaledTo, setCutting, hrows]
  have hwidth : (cutRect (scaledTo cv self frame)).width = c := by rw [hrect]
  have hinside' : (cutRect (scaledTo cv self frame)).Inside (cv.rows frame) (cv.cols frame) := by
    rwa [hrows, hcols]
  obtain ⟨part, hpart⟩ := hgeo.crop_inside hinside'
  refine ⟨part, setOutput_ok.mpr ⟨part, hpart, rfl⟩, rfl, hinside, ?_, ?_, ?_⟩
  · exact (hgeo.crop_cols hpart).trans_eq hwidth
  · intro hheight
    rw [← hwidth]
    exact hgeo.crop_size hpart (by omega) hheight
  · intro x y hx hx' hy hy'
    rw [hcorner]
    exact hgeo.crop_pixel hpart hx (hx'.trans_eq hwidth.symm) hy hy'

end Cut

-- ---------------------------------------------------------------------------
-- The centres and the contour
-- ---------------------------------------------------------------------------

theorem binarize_ok (hgeo : cv.Geometric) {scaled cut bin : ContourFinding Mat}
    (hscale : scaleImage cv self = .ok scaled) (hcut : cutImage cv scaled = .ok cut)
    (h : binarize cv self = .ok bin) :
    ∃ out, bin = { cut with outputFrame := out } ∧ cv.cols out = cv.cols cut.outputFrame := by
  simp only [binarize, except_bind_ok, hscale, Except.ok.injEq, exists_eq_left', hcut, toGrayScale,
    erodeFrame, dilateFrame, thresholdFrame, setOutput_ok] at h
  obtain ⟨-, ⟨gray, hgray, rfl⟩, element, -, -, ⟨eroded, herode, rfl⟩, -,
      ⟨dilated, hdilate, rfl⟩, out,
    hthr, rfl⟩ := h
  refine ⟨out, rfl, ?_⟩
  calc cv.cols out = cv.cols dilated := hgeo.threshold_cols hthr
    _ = cv.cols eroded := hgeo.dilate_cols hdilate
    _ = cv.cols gray := hgeo.erode_cols herode
    _ = cv.cols cut.outputFrame := hgeo.cvtColor_cols hgray

theorem trunc_centroid (hgeo : cv.Geometric) {m : Mat} {contours : List Contour} {contour : Contour}
    {mu : Moments} (hfound : cv.findContours m retrExternal chainApproxSimple = .ok contours)
    (hmem : contour ∈ contours) (hmu : cv.moments contour = .ok mu) (hm : mu.m00 ≠ 0) :
    contour ≠ [] ∧ 0 ≤ trunc (mu.m10 / mu.m00) ∧ trunc (mu.m10 / mu.m00) < cv.cols m := by
  obtain ⟨p, hp, q, hq, hpx, hqx⟩ := hgeo.centroid_between hfound _ hmem hmu hm
  have hleft := (hgeo.contour_inside hfound _ hmem p hp).1
  have hright := (hgeo.contour_inside hfound _ hmem q hq).2
  have hpt := (trunc_intCast _).symm.trans_le (trunc_mono hpx)
  have hqt := (trunc_mono hqx).trans_eq (trunc_intCast _)
  exact ⟨List.ne_nil_of_mem hp, hleft.trans hpt, hqt.trans_lt hright⟩

/-- What was found and what is drawn are in the coordinates of the scaled
frame, of `c` columns, and of its part from the cutting point on. -/
structure Agrees (cv : OpenCv Mat) (finder : ContourFinding Mat) (frame : Mat) (c : ℕ)
    (scaled : ContourFinding Mat) (centers : List Point) (found : ContourFinding Mat) : Prop where
  sourceFrame : found.sourceFrame = frame
  corner : found.pointToStartCutting = scaled.pointToStartCutting
  setPoint : center (cv.cols found.sourceFrame) = (c / 2 : ℕ)
  range : ∀ p ∈ centers, 0 ≤ p.x ∧ p.x < c
  drawn : drawPoints cv found centers = drawMarks cv frame (found.contourMark ++
    .rectangle scaled.pointToStartCutting scaled.pointToFinishCutting :: found.centerMarks centers)
  contour : ∃ bin contours, binarize cv finder = .ok bin ∧
    cv.findContours bin.outputFrame retrExternal chainApproxSimple = .ok contours ∧
    (contours = [] ∧ found.contourMark = [] ∨
      ∃ a, Largest cv contours found.contour a ∧
        found.contourMark = [.contour (found.contour.map fun p => p + scaled.pointToStartCutting)])

theorem agrees (hdoc : cv.Documented) (hgeo : cv.Geometric)
    {finder scaled cut found : ContourFinding Mat}
    {frame : Mat} {r c : ℕ} {centers : List Point} (hscale : scaleImage cv finder = .ok scaled)
    (hcut : cutImage cv scaled = .ok cut) (his : IsCut cv frame r c scaled cut)
    (hcols : cv.cols frame = c) (hnone : cut.contour = [])
    (h : findLineCenters cv finder = .ok (centers, found)) :
    Agrees cv finder frame c scaled centers found := by
  obtain ⟨bin, hbin, hfind⟩ := except_bind_ok.mp h
  obtain ⟨out, rfl, hwide⟩ := binarize_ok hgeo hscale hcut hbin
  obtain ⟨part, -, rfl⟩ := setOutput_ok.mp hcut
  have hset : center (cv.cols frame) = (c / 2 : ℕ) := by
    rw [center_eq, hcols]
    rfl
  have hle := hwide.trans_le his.cols_le
  obtain ⟨contours, hfound, ⟨rfl, rfl, rfl⟩ | ⟨contour, a, mu, hlargest, hmu, hm, rfl, rfl⟩⟩ :=
    findCenters_found hdoc hfind
  · refine ⟨his.sourceFrame, rfl, ?_, by simp, ?_, _, [], hbin, hfound, .inl ⟨rfl, if_pos hnone⟩⟩
    · rw [his.sourceFrame, hset]
    · rw [drawPoints_eq, his.sourceFrame]
  · obtain ⟨hne, hleft, hright⟩ := trunc_centroid hgeo hfound hlargest.mem hmu hm
    refine ⟨his.sourceFrame, rfl, ?_, ?_, ?_, _, contours, hbin, hfound,
      .inr ⟨a, hlargest, if_neg hne⟩⟩
    · rw [his.sourceFrame, hset]
    · rintro p hp
      obtain rfl := List.mem_singleton.mp hp
      exact ⟨hleft, hright.trans_le hle⟩
    · rw [drawPoints_eq, his.sourceFrame]

/-- In an iteration the cut lies in the scaled frame, and the cut image, the
centres, the drawing and the set point agree on its rows and columns; the cut
between the thirds of two rows or more is not empty. -/
theorem coordinates_agree (cv : OpenCv Mat) (hdoc : cv.Documented) (hgeo : cv.Geometric)
    (finder : ContourFinding Mat) (hf : Factors finder) (src frame : Mat) (k : ℚ) (t : ℤ) (r c : ℕ)
    (hresize : cv.resize src ⟨0, 0⟩ k k interCubic = .ok frame) (hrows : cv.rows frame = r)
    (hcols : cv.cols frame = c) (hc : 1 ≤ c) :
    ∃ scaled cut, scaleImage cv (framed cv finder src k t) = .ok scaled ∧
      cutImage cv scaled = .ok cut ∧ IsCut cv frame r c scaled cut ∧
      (finder.pointFactorToStartCutting = 1 / 3 → finder.pointFactorToFinishCutting =
        2 / 3 → 2 ≤ r →
        0 < (cutRect scaled).width ∧ 0 < (cutRect scaled).height) ∧
      ∀ centers found, findLineCenters cv (framed cv finder src k t) = .ok (centers, found) →
        Agrees cv (framed cv finder src k t) frame c scaled centers found := by
  have hf' : Factors (framed cv finder src k t) := ⟨hf.start, hf.le, hf.finish⟩
  have hscale := @scaleImage_framed _ cv finder src frame k t hresize
  obtain ⟨part, hcut, his⟩ := cutImage_scaledTo hgeo hf' hrows hcols hc
  refine ⟨_, _, hscale, hcut, his, ?_, fun centers found =>
    agrees hdoc hgeo hscale hcut his hcols rfl⟩
  intro hstart hfinish hr
  have hstart' : (framed cv finder src k t).pointFactorToStartCutting = 1 / 3 := hstart
  have hfinish' : (framed cv finder src k t).pointFactorToFinishCutting = 2 / 3 := hfinish
  have hlt := trunc_third_lt hr
  rw [cutRect_scaledTo hf' hrows hcols, hstart', hfinish']
  constructor <;> dsimp only <;> omega

def darkFrame : ContourFinding UniformMat :=
  framed .uniform (.new .uniform (1 / 3) (2 / 3)) ⟨40, 40, 0⟩ (3 / 10) 50

theorem coordinates_agree_dark :
    ∃ scaled cut found, IsCut .uniform ⟨12, 12, 0⟩ 12 12 scaled cut ∧ 0 < (cutRect scaled).height ∧
      findLineCenters .uniform darkFrame = .ok ([⟨5, 1⟩], found) ∧
      Agrees .uniform darkFrame ⟨12, 12, 0⟩ 12 scaled [⟨5, 1⟩] found := by
  obtain ⟨scaled, cut, -, -, hcut, hthirds, hall⟩ :=
    coordinates_agree .uniform uniform_documented uniform_geometric (.new .uniform (1 / 3) (2 / 3))
      ⟨by decide +kernel, by decide +kernel, by decide +kernel⟩ ⟨40, 40, 0⟩ ⟨12, 12, 0⟩
        (3 / 10) 50 12 12
      (by decide +kernel) rfl rfl (by decide)
  have hcenters : (findLineCenters .uniform darkFrame).toOption.map Prod.fst = some [⟨5, 1⟩] := by
    decide +kernel
  cases hfind : findLineCenters .uniform darkFrame with
  | error f =>
    rw [hfind] at hcenters
    cases hcenters
  | ok result =>
    obtain ⟨centers, found⟩ := result
    rw [hfind] at hcenters
    obtain rfl : centers = [⟨5, 1⟩] := Option.some.inj hcenters
    exact ⟨scaled, cut, found, hcut, (hthirds rfl rfl (by decide)).2, rfl, hall _ _ hfind⟩

end ContourFinding

end LineFollower
