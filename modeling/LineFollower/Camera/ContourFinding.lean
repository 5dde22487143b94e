import LineFollower.Camera.OpenCv
import LineFollower.Lib.Largest

/-!
# Finding the line by its contour

`ContourFinding.cpp`. A frame is scaled, cut to the strip between the two
cutting points, made binary, and the centroid of the largest contour of the
strip is the line's centre.
-/

namespace LineFollower

open Lib

structure ContourFinding (Mat : Type) where
  pointFactorToStartCutting : ℚ
  pointFactorToFinishCutting : ℚ
  pointToStartCutting : Point
  pointToFinishCutting : Point
  sourceFrame : Mat
  outputFrame : Mat
  max_kernel_size : ℤ
  scaleFactor : ℚ
  binarize_threshold : ℤ
  contour : Contour
  deriving DecidableEq

namespace ContourFinding

variable {Mat : Type} (cv : OpenCv Mat)

def setCutting (self : ContourFinding Mat) : ContourFinding Mat :=
  { self with
    pointToStartCutting := ⟨0, trunc (cv.rows self.outputFrame * self.pointFactorToStartCutting)⟩
    pointToFinishCutting := ⟨cv.cols self.outputFrame,
      trunc (cv.rows self.outputFrame * self.pointFactorToFinishCutting)⟩ }

def new (pointFactorToStartCutting pointFactorToFinishCutting : ℚ) : ContourFinding Mat :=
  setCutting cv
    { pointFactorToStartCutting, pointFactorToFinishCutting, pointToStartCutting := ⟨0, 0⟩
      pointToFinishCutting := ⟨0, 0⟩, sourceFrame := cv.noMat, outputFrame := cv.noMat
      max_kernel_size := 21, scaleFactor := 1 / 2, binarize_threshold := 127, contour := [] }

def setFrame (self : ContourFinding Mat) (frame : Mat) : ContourFinding Mat :=
  setCutting cv { self with sourceFrame := frame, outputFrame := frame, contour := [] }

def setScaleFactor (self : ContourFinding Mat) (scaleFactor : ℚ) : ContourFinding Mat :=
  { self with scaleFactor }

def setThreshold (self : ContourFinding Mat) (threshold : ℤ) : ContourFinding Mat :=
  { self with binarize_threshold := threshold }

def scaleImage (self : ContourFinding Mat) : Except Fault (ContourFinding Mat) := do
  let outputFrame ← call
      (cv.resize self.outputFrame ⟨0, 0⟩ self.scaleFactor self.scaleFactor interCubic)
  let sourceFrame ← call
      (cv.resize self.sourceFrame ⟨0, 0⟩ self.scaleFactor self.scaleFactor interCubic)
  return setCutting cv { self with outputFrame, sourceFrame }

def setOutput (self : ContourFinding Mat) (frame : Cv Mat) : Except Fault (ContourFinding Mat) := do
  let outputFrame ← call frame
  return { self with outputFrame }

def cutImage (self : ContourFinding Mat) : Except Fault (ContourFinding Mat) :=
  let r := Rect.ofPoints self.pointToStartCutting self.pointToFinishCutting
  setOutput self (cv.crop self.outputFrame r)

def toGrayScale (self : ContourFinding Mat) : Except Fault (ContourFinding Mat) :=
  setOutput self (cv.cvtColor self.outputFrame colorRgb2Gray)

def erodeFrame (self : ContourFinding Mat) (element : Mat) : Except Fault (ContourFinding Mat) :=
  setOutput self (cv.erode self.outputFrame element)

def dilateFrame (self : ContourFinding Mat) (element : Mat) : Except Fault (ContourFinding Mat) :=
  setOutput self (cv.dilate self.outputFrame element)

def thresholdFrame (self : ContourFinding Mat) : Except Fault (ContourFinding Mat) :=
  setOutput self (cv.threshold self.outputFrame self.binarize_threshold 255 threshBinaryInv)

def largestContour : ℚ → ℕ → ℕ → List Contour → Except Fault (ℚ × ℕ)
  | largest_area, largest_contour_index, _, [] => return (largest_area, largest_contour_index)
  | largest_area, largest_contour_index, i, contour :: contours => do
    let a ← call (cv.contourArea contour)
    if a > largest_area then largestContour a i (i + 1) contours
    else largestContour largest_area largest_contour_index (i + 1) contours

def findCenters (self : ContourFinding Mat) : Except Fault (List Point × ContourFinding Mat) := do
  let contours ← call (cv.findContours self.outputFrame retrExternal chainApproxSimple)
  if contours.isEmpty then return ([], self)
  else
    let (_, largest_contour_index) ← largestContour cv 0 0 0 contours
    let contour ← index contours largest_contour_index
    let mu ← call (cv.moments contour)
    let x ← divide mu.m10 mu.m00
    let y ← divide mu.m01 mu.m00
    return ([⟨trunc x, trunc y⟩], { self with contour })

/-- `findLineCenters` up to its last call. -/
def binarize (self : ContourFinding Mat) : Except Fault (ContourFinding Mat) := do
  let self ← scaleImage cv self
  let self ← cutImage cv self
  let self ← toGrayScale cv self
  let kernel : ℤ := 2 * self.max_kernel_size + 1
  let element ← call (cv.getStructuringElement morphRect ⟨kernel, kernel⟩
    ⟨self.max_kernel_size, self.max_kernel_size⟩)
  let self ← erodeFrame cv self element
  let self ← dilateFrame cv self element
  thresholdFrame cv self

def findLineCenters (self : ContourFinding Mat) :
    Except Fault (List Point × ContourFinding Mat) := do
  let self ← binarize cv self
  findCenters cv self

def drawCenters (self : ContourFinding Mat) (color : Scalar) : Mat → List Point → Except Fault Mat
  | frame, [] => return frame
  | frame, center :: centers => do
    let frame ← call (cv.circle frame (center + self.pointToStartCutting) 5 color (-1) 8)
    drawCenters self color frame centers

def drawPoints (self : ContourFinding Mat) (centers : List Point) : Except Fault Mat := do
  let frame := self.sourceFrame
  let color : Scalar := ⟨0, 0, 255⟩
  let colorContour : Scalar := ⟨0, 255, 0⟩
  let contour := self.contour.map fun p => p + self.pointToStartCutting
  let contours := [contour]
  let frame ← (if contour.isEmpty then pure frame
    else call (cv.drawContours frame contours 0 color 2 8))
  let frame ← call
    (cv.rectangle frame self.pointToStartCutting self.pointToFinishCutting colorContour 0 8)
  match centers with
  | [] => return frame
  | first :: _ =>
    let frame ← drawCenters cv self color frame centers
    call (cv.line frame ⟨first.x, 0⟩ ⟨first.x, cv.rows frame⟩ color 2)

variable {cv}

-- ---------------------------------------------------------------------------
-- What the steps leave alone
-- ---------------------------------------------------------------------------

structure SameSetting (a b : ContourFinding Mat) : Prop where
  start : b.pointFactorToStartCutting = a.pointFactorToStartCutting
  finish : b.pointFactorToFinishCutting = a.pointFactorToFinishCutting
  kernel : b.max_kernel_size = a.max_kernel_size

theorem SameSetting.trans {a b c : ContourFinding Mat} (h : SameSetting a b)
    (h' : SameSetting b c) :
    SameSetting a c :=
  ⟨h'.start.trans h.start, h'.finish.trans h.finish, h'.kernel.trans h.kernel⟩

theorem setOutput_ok {self self' : ContourFinding Mat} {frame : Cv Mat} :
    setOutput self frame = .ok self' ↔
      ∃ out, frame = .ok out ∧ { self with outputFrame := out } = self' := call_replace_ok

theorem setOutput_same {self self' : ContourFinding Mat} {frame : Cv Mat}
    (h : setOutput self frame = .ok self') : SameSetting self self' := by
  obtain ⟨outputFrame, -, rfl⟩ := setOutput_ok.mp h
  exact ⟨rfl, rfl, rfl⟩

theorem setOutput_defined (self : ContourFinding Mat) (frame : Cv Mat) :
    Defined (setOutput self frame) := (Defined.call frame).bind fun _ => .ok _

theorem binarize_same {self self' : ContourFinding Mat} (h : binarize cv self = .ok self') :
    SameSetting self self' := by
  simp only [binarize, scaleImage, except_bind_ok] at h
  obtain ⟨s₁, ⟨out, -, src, -, hs₁⟩, s₂, hcut, s₃, hgray, element, -, s₄, herode, s₅,
      hdilate, hthr⟩ := h
  have hscale : SameSetting self s₁ := by
    obtain rfl := Except.ok.inj hs₁
    exact ⟨rfl, rfl, rfl⟩
  refine hscale.trans ((setOutput_same hcut).trans ((setOutput_same hgray).trans ?_))
  exact (setOutput_same herode).trans ((setOutput_same hdilate).trans (setOutput_same hthr))

theorem findCenters_same {self self' : ContourFinding Mat} {centers : List Point}
    (h : findCenters cv self = .ok (centers, self')) : SameSetting self self' := by
  obtain ⟨contours, -, h⟩ := except_bind_ok.mp h
  split at h
  · obtain ⟨-, rfl⟩ := Prod.mk.inj (Except.ok.inj h)
    exact ⟨rfl, rfl, rfl⟩
  · simp only [except_bind_ok] at h
    obtain ⟨_, -, contour, -, mu, -, x, -, y, -, h⟩ := h
    obtain ⟨-, rfl⟩ := Prod.mk.inj (Except.ok.inj h)
    exact ⟨rfl, rfl, rfl⟩

theorem scaleImage_defined (self : ContourFinding Mat) : Defined (scaleImage cv self) :=
  (Defined.call _).bind fun _ => (Defined.call _).bind fun _ => .ok _

theorem binarize_defined (self : ContourFinding Mat) : Defined (binarize cv self) := by
  refine (scaleImage_defined self).bind fun scaled => (setOutput_defined scaled _).bind fun cut =>
    ?_
  refine (setOutput_defined cut _).bind fun gray => (Defined.call _).bind fun element => ?_
  refine (setOutput_defined gray _).bind fun eroded => ?_
  exact (setOutput_defined eroded _).bind fun dilated => setOutput_defined dilated _

theorem drawCenters_defined (self : ContourFinding Mat) (color : Scalar) (frame : Mat)
    (centers : List Point) : Defined (drawCenters cv self color frame centers) := by
  induction centers generalizing frame with
  | nil => exact .ok frame
  | cons center centers ih => exact (Defined.call _).bind fun frame => ih frame

theorem drawPoints_defined (self : ContourFinding Mat) (centers : List Point) :
    Defined (drawPoints cv self centers) := by
  refine Defined.bind ?_ fun frame => (Defined.call _).bind fun frame => ?_
  · split
    · exact .ok _
    · exact .call _
  · cases centers with
    | nil => exact .ok frame
    | cons first rest =>
      exact (drawCenters_defined self _ frame (first :: rest)).bind fun frame => .call _

-- ---------------------------------------------------------------------------
-- What findCenters finds
-- ---------------------------------------------------------------------------

abbrev Areas (cv : OpenCv Mat) : List Contour → List ℚ → Prop :=
  List.Forall₂ fun c a => cv.contourArea c = .ok a

theorem largestContour_ok {contours : List Contour} {best r : ℚ × ℕ} {i : ℕ} :
    largestContour cv best.1 best.2 i contours = .ok r ↔
      ∃ areas, Areas cv contours areas ∧ r = largest best i areas := by
  induction contours generalizing best i r with
  | nil =>
    simp only [largestContour, List.forall₂_nil_left_iff, exists_eq_left, largest]
    exact ⟨fun h => (Except.ok.inj h).symm, fun h => h ▸ rfl⟩
  | cons c cs ih =>
    simp only [largestContour, except_bind_ok, call_ok, List.forall₂_cons_left_iff]
    constructor
    · rintro ⟨a, ha, h⟩
      split at h
      · rename_i hgt
        obtain ⟨areas, hareas, rfl⟩ := (@ih (a, i) r (i + 1)).mp h
        exact ⟨a :: areas, ⟨a, areas, ha, hareas, rfl⟩, by rw [largest, if_pos hgt]⟩
      · rename_i hle
        obtain ⟨areas, hareas, rfl⟩ := ih.mp h
        exact ⟨a :: areas, ⟨a, areas, ha, hareas, rfl⟩, by rw [largest, if_neg hle]⟩
    · rintro ⟨_, ⟨a, areas, ha, hareas, rfl⟩, rfl⟩
      refine ⟨a, ha, ?_⟩
      split
      · rename_i hgt
        rw [largest, if_pos hgt]
        exact (@ih (a, i) _ (i + 1)).mpr ⟨areas, hareas, rfl⟩
      · rename_i hle
        rw [largest, if_neg hle]
        exact ih.mpr ⟨areas, hareas, rfl⟩

theorem largestContour_error {contours : List Contour} {l : ℚ} {k i : ℕ} {f : Fault}
    (h : largestContour cv l k i contours = .error f) : ¬ f.Undefined := by
  induction contours generalizing l k i with
  | nil => cases h
  | cons c cs ih =>
    rcases except_bind_error.mp h with h | ⟨a, -, h⟩
    · exact call_error h
    · split at h <;> exact ih h

theorem areas_split {contours : List Contour} {pre post : List ℚ} {a : ℚ}
    (h : Areas cv contours (pre ++ a :: post)) :
    ∃ cpre c cpost, contours = cpre ++ c :: cpost ∧ Areas cv cpre pre ∧
      cv.contourArea c = .ok a ∧ Areas cv cpost post := by
  induction pre generalizing contours with
  | nil =>
    obtain ⟨c, cs, hc, hcs, rfl⟩ := List.forall₂_cons_right_iff.mp h
    exact ⟨[], c, cs, rfl, .nil, hc, hcs⟩
  | cons x pre ih =>
    obtain ⟨c, cs, hc, hcs, rfl⟩ := List.forall₂_cons_right_iff.mp h
    obtain ⟨cpre, c', cpost, rfl, hpre, hc', hpost⟩ := ih hcs
    exact ⟨c :: cpre, c', cpost, rfl, .cons hc hpre, hc', hpost⟩

/-- The first contour of the largest area, which is positive. -/
def Largest (cv : OpenCv Mat) (contours : List Contour) (contour : Contour) (a : ℚ) : Prop :=
  ∃ cpre cpost pre post, contours = cpre ++ contour :: cpost ∧ Areas cv cpre pre ∧
    cv.contourArea contour = .ok a ∧ Areas cv cpost post ∧ 0 < a ∧ (∀ x ∈ pre, x < a) ∧
    ∀ x ∈ post, x ≤ a

theorem Largest.mem {contours : List Contour} {contour : Contour} {a : ℚ}
    (h : Largest cv contours contour a) : contour ∈ contours := by
  obtain ⟨cpre, cpost, -, -, rfl, -⟩ := h
  exact List.mem_append_right _ List.mem_cons_self

/-- Where the loop's index points: at the first of the largest contours, or at
the first contour when no area is positive. -/
theorem index_largest {contours : List Contour} {areas : List ℚ} (hareas : Areas cv contours areas)
    (hne : contours ≠ []) :
    ∃ contour, index contours (largest (0, 0) 0 areas).2 = .ok contour ∧
      ((∃ a, Largest cv contours contour a) ∨
        (∃ cs, contours = contour :: cs) ∧ ∀ x ∈ areas, x ≤ 0) := by
  rcases largest_cases ((0 : ℚ), 0) 0 areas with ⟨heq, hle⟩ |
    ⟨pre, a, post, rfl, heq, hpos, hpre, hpost⟩
  · obtain ⟨c, cs, rfl⟩ := List.exists_cons_of_ne_nil hne
    refine ⟨c, ?_, .inr ⟨⟨cs, rfl⟩, hle⟩⟩
    rw [heq]
    rfl
  · obtain ⟨cpre, c, cpost, rfl, hcpre, hc, hcpost⟩ := areas_split hareas
    refine ⟨c, ?_, .inl ⟨a, cpre, cpost, pre, post, rfl, hcpre, hc, hcpost, hpos, hpre, hpost⟩⟩
    simp [heq, ← hcpre.length_eq, index]

/-- Every contour has the area 0: a pixel, a straight segment, or none at all. -/
def NoArea (cv : OpenCv Mat) (contours : List Contour) : Prop :=
  ∀ c ∈ contours, cv.contourArea c = .ok 0

theorem noArea_of_areas (hdoc : cv.Documented) {contours : List Contour} {areas : List ℚ}
    (hareas : Areas cv contours areas) (hle : ∀ x ∈ areas, x ≤ 0) : NoArea cv contours := by
  induction hareas with
  | nil => simp [NoArea]
  | @cons c a cs as hc _ ih =>
    obtain ⟨hle, hles⟩ := List.forall_mem_cons.mp hle
    have ha : a = 0 := le_antisymm hle (hdoc.area_nonneg hc)
    exact List.forall_mem_cons.mpr ⟨ha ▸ hc, ih hles⟩

theorem not_largest_of_noArea {contours : List Contour} {contour : Contour} {a : ℚ}
    (h : NoArea cv contours) : ¬ Largest cv contours contour a := by
  intro hlargest
  have hzero := h contour hlargest.mem
  obtain ⟨-, -, -, -, -, -, hc, -, hpos, -⟩ := hlargest
  rw [hc, Except.ok.injEq] at hzero
  exact hpos.ne' hzero

theorem areas_of_noArea {contours : List Contour} (h : NoArea cv contours) :
    ∃ areas, Areas cv contours areas := by
  refine ⟨contours.map fun _ => 0, ?_⟩
  rw [Areas, List.forall₂_map_right_iff, List.forall₂_same]
  exact h

theorem findCenters_some {self : ContourFinding Mat} {contours : List Contour}
    (hfound : cv.findContours self.outputFrame retrExternal chainApproxSimple = .ok contours)
    (hne : contours ≠ []) :
    findCenters cv self = (do
      let (_, largest_contour_index) ← largestContour cv 0 0 0 contours
      let contour ← index contours largest_contour_index
      let mu ← call (cv.moments contour)
      let x ← divide mu.m10 mu.m00
      let y ← divide mu.m01 mu.m00
      return ([⟨trunc x, trunc y⟩], { self with contour })) := by
  simp [findCenters, hfound, call, bind, Except.bind, hne]

theorem findCenters_noContour {self : ContourFinding Mat}
    (hfound : cv.findContours self.outputFrame retrExternal chainApproxSimple = .ok []) :
    findCenters cv self = .ok ([], self) := by
  simp [findCenters, hfound, call, bind, Except.bind, pure, Except.pure]

theorem findCenters_ok {self : ContourFinding Mat} {contours : List Contour} {contour : Contour}
    {areas : List ℚ} {mu : Moments}
    (hfound : cv.findContours self.outputFrame retrExternal chainApproxSimple = .ok contours)
    (hne : contours ≠ []) (hareas : Areas cv contours areas)
    (hindex : index contours (largest (0, 0) 0 areas).2 = .ok contour)
    (hmu : cv.moments contour = .ok mu) (hm : mu.m00 ≠ 0) :
    findCenters cv self =
      .ok ([⟨trunc (mu.m10 / mu.m00), trunc (mu.m01 / mu.m00)⟩], { self with contour }) := by
  have hloop := (@largestContour_ok _ _ _ (0, 0) _ 0).mpr ⟨_, hareas, rfl⟩
  rw [findCenters_some hfound hne]
  simp [hloop, hindex, hmu, hm, divide, call, bind, Except.bind, pure, Except.pure]

theorem Largest.moment_ne (hdoc : cv.Documented) {contours : List Contour}
    {contour : Contour} {a : ℚ}
    {mu : Moments} (h : Largest cv contours contour a) (hmu : cv.moments contour = .ok mu) :
    mu.m00 ≠ 0 := by
  obtain ⟨cpre, cpost, -, -, -, -, hc, -, hpos, -⟩ := h
  exact (hdoc.moments_area hmu hc).trans_ne hpos.ne'

theorem findCenters_noArea (hdoc : cv.Documented) {self : ContourFinding Mat} {contour : Contour}
    {contours : List Contour} {mu : Moments}
    (hfound : cv.findContours self.outputFrame retrExternal chainApproxSimple =
      .ok (contour :: contours))
    (harea : NoArea cv (contour :: contours)) (hmu : cv.moments contour = .ok mu) :
    findCenters cv self = .error .divisionByZero := by
  obtain ⟨areas, hareas⟩ := areas_of_noArea harea
  have hloop := (@largestContour_ok _ _ _ (0, 0) _ 0).mpr ⟨_, hareas, rfl⟩
  obtain ⟨first, hindex, ⟨a, hlargest⟩ | ⟨⟨cs, hcs⟩, -⟩⟩ :=
    index_largest hareas (List.cons_ne_nil _ _)
  · exact absurd hlargest (not_largest_of_noArea harea)
  · obtain ⟨rfl, -⟩ := List.cons.inj hcs
    have hm : mu.m00 = 0 := hdoc.moments_area hmu (harea contour (by simp))
    rw [findCenters_some hfound (List.cons_ne_nil _ _)]
    simp [hloop, hindex, hmu, hm, divide, call, bind, Except.bind]

/-- The frame in which the contours are looked for gives one of four ends: an
exception, no contour, the centroid of a largest contour, or a division by a
zero moment. -/
theorem findCenters_cases (hdoc : cv.Documented) (self : ContourFinding Mat) :
    (∃ f, findCenters cv self = .error f ∧ ¬ f.Undefined) ∨
    (cv.findContours self.outputFrame retrExternal chainApproxSimple = .ok [] ∧
      findCenters cv self = .ok ([], self)) ∨
    (∃ contours contour a mu,
      cv.findContours self.outputFrame retrExternal chainApproxSimple = .ok contours ∧
      Largest cv contours contour a ∧ cv.moments contour = .ok mu ∧
      findCenters cv self =
        .ok ([⟨trunc (mu.m10 / mu.m00), trunc (mu.m01 / mu.m00)⟩], { self with contour })) ∨
    ∃ contour contours mu,
      cv.findContours self.outputFrame retrExternal chainApproxSimple = .ok (contour :: contours) ∧
      NoArea cv (contour :: contours) ∧ cv.moments contour = .ok mu ∧
      findCenters cv self = .error .divisionByZero := by
  cases hfound : cv.findContours self.outputFrame retrExternal chainApproxSimple with
  | error e =>
    exact .inl ⟨.cvException e, by simp [findCenters, hfound, call, bind, Except.bind], id⟩
  | ok contours =>
    by_cases hne : contours = []
    · subst hne
      exact .inr (.inl ⟨rfl, findCenters_noContour hfound⟩)
    have hfind := findCenters_some hfound hne
    cases hloop : largestContour cv 0 0 0 contours with
    | error f =>
      exact .inl ⟨f, by simp [hfind, hloop, bind, Except.bind], largestContour_error hloop⟩
    | ok r =>
      obtain ⟨areas, hareas, rfl⟩ := (@largestContour_ok _ _ _ (0, 0) _ _).mp hloop
      obtain ⟨contour, hindex, hwhich⟩ := index_largest hareas hne
      cases hmu : cv.moments contour with
      | error e =>
        refine .inl ⟨.cvException e, ?_, id⟩
        simp [hfind, hloop, hindex, hmu, call, bind, Except.bind]
      | ok mu =>
        rcases hwhich with ⟨a, hlargest⟩ | ⟨⟨cs, rfl⟩, hle⟩
        · refine .inr (.inr (.inl ⟨contours, contour, a, mu, rfl, hlargest, hmu, ?_⟩))
          exact findCenters_ok hfound hne hareas hindex hmu (hlargest.moment_ne hdoc hmu)
        · have hnone := noArea_of_areas hdoc hareas hle
          have hend := findCenters_noArea hdoc hfound hnone hmu
          exact .inr (.inr (.inr ⟨contour, cs, mu, rfl, hnone, hmu, hend⟩))

theorem findCenters_found (hdoc : cv.Documented) {bin found : ContourFinding Mat}
    {centers : List Point}
    (h : findCenters cv bin = .ok (centers, found)) :
    ∃ contours, cv.findContours bin.outputFrame retrExternal chainApproxSimple = .ok contours ∧
      (contours = [] ∧ centers = [] ∧ found = bin ∨
        ∃ contour a mu, Largest cv contours contour a ∧ cv.moments contour = .ok mu ∧ mu.m00 ≠ 0 ∧
          centers = [⟨trunc (mu.m10 / mu.m00), trunc (mu.m01 / mu.m00)⟩] ∧
          found = { bin with contour }) := by
  rcases findCenters_cases hdoc bin with
    ⟨f, hfind, -⟩ | ⟨hnone, hfind⟩ | ⟨contours, contour, a, mu, hfound, hlargest, hmu, hfind⟩ |
    ⟨_, _, _, -, -, -, hfind⟩
  · rw [hfind] at h
    cases h
  · rw [hfind, Except.ok.injEq] at h
    obtain ⟨rfl, rfl⟩ := Prod.mk.inj h
    exact ⟨[], hnone, .inl ⟨rfl, rfl, rfl⟩⟩
  · rw [hfind, Except.ok.injEq] at h
    obtain ⟨rfl, rfl⟩ := Prod.mk.inj h
    have hm := hlargest.moment_ne hdoc hmu
    exact ⟨contours, hfound, .inr ⟨contour, a, mu, hlargest, hmu, hm, rfl, rfl⟩⟩
  · rw [hfind] at h
    cases h

/-- With a contour of positive area the result is the centroid of the first
contour of the largest area, which is the contour that is kept; without any
contour there is no centre, and the contour kept before stays. -/
theorem findCenters_largest (hdoc : cv.Documented) {self : ContourFinding Mat}
    {contours : List Contour} {areas : List ℚ}
    (hfound : cv.findContours self.outputFrame retrExternal chainApproxSimple = .ok contours)
    (hareas : Areas cv contours areas) (hmoments : ∀ c ∈ contours, ∃ mu, cv.moments c = .ok mu) :
    (contours = [] → findCenters cv self = .ok ([], self)) ∧
    ((∃ x ∈ areas, 0 < x) → ∃ contour a mu, Largest cv contours contour a ∧
      cv.moments contour = .ok mu ∧ findCenters cv self =
        .ok ([⟨trunc (mu.m10 / mu.m00), trunc (mu.m01 / mu.m00)⟩], { self with contour })) := by
  constructor
  · rintro rfl
    exact findCenters_noContour hfound
  · rintro ⟨x, hx, hpos⟩
    have hne : contours ≠ [] := by
      rintro rfl
      cases hareas
      cases hx
    obtain ⟨contour, hindex, ⟨a, hlargest⟩ | ⟨-, hle⟩⟩ := index_largest hareas hne
    · obtain ⟨mu, hmu⟩ := hmoments contour hlargest.mem
      have hm := hlargest.moment_ne hdoc hmu
      exact ⟨contour, a, mu, hlargest, hmu, findCenters_ok hfound hne hareas hindex hmu hm⟩
    · exact absurd hpos (hle x hx).not_gt

def squares : List Contour :=
  [[⟨0, 0⟩, ⟨0, 1⟩, ⟨1, 1⟩, ⟨1, 0⟩], [⟨4, 4⟩, ⟨4, 6⟩, ⟨6, 6⟩, ⟨6, 4⟩],
    [⟨8, 8⟩, ⟨8, 10⟩, ⟨10, 10⟩, ⟨10, 8⟩]]

def squaresCv : OpenCv UniformMat :=
    { OpenCv.uniform with findContours := fun _ _ _ => .ok squares }

theorem squares_areas : Areas squaresCv squares [1, 4, 4] := by
  have harea (c : Contour) {a : ℚ} (h : |shoelace c| / 2 = a) : squaresCv.contourArea c = .ok a :=
    congrArg Except.ok h
  exact .cons (harea _ (by decide +kernel)) (.cons (harea _ (by decide +kernel))
    (.cons (harea _ (by decide +kernel)) .nil))

theorem findCenters_largest_squares :
    ∃ contour a mu, Largest squaresCv squares contour a ∧ squaresCv.moments contour = .ok mu ∧
      findCenters squaresCv (new squaresCv (1 / 3) (2 / 3)) =
        .ok ([⟨trunc (mu.m10 / mu.m00), trunc (mu.m01 / mu.m00)⟩],
          { new squaresCv (1 / 3) (2 / 3) with contour }) := by
  have hdoc : squaresCv.Documented :=
    ⟨uniform_documented.area_nonneg, uniform_documented.moments_area⟩
  have hmoments : ∀ c ∈ squares, ∃ mu, squaresCv.moments c = .ok mu := fun _ _ => ⟨_, rfl⟩
  exact (findCenters_largest hdoc rfl squares_areas hmoments).2 ⟨1, List.mem_cons_self, one_pos⟩

example : (findCenters squaresCv (new squaresCv (1 / 3) (2 / 3))).toOption.map Prod.fst =
    some [⟨5, 5⟩] := by
  decide +kernel

end ContourFinding

end LineFollower
