import LineFollower.Camera.ContourFinding
import LineFollower.Camera.CenterFinding
import LineFollower.Server.Steering

/-!
# The main loop

One iteration of `main` turns a camera frame into a frame for the streamer
and, with method 1, into the two speeds of `setSpeed`. `centers[0]` is read
without a check.
-/

namespace LineFollower

variable {Mat : Type} (cv : OpenCv Mat)

structure Finders (Mat : Type) where
  contourFinder : ContourFinding Mat
  centerFinder : CenterFinding Mat
  deriving DecidableEq

def Finders.new : Finders Mat where
  contourFinder := .new cv (1 / 3) (2 / 3)
  centerFinder := .new cv 6

/-- `src.empty() || src.cols == -1 || src.rows == -1` -/
def noImage (src : Mat) : Bool := cv.empty src || cv.cols src == -1 || cv.rows src == -1

/-- The block for method 1: the frame pushed and the speeds. -/
def followContour (finder : ContourFinding Mat) (src : Mat) :
    Except Fault (ContourFinding Mat × Mat × (ℤ × ℤ)) := do
  let finder := finder.setFrame cv src
  let finder := finder.setScaleFactor (3 / 10)
  let finder := finder.setThreshold 50
  let (centers, finder) ← finder.findLineCenters cv
  let frame ← finder.drawPoints cv centers
  let cols := cv.cols finder.sourceFrame
  let first ← index centers 0
  return (finder, frame, commandedSpeeds cols first.x)

/-- The block for the other methods, which leaves the motors alone. -/
def followCenters (host : Host) (finder : CenterFinding Mat) (src : Mat) :
    Except Fault (CenterFinding Mat × Mat) := do
  let finder := finder.setFrame src
  let finder := finder.setScaleFactor (3 / 10)
  let (centers, finder) ← finder.findLineCenters cv
  let frame ← finder.drawPoints cv host centers
  return (finder, frame)

def iteration (host : Host) (method : ℤ) (finders : Finders Mat) (src : Mat) :
    Except Fault (Finders Mat × Mat × Option (ℤ × ℤ)) :=
  if method = 1 then do
    let (contourFinder, frame, speeds) ← followContour cv finders.contourFinder src
    return ({ finders with contourFinder }, frame, some speeds)
  else do
    let (centerFinder, frame) ← followCenters cv host finders.centerFinder src
    return ({ finders with centerFinder }, frame, none)

inductive LoopState (Mat : Type)
  | reading (finders : Finders Mat)
  | noImageData
  | stopped (f : Fault)
  deriving DecidableEq

/-- The loop on the frames that the camera has given so far. -/
def frameLoop (host : Host) (method : ℤ) : Finders Mat → List Mat → LoopState Mat
  | finders, [] => .reading finders
  | finders, src :: frames =>
    if noImage cv src then .noImageData
    else
      match iteration cv host method finders src with
      | .error f => .stopped f
      | .ok (finders, _, _) => frameLoop host method finders frames

variable {cv}

-- ---------------------------------------------------------------------------
-- One frame
-- ---------------------------------------------------------------------------

structure Configured (finder : ContourFinding Mat) : Prop where
  start : finder.pointFactorToStartCutting = 1 / 3
  finish : finder.pointFactorToFinishCutting = 2 / 3
  kernel : finder.max_kernel_size = 21

theorem Configured.same {a b : ContourFinding Mat} (h : Configured a)
    (hsame : ContourFinding.SameSetting a b) : Configured b :=
  ⟨hsame.start.trans h.start, hsame.finish.trans h.finish, hsame.kernel.trans h.kernel⟩

theorem configured_new : Configured (Finders.new cv).contourFinder := ⟨rfl, rfl, rfl⟩

def loaded (cv : OpenCv Mat) (finder : ContourFinding Mat) (src : Mat) : ContourFinding Mat :=
  ((finder.setFrame cv src).setScaleFactor (3 / 10)).setThreshold 50

/-- Nothing of the frames before is left in a finder that has got the next. -/
theorem loaded_eq {finder : ContourFinding Mat} (h : Configured finder) (src : Mat) :
    loaded cv finder src = loaded cv (Finders.new cv).contourFinder src := by
  obtain ⟨hstart, hfinish, hkernel⟩ := h
  simp [loaded, ContourFinding.setThreshold, ContourFinding.setScaleFactor, ContourFinding.setFrame,
    ContourFinding.setCutting, Finders.new, ContourFinding.new, hstart, hfinish, hkernel]

theorem loaded_configured {finder : ContourFinding Mat} (h : Configured finder) (src : Mat) :
    Configured (loaded cv finder src) := ⟨h.start, h.finish, h.kernel⟩

/-- OpenCV finds no contour with an area in the frame, and throws neither
before nor, if there is no contour at all, while the frame is drawn on. -/
inductive LineLost (cv : OpenCv Mat) (src : Mat) : Prop
  | noContour {finder : ContourFinding Mat} {frame : Mat}
      (hbin : (loaded cv (Finders.new cv).contourFinder src).binarize cv = .ok finder)
      (hfound : cv.findContours finder.outputFrame retrExternal chainApproxSimple = .ok [])
      (hdraw : finder.drawPoints cv [] = .ok frame)
  | noArea {finder : ContourFinding Mat} {contour : Contour} {contours : List Contour}
      {mu : Moments}
      (hbin : (loaded cv (Finders.new cv).contourFinder src).binarize cv = .ok finder)
      (hfound : cv.findContours finder.outputFrame retrExternal chainApproxSimple =
        .ok (contour :: contours))
      (harea : ContourFinding.NoArea cv (contour :: contours))
      (hmu : cv.moments contour = .ok mu)

theorem followContour_eq (finder : ContourFinding Mat) (src : Mat) :
    followContour cv finder src = (do
      let finder ← (loaded cv finder src).binarize cv
      let (centers, finder) ← finder.findCenters cv
      let frame ← finder.drawPoints cv centers
      let first ← index centers 0
      return (finder, frame, commandedSpeeds (cv.cols finder.sourceFrame) first.x)) := by
  simp only [followContour, ContourFinding.findLineCenters, bind_assoc]
  rfl

theorem followContour_configured {finder finder' : ContourFinding Mat} {src frame : Mat}
    {speeds : ℤ × ℤ} (hconf : Configured finder)
    (h : followContour cv finder src = .ok (finder', frame, speeds)) : Configured finder' := by
  simp only [followContour_eq, except_bind_ok] at h
  obtain ⟨bin, hbin, ⟨centers, found⟩, hfind, _, -, first, -, h⟩ := h
  obtain ⟨rfl, -⟩ := Prod.mk.inj (Except.ok.inj h)
  have hsame := (ContourFinding.binarize_same hbin).trans (ContourFinding.findCenters_same hfind)
  exact (loaded_configured hconf src).same hsame

/-- An iteration is undefined exactly on the frames without an area. -/
theorem followContour_undefined (hdoc : cv.Documented) {finder : ContourFinding Mat}
    (hconf : Configured finder) (src : Mat) :
    (∃ f, followContour cv finder src = .error f ∧ f.Undefined) ↔ LineLost cv src := by
  simp only [followContour_eq, loaded_eq hconf, except_bind_error]
  constructor
  · rintro ⟨f, h |
      ⟨bin, hbin, h | ⟨⟨centers, found⟩, hfind, h | ⟨frame, hdraw, h | ⟨first, -, h⟩⟩⟩⟩, hf⟩
    · exact absurd hf (ContourFinding.binarize_defined _ f h)
    · rcases ContourFinding.findCenters_cases hdoc bin with
        ⟨f', hfind, hf'⟩ | ⟨-, hfind⟩ | ⟨_, _, _, _, -, -, -, hfind⟩ |
        ⟨contour, cs, mu, hfound, harea, hmu, -⟩
      · rw [hfind] at h
        exact absurd (Except.error.inj h ▸ hf) hf'
      · rw [hfind] at h
        cases h
      · rw [hfind] at h
        cases h
      · exact .noArea hbin hfound harea hmu
    · exact absurd hf (ContourFinding.drawPoints_defined _ _ f h)
    · obtain ⟨contours, hfound, ⟨rfl, rfl, rfl⟩ | ⟨_, _, _, -, -, -, rfl, -⟩⟩ :=
        ContourFinding.findCenters_found hdoc hfind
      · exact .noContour hbin hfound hdraw
      · cases h
    · cases h
  · rintro (⟨hbin, hfound, hdraw⟩ | ⟨hbin, hfound, harea, hmu⟩)
    · have hfind := ContourFinding.findCenters_noContour hfound
      exact ⟨.indexOutOfRange, .inr ⟨_, hbin, .inr ⟨_, hfind, .inr ⟨_, hdraw, .inl rfl⟩⟩⟩, trivial⟩
    · have hfind := ContourFinding.findCenters_noArea hdoc hfound harea hmu
      exact ⟨.divisionByZero, .inr ⟨_, hbin, .inl hfind⟩, trivial⟩

-- ---------------------------------------------------------------------------
-- All frames
-- ---------------------------------------------------------------------------

variable {host : Host}

theorem iteration_one {finders : Finders Mat} {src : Mat} :
    iteration cv host 1 finders src = (do
      let (contourFinder, frame, speeds) ← followContour cv finders.contourFinder src
      return ({ finders with contourFinder }, frame, some speeds)) := by
  rw [iteration, if_pos rfl]

theorem iteration_undefined (hdoc : cv.Documented) {finders : Finders Mat}
    (hconf : Configured finders.contourFinder) (src : Mat) :
    (∃ f, iteration cv host 1 finders src = .error f ∧ f.Undefined) ↔ LineLost cv src := by
  rw [← followContour_undefined hdoc hconf, iteration_one]
  simp only [except_bind_error]
  constructor
  · rintro ⟨f, h | ⟨_, -, h⟩, hf⟩
    · exact ⟨f, h, hf⟩
    · cases h
  · rintro ⟨f, h, hf⟩
    exact ⟨f, .inl h, hf⟩

theorem iteration_configured {finders finders' : Finders Mat} {src frame : Mat}
    {speeds : Option (ℤ × ℤ)} (hconf : Configured finders.contourFinder)
    (h : iteration cv host 1 finders src = .ok (finders', frame, speeds)) :
    Configured finders'.contourFinder := by
  rw [iteration_one] at h
  obtain ⟨⟨finder, frame', lr⟩, hfollow, h⟩ := except_bind_ok.mp h
  obtain ⟨rfl, -⟩ := Prod.mk.inj (Except.ok.inj h)
  exact followContour_configured hconf hfollow

theorem frameLoop_cons {method : ℤ} {finders finders' : Finders Mat} {src frame : Mat}
    {speeds : Option (ℤ × ℤ)} (himage : noImage cv src = false)
    (h : iteration cv host method finders src = .ok (finders', frame, speeds)) (frames : List Mat) :
    frameLoop cv host method finders (src :: frames) =
      frameLoop cv host method finders' frames := by
  simp [frameLoop, himage, h]

/-- The loop, from these finders, comes to a frame in which the line is lost. -/
def ComesToLost (cv : OpenCv Mat) (host : Host) (finders : Finders Mat) (frames : List Mat) :
    Prop :=
  ∃ pre src post finders', frames = pre ++ src :: post ∧
    frameLoop cv host 1 finders pre = .reading finders' ∧ noImage cv src = false ∧ LineLost cv src

theorem not_comesToLost_nil {finders : Finders Mat} : ¬ ComesToLost cv host finders [] := by
  rintro ⟨pre, src, post, -, h, -⟩
  simp at h

theorem not_comesToLost_noImage {finders : Finders Mat} {src : Mat} {frames : List Mat}
    (himage : noImage cv src = true) : ¬ ComesToLost cv host finders (src :: frames) := by
  rintro ⟨pre, src', post, finders', hsplit, hpre, himage', -⟩
  cases pre with
  | nil =>
    obtain ⟨rfl, -⟩ := List.cons.inj hsplit
    rw [himage] at himage'
    cases himage'
  | cons first pre =>
    obtain ⟨rfl, -⟩ := List.cons.inj hsplit
    simp [frameLoop, himage] at hpre

theorem comesToLost_of_lost {finders : Finders Mat} {src : Mat} {frames : List Mat}
    (himage : noImage cv src = false) (hlost : LineLost cv src) :
    ComesToLost cv host finders (src :: frames) :=
  ⟨[], src, frames, finders, rfl, rfl, himage, hlost⟩

theorem comesToLost_error {finders : Finders Mat} {src : Mat} {frames : List Mat} {f : Fault}
    (himage : noImage cv src = false) (hit : iteration cv host 1 finders src = .error f) :
    ComesToLost cv host finders (src :: frames) ↔ LineLost cv src := by
  refine ⟨?_, comesToLost_of_lost himage⟩
  rintro ⟨pre, src', post, finders', hsplit, hpre, -, hlost⟩
  cases pre with
  | nil =>
    obtain ⟨rfl, -⟩ := List.cons.inj hsplit
    exact hlost
  | cons first pre =>
    obtain ⟨rfl, -⟩ := List.cons.inj hsplit
    simp [frameLoop, himage, hit] at hpre

theorem comesToLost_ok {finders next : Finders Mat} {src frame : Mat} {frames : List Mat}
    {speeds : Option (ℤ × ℤ)} (himage : noImage cv src = false)
    (hit : iteration cv host 1 finders src = .ok (next, frame, speeds))
    (hline : ¬ LineLost cv src) :
    ComesToLost cv host finders (src :: frames) ↔ ComesToLost cv host next frames := by
  constructor
  · rintro ⟨pre, src', post, finders', hsplit, hpre, himage', hlost⟩
    cases pre with
    | nil =>
      obtain ⟨rfl, -⟩ := List.cons.inj hsplit
      exact absurd hlost hline
    | cons first pre =>
      obtain ⟨rfl, rfl⟩ := List.cons.inj hsplit
      rw [frameLoop_cons himage hit] at hpre
      exact ⟨pre, src', post, finders', rfl, hpre, himage', hlost⟩
  · rintro ⟨pre, src', post, finders', rfl, hpre, himage', hlost⟩
    refine ⟨src :: pre, src', post, finders', rfl, ?_, himage', hlost⟩
    rw [frameLoop_cons himage hit, hpre]

/-- A run of the loop is undefined exactly when it comes to a frame in which
the line is lost. -/
theorem frameLoop_undefined (hdoc : cv.Documented) {finders : Finders Mat}
    (hconf : Configured finders.contourFinder) (frames : List Mat) :
    (∃ f, frameLoop cv host 1 finders frames = .stopped f ∧ f.Undefined) ↔
      ComesToLost cv host finders frames := by
  induction frames generalizing finders with
  | nil =>
    refine iff_of_false ?_ not_comesToLost_nil
    rintro ⟨f, h, -⟩
    cases h
  | cons src frames ih =>
    have hundef : (∃ f, iteration cv host 1 finders src = .error f ∧ f.Undefined) ↔
        LineLost cv src :=
      iteration_undefined hdoc hconf src
    cases himage : noImage cv src with
    | true =>
      refine iff_of_false ?_ (not_comesToLost_noImage himage)
      rintro ⟨f, h, -⟩
      simp [frameLoop, himage] at h
    | false =>
      cases hit : iteration cv host 1 finders src with
      | error f =>
        rw [comesToLost_error himage hit, ← hundef, hit]
        simp [frameLoop, himage, hit]
      | ok out =>
        obtain ⟨next, frame, speeds⟩ := out
        have hline : ¬ LineLost cv src := by
          rw [← hundef, hit]
          rintro ⟨f, h, -⟩
          cases h
        rw [frameLoop_cons himage hit, ih (iteration_configured hconf hit),
          comesToLost_ok himage hit hline]

/-- With method 1 the loop of `main` reaches no undefined operation, in any
run, as long as it comes to no frame in which the line is lost, and only
then. -/
theorem frameLoop_defined_iff {Mat : Type} (cv : OpenCv Mat) (hdoc : cv.Documented) (host : Host)
    (frames : List Mat) :
    (∀ f, frameLoop cv host 1 (.new cv) frames = .stopped f → ¬ f.Undefined) ↔
      ∀ pre src post finders, frames = pre ++ src :: post →
        frameLoop cv host 1 (.new cv) pre = .reading finders → noImage cv src = false →
        ¬ LineLost cv src := by
  have hconf : Configured (Finders.new cv).contourFinder := configured_new
  have h : (∃ f, frameLoop cv host 1 (.new cv) frames = .stopped f ∧ f.Undefined) ↔
      ComesToLost cv host (.new cv) frames := frameLoop_undefined hdoc hconf frames
  constructor
  · intro hdef pre src post finders hsplit hpre himage hlost
    obtain ⟨f, hstop, hf⟩ := h.mpr ⟨pre, src, post, finders, hsplit, hpre, himage, hlost⟩
    exact hdef f hstop hf
  · intro hline f hstop hf
    obtain ⟨pre, src, post, finders, hsplit, hpre, himage, hlost⟩ := h.mp ⟨f, hstop, hf⟩
    exact hline pre src post finders hsplit hpre himage hlost

theorem frameLoop_defined_black :
    (∀ f, frameLoop .uniform .lp64 1 (.new .uniform) [⟨480, 640, 0⟩] = .stopped f → ¬ f.Undefined) ↔
      ∀ pre src post finders, [⟨480, 640, 0⟩] = pre ++ src :: post →
        frameLoop .uniform .lp64 1 (.new .uniform) pre = .reading finders →
        noImage .uniform src = false → ¬ LineLost .uniform src :=
  frameLoop_defined_iff .uniform uniform_documented .lp64 [⟨480, 640, 0⟩]

/-- A white frame has no contour, and `centers[0]` is read all the same. -/
theorem frameLoop_white :
    OpenCv.uniform.Documented ∧
      frameLoop .uniform .lp64 1 (.new .uniform) [⟨480, 640, 255⟩] = .stopped .indexOutOfRange :=
  ⟨uniform_documented, by decide +kernel⟩

end LineFollower
