import LineFollower.Lib.Rounding
import Mathlib.Data.Rat.Floor
import Mathlib.Data.List.Rotate
import Mathlib.Data.Sign.Basic
import Mathlib.Tactic.Positivity

/-!
# OpenCV

The calls that the robot makes, as a parameter. A call returns or throws; a
`Mat` is a value, since every filter of the pipeline writes a new buffer.
`Documented` is what the robot relies on about areas and moments, `Geometric`
about sizes and places.
-/

namespace LineFollower

open Lib

structure Point where
  x : ℤ
  y : ℤ
  deriving DecidableEq, Repr

instance : Add Point where
  add p q := ⟨p.x + q.x, p.y + q.y⟩

structure Size where
  width : ℤ
  height : ℤ
  deriving DecidableEq, Repr

structure Rect where
  x : ℤ
  y : ℤ
  width : ℤ
  height : ℤ
  deriving DecidableEq, Repr

def Rect.ofPoints (p q : Point) : Rect :=
  ⟨min p.x q.x, min p.y q.y, max p.x q.x - min p.x q.x, max p.y q.y - min p.y q.y⟩

structure Scalar where
  blue : ℤ
  green : ℤ
  red : ℤ
  deriving DecidableEq, Repr

structure Moments where
  m00 : ℚ
  m10 : ℚ
  m01 : ℚ
  deriving DecidableEq

abbrev Contour := List Point

structure CvException where
  code : ℤ
  deriving DecidableEq, Repr

/-- What ends an iteration early. All but the first are undefined behaviour. -/
inductive Fault
  | cvException (e : CvException)
  | divisionByZero
  | indexOutOfRange
  | overflow
  deriving DecidableEq, Repr

def Fault.Undefined : Fault → Prop
  | .cvException _ => False
  | .divisionByZero => True
  | .indexOutOfRange => True
  | .overflow => True

abbrev Cv := Except CvException

structure OpenCv (Mat : Type) where
  /-- `Mat()` -/
  noMat : Mat
  empty : Mat → Bool
  rows : Mat → ℤ
  cols : Mat → ℤ
  pixel : Mat → ℤ → ℤ → ℕ
  resize : Mat → Size → (fx fy : ℚ) → (interpolation : ℤ) → Cv Mat
  crop : Mat → Rect → Cv Mat
  cvtColor : Mat → (code : ℤ) → Cv Mat
  getStructuringElement : (shape : ℤ) → Size → (anchor : Point) → Cv Mat
  erode : Mat → (element : Mat) → Cv Mat
  dilate : Mat → (element : Mat) → Cv Mat
  threshold : Mat → (thresh maxval type : ℤ) → Cv Mat
  findContours : Mat → (mode method : ℤ) → Cv (List Contour)
  contourArea : Contour → Cv ℚ
  moments : Contour → Cv Moments
  drawContours : Mat → List Contour → (contourIdx : ℤ) → Scalar → (thickness lineType : ℤ) → Cv Mat
  rectangle : Mat → Point → Point → Scalar → (thickness lineType : ℤ) → Cv Mat
  circle : Mat → Point → (radius : ℤ) → Scalar → (thickness lineType : ℤ) → Cv Mat
  line : Mat → Point → Point → Scalar → (thickness : ℤ) → Cv Mat

def interCubic : ℤ := 2
def colorRgb2Gray : ℤ := 7
def morphRect : ℤ := 0
def threshBinaryInv : ℤ := 1
def retrExternal : ℤ := 0
def chainApproxSimple : ℤ := 2

structure OpenCv.Documented {Mat : Type} (cv : OpenCv Mat) : Prop where
  area_nonneg : ∀ {c a}, cv.contourArea c = .ok a → 0 ≤ a
  moments_area : ∀ {c mu a}, cv.moments c = .ok mu → cv.contourArea c = .ok a → mu.m00 = a

/-- A part of an image, perhaps an empty one. -/
structure Rect.Inside (r : Rect) (rows cols : ℤ) : Prop where
  left : 0 ≤ r.x
  width : 0 ≤ r.width
  right : r.x + r.width ≤ cols
  top : 0 ≤ r.y
  height : 0 ≤ r.height
  bottom : r.y + r.height ≤ rows

/-- What the robot relies on about sizes and places. OpenCV leaves no column of
an empty part, whatever its width. -/
structure OpenCv.Geometric {Mat : Type} (cv : OpenCv Mat) : Prop where
  crop_inside : ∀ {m r}, r.Inside (cv.rows m) (cv.cols m) → ∃ m', cv.crop m r = .ok m'
  crop_cols : ∀ {m r m'}, cv.crop m r = .ok m' → cv.cols m' ≤ r.width
  crop_size : ∀ {m r m'}, cv.crop m r = .ok m' → 0 < r.width → 0 < r.height →
    cv.rows m' = r.height ∧ cv.cols m' = r.width
  crop_pixel : ∀ {m r m'}, cv.crop m r = .ok m' → ∀ {x y}, 0 ≤ x → x < r.width → 0 ≤ y →
    y < r.height → cv.pixel m' y x = cv.pixel m (y + r.y) (x + r.x)
  cvtColor_cols : ∀ {m code m'}, cv.cvtColor m code = .ok m' → cv.cols m' = cv.cols m
  erode_cols : ∀ {m element m'}, cv.erode m element = .ok m' → cv.cols m' = cv.cols m
  dilate_cols : ∀ {m element m'}, cv.dilate m element = .ok m' → cv.cols m' = cv.cols m
  threshold_cols : ∀ {m thresh maxval type m'}, cv.threshold m thresh maxval type = .ok m' →
    cv.cols m' = cv.cols m
  contour_inside : ∀ {m contours}, cv.findContours m retrExternal chainApproxSimple = .ok contours →
    ∀ c ∈ contours, ∀ p ∈ c, 0 ≤ p.x ∧ p.x < cv.cols m
  /-- The centroid of a contour lies between points of it. -/
  centroid_between : ∀ {m contours}, cv.findContours m retrExternal chainApproxSimple =
    .ok contours →
    ∀ c ∈ contours, ∀ {mu}, cv.moments c = .ok mu → mu.m00 ≠ 0 →
    ∃ p ∈ c, ∃ q ∈ c, (p.x : ℚ) ≤ mu.m10 / mu.m00 ∧ mu.m10 / mu.m00 ≤ q.x

-- ---------------------------------------------------------------------------
-- Calls and faults
-- ---------------------------------------------------------------------------

def call : Cv α → Except Fault α
  | .ok a => .ok a
  | .error e => .error (.cvException e)

/-- `v[i]`, which the language does not check. -/
def index (v : List α) (i : ℕ) : Except Fault α :=
  match v[i]? with
  | some a => .ok a
  | none => .error .indexOutOfRange

def divide (p q : ℚ) : Except Fault ℚ := if q = 0 then .error .divisionByZero else .ok (p / q)

@[simp] theorem call_ok {x : Cv α} {a : α} : call x = .ok a ↔ x = .ok a := by
  cases x <;> simp [call]

theorem call_error {x : Cv α} {f : Fault} (h : call x = .error f) : ¬ f.Undefined := by
  cases x with
  | ok a => simp [call] at h
  | error e =>
    simp only [call, Except.error.injEq] at h
    exact h ▸ id

theorem except_bind_ok {x : Except ε α} {f : α → Except ε β} {b : β} :
    x >>= f = .ok b ↔ ∃ a, x = .ok a ∧ f a = .ok b := by
  cases x <;> simp [bind, Except.bind]

theorem except_bind_error {x : Except ε α} {f : α → Except ε β} {e : ε} :
    x >>= f = .error e ↔ x = .error e ∨ ∃ a, x = .ok a ∧ f a = .error e := by
  cases x <;> simp [bind, Except.bind]

/-- A computation that ends early in an exception only. -/
def Defined (x : Except Fault α) : Prop := ∀ f, x = .error f → ¬ f.Undefined

theorem Defined.call (x : Cv α) : Defined (call x) := fun _ h => call_error h

theorem Defined.ok (a : α) : Defined (.ok a) := fun _ h => nomatch h

theorem Defined.bind {x : Except Fault α} {f : α → Except Fault β} (hx : Defined x)
    (hf : ∀ a, Defined (f a)) : Defined (x >>= f) := by
  intro e h
  rcases except_bind_error.mp h with h | ⟨a, -, h⟩
  · exact hx e h
  · exact hf a e h

theorem call_replace_ok {x : Cv α} {g : α → β} {b : β} :
    (do return g (← LineFollower.call x) : Except Fault β) = .ok b ↔ ∃ a, x = .ok a ∧ g a = b := by
  simp only [except_bind_ok, call_ok, pure, Except.pure, Except.ok.injEq]

-- ---------------------------------------------------------------------------
-- Frames of one value
-- ---------------------------------------------------------------------------

/-- A frame whose pixels all have one value, drawings apart. -/
structure UniformMat where
  rows : ℤ
  cols : ℤ
  value : ℕ
  deriving DecidableEq, Repr

def crossProducts (c : Contour) : List (ℚ × ℚ × ℚ) :=
  (c.zip (c.rotate 1)).map fun (p, q) =>
  ((p.x * q.y - q.x * p.y : ℤ), (p.x + q.x : ℤ), (p.y + q.y : ℤ))

def shoelace (c : Contour) : ℚ := ((crossProducts c).map Prod.fst).sum

def polygonMoments (c : Contour) : Moments where
  m00 := |shoelace c| / 2
  m10 := SignType.sign (shoelace c) * ((crossProducts c).map fun (d, x, _) => d * x).sum / 6
  m01 := SignType.sign (shoelace c) * ((crossProducts c).map fun (d, _, y) => d * y).sum / 6

def OpenCv.uniform : OpenCv UniformMat where
  noMat := ⟨0, 0, 0⟩
  empty m := decide (m.rows ≤ 0 ∨ m.cols ≤ 0)
  rows := UniformMat.rows
  cols := UniformMat.cols
  pixel m _ _ := m.value
  resize m _ fx fy _ :=
    if m.rows ≤ 0 ∨ m.cols ≤ 0 then .error ⟨-215⟩
    else .ok { m with rows := roundAway (m.rows * fy), cols := roundAway (m.cols * fx) }
  crop m r :=
    if 0 ≤ r.x ∧ 0 ≤ r.width ∧ r.x + r.width ≤ m.cols ∧
        0 ≤ r.y ∧ 0 ≤ r.height ∧ r.y + r.height ≤ m.rows then
      .ok { m with rows := r.height, cols := r.width }
    else .error ⟨-215⟩
  cvtColor m _ := .ok m
  getStructuringElement _ size _ := .ok ⟨size.height, size.width, 1⟩
  erode m _ := .ok m
  dilate m _ := .ok m
  threshold m thresh maxval _ :=
    .ok { m with value := if m.value > thresh then 0 else maxval.toNat }
  findContours m _ _ :=
    .ok (if m.value = 0 ∨ m.rows ≤ 0 ∨ m.cols ≤ 0 then []
      else [[⟨0, 0⟩, ⟨0, m.rows - 1⟩, ⟨m.cols - 1, m.rows - 1⟩, ⟨m.cols - 1, 0⟩].dedup])
  contourArea c := .ok (|shoelace c| / 2)
  moments c := .ok (polygonMoments c)
  drawContours m _ _ _ _ _ := .ok m
  rectangle m _ _ _ _ _ := .ok m
  circle m _ _ _ _ _ := .ok m
  line m _ _ _ _ := .ok m

theorem uniform_documented : OpenCv.uniform.Documented where
  area_nonneg h := by
    obtain rfl := Except.ok.inj h
    positivity
  moments_area hm ha := by
    obtain rfl := Except.ok.inj hm
    obtain rfl := Except.ok.inj ha
    rfl

theorem shoelace_eq_zero {c : Contour} (h : ∀ p ∈ c, ∀ q ∈ c, p.x * q.y - q.x * p.y = 0) :
    shoelace c = 0 := by
  refine List.sum_eq_zero fun d hd => ?_
  simp only [crossProducts, List.map_map, List.mem_map, Prod.exists, Function.comp_apply] at hd
  obtain ⟨p, q, hpq, rfl⟩ := hd
  obtain ⟨hp, hq⟩ := List.of_mem_zip hpq
  exact_mod_cast h p hp q (List.mem_rotate.mp hq)

/-- The contour that OpenCV finds around a whole image. -/
def borderContour (rows cols : ℤ) : Contour :=
  [⟨0, 0⟩, ⟨0, rows - 1⟩, ⟨cols - 1, rows - 1⟩, ⟨cols - 1, 0⟩].dedup

theorem mem_borderContour {rows cols : ℤ} {p : Point} :
    p ∈ borderContour rows cols ↔
      (p.x = 0 ∨ p.x = cols - 1) ∧ (p.y = 0 ∨ p.y = rows - 1) := by
  obtain ⟨x, y⟩ := p
  simp only [borderContour, List.mem_dedup, List.mem_cons, Point.mk.injEq,
    List.not_mem_nil, or_false]
  tauto

theorem borderContour_eq {rows cols : ℤ} (hrows : 1 < rows) (hcols : 1 < cols) :
    borderContour rows cols = [⟨0, 0⟩, ⟨0, rows - 1⟩, ⟨cols - 1, rows - 1⟩, ⟨cols - 1, 0⟩] := by
  refine List.dedup_eq_self.mpr ?_
  simp
  omega

theorem borderContour_flat {rows cols : ℤ} (h : rows = 1 ∨ cols = 1) :
    (polygonMoments (borderContour rows cols)).m00 = 0 := by
  have hzero : shoelace (borderContour rows cols) = 0 := by
    refine shoelace_eq_zero fun p hp q hq => ?_
    obtain ⟨hpx, hpy⟩ := mem_borderContour.mp hp
    obtain ⟨hqx, hqy⟩ := mem_borderContour.mp hq
    rcases h with rfl | rfl
    · have hpy' : p.y = 0 := by omega
      have hqy' : q.y = 0 := by omega
      simp [hpy', hqy']
    · have hpx' : p.x = 0 := by omega
      have hqx' : q.x = 0 := by omega
      simp [hpx', hqx']
  simp [polygonMoments, hzero]

theorem borderContour_centroid {rows cols : ℤ} (hrows : 1 < rows) (hcols : 1 < cols) :
    (polygonMoments (borderContour rows cols)).m10 /
    (polygonMoments (borderContour rows cols)).m00 =
      (cols - 1 : ℚ) / 2 := by
  obtain ⟨h, rfl⟩ : ∃ h, rows = h + 1 := ⟨rows - 1, by ring⟩
  obtain ⟨w, rfl⟩ : ∃ w, cols = w + 1 := ⟨cols - 1, by ring⟩
  have hh : (0 : ℚ) < h := by exact_mod_cast (by omega : 0 < h)
  have hw : (0 : ℚ) < w := by exact_mod_cast (by omega : 0 < w)
  have hloop : crossProducts (borderContour (h + 1) (w + 1)) =
      ([(0, 0, h), (-(w * h), w, 2 * h), (-(w * h), 2 * w, h), (0, w, 0)] : List (ℚ × ℚ × ℚ)) := by
    rw [borderContour_eq hrows hcols]
    simp [crossProducts, List.rotate, two_mul]
  have hshoe : shoelace (borderContour (h + 1) (w + 1)) = -(2 * (w * h)) := by
    simp only [shoelace, hloop, List.map_cons, List.map_nil, List.sum_cons, List.sum_nil]
    ring
  have harea : (0 : ℚ) < w * h := mul_pos hw hh
  have hsign : SignType.sign (-(2 * (w * h)) : ℚ) = -1 := sign_neg (by linarith)
  have habs : |-(2 * (w * h : ℚ))| = 2 * (w * h) := by rw [abs_neg, abs_of_pos (by linarith)]
  simp only [polygonMoments, hshoe, hsign, habs, hloop, List.map_cons, List.map_nil, List.sum_cons,
    List.sum_nil, SignType.coe_neg, SignType.coe_one, Int.cast_add, Int.cast_one]
  field_simp
  ring

theorem uniform_crop {m m' : UniformMat} {r : Rect} (h : OpenCv.uniform.crop m r = .ok m') :
    m' = { m with rows := r.height, cols := r.width } := by
  simp only [OpenCv.uniform] at h
  split at h
  · exact (Except.ok.inj h).symm
  · cases h

theorem uniform_contour {m : UniformMat} {mode method : ℤ} {contours : List Contour} {c : Contour}
    (h : OpenCv.uniform.findContours m mode method = .ok contours) (hc : c ∈ contours) :
    c = borderContour m.rows m.cols ∧ 0 < m.rows ∧ 0 < m.cols := by
  obtain rfl := Except.ok.inj h
  split at hc
  · cases hc
  · rename_i hwhite
    exact ⟨List.mem_singleton.mp hc, by omega, by omega⟩

theorem uniform_geometric : OpenCv.uniform.Geometric where
  crop_inside h := ⟨_, if_pos ⟨h.left, h.width, h.right, h.top, h.height, h.bottom⟩⟩
  crop_cols h := by
    obtain rfl := uniform_crop h
    exact le_rfl
  crop_size h _ _ := by
    obtain rfl := uniform_crop h
    exact ⟨rfl, rfl⟩
  crop_pixel h := by
    obtain rfl := uniform_crop h
    intros
    rfl
  cvtColor_cols h := by
    obtain rfl := Except.ok.inj h
    rfl
  erode_cols h := by
    obtain rfl := Except.ok.inj h
    rfl
  dilate_cols h := by
    obtain rfl := Except.ok.inj h
    rfl
  threshold_cols h := by
    obtain rfl := Except.ok.inj h
    rfl
  contour_inside {m contours} h c hc p hp := by
    obtain ⟨rfl, hrows, hcols⟩ := uniform_contour h hc
    have hx := (mem_borderContour.mp hp).1
    change 0 ≤ p.x ∧ p.x < m.cols
    omega
  centroid_between {m contours} h c hc mu hmu hm := by
    obtain ⟨rfl, hrows, hcols⟩ := uniform_contour h hc
    obtain rfl := Except.ok.inj hmu
    have hflat : ¬ (m.rows = 1 ∨ m.cols = 1) := fun hflat => hm (borderContour_flat hflat)
    have hmean := @borderContour_centroid m.rows m.cols (by omega) (by omega)
    have hright : (1 : ℚ) ≤ m.cols := by exact_mod_cast hcols
    refine ⟨⟨0, 0⟩, mem_borderContour.mpr ⟨.inl rfl, .inl rfl⟩, ⟨m.cols - 1, 0⟩,
      mem_borderContour.mpr ⟨.inr rfl, .inl rfl⟩, ?_, ?_⟩
    · rw [hmean]
      push_cast
      linarith
    · rw [hmean]
      push_cast
      linarith

end LineFollower
