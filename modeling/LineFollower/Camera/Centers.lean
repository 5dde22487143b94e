import LineFollower.Camera.CenterFinding
import LineFollower.Lib.Counted
import Mathlib.Algebra.BigOperators.Ring.Finset
import Mathlib.Algebra.Order.BigOperators.Group.List

/-!
# What `findCenters` finds

The two loops of `findCenters` give one point for every row they read that has
a white pixel, the mean column of the white ones rounded down, and the rows
they read are in the image (`findCenters_spec`). `drawPoints` draws its line
where the centres' shares of the mean add up, each of them rounded down, so
the line can be as far from the mean as there are centres (`drawPoints_spec`).
-/

namespace LineFollower.CenterFinding

open Lib

variable {Mat : Type} (cv : OpenCv Mat)

-- ---------------------------------------------------------------------------
-- The loops with their accumulators
-- ---------------------------------------------------------------------------

def addPixels (frame : Mat) (row : ℤ) (n : ℕ) (sums : ℤ × ℤ) : Except Fault (ℤ × ℤ) :=
  (List.range n).foldlM
    (fun (sum, whitePixelCounter) (j : ℕ) => do
      if (← pixelAt cv frame row j) = 255 then
        return (← intSum (sum + j), ← intSum (whitePixelCounter + 1))
      else return (sum, whitePixelCounter))
    sums

structure Scan where
  centers : List Point
  sum : ℤ
  whitePixelCounter : ℤ

def scanRow (frame : Mat) (spaceWidth : ℤ) (s : Scan) (i : ℕ) : Except Fault Scan := do
  let row := (i + 1) * spaceWidth
  let (sum, whitePixelCounter) ←
    addPixels cv frame row (cv.cols frame).toNat (s.sum, s.whitePixelCounter)
  if whitePixelCounter ≠ 0 then
    return ⟨s.centers ++ [⟨sum.tdiv whitePixelCounter, row⟩], 0, 0⟩
  else return ⟨s.centers, 0, 0⟩

def scanRows (self : CenterFinding Mat) : Except Fault (List Point) := do
  let spaceWidth ← spaceWidth cv self
  let s ← (List.range self.numOfPoints.toNat).foldlM
    (scanRow cv self.outputFrame spaceWidth) ⟨[], 0, 0⟩
  return s.centers

-- ---------------------------------------------------------------------------
-- A row
-- ---------------------------------------------------------------------------

def whiteColumns (frame : Mat) (row : ℤ) (n : ℕ) : List ℕ :=
  (List.range n).filter fun j => cv.pixel frame row j = 255

/-- The mean column of the row's white pixels, rounded down, if there are any. -/
def rowCenter (frame : Mat) (row : ℤ) : Option Point :=
  let columns := whiteColumns cv frame row (cv.cols frame).toNat
  if columns = [] then none else some ⟨⌊(columns.sum : ℚ) / columns.length⌋, row⟩

variable {cv} {frame : Mat} {row : ℤ}

theorem range_cast (n : ℕ) :
    (do let j ← List.range n; pure (j : ℤ)) = (List.range n).map Int.ofNat := by
  rw [List.map_eq_flatMap]
  rfl

theorem whitePixels_eq (frame : Mat) (row : ℤ) :
    whitePixels cv frame row = addPixels cv frame row (cv.cols frame).toNat (0, 0) := by
  rw [whitePixels, range_cast, List.foldlM_map]
  rfl

theorem whiteColumns_succ (n : ℕ) :
    whiteColumns cv frame row (n + 1) =
      whiteColumns cv frame row n ++ if cv.pixel frame row n = 255 then [n] else [] := by
  simp [whiteColumns, List.range_succ, List.filter_singleton]

theorem mem_whiteColumns {n j : ℕ} :
    j ∈ whiteColumns cv frame row n ↔ j < n ∧ cv.pixel frame row j = 255 := by
  simp [whiteColumns]

/-- The sum of the white ones among `n` columns is below `n * n / 2`. -/
theorem two_mul_sum_le (cv : OpenCv Mat) (frame : Mat) (row : ℤ) (n : ℕ) :
    2 * (whiteColumns cv frame row n).sum + n ≤ n * n := by
  induction n with
  | zero => simp [whiteColumns]
  | succ n ih =>
    rw [whiteColumns_succ]
    split
    · rw [List.sum_append, List.sum_singleton]
      linarith
    · rw [List.append_nil]
      linarith

/-- With at most 65536 columns the accumulators stay in `int`. -/
theorem sums_fit {n : ℕ} (hn : n ≤ 65536) :
    FitsInt (whiteColumns cv frame row n).sum ∧ FitsInt (whiteColumns cv frame row n).length := by
  have hsum := two_mul_sum_le cv frame row n
  have hlen : (whiteColumns cv frame row n).length ≤ n := by
    simpa [whiteColumns] using List.length_filter_le _ (List.range n)
  have hsquare : n * n ≤ 65536 * n := Nat.mul_le_mul_right n hn
  constructor <;> constructor <;> omega

theorem ok_bind {α β : Type} (a : α) (f : α → Except Fault β) : (Except.ok a >>= f) = f a := rfl

theorem intSum_fits {n : ℤ} (h : FitsInt n) : intSum n = .ok n := if_pos h

theorem addPixels_eq (hrow : 0 ≤ row ∧ row < cv.rows frame) {n : ℕ} (hn : n ≤ cv.cols frame)
    (hfits : n ≤ 65536) :
    addPixels cv frame row n (0, 0) =
      .ok ((whiteColumns cv frame row n).sum, (whiteColumns cv frame row n).length) := by
  unfold addPixels
  refine foldlM_range_eq (m := Except Fault) (fun n => (((whiteColumns cv frame row n).sum : ℤ),
    ((whiteColumns cv frame row n).length : ℤ))) rfl fun j hj => ?_
  have hpixel : pixelAt cv frame row j = .ok (cv.pixel frame row j) := by
    rw [pixelAt, if_pos ⟨hrow.1, hrow.2, Int.natCast_nonneg j, by omega⟩]
  have hsums := @sums_fit _ cv frame row (j + 1) (Nat.succ_le_of_lt (hj.trans_le hfits))
  dsimp only
  by_cases hwhite : cv.pixel frame row j = 255
  · have hsum : ((whiteColumns cv frame row (j + 1)).sum : ℤ) =
        (whiteColumns cv frame row j).sum + j := by
      rw [whiteColumns_succ, if_pos hwhite, List.sum_append, List.sum_singleton, Nat.cast_add]
    have hcount : ((whiteColumns cv frame row (j + 1)).length : ℤ) =
        (whiteColumns cv frame row j).length + 1 := by
      rw [whiteColumns_succ, if_pos hwhite, List.length_append, List.length_singleton, Nat.cast_add,
        Nat.cast_one]
    rw [hsum, hcount] at hsums ⊢
    rw [hpixel, ok_bind, if_pos hwhite, intSum_fits hsums.1, ok_bind, intSum_fits hsums.2]
    rfl
  · rw [whiteColumns_succ, if_neg hwhite, List.append_nil, hpixel, ok_bind, if_neg hwhite]

theorem floor_mean (sum count : ℕ) : ⌊(sum : ℚ) / count⌋ = (sum : ℤ) / count := by
  rw [← Rat.floor_intCast_div_natCast, Int.cast_natCast]

theorem rowCenter_isSome :
    (rowCenter cv frame row).isSome ↔ ∃ j : ℕ, j < cv.cols frame ∧ cv.pixel frame row j = 255 := by
  simp only [rowCenter]
  split
  · rename_i hnone
    simp only [Option.isSome_none, Bool.false_eq_true, false_iff]
    rintro ⟨j, hj, hwhite⟩
    have hmem : j ∈ whiteColumns cv frame row (cv.cols frame).toNat :=
      mem_whiteColumns.mpr ⟨by omega, hwhite⟩
    rw [hnone] at hmem
    exact absurd hmem (List.not_mem_nil)
  · rename_i hsome
    obtain ⟨j, hmem⟩ := List.exists_mem_of_ne_nil _ hsome
    obtain ⟨hj, hwhite⟩ := mem_whiteColumns.mp hmem
    exact ⟨fun _ => ⟨j, by omega, hwhite⟩, fun _ => rfl⟩

theorem sum_between {lo hi : ℤ} {columns : List ℕ} (h : ∀ j ∈ columns, lo ≤ j ∧ j ≤ hi) :
    lo * columns.length ≤ columns.sum ∧ (columns.sum : ℤ) ≤ hi * columns.length := by
  induction columns with
  | nil => simp
  | cons j columns ih =>
    obtain ⟨hl, hu⟩ := ih fun k hk => h k (List.mem_cons_of_mem _ hk)
    obtain ⟨hjl, hju⟩ := h j List.mem_cons_self
    simp only [List.length_cons, List.sum_cons, Nat.cast_add, Nat.cast_one]
    constructor <;> linarith

theorem floor_mean_between {lo hi : ℤ} {columns : List ℕ} (hne : columns ≠ [])
    (h : ∀ j ∈ columns, lo ≤ j ∧ j ≤ hi) :
    lo ≤ ⌊(columns.sum : ℚ) / columns.length⌋ ∧ ⌊(columns.sum : ℚ) / columns.length⌋ ≤ hi := by
  obtain ⟨hl, hu⟩ := sum_between h
  have hpos : (0 : ℤ) < columns.length := by exact_mod_cast List.length_pos_iff.mpr hne
  rw [floor_mean]
  exact ⟨(Int.le_ediv_iff_mul_le hpos).mpr hl, Int.ediv_le_of_le_mul hpos hu⟩

-- ---------------------------------------------------------------------------
-- The rows
-- ---------------------------------------------------------------------------

theorem addPixels_centers (hrow : 0 ≤ row ∧ row < cv.rows frame) (hfits : cv.cols frame ≤ 65536) :
    ∃ sum whitePixelCounter,
      addPixels cv frame row (cv.cols frame).toNat (0, 0) = .ok (sum, whitePixelCounter) ∧
        rowCenter cv frame row =
          if whitePixelCounter ≠ 0 then some ⟨sum.tdiv whitePixelCounter, row⟩ else none := by
  rcases le_total 0 (cv.cols frame) with hcols | hcols
  · refine ⟨_, _, addPixels_eq hrow (Int.toNat_of_nonneg hcols).le (by omega), ?_⟩
    simp only [rowCenter, floor_mean, Int.tdiv_eq_ediv_of_nonneg (Int.natCast_nonneg _), ne_eq,
      Nat.cast_eq_zero, List.length_eq_zero_iff, ite_not]
  · rw [Int.toNat_of_nonpos hcols]
    refine ⟨0, 0, rfl, ?_⟩
    simp [rowCenter, whiteColumns, Int.toNat_of_nonpos hcols]

theorem scanRow_eq {spaceWidth : ℤ} {i : ℕ}
    (hrow : 0 ≤ (i + 1) * spaceWidth ∧ (i + 1) * spaceWidth < cv.rows frame)
    (hfits : cv.cols frame ≤ 65536) (centers : List Point) :
    scanRow cv frame spaceWidth ⟨centers, 0, 0⟩ i =
      .ok ⟨centers ++ (rowCenter cv frame ((i + 1) * spaceWidth)).toList, 0, 0⟩ := by
  obtain ⟨sum, whitePixelCounter, hsums, hcenter⟩ := addPixels_centers hrow hfits
  simp only [scanRow, hsums, hcenter, bind, Except.bind]
  split <;> simp [pure, Except.pure]

variable {self : CenterFinding Mat}

/-- The code divides the image's height into `numOfPoints + 1` strips. -/
theorem row_between (hrows : 1 ≤ cv.rows self.outputFrame) {i : ℤ} (hi : 1 ≤ i)
    (hle : i ≤ self.numOfPoints) :
    0 ≤ i * (cv.rows self.outputFrame / (self.numOfPoints + 1)) ∧
      i * (cv.rows self.outputFrame / (self.numOfPoints + 1)) < cv.rows self.outputFrame := by
  have hwidth : 0 ≤ cv.rows self.outputFrame / (self.numOfPoints + 1) :=
    Int.ediv_nonneg (by omega) (by omega)
  have hall : (self.numOfPoints + 1) * (cv.rows self.outputFrame / (self.numOfPoints + 1)) ≤
      cv.rows self.outputFrame := Int.mul_ediv_self_le (by omega)
  refine ⟨mul_nonneg (by omega) hwidth, ?_⟩
  rcases hwidth.eq_or_lt with hzero | hpos
  · rw [← hzero, mul_zero]
    omega
  · calc i * (cv.rows self.outputFrame / (self.numOfPoints + 1))
        < (self.numOfPoints + 1) * (cv.rows self.outputFrame / (self.numOfPoints + 1)) :=
          mul_lt_mul_of_pos_right (by omega) hpos
      _ ≤ cv.rows self.outputFrame := hall

def centersBelow (cv : OpenCv Mat) (self : CenterFinding Mat) (n : ℕ) : List Point :=
  (List.range n).filterMap fun i : ℕ =>
    rowCenter cv self.outputFrame
      ((i + 1 : ℤ) * (cv.rows self.outputFrame / (self.numOfPoints + 1)))

theorem centersBelow_succ (n : ℕ) :
    centersBelow cv self (n + 1) = centersBelow cv self n ++ (rowCenter cv self.outputFrame
      ((n + 1 : ℤ) * (cv.rows self.outputFrame / (self.numOfPoints + 1)))).toList := by
  rw [centersBelow, List.range_succ, List.filterMap_append]
  congr 1

section
variable (hrows : 1 ≤ cv.rows self.outputFrame)
include hrows

theorem spaceWidth_eq (hn : 0 ≤ self.numOfPoints) (hmax : self.numOfPoints < 2 ^ 31 - 1) :
    spaceWidth cv self = .ok (cv.rows self.outputFrame / (self.numOfPoints + 1)) := by
  have hstrips : self.numOfPoints + 1 ≠ 0 := by omega
  rw [spaceWidth, intSum_fits ⟨by omega, by omega⟩, ok_bind, if_neg hstrips,
    Int.tdiv_eq_ediv_of_nonneg (by omega)]
  rfl

theorem turn_between {i : ℕ} (hi : i < self.numOfPoints.toNat) :
    0 ≤ (i + 1 : ℤ) * (cv.rows self.outputFrame / (self.numOfPoints + 1)) ∧
      (i + 1 : ℤ) * (cv.rows self.outputFrame / (self.numOfPoints + 1)) <
        cv.rows self.outputFrame :=
  row_between hrows (by omega) (by omega)

theorem scanRows_eq (hcols : cv.cols self.outputFrame ≤ 65536) (hn : 0 ≤ self.numOfPoints)
    (hmax : self.numOfPoints < 2 ^ 31 - 1) :
    scanRows cv self = .ok (centersBelow cv self self.numOfPoints.toNat) := by
  have hloop : (List.range self.numOfPoints.toNat).foldlM
      (scanRow cv self.outputFrame (cv.rows self.outputFrame / (self.numOfPoints + 1))) ⟨[], 0, 0⟩ =
      .ok ⟨centersBelow cv self self.numOfPoints.toNat, 0, 0⟩ := by
    refine foldlM_range_eq (m := Except Fault) (fun n => Scan.mk (centersBelow cv self n) 0 0) rfl
      fun i hi => ?_
    rw [scanRow_eq (turn_between hrows hi) hcols, centersBelow_succ]
    rfl
  rw [scanRows, spaceWidth_eq hrows hn hmax, ok_bind, hloop]
  rfl

theorem findCenters_eq (hcols : cv.cols self.outputFrame ≤ 65536) (hn : 0 ≤ self.numOfPoints)
    (hmax : self.numOfPoints < 2 ^ 31 - 1) :
    findCenters cv self = .ok (centersBelow cv self self.numOfPoints.toNat) := by
  have hloop : (List.range self.numOfPoints.toNat).foldlM (fun (centers : List Point) (i : ℕ) => do
      let row := ((i : ℤ) + 1) * (cv.rows self.outputFrame / (self.numOfPoints + 1))
      let (sum, whitePixelCounter) ← whitePixels cv self.outputFrame row
      if whitePixelCounter ≠ 0 then return centers ++ [⟨sum.tdiv whitePixelCounter, row⟩]
      else return centers) [] = Except.ok (centersBelow cv self self.numOfPoints.toNat) := by
    refine foldlM_range_eq (m := Except Fault) (centersBelow cv self) rfl fun i hi => ?_
    obtain ⟨sum, whitePixelCounter, hsums, hcenter⟩ :=
      addPixels_centers (turn_between hrows hi) hcols
    rw [centersBelow_succ, hcenter]
    simp only [whitePixels_eq, hsums, bind, Except.bind]
    split <;> simp
  rw [findCenters, spaceWidth_eq hrows hn hmax, ok_bind, range_cast, List.foldlM_map]
  exact hloop

end

theorem centersBelow_ordinates (hrows : self.numOfPoints + 1 ≤ cv.rows self.outputFrame)
    (hn : 1 ≤ self.numOfPoints) (n : ℕ) :
    ((centersBelow cv self n).map Point.y).Pairwise (· < ·) := by
  have hwidth : 1 ≤ cv.rows self.outputFrame / (self.numOfPoints + 1) :=
    (Int.le_ediv_iff_mul_le (by omega)).mpr (by omega)
  rw [List.pairwise_map, centersBelow, List.pairwise_filterMap]
  apply List.pairwise_lt_range.imp
  intro i j hij p hp q hq
  have hy {row : ℤ} {p : Point} (h : rowCenter cv self.outputFrame row = some p) : p.y = row := by
    simp only [rowCenter] at h
    split at h
    · cases h
    · obtain rfl := Option.some.inj h
      rfl
  rw [hy hp, hy hq]
  exact mul_lt_mul_of_pos_right (by omega) (by omega)

/-- The centres are those of the rows `i * s` that have a white pixel, in the
order of `i`, for `s` the height of a strip. Every such row is in the image, no
sum leaves `int`, and a centre depends on its own row only, of whose white
columns it is the mean. -/
theorem findCenters_spec (cv : OpenCv Mat) (self : CenterFinding Mat)
    (hrows : 1 ≤ cv.rows self.outputFrame) (hcols : cv.cols self.outputFrame ≤ 65536)
    (hn : 1 ≤ self.numOfPoints) (hmax : self.numOfPoints < 2 ^ 31 - 1) :
    (findCenters cv self = .ok (centersBelow cv self self.numOfPoints.toNat) ∧
      scanRows cv self = .ok (centersBelow cv self self.numOfPoints.toNat)) ∧
    (∀ i, 1 ≤ i → i ≤ self.numOfPoints →
      0 ≤ i * (cv.rows self.outputFrame / (self.numOfPoints + 1)) ∧
        i * (cv.rows self.outputFrame / (self.numOfPoints + 1)) < cv.rows self.outputFrame) ∧
    (∀ row, 0 ≤ row → row < cv.rows self.outputFrame → ∀ n : ℕ, n ≤ cv.cols self.outputFrame →
      ∃ sum whitePixelCounter,
        addPixels cv self.outputFrame row n (0, 0) = .ok (sum, whitePixelCounter) ∧ FitsInt sum) ∧
    (∀ row, (rowCenter cv self.outputFrame row).isSome ↔
      ∃ j : ℕ, j < cv.cols self.outputFrame ∧ cv.pixel self.outputFrame row j = 255) ∧
    (∀ row p, rowCenter cv self.outputFrame row = some p →
      let columns := whiteColumns cv self.outputFrame row (cv.cols self.outputFrame).toNat
      p = ⟨⌊(columns.sum : ℚ) / columns.length⌋, row⟩ ∧
        ∀ lo hi : ℤ, (∀ j ∈ columns, lo ≤ j ∧ j ≤ hi) → lo ≤ p.x ∧ p.x ≤ hi) ∧
    (∀ row frame, cv.cols frame = cv.cols self.outputFrame →
      (∀ j, cv.pixel frame row j = cv.pixel self.outputFrame row j) →
      rowCenter cv frame row = rowCenter cv self.outputFrame row) ∧
    (self.numOfPoints + 1 ≤ cv.rows self.outputFrame →
      ((centersBelow cv self self.numOfPoints.toNat).map Point.y).Pairwise (· < ·)) := by
  have hstart : 0 ≤ self.numOfPoints := by omega
  refine ⟨⟨findCenters_eq hrows hcols hstart hmax, scanRows_eq hrows hcols hstart hmax⟩,
    fun i => row_between hrows, ?_, fun row => rowCenter_isSome, ?_, ?_,
    fun hstrips => centersBelow_ordinates hstrips hn _⟩
  · intro row hl hu n hle
    exact ⟨_, _, addPixels_eq ⟨hl, hu⟩ hle (by omega), (sums_fit (by omega)).1⟩
  · intro row p hp
    simp only [rowCenter] at hp
    split at hp
    · cases hp
    · rename_i hne
      obtain rfl := Option.some.inj hp
      exact ⟨rfl, fun lo hi => floor_mean_between hne⟩
  · intro row frame hcols' hpixels
    have hcolumns (n : ℕ) :
        whiteColumns cv frame row n = whiteColumns cv self.outputFrame row n := by
      simp only [whiteColumns, hpixels]
    rw [rowCenter, rowCenter, hcols', hcolumns]

theorem findCenters_spec_white :
    let white : CenterFinding UniformMat := { new .uniform 3 with outputFrame := ⟨480, 640, 255⟩ }
    findCenters .uniform white = .ok (centersBelow .uniform white 3) :=
  (findCenters_spec .uniform { new .uniform 3 with outputFrame := ⟨480, 640, 255⟩ } (by decide)
    (by decide) (by decide) (by decide)).1.1

/-- One point more than the strips can be counted for. -/
theorem findCenters_overflow :
    let white : CenterFinding UniformMat :=
      { new .uniform (2 ^ 31 - 1) with outputFrame := ⟨480, 640, 255⟩ }
    FitsInt white.numOfPoints ∧ 1 ≤ white.numOfPoints ∧ findCenters .uniform white =
      .error .overflow ∧
      scanRows .uniform white = .error .overflow :=
  ⟨by decide, by decide, rfl, rfl⟩

-- ---------------------------------------------------------------------------
-- The mean line
-- ---------------------------------------------------------------------------

variable {host : Host} {centers : List Point}

def lineAbscissa (host : Host) (centers : List Point) : ℤ :=
  trunc (centers.map fun center => (share host center.x centers.length : ℚ)).sum

theorem drawCenters_mean {size : ℕ} {frame frame' : Mat} {mean mean' : ℚ}
    (h : drawCenters cv host size frame mean centers = .ok (frame', mean')) :
    mean' = mean + (centers.map fun center => (share host center.x size : ℚ)).sum := by
  induction centers generalizing frame mean with
  | nil =>
    obtain ⟨-, rfl⟩ := Prod.mk.inj (Except.ok.inj h)
    simp
  | cons center centers ih =>
    obtain ⟨_, -, h⟩ := except_bind_ok.mp h
    obtain ⟨_, -, h⟩ := except_bind_ok.mp h
    rw [ih h, List.map_cons, List.sum_cons, add_assoc]

theorem drawPoints_eq (cv : OpenCv Mat) (host : Host) (self : CenterFinding Mat)
    (centers : List Point) :
    drawPoints cv host self centers = (do
      let (frame, _) ← drawCenters cv host centers.length self.sourceFrame 0 centers
      call (cv.line frame ⟨lineAbscissa host centers, 0⟩ ⟨lineAbscissa host centers, cv.rows frame⟩
        ⟨0, 0, 255⟩ 2)) := by
  unfold drawPoints
  cases h : drawCenters cv host centers.length self.sourceFrame 0 centers with
  | error fault => rfl
  | ok result =>
    obtain ⟨frame, mean⟩ := result
    have hmean := drawCenters_mean h
    rw [zero_add] at hmean
    subst hmean
    rfl

theorem share_eq {x : ℤ} (h0 : 0 ≤ x) (h : x < 2 ^ 31) (size : ℕ) :
    share host x size = x / size := by
  have hwidth : (2 : ℤ) ^ 31 ≤ 2 ^ host.longBits :=
    pow_le_pow_right₀ one_le_two (host.le_longBits.trans' (by decide))
  rw [share, Int.emod_eq_of_lt h0 (h.trans_le hwidth)]

theorem sum_shares (host : Host) (size : ℕ) (h : ∀ c ∈ centers, 0 ≤ c.x ∧ c.x < 2 ^ 31) :
    (centers.map Point.x).sum =
      size * (centers.map fun c => share host c.x size).sum +
        (centers.map fun c => c.x % (size : ℤ)).sum := by
  induction centers with
  | nil => simp
  | cons c centers ih =>
    obtain ⟨h0, hfits⟩ := h c List.mem_cons_self
    have hrest := ih fun d hd => h d (List.mem_cons_of_mem _ hd)
    simp only [List.map_cons, List.sum_cons, hrest, share_eq h0 hfits]
    linarith [Int.mul_ediv_add_emod c.x size]

/-- The line is less than a pixel from the mean exactly when the remainders
that the divisions drop are together less than a pixel's worth. -/
theorem drawPoints_spec (cv : OpenCv Mat) (host : Host) (self : CenterFinding Mat)
    (centers : List Point) (hne : centers ≠ []) (hx : ∀ c ∈ centers, 0 ≤ c.x ∧ c.x < 2 ^ 31) :
    (drawPoints cv host self centers = do
      let (frame, _) ← drawCenters cv host centers.length self.sourceFrame 0 centers
      call (cv.line frame ⟨lineAbscissa host centers, 0⟩ ⟨lineAbscissa host centers, cv.rows frame⟩
        ⟨0, 0, 255⟩ 2)) ∧
    (|(lineAbscissa host centers : ℚ) - (centers.map Point.x).sum / centers.length| < 1 ↔
      (centers.map fun c => c.x % (centers.length : ℤ)).sum < centers.length) := by
  refine ⟨drawPoints_eq cv host self centers, ?_⟩
  have hpos : (0 : ℚ) < centers.length := by exact_mod_cast List.length_pos_iff.mpr hne
  have hline :
      lineAbscissa host centers = (centers.map fun c => share host c.x centers.length).sum := by
    rw [lineAbscissa, ← trunc_intCast (α := ℚ) (centers.map _).sum]
    congr 1
    rw [Int.cast_list_sum, List.map_map]
    rfl
  have hsum := congrArg (Int.cast (R := ℚ)) (sum_shares host centers.length hx)
  have hrest : 0 ≤ (centers.map fun c => c.x % (centers.length : ℤ)).sum := by
    apply List.sum_nonneg
    intro r hr
    obtain ⟨c, -, rfl⟩ := List.mem_map.mp hr
    exact Int.emod_nonneg _ (by exact_mod_cast hpos.ne')
  have hdrop : (lineAbscissa host centers : ℚ) - (centers.map Point.x).sum / centers.length =
      -((centers.map fun c => c.x % (centers.length : ℤ)).sum / centers.length) := by
    rw [hline, hsum, Int.cast_add, Int.cast_mul, Int.cast_natCast, add_div,
      mul_div_cancel_left₀ _ hpos.ne']
    ring
  rw [hdrop, abs_neg, abs_of_nonneg (div_nonneg (by exact_mod_cast hrest) hpos.le), div_lt_one hpos]
  exact_mod_cast Iff.rfl

theorem drawPoints_spec_even :
    |(lineAbscissa .lp64 [⟨2, 120⟩, ⟨4, 240⟩] : ℚ) - ((2 + (4 + 0) : ℤ) : ℚ) / 2| < 1 ↔
      (2 % 2 + (4 % 2 + 0) : ℤ) < 2 :=
  (drawPoints_spec .uniform .lp64 (new .uniform 3) [⟨2, 120⟩, ⟨4, 240⟩] (by decide) (by decide)).2

/-- Two centres in column 1 have their line drawn in column 0. -/
theorem drawPoints_two_centers :
    (∀ self, drawPoints .uniform .lp64 self [⟨1, 120⟩, ⟨1, 240⟩] = do
      let (frame, _) ← drawCenters .uniform .lp64 2 self.sourceFrame 0 [⟨1, 120⟩, ⟨1, 240⟩]
      call (OpenCv.uniform.line frame ⟨0, 0⟩ ⟨0, frame.rows⟩ ⟨0, 0, 255⟩ 2)) ∧
    ¬ |((0 : ℤ) : ℚ) - ((1 + 1 : ℤ) : ℚ) / 2| < 1 := by
  have hline : lineAbscissa .lp64 [⟨1, 120⟩, ⟨1, 240⟩] = 0 := by decide +kernel
  refine ⟨fun self => ?_, by norm_num⟩
  rw [drawPoints_eq, hline]
  rfl

end LineFollower.CenterFinding
