import LineFollower.Motors.Settings
import Mathlib.Algebra.Order.Group.MinMax
import Mathlib.Algebra.Order.Field.Basic

/-!
# Settings in units

A speed or an acceleration is set in steps, and kept as a count of the
register's quantum. What is read back is the number that was set, to less than
one quantum, or the top of the register's range when it lies above. The counts
are compared as unsigned numbers, so a number below zero comes back as the top as
well, unless it is so near to zero that it is rounded to it or above (`set_get`).
-/

namespace LineFollower

open Lib Lib.Exchange

variable {host : Host}

-- ---------------------------------------------------------------------------
-- A setter and its getter
-- ---------------------------------------------------------------------------

theorem Setter.get_does {s : Setter host} {g : Getter} {v : ULong host}
    (h : Layout.last g.setting s.sets = some v) :
    Does (do s.perform; g.perform host) (fun _ => g.ofSetting host (settings.cut g.setting v))
      s.next := by
  have hget : Does (g.perform host) _ id := g.does
  refine (s.does.bind fun _ => hget).congr (fun r => ?_) fun _ => rfl
  have hstore := congrFun (s.next_store r) g.setting
  rw [Store.after, h] at hstore
  exact congrArg (g.ofSetting host) hstore

-- ---------------------------------------------------------------------------
-- Counts
-- ---------------------------------------------------------------------------

def saturated (count : ℤ) (limit : ℕ) : ℕ := if count < 0 then limit else min count.toNat limit

theorem saturated_le (count : ℤ) (limit : ℕ) : saturated count limit ≤ limit := by
  unfold saturated
  split
  · exact le_rfl
  · exact min_le_right _ _

theorem saturate_toNat {value : ULong host} {limit : ℕ} (hlimit : limit < 2 ^ 31)
    (hl : -2 ^ 31 ≤ value.toInt) (hu : value.toInt < 2 ^ 31) :
    (if value > BitVec.ofNat host.longBits limit then BitVec.ofNat host.longBits limit
      else value).toNat = saturated value.toInt limit := by
  have hpow : 2 ^ 32 ≤ 2 ^ host.longBits := Nat.pow_le_pow_right (by decide) host.le_longBits
  have hbound : (BitVec.ofNat host.longBits limit).toNat = limit := by
    rw [BitVec.toNat_ofNat, Nat.mod_eq_of_lt (by omega)]
  have hcond := BitVec.toInt_eq_toNat_cond value
  have hlt := value.isLt
  simp only [GT.gt, BitVec.lt_def, hbound, saturated]
  split at hcond
  · rw [if_neg (show ¬ value.toInt < 0 by omega)]
    split <;> omega
  · -- A negative count is a huge unsigned number.
    rw [if_pos (show value.toInt < 0 by omega), if_pos (show limit < value.toNat by omega), hbound]

theorem trunc_fits {x : ℚ} (h : |x| < 2 ^ 31 - 1) : -2 ^ 31 ≤ trunc x ∧ trunc x < 2 ^ 31 := by
  obtain ⟨hl, hu⟩ := abs_lt.mp h
  have hupper := trunc_lt_add_one x
  have hlower := trunc_lt_add_one (-x)
  rw [trunc_neg] at hlower
  push_cast at hlower
  constructor
  · have hle : (-2 ^ 31 : ℚ) ≤ trunc x := by linarith
    exact_mod_cast hle
  · have hlt : (trunc x : ℚ) < 2 ^ 31 := by linarith
    exact_mod_cast hlt

theorem toSigned_toInt (host : Host) {w : ℕ} (hw : 32 ≤ w) {x : ℚ} (h : |x| < 2 ^ 31 - 1) :
    (host.toSigned w x).toInt = trunc x := by
  obtain ⟨hl, hu⟩ := trunc_fits h
  have hpow : (2 : ℤ) ^ 31 ≤ 2 ^ (w - 1) := pow_le_pow_right₀ (by norm_num) (by omega)
  rw [host.toSigned_fits w x (by omega) (by omega)]
  exact BitVec.toInt_ofInt_eq_self (by omega) (by omega) (by omega)

def ceilCount (x : ℚ) : ℤ := if x = trunc x then trunc x else trunc x + 1

theorem ceil_toInt {x : ℚ} (h : |x| < 2 ^ 31 - 2) : (ceil host x).toInt = ceilCount x := by
  have hwide := host.le_longBits
  have hint : (host.toSigned 32 x).toInt = trunc x := toSigned_toInt host le_rfl (by linarith)
  have hnext : (host.toSigned 32 x + 1).toInt = trunc x + 1 := by
    obtain ⟨hl, hu⟩ := abs_lt.mp h
    have hupper : (trunc x : ℚ) < 2 ^ 31 - 1 := by linarith [trunc_lt_add_one x]
    have hupper' : trunc x < 2 ^ 31 - 1 := by exact_mod_cast hupper
    have hlower := (trunc_fits (show |x| < 2 ^ 31 - 1 by linarith)).1
    rw [BitVec.toInt_add, hint, show (1 : BitVec 32).toInt = 1 from rfl]
    exact Int.bmod_eq_of_le (by norm_num; omega) (by norm_num; omega)
  rw [ceil, ceilCount, hint]
  split
  · rw [BitVec.toInt_signExtend_of_le hwide, hint]
  · rw [BitVec.toInt_signExtend_of_le hwide, hnext]

-- ---------------------------------------------------------------------------
-- Quantities
-- ---------------------------------------------------------------------------

inductive Quantity
  | acc
  | dec
  | maxSpeed
  | minSpeed
  | fullSpeed
  deriving DecidableEq, Repr

namespace Quantity

def set (host : Host) : Quantity → ℚ → Setter host
  | acc, q => .register (.setAcc q)
  | dec, q => .register (.setDec q)
  | maxSpeed, q => .register (.setMaxSpeed q)
  | minSpeed, q => .field (.setMinSpeed q)
  | fullSpeed, q => .register (.setFullSpeed q)

def get (host : Host) : Quantity → Spi ℚ
  | acc => getAcc host
  | dec => getDec host
  | maxSpeed => getMaxSpeed host
  | minSpeed => getMinSpeed host
  | fullSpeed => getFullSpeed host

/-- One count of the register. -/
def quantum : Quantity → ℚ
  | acc | dec => 1 / 0.137438
  | maxSpeed | fullSpeed => 1 / 0.065536
  | minSpeed => 0.238

def limit : Quantity → ℕ
  | acc | dec | minSpeed => 0xFFF
  | maxSpeed | fullSpeed => 0x3FF

/-- What a count of zero stands for, in quanta. -/
def offset : Quantity → ℚ
  | fullSpeed => 0.5
  | _ => 0

def top (u : Quantity) : ℚ := (u.limit + u.offset) * u.quantum

def count : Quantity → ℚ → ℤ
  | maxSpeed, x => ceilCount x
  | u, x => trunc (x - u.offset)

theorem quantum_pos (u : Quantity) : 0 < u.quantum := by
  cases u <;> norm_num [quantum]

theorem offset_half (u : Quantity) : 0 ≤ u.offset ∧ u.offset ≤ 1 / 2 := by
  cases u <;> norm_num [offset]

theorem trunc_near {x : ℚ} (h : 0 ≤ x) : 0 ≤ trunc x ∧ |(trunc x : ℚ) - x| < 1 := by
  rw [trunc, if_pos h]
  refine ⟨Int.floor_nonneg.mpr h, ?_⟩
  rw [abs_lt]
  constructor <;> linarith [Int.floor_le x, Int.lt_floor_add_one x]

theorem count_near (u : Quantity) {x : ℚ} (h : 0 ≤ x) :
    0 ≤ u.count x ∧ |(u.count x : ℚ) + u.offset - x| < 1 := by
  have htrunc (o : ℚ) (ho : 0 ≤ o) (ho' : o ≤ 1 / 2) :
      0 ≤ trunc (x - o) ∧ |(trunc (x - o) : ℚ) + o - x| < 1 := by
    rcases le_or_gt o x with hle | hlt
    · obtain ⟨hnonneg, hnear⟩ := trunc_near (sub_nonneg.mpr hle)
      exact ⟨hnonneg, by rwa [show (trunc (x - o) : ℚ) + o - x = trunc (x - o) - (x - o) by ring]⟩
    · have hzero : trunc (x - o) = 0 := trunc_eq_zero (abs_lt.mpr ⟨by linarith, by linarith⟩)
      rw [hzero]
      refine ⟨le_rfl, abs_lt.mpr ⟨?_, ?_⟩⟩ <;> push_cast <;> linarith
  cases u with
  | maxSpeed =>
    obtain ⟨hnonneg, hnear⟩ := trunc_near h
    obtain ⟨hl, hu⟩ := abs_lt.mp hnear
    have hfloor : (trunc x : ℚ) ≤ x := by
      rw [trunc, if_pos h]
      exact Int.floor_le x
    simp only [count, ceilCount, offset]
    split
    · exact ⟨hnonneg, by rwa [add_zero]⟩
    · rename_i hne
      have hlt : (trunc x : ℚ) < x := lt_of_le_of_ne hfloor (Ne.symm hne)
      refine ⟨by omega, abs_lt.mpr ⟨?_, ?_⟩⟩ <;> push_cast <;> linarith
  | acc => exact htrunc 0 le_rfl (by norm_num)
  | dec => exact htrunc 0 le_rfl (by norm_num)
  | minSpeed => exact htrunc 0 le_rfl (by norm_num)
  | fullSpeed => exact htrunc 0.5 (by norm_num) (by norm_num)

/-- Two quanta below zero no count is rounded up to zero. -/
theorem count_neg (u : Quantity) {x : ℚ} (h : x ≤ -2) : u.count x < 0 := by
  have htrunc (y : ℚ) (hy : y ≤ -2) : trunc y ≤ -2 := by
    have hmono := trunc_mono (show y ≤ ((-2 : ℤ) : ℚ) by exact_mod_cast hy)
    rwa [trunc_intCast] at hmono
  have hoffset := u.offset_half.1
  cases u with
  | maxSpeed =>
    have hle := htrunc x h
    simp only [count, ceilCount]
    split <;> omega
  | _ =>
    refine (htrunc _ ?_).trans_lt (by norm_num)
    linarith

theorem count_small (u : Quantity) {x : ℚ} (h : x < 0) : (u.count x : ℚ) + u.offset ≤ 1 := by
  have htrunc (y : ℚ) (hy : y < 0) : trunc y ≤ 0 := by
    have hmono := trunc_mono (show y ≤ ((0 : ℤ) : ℚ) by exact_mod_cast hy.le)
    rwa [trunc_intCast] at hmono
  have hoffset := u.offset_half
  have hcount {n : ℤ} (hn : n ≤ 0) : (n : ℚ) + u.offset ≤ 1 := by
    have hn' : (n : ℚ) ≤ 0 := by exact_mod_cast hn
    linarith
  cases u with
  | maxSpeed =>
    have hle : ceilCount x ≤ 1 := by
      have hx := htrunc x h
      unfold ceilCount
      split <;> omega
    have hle' : (ceilCount x : ℚ) ≤ 1 := by exact_mod_cast hle
    simpa only [count, offset, add_zero] using hle'
  | acc => exact hcount (htrunc _ (by linarith))
  | dec => exact hcount (htrunc _ (by linarith))
  | minSpeed => exact hcount (htrunc _ (by linarith))
  | fullSpeed => exact hcount (htrunc _ (by linarith))

def kept (u : Quantity) (q : ℚ) : ℕ := saturated (u.count (q / u.quantum)) u.limit

section
variable {u : Quantity} {q : ℚ} (hfits : |q / u.quantum| < 2 ^ 31 - 2)
include hfits

theorem count_fits : -2 ^ 31 ≤ u.count (q / u.quantum) ∧ u.count (q / u.quantum) < 2 ^ 31 := by
  obtain ⟨hl, hu⟩ := abs_lt.mp hfits
  have hoffset := u.offset_half
  have htrunc : -2 ^ 31 ≤ trunc (q / u.quantum - u.offset) ∧
      trunc (q / u.quantum - u.offset) < 2 ^ 31 :=
    trunc_fits (abs_lt.mpr ⟨by linarith, by linarith⟩)
  cases u with
  | maxSpeed =>
    have hupper := trunc_lt_add_one (q / quantum maxSpeed)
    have hnext : (trunc (q / quantum maxSpeed) : ℚ) < 2 ^ 31 - 1 := by linarith
    have hnext' : trunc (q / quantum maxSpeed) < 2 ^ 31 - 1 := by exact_mod_cast hnext
    simp only [offset, sub_zero] at htrunc
    simp only [count, ceilCount]
    split <;> omega
  | _ => exact htrunc

theorem kept_eq {value : ULong host} (hcount : value.toInt = u.count (q / u.quantum)) :
    (if value > BitVec.ofNat host.longBits u.limit then BitVec.ofNat host.longBits u.limit
      else value).toNat = u.kept q := by
  obtain ⟨hl, hu⟩ := count_fits hfits
  have hlimit : u.limit < 2 ^ 31 := by cases u <;> decide
  rw [saturate_toNat hlimit (by rwa [hcount]) (by rwa [hcount]), hcount, kept]

theorem kept_trunc {y : ℚ} (hy : q / u.quantum - u.offset = y)
    (hcount : u.count (q / u.quantum) = trunc (q / u.quantum - u.offset)) :
    (if host.toSigned host.longBits y > BitVec.ofNat host.longBits u.limit then
      BitVec.ofNat host.longBits u.limit else host.toSigned host.longBits y).toNat = u.kept q := by
  have hoffset := u.offset_half
  obtain ⟨hl, hu⟩ := abs_lt.mp hfits
  refine kept_eq hfits ?_
  rw [hcount, hy]
  exact toSigned_toInt host host.le_longBits (abs_lt.mpr ⟨by linarith, by linarith⟩)

end

theorem accCalc_kept {q : ℚ} (h : |q / quantum acc| < 2 ^ 31 - 2) :
    (accCalc host q).toNat = acc.kept q :=
  kept_trunc h (by simp [quantum, offset]) rfl

theorem decCalc_kept {q : ℚ} (h : |q / quantum dec| < 2 ^ 31 - 2) :
    (decCalc host q).toNat = dec.kept q :=
  kept_trunc h (by simp [quantum, offset]) rfl

theorem minSpdCalc_kept {q : ℚ} (h : |q / quantum minSpeed| < 2 ^ 31 - 2) :
    (minSpdCalc host q).toNat = minSpeed.kept q :=
  kept_trunc h (by simp [quantum, offset]) rfl

theorem fsCalc_kept {q : ℚ} (h : |q / quantum fullSpeed| < 2 ^ 31 - 2) :
    (fsCalc host q).toNat = fullSpeed.kept q :=
  kept_trunc h (by simp [quantum, offset]) rfl

theorem maxSpdCalc_kept {q : ℚ} (h : |q / quantum maxSpeed| < 2 ^ 31 - 2) :
    (maxSpdCalc host q).toNat = maxSpeed.kept q := by
  refine kept_eq h ?_
  have hx : q * 0.065536 = q / quantum maxSpeed := by simp [quantum]
  rw [hx]
  exact ceil_toInt h

theorem kept_le (u : Quantity) (q : ℚ) : u.kept q ≤ u.limit := saturated_le _ _

def readBack (u : Quantity) (q : ℚ) : ℚ := (u.kept q + u.offset) * u.quantum

theorem cut_toNat {s : Setting} {v : ULong host} {k : ℕ}
    (hmask : (settings.mask s).toNat = 2 ^ k - 1)
    (hk : k ≤ s.param.len) (hv : v.toNat < 2 ^ k) : (settings.cut s v).toNat = v.toNat := by
  have hlen : 2 ^ k ≤ 2 ^ s.param.len := Nat.pow_le_pow_right (by decide) hk
  have hcut :
      (settings.cut s v).toNat = (v.toNat % 2 ^ s.param.len) &&& (settings.mask s).toNat := by
    rw [Layout.cut, BitVec.toNat_and, BitVec.toNat_setWidth]
    rfl
  rw [hcut, hmask, Nat.and_two_pow_sub_one_eq_mod, Nat.mod_eq_of_lt (hv.trans_le hlen),
    Nat.mod_eq_of_lt hv]

theorem count_does {u : Quantity} {q : ℚ} {s : Setter host} {g : Getter} {v : ULong host} {k : ℕ}
    (hlast : Layout.last g.setting s.sets = some v)
    (hmask : (settings.mask g.setting).toNat = 2 ^ k - 1)
    (hk : k ≤ g.setting.param.len) (hv : v.toNat = u.kept q) (hlimit : u.limit < 2 ^ k)
    {unit : ℕ → g.Result host} (hunit : ∀ x, g.ofSetting host x = unit x.toNat) :
    Does (do s.perform; g.perform host) (fun _ => unit (u.kept q)) s.next := by
  have hsmall : v.toNat < 2 ^ k := hv ▸ (u.kept_le q).trans_lt hlimit
  refine (Setter.get_does hlast).congr (fun _ => ?_) fun _ => rfl
  exact (hunit _).trans (congrArg unit ((cut_toNat hmask hk hsmall).trans hv))

theorem readBack_div (u : Quantity) {q c : ℚ} (hzero : u.offset = 0) (h : u.quantum = 1 / c) :
    u.readBack q = u.kept q / c := by
  rw [readBack, hzero, h, mul_one_div, add_zero]

theorem set_get_does (u : Quantity) {q : ℚ} (hfits : |q / u.quantum| < 2 ^ 31 - 2) :
    Does (do (u.set host q).perform; u.get host) (fun _ => u.readBack q) (u.set host q).next := by
  cases u with
  | acc =>
    have hget := @count_does host acc q (.register (.setAcc q)) .getAcc _ 12 rfl rfl le_rfl
      (accCalc_kept hfits) (by decide)
      (fun n => (n / 0.137438 : ℚ)) fun _ => rfl
    rw [readBack_div _ rfl rfl]
    exact hget
  | dec =>
    have hget := @count_does host dec q (.register (.setDec q)) .getDec _ 12 rfl rfl le_rfl
      (decCalc_kept hfits) (by decide)
      (fun n => (n / 0.137438 : ℚ)) fun _ => rfl
    rw [readBack_div _ rfl rfl]
    exact hget
  | maxSpeed =>
    have hget :=
      @count_does host maxSpeed q (.register (.setMaxSpeed q)) .getMaxSpeed _ 10 rfl rfl le_rfl
      (maxSpdCalc_kept hfits) (by decide)
      (fun n => (n / 0.065536 : ℚ)) fun _ => rfl
    rw [readBack_div _ rfl rfl]
    exact hget
  | minSpeed =>
    have hget :=
      @count_does host minSpeed q (.field (.setMinSpeed q)) (.field .getMinSpeed) _ 12 rfl rfl
      (by decide) (minSpdCalc_kept hfits) (by decide)
      (fun n => (n * 0.238 : ℚ)) fun _ => rfl
    rw [readBack, show minSpeed.offset = 0 from rfl, add_zero]
    exact hget
  | fullSpeed =>
    have hget :=
      @count_does host fullSpeed q (.register (.setFullSpeed q)) .getFullSpeed _ 10 rfl rfl le_rfl
      (fsCalc_kept hfits) (by decide)
      (fun n => ((n + 0.5) / 0.065536 : ℚ)) fun _ => rfl
    rw [readBack, show fullSpeed.quantum = 1 / 0.065536 from rfl, mul_one_div]
    exact hget

theorem readBack_near (u : Quantity) {q : ℚ} (hq : 0 ≤ q) : |u.readBack q - min q u.top| <
    u.quantum := by
  have hpos := u.quantum_pos
  obtain ⟨hnonneg, hnear⟩ := u.count_near (div_nonneg hq hpos.le)
  have hkept : (u.kept q : ℚ) = min (u.count (q / u.quantum) : ℚ) u.limit := by
    rw [kept, saturated, if_neg (not_lt.mpr hnonneg), Nat.cast_min]
    congr 1
    exact_mod_cast Int.toNat_of_nonneg hnonneg
  have hcounts : |min (u.count (q / u.quantum) + u.offset) (u.limit + u.offset) -
      min (q / u.quantum) (u.limit + u.offset)| < 1 := by
    refine (abs_min_sub_min_le_max _ _ _ _).trans_lt (max_lt hnear ?_)
    rw [sub_self, abs_zero]
    exact one_pos
  have hread :
      u.readBack q - min q u.top = (min (u.count (q / u.quantum) + u.offset) (u.limit + u.offset) -
      min (q / u.quantum) (u.limit + u.offset)) * u.quantum := by
    have hmin : min q u.top = min (q / u.quantum) (u.limit + u.offset) * u.quantum := by
      rw [min_mul_of_nonneg _ _ hpos.le, div_mul_cancel₀ _ hpos.ne', top]
    rw [hmin, readBack, hkept, ← min_add_add_right, sub_mul]
  rw [hread, abs_mul, abs_of_pos hpos]
  exact mul_lt_of_lt_one_left hpos hcounts

theorem readBack_neg (u : Quantity) {q : ℚ} (hq : q ≤ -2 * u.quantum) : u.readBack q = u.top := by
  have hcount := u.count_neg ((div_le_iff₀ u.quantum_pos).mpr hq)
  rw [readBack, kept, saturated, if_pos hcount, top]

theorem readBack_low (u : Quantity) {q : ℚ} (hq : q < 0) :
    u.readBack q = u.top ∨ 0 ≤ u.readBack q ∧ u.readBack q ≤ u.quantum := by
  have hpos := u.quantum_pos
  by_cases hcount : u.count (q / u.quantum) < 0
  · left
    rw [readBack, kept, saturated, if_pos hcount, top]
  · right
    have hsmall := u.count_small (div_neg_of_neg_of_pos hq hpos)
    have hkept : (u.kept q : ℚ) ≤ u.count (q / u.quantum) := by
      rw [kept, saturated, if_neg hcount]
      have hnat : (min (u.count (q / u.quantum)).toNat u.limit : ℤ) ≤ u.count (q / u.quantum) := by
        omega
      exact_mod_cast hnat
    have hoffset := u.offset_half.1
    constructor
    · exact mul_nonneg (add_nonneg (Nat.cast_nonneg _) hoffset) hpos.le
    · exact mul_le_of_le_one_left hpos.le (by linarith)

/-- A number that is set and then read, on any chip: it comes back to less than
one quantum, or as the top of the range when it lies above. Below zero it comes
back as the top, or as one quantum at most, from two quanta on always as the top. -/
theorem set_get (host : Host) (u : Quantity) {q : ℚ} (hfits : |q / u.quantum| < 2 ^ 31 - 2) :
    ∃ read, Does (do (u.set host q).perform; u.get host) (fun _ => read) (u.set host q).next ∧
      (0 ≤ q → |read - min q u.top| < u.quantum) ∧
      (q < 0 → read = u.top ∨ 0 ≤ read ∧ read ≤ u.quantum) ∧
      (q ≤ -2 * u.quantum → read = u.top) :=
  ⟨_, u.set_get_does hfits, u.readBack_near, u.readBack_low, u.readBack_neg⟩

theorem set_get_maxSpeed :
    (∃ read, Does (do (maxSpeed.set .lp64 400).perform; maxSpeed.get .lp64) (fun _ => read)
        (maxSpeed.set .lp64 400).next ∧
      (0 ≤ (400 : ℚ) → |read - min 400 maxSpeed.top| < maxSpeed.quantum) ∧
      ((400 : ℚ) < 0 → read = maxSpeed.top ∨ 0 ≤ read ∧ read ≤ maxSpeed.quantum) ∧
      ((400 : ℚ) ≤ -2 * maxSpeed.quantum → read = maxSpeed.top)) ∧
    ∃ read, Does (do (maxSpeed.set .lp64 (-400)).perform; maxSpeed.get .lp64) (fun _ => read)
        (maxSpeed.set .lp64 (-400)).next ∧ read = maxSpeed.top := by
  refine ⟨set_get .lp64 maxSpeed (by norm_num [quantum, abs_lt]), ?_⟩
  obtain ⟨read, hdoes, -, -, htop⟩ := @set_get .lp64 maxSpeed (-400) (by norm_num [quantum, abs_lt])
  exact ⟨read, hdoes, htop (by norm_num [quantum])⟩

end Quantity

end LineFollower
