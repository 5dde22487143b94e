import LineFollower.Bcm2835.Registers
import Mathlib.Tactic.Linarith

/-!
# The system timer

`bcm2835.c`: the functions that read the timer, and those that wait. The timer
counts microseconds in two registers, which are read one after the other, so
any time may pass between the halves. The value that is put together is between
the counts at the beginning and at the end all the same, also when the halves
are of different counts (`stReads_sorted`). A delay is never too short, whatever
the sleep in it does (`delayMicroseconds_waits`).
-/

namespace LineFollower.Bcm2835

open Lib Lib.Exchange

def stClo : Register := ⟨.st, 0x0004 / 4⟩
def stChi : Register := ⟨.st, 0x0008 / 4⟩

def stHalves : Driver (BitVec 64) := do
  let hi ← periRead stChi
  let lo ← periRead stClo
  let st ← periRead stChi
  if st = hi then return (st.setWidth 64 <<< 32) + lo.setWidth 64
  else do
    let lo ← periRead stClo
    return (st.setWidth 64 <<< 32) + lo.setWidth 64

def stRead : Driver (BitVec 64) := do
  let self ← getVars
  if self.mapped .st = false then return 0 else stHalves

/-- Without the timer there is no end to it. -/
def stDelay (offsetMicros micros : BitVec 64) : Driver Unit := do
  let compare := offsetMicros + micros
  repeatWhile do
    return decide ((← stRead) < compare)

/-- `1000 * (long)(micros)`, which wraps where the product does not fit. -/
def nanoseconds (host : Host) (micros : BitVec 64) : ℤ :=
  (1000 * micros.setWidth host.longBits : BitVec host.longBits).toInt

def delayMicroseconds (host : Host) (micros : BitVec 64) : Driver Unit := do
  let start ← stRead
  if start = 0 then nanosleep 0 (nanoseconds host micros)
  else do
    (if micros > 450 then nanosleep 0 (nanoseconds host (micros - 200)) else pure ())
    stDelay start micros

-- ---------------------------------------------------------------------------
-- The counter
-- ---------------------------------------------------------------------------

/-- How fast the counter is beside the program is left open: `pace n` is the
time before the access number `n`. No access takes longer than `slack`. -/
structure SystemTimer where
  pace : ℕ → ℕ
  slack : ℕ
  /-- What is read elsewhere, by the number of the access. -/
  elsewhere : ℕ → Word
  pace_le : ∀ n, pace n ≤ slack
  fair : Fair pace

structure Clock where
  micros : ℕ
  /-- The accesses so far. -/
  now : ℕ

namespace SystemTimer

variable (tm : SystemTimer)

def advance (d : Clock) : Clock := ⟨d.micros + tm.pace d.now, d.now + 1⟩

def respond (d : Clock) : Access → Word
  | .read ⟨.st, 1⟩ => BitVec.ofNat 32 d.micros
  | .read ⟨.st, 2⟩ => BitVec.ofNat 32 (d.micros / 2 ^ 32)
  | _ => tm.elsewhere d.now

def device : Device Clock Access Word := fun d request =>
  (tm.respond (tm.advance d) request, tm.advance d)

structure Passed (k : ℕ) (d d' : Clock) : Prop where
  now_eq : d'.now = d.now + k
  le : d.micros ≤ d'.micros
  upper : d'.micros ≤ d.micros + k * tm.slack
  still : d'.micros = d.micros → ∀ n, d.now ≤ n → n < d'.now → tm.pace n = 0

def counting : SystemTimer where
  pace _ := 1
  slack := 1
  elsewhere _ := 0#32
  pace_le _ := Nat.le_refl _
  fair := fair_one

namespace Passed

variable {tm} {k m : ℕ} {d d' d'' : Clock}

theorem trans (h : tm.Passed k d d') (h' : tm.Passed m d' d'') : tm.Passed (k + m) d d'' where
  now_eq := by rw [h'.now_eq, h.now_eq, Nat.add_assoc]
  le := Nat.le_trans h.le h'.le
  upper := by
    have hfirst := h.upper
    have hnext := h'.upper
    rw [Nat.add_mul]
    omega
  still := by
    intro heq n hn hn'
    have hfirst := h.le
    have hnext := h'.le
    rcases Nat.lt_or_ge n d'.now with hlow | hhigh
    · exact h.still (by omega) n hn hlow
    · exact h'.still (by omega) n hhigh hn'

theorem advance (d : Clock) : tm.Passed 1 d (tm.advance d) where
  now_eq := rfl
  le := Nat.le_add_right _ _
  upper := by
    rw [Nat.one_mul]
    exact Nat.add_le_add_left (tm.pace_le d.now) _
  still := by
    intro heq n hn hn'
    obtain rfl : n = d.now := Nat.le_antisymm (Nat.le_of_lt_succ hn') hn
    exact Nat.add_eq_left.mp heq

end Passed

end SystemTimer

-- ---------------------------------------------------------------------------
-- Reading
-- ---------------------------------------------------------------------------

theorem toNat_join (hi lo : Word) :
    ((hi.setWidth 64 <<< 32) + lo.setWidth 64).toNat = hi.toNat * 2 ^ 32 + lo.toNat := by
  have hhi := hi.isLt
  have hlo := lo.isLt
  simp only [BitVec.toNat_add, BitVec.toNat_shiftLeft, BitVec.toNat_setWidth, Nat.shiftLeft_eq]
  omega

theorem stRead_mapped {lib : Bcm2835} (hst : lib.mapped .st = true) :
    stRead lib = stHalves lib := by
  funext as
  simp only [stRead, bind_run, getVars, hst, Bool.true_eq_false, ↓reduceIte]
  rfl

theorem stHalves_uses : Uses 1 stHalves := by
  have hnext (hi : Word) : Uses 0 (do
      let lo ← periRead stClo
      let st ← periRead stChi
      if st = hi then return (st.setWidth 64 <<< 32) + lo.setWidth 64
      else do
        let lo ← periRead stClo
        return (st.setWidth 64 <<< 32) + lo.setWidth 64 : Driver (BitVec 64)) :=
    ((periRead_uses _).bind fun _ => (periRead_uses _).bind fun _ =>
      .ite (.pure _) (((periRead_uses _).bind fun _ => .pure _).mono (Nat.zero_le _))).mono
        (Nat.zero_le _)
  exact (periRead_uses stChi).bind hnext

theorem stHalves_keeps {inv : Bcm2835 → Prop} : Keeps inv stHalves :=
  (periRead_keeps _).bind fun _ => (periRead_keeps _).bind fun _ => (periRead_keeps _).bind fun _ =>
    .ite (.pure _) ((periRead_keeps _).bind fun _ => .pure _)

theorem toNat_ofNat_halves {n : ℕ} (h : n < 2 ^ 64) :
    (BitVec.ofNat 32 (n / 2 ^ 32)).toNat = n / 2 ^ 32 ∧ (BitVec.ofNat 32 n).toNat = n % 2 ^ 32 := by
  rw [BitVec.toNat_ofNat, BitVec.toNat_ofNat]
  exact ⟨Nat.mod_eq_of_lt (by omega), rfl⟩

section
variable {tm : SystemTimer} {lib : Bcm2835} {d : Clock}

theorem stHalves_triple (hst : lib.mapped .st = true) :
    Triple tm.device stHalves lib d
      (fun t lib' d' => lib = lib' ∧ (∃ k, 0 < k ∧ k ≤ 4 ∧ tm.Passed k d d') ∧
        (d'.micros < 2 ^ 64 → d.micros ≤ t.toNat ∧ t.toNat ≤ d'.micros))
      (fun _ => True) := by
  have hone (d : Clock) : tm.Passed 1 d (tm.advance d) := .advance d
  have h₁ := hone d
  have h₂ := hone (tm.advance d)
  have h₃ := hone (tm.advance (tm.advance d))
  have h₄ := hone (tm.advance (tm.advance (tm.advance d)))
  have hle₁ := h₁.le
  have hle₂ := h₂.le
  have hle₃ := h₃.le
  have hle₄ := h₄.le
  refine (periRead_triple (show lib.mapped stChi.block = true from hst) trivial).bind ?_
  rintro hi _ _ ⟨rfl, rfl, rfl⟩
  refine (periRead_triple (show lib.mapped stClo.block = true from hst) trivial).bind ?_
  rintro lo _ _ ⟨rfl, rfl, rfl⟩
  refine (periRead_triple (show lib.mapped stChi.block = true from hst) trivial).bind ?_
  rintro st _ _ ⟨rfl, rfl, rfl⟩
  simp only [SystemTimer.device, SystemTimer.respond, stChi, stClo, Nat.reduceDiv]
  split
  case isTrue heq =>
    refine .pure ⟨rfl, ⟨3, by omega, by omega, (h₁.trans h₂).trans h₃⟩, fun hfit => ?_⟩
    -- the count has not carried, so this is the second count
    have heq := congrArg BitVec.toNat heq
    rw [(toNat_ofNat_halves (by omega)).1, (toNat_ofNat_halves (by omega)).1] at heq
    rw [toNat_join, (toNat_ofNat_halves (by omega)).1, (toNat_ofNat_halves (by omega)).2]
    omega
  case isFalse hne =>
    refine (periRead_triple (show lib.mapped stClo.block = true from hst) trivial).bind ?_
    rintro lo _ _ ⟨rfl, rfl, rfl⟩
    refine .pure ⟨rfl, ⟨4, by omega, by omega, ((h₁.trans h₂).trans h₃).trans h₄⟩, fun hfit => ?_⟩
    simp only [SystemTimer.device, SystemTimer.respond, stClo, Nat.reduceDiv] at hfit ⊢
    -- it has, and may have carried again; the halves are of two counts after the first
    have hne := mt BitVec.eq_of_toNat_eq hne
    rw [(toNat_ofNat_halves (by omega)).1, (toNat_ofNat_halves (by omega)).1] at hne
    rw [toNat_join, (toNat_ofNat_halves (by omega)).1, (toNat_ofNat_halves (by omega)).2]
    omega

theorem stRead_triple (hst : lib.mapped .st = true) :
    Triple tm.device stRead lib d
      (fun t lib' d' => lib = lib' ∧ (∃ k, 0 < k ∧ k ≤ 4 ∧ tm.Passed k d d') ∧
        (d'.micros < 2 ^ 64 → d.micros ≤ t.toNat ∧ t.toNat ≤ d'.micros))
      (fun _ => True) :=
  .congr (stRead_mapped hst) (stHalves_triple hst)

end

def stReads : ℕ → Driver (List (BitVec 64))
  | 0 => return []
  | n + 1 => do
    let t ← stRead
    let ts ← stReads n
    return t :: ts

/-- The time that is read never goes back, and is the count's. -/
theorem stReads_sorted {tm : SystemTimer} {lib : Bcm2835} (hst : lib.mapped .st = true) (n : ℕ)
    (d : Clock) (hfit : d.micros + 4 * n * tm.slack < 2 ^ 64) :
    Triple tm.device (stReads n) lib d
      (fun ts lib' d' => lib = lib' ∧ ts.length = n ∧
        (d.micros :: (ts.map BitVec.toNat ++ [d'.micros])).Pairwise (· ≤ ·))
      (fun _ => True) := by
  induction n generalizing d with
  | zero => exact .pure ⟨rfl, rfl, by simp⟩
  | succ n ih =>
    have hslack : 4 * (n + 1) * tm.slack = 4 * n * tm.slack + 4 * tm.slack := by ring
    refine (stRead_triple hst).bind ?_
    rintro t _ d₁ ⟨rfl, ⟨k, -, hk, hpassed⟩, hread⟩
    have hupper := hpassed.upper
    have hk := Nat.mul_le_mul_right tm.slack hk
    have hfirst := hread (by omega)
    refine (ih d₁ (by omega)).bind ?_
    rintro ts _ d' ⟨rfl, rfl, hsorted⟩
    refine .pure ⟨rfl, rfl, ?_⟩
    obtain ⟨hbelow, hrest⟩ := List.pairwise_cons.mp hsorted
    refine List.pairwise_cons.mpr ⟨fun x hx => ?_, List.pairwise_cons.mpr ⟨fun x hx => ?_, hrest⟩⟩
    · rcases List.mem_cons.mp hx with rfl | hx
      · exact hfirst.1
      · exact Nat.le_trans hpassed.le (hbelow x hx)
    · exact Nat.le_trans hfirst.2 (hbelow x hx)

theorem stReads_sorted_carry :
    Triple SystemTimer.counting.device (stReads 3) ⟨fun _ => true, 1, fun _ => 0, 0, 0⟩
      ⟨4294967294, 0⟩
      (fun ts lib' d' => ⟨fun _ => true, 1, fun _ => 0, 0, 0⟩ = lib' ∧ ts.length = 3 ∧
        List.Pairwise (· ≤ ·) (4294967294 :: (ts.map BitVec.toNat ++ [d'.micros])))
      (fun _ => True) :=
  stReads_sorted rfl 3 ⟨4294967294, 0⟩ (by decide)

-- ---------------------------------------------------------------------------
-- Waiting
-- ---------------------------------------------------------------------------

section
variable {tm : SystemTimer} {lib : Bcm2835} {d : Clock} {start micros : BitVec 64}

theorem stDelay_triple (hst : lib.mapped .st = true) (hnow : d.micros + 4 * tm.slack < 2 ^ 64)
    (hthen : start.toNat + micros.toNat + 8 * tm.slack < 2 ^ 64) :
    Triple tm.device (stDelay start micros) lib d
      (fun _ lib' d' => lib = lib' ∧ start.toNat + micros.toNat ≤ d'.micros ∧
        d'.micros ≤ max d.micros (start.toNat + micros.toNat + 4 * tm.slack) + 4 * tm.slack)
      (fun _ => True) := by
  have hcompare : (start + micros).toNat = start.toNat + micros.toNat := by
    rw [BitVec.toNat_add]
    omega
  set compare := start + micros with hdef
  rw [← hcompare] at hthen ⊢
  set limit := max d.micros (compare.toNat + 4 * tm.slack) with hlimit
  have hroom : limit + 4 * tm.slack < 2 ^ 64 := by omega
  let turn : Driver Bool := do return decide ((← stHalves) < compare)
  have hconsumes : Consumes turn := Uses.consumes (stHalves_uses.bind (k := 0) fun _ => .pure _)
  have hturn (self : Bcm2835) (hself : self.mapped .st = true) :
      (do return decide ((← stRead) < compare) : Driver Bool) self = turn self := by
    funext as
    change (stRead >>= fun t => pure (decide (t < compare))) self as = _
    rw [bind_run, stRead_mapped hself, ← bind_run]
  have hkeeps : Keeps (fun self => self.mapped .st = true) turn :=
    stHalves_keeps.bind fun _ => .pure _
  refine .congr (hkeeps.repeatWhile_congr hturn hst) ?_
  refine .repeatWhile hconsumes (fun lib' d' => lib = lib' ∧ d'.micros ≤ limit)
    (waits_wellFounded tm.fair (fun p => compare.toNat - p.2.micros) fun p => p.2.now)
    ?_ (fun _ _ _ => trivial) ⟨rfl, by omega⟩
  rintro _ d₁ ⟨rfl, hbefore⟩
  refine (stHalves_triple hst).bind ?_
  rintro t _ d₂ ⟨rfl, ⟨k, hpos, hk, hpassed⟩, hread⟩
  have hupper := hpassed.upper
  have hle := hpassed.le
  have hk := Nat.mul_le_mul_right tm.slack hk
  obtain ⟨hlow, hhigh⟩ := hread (by omega)
  refine .pure ?_
  by_cases hearly : t < compare
  · have hearly' : t.toNat < compare.toNat := hearly
    rw [if_pos (decide_eq_true hearly)]
    refine ⟨⟨rfl, by omega⟩, ?_⟩
    simp only [Waits]
    rcases Nat.eq_or_lt_of_le hle with heq | hlt
    · exact .inr ⟨by rw [heq], by rw [hpassed.now_eq]; omega, hpassed.still heq.symm⟩
    · exact .inl (by omega)
  · have hlate : compare.toNat ≤ t.toNat := Nat.le_of_not_lt hearly
    rw [if_neg (mt of_decide_eq_true hearly)]
    exact ⟨rfl, by omega, by omega⟩

end

section
variable {host : Host} {tm : SystemTimer} {lib : Bcm2835} {d : Clock} {micros : BitVec 64}

theorem nanosleep_triple (nsec : ℤ) :
    Triple tm.device (nanosleep 0 nsec) lib d (fun _ lib' d' => lib = lib' ∧ tm.Passed 1 d d')
      (fun _ => True) := by
  have hone : Triple tm.device (exchange (.nanosleep 0 nsec) : Driver Word) lib d
      (fun _ lib' d' => lib = lib' ∧ tm.Passed 1 d d') (fun _ => True) :=
    .exchange trivial ⟨rfl, .advance d⟩
  exact hone.seq fun _ _ _ hslept => .pure hslept

theorem delayFrom_triple {start : BitVec 64} (hst : lib.mapped .st = true)
    (hnow : d.micros + 5 * tm.slack < 2 ^ 64)
    (hthen : start.toNat + micros.toNat + 8 * tm.slack < 2 ^ 64) :
    Triple tm.device
      (do
        (if micros > 450 then nanosleep 0 (nanoseconds host (micros - 200)) else pure ())
        stDelay start micros)
      lib d
      (fun _ lib' d' => lib = lib' ∧ start.toNat + micros.toNat ≤ d'.micros ∧
        d'.micros ≤ max (d.micros + tm.slack) (start.toNat + micros.toNat + 4 * tm.slack) +
          4 * tm.slack)
      (fun _ => True) := by
  have hsleep : Triple tm.device
      (if micros > 450 then nanosleep 0 (nanoseconds host (micros - 200)) else pure ()) lib d
      (fun _ lib' d' => lib = lib' ∧ d'.micros ≤ d.micros + tm.slack) (fun _ => True) := by
    split
    · refine (nanosleep_triple _).weaken ?_
      rintro _ _ d' ⟨rfl, hslept⟩
      have hend := hslept.upper
      exact ⟨rfl, by omega⟩
    · exact .pure ⟨rfl, by omega⟩
  refine hsleep.seq ?_
  rintro _ _ d₁ ⟨rfl, hslept⟩
  refine (stDelay_triple hst (by omega) hthen).weaken ?_
  rintro _ _ d' ⟨rfl, hdone, hlate⟩
  exact ⟨rfl, hdone, by omega⟩

theorem delayMicroseconds_triple (hst : lib.mapped .st = true) (hpos : 0 < d.micros)
    (hfit : d.micros + micros.toNat + 12 * tm.slack < 2 ^ 64) :
    Triple tm.device (delayMicroseconds host micros) lib d
      (fun _ lib' d' => lib = lib' ∧ d.micros + micros.toNat ≤ d'.micros ∧
        d'.micros ≤ d.micros + micros.toNat + 12 * tm.slack)
      (fun _ => True) := by
  refine (stRead_triple hst).bind ?_
  rintro start _ d₁ ⟨rfl, ⟨k, -, hk, hpassed⟩, hread⟩
  have hupper := hpassed.upper
  have hk := Nat.mul_le_mul_right tm.slack hk
  obtain ⟨hlow, hhigh⟩ := hread (by omega)
  have hstart : start ≠ 0 := by
    rintro rfl
    exact absurd (Nat.lt_of_lt_of_le hpos hlow) (Nat.lt_irrefl 0)
  rw [if_neg hstart]
  refine (delayFrom_triple hst (by omega) (by omega)).weaken ?_
  rintro _ _ d' ⟨rfl, hdone, hlate⟩
  exact ⟨rfl, by omega, by omega⟩

end

/-- A delay is never too short, whatever the sleep in it does, and not much too
long. Where the timer is at zero it is taken for one that cannot be read. -/
theorem delayMicroseconds_waits {host : Host} {tm : SystemTimer} {lib : Bcm2835} {d : Clock}
    {micros : BitVec 64} (hst : lib.mapped .st = true)
    (hfit : d.micros + micros.toNat + 12 * tm.slack < 2 ^ 64) :
    Triple tm.device (delayMicroseconds host micros) lib d
      (fun _ lib' d' => lib = lib' ∧ (d.micros = 0 ∨ d.micros + micros.toNat ≤ d'.micros) ∧
        d'.micros ≤ d.micros + micros.toNat + 12 * tm.slack)
      (fun _ => True) := by
  rcases Nat.eq_zero_or_pos d.micros with hzero | hpos
  · refine (stRead_triple hst).bind ?_
    rintro start _ d₁ ⟨rfl, ⟨k, -, hk, hpassed⟩, hread⟩
    have hupper := hpassed.upper
    have hk := Nat.mul_le_mul_right tm.slack hk
    obtain ⟨hlow, hhigh⟩ := hread (by omega)
    split
    · refine (nanosleep_triple _).weaken ?_
      rintro _ _ d' ⟨rfl, hslept⟩
      have hend := hslept.upper
      exact ⟨rfl, .inl hzero, by omega⟩
    · refine (delayFrom_triple hst (by omega) (by omega)).weaken ?_
      rintro _ _ d' ⟨rfl, -, hlate⟩
      exact ⟨rfl, .inl hzero, by omega⟩
  · refine (delayMicroseconds_triple hst hpos hfit).weaken ?_
    rintro _ _ d' ⟨rfl, hdone, hlate⟩
    exact ⟨rfl, .inr hdone, hlate⟩

theorem delayMicroseconds_waits_sleep :
    Triple SystemTimer.counting.device (delayMicroseconds .lp64 1000)
      ⟨fun _ => true, 1, fun _ => 0, 0, 0⟩
      ⟨5, 0⟩
      (fun _ lib' d' => ⟨fun _ => true, 1, fun _ => 0, 0, 0⟩ = lib' ∧
        (5 = 0 ∨ 5 + 1000 ≤ d'.micros) ∧
        d'.micros ≤ 5 + 1000 + 12 * 1)
      (fun _ => True) :=
  delayMicroseconds_waits rfl (by decide)

theorem delayMicroseconds_unmapped {D : Type} {dev : Device D Access Word} {host : Host}
    {lib : Bcm2835}
    {d : D} {micros : BitVec 64} (hst : lib.mapped .st = false) :
    Triple dev (delayMicroseconds host micros) lib d (fun _ lib' _ => lib = lib')
      (fun _ => True) := by
  have hread : Triple dev stRead lib d (fun start lib' _ => start = 0 ∧ lib = lib')
      (fun _ => True) := by
    refine Triple.getVars_bind ?_
    rw [if_pos hst]
    exact .pure ⟨rfl, rfl⟩
  refine hread.bind ?_
  rintro _ _ d₁ ⟨rfl, rfl⟩
  have hsleep (nsec : ℤ) : Triple dev (exchange (.nanosleep 0 nsec) : Driver Word) lib d₁
      (fun _ lib' _ => lib = lib') (fun _ => True) := .exchange trivial rfl
  rw [if_pos rfl]
  exact (hsleep _).seq fun _ _ _ hlib => .pure hlib

end LineFollower.Bcm2835
