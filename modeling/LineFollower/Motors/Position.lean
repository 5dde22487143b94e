import LineFollower.Motors.Board
import LineFollower.Motors.RegisterFile
import Mathlib.Data.Nat.Bitwise

/-!
# The wheels' positions

ABS_POS has 22 bits in two's complement. `getPos` extends the sign by or-ing
the 32-bit literal `0xffc00000` into a `long`, which is all bits above 21 when
a `long` has 32 bits. A 64-bit `long` keeps 32 zeros above them, and a negative
position reads as one of about 2^32 (`getPosition_setPos`).
-/

namespace LineFollower

open Lib Lib.Exchange

variable {host : Host}

def extendPos {w : ℕ} (temp : BitVec w) : BitVec w :=
  if temp &&& 0x00200000 ≠ 0 then temp ||| 0xffc00000 else temp

theorem getPos_does :
    Does (getPos host) (fun r => extendPos ((r .absPos).setWidth host.longBits)) id :=
  (getParam_does .absPos).bind fun temp => .pure (extendPos temp)

theorem setPos_does (newPos : ULong host) :
    Does (setPos host newPos) (fun _ => ())
      (fun r => Function.update r .absPos (newPos.setWidth 22)) :=
  setParam_does .absPos newPos

-- ---------------------------------------------------------------------------
-- The sign
-- ---------------------------------------------------------------------------

theorem extendPos_toNat {w : ℕ} (hw : 32 ≤ w) (x : BitVec 22) :
    (extendPos (x.setWidth w)).toNat =
      if x.toNat < 2 ^ 21 then x.toNat else x.toNat + (2 ^ 32 - 2 ^ 22) := by
  have hx : x.toNat < 2 ^ 22 := x.isLt
  have hpow : 2 ^ 32 ≤ 2 ^ w := Nat.pow_le_pow_right (by decide) hw
  have hvalue : (x.setWidth w).toNat = x.toNat := by
    rw [BitVec.toNat_setWidth, Nat.mod_eq_of_lt (by omega)]
  have hliteral {n : ℕ} (hn : n < 2 ^ 32) : (BitVec.ofNat w n).toNat = n := by
    rw [BitVec.toNat_ofNat, Nat.mod_eq_of_lt (by omega)]
  have hand : (x.setWidth w &&& 0x00200000).toNat = 2 ^ 21 * (x.toNat.testBit 21).toNat := by
    rw [BitVec.toNat_and, hvalue, Nat.and_comm, ← Nat.two_pow_and]
    exact congrArg (· &&& x.toNat) (hliteral (by decide))
  have hor : (x.setWidth w ||| 0xffc00000).toNat = x.toNat + (2 ^ 32 - 2 ^ 22) := by
    rw [BitVec.toNat_or, hvalue, Nat.or_comm]
    have hadd := Nat.two_pow_add_eq_or_of_lt hx 1023
    rw [show (0xffc00000 : BitVec w).toNat = 2 ^ 22 * 1023 from hliteral (by decide), ← hadd]
    omega
  have hbit : x.setWidth w &&& 0x00200000 ≠ 0 ↔ ¬ x.toNat < 2 ^ 21 := by
    have hbit : x.toNat.testBit 21 = decide (¬ x.toNat < 2 ^ 21) := by
      rw [Nat.testBit_eq_decide_div_mod_eq]
      exact decide_eq_decide.mpr (by omega)
    rw [ne_eq, ← BitVec.toNat_inj, hand, hbit]
    simp
  unfold extendPos
  by_cases h : x.toNat < 2 ^ 21
  · rw [if_neg (by rw [hbit]; omega), if_pos h, hvalue]
  · rw [if_pos (hbit.mpr h), if_neg h, hor]

def readBack (host : Host) (p : ℤ) : ℤ := if host.longBits = 32 ∨ 0 ≤ p then p else p + 2 ^ 32

theorem extendPos_toInt {w : ℕ} (hw : w = 32 ∨ w = 64) {p : ℤ} (hl : -2 ^ 21 ≤ p)
    (hu : p < 2 ^ 21) :
    (extendPos ((BitVec.ofInt 22 p).setWidth w)).toInt = if w = 32 ∨ 0 ≤ p then p
      else p + 2 ^ 32 := by
  have hnat : (BitVec.ofInt 22 p).toNat = (if 0 ≤ p then p else p + 2 ^ 22).toNat := by
    rw [BitVec.toNat_ofInt]
    split <;> omega
  have hvalue := extendPos_toNat (w := w) (by omega) (BitVec.ofInt 22 p)
  rw [hnat] at hvalue
  rw [BitVec.toInt_eq_toNat_cond, hvalue]
  rcases hw with rfl | rfl
  · split_ifs <;> omega
  · split_ifs <;> omega

-- ---------------------------------------------------------------------------
-- Reading back
-- ---------------------------------------------------------------------------

theorem setWidth_ofInt {w : ℕ} (hw : 22 ≤ w) (p : ℤ) :
    (BitVec.ofInt w p).setWidth 22 = BitVec.ofInt 22 p := by
  have hdvd : ((2 ^ 22 : ℕ) : ℤ) ∣ (2 ^ w : ℕ) := by exact_mod_cast pow_dvd_pow 2 hw
  have hmod := Int.emod_emod_of_dvd p hdvd
  apply BitVec.eq_of_toNat_eq
  rw [BitVec.toNat_setWidth, BitVec.toNat_ofInt, BitVec.toNat_ofInt]
  omega

section
variable (other : ChipState → Byte → Byte) (self : Motors) (regs : Chip → Registers) {p : ℤ}

/-- On either wheel: the position is set and read back, the other chip's
registers are not touched. -/
theorem setPos_getPosition_runs (hl : -2 ^ 21 ≤ p) (hu : p < 2 ^ 21) {position : Byte} {chip : Chip}
    (hc : packetIndex position = some chip) :
    Runs (chain other) (do
        select position
        setPos host (BitVec.ofInt _ p)
        select position
        return (← getPos host).toInt) self (idle regs) (readBack host p)
      { self with nPosition := position }
      (idle (Function.update regs chip
        (Function.update (regs chip) .absPos (BitVec.ofInt _ p)))) := by
  have hwide : 22 ≤ host.longBits := host.le_longBits.trans' (by decide)
  have hset :=
    setPos_does (BitVec.ofInt host.longBits p) other { self with nPosition := position } chip
    regs hc
  have hread : Does (getPos host) _ _ := getPos_does
  have hget := hread other { self with nPosition := position } chip
    (Function.update regs chip (Function.update (regs chip) .absPos (BitVec.ofInt _ p))) hc
  simp only [setWidth_ofInt hwide] at hset
  simp only [id, Function.update_self, Function.update_idem] at hget
  have hvalue : (extendPos ((BitVec.ofInt 22 p).setWidth host.longBits)).toInt = readBack host p :=
    extendPos_toInt host.longBits_ok hl hu
  rw [← hvalue]
  refine (Runs.modifyVars _ _ _).bind (hset.bind ?_)
  exact (Runs.modifyVars _ _ _).bind (hget.bind (Runs.pure _ _ _))

end

theorem readBack_eq (host : Host) (p : ℤ) : readBack host p = p ↔ host.longBits = 32 ∨ 0 ≤ p := by
  unfold readBack
  split
  · rename_i h
    exact ⟨fun _ => h, fun _ => rfl⟩
  · rename_i h
    exact ⟨fun heq => by omega, fun h' => absurd h' h⟩

/-- A position that was set is read back, on either wheel, exactly when it is
not negative or a `long` has 32 bits. The other chip keeps its registers. -/
theorem getPosition_setPos (host : Host) (other : ChipState → Byte → Byte) (self : Motors)
    (regs : Chip → Registers) {p : ℤ} (hl : -2 ^ 21 ≤ p) (hu : p < 2 ^ 21) :
    (∃ r, Runs (chain other) (do select 0; setPos host (BitVec.ofInt _ p); getPositionLeft host)
        self (idle regs) r { self with nPosition := 0 }
        (idle (Function.update regs .left
          (Function.update (regs .left) .absPos (BitVec.ofInt _ p)))) ∧
      (r = p ↔ host.longBits = 32 ∨ 0 ≤ p)) ∧
    (∃ r, Runs (chain other) (do select 1; setPos host (BitVec.ofInt _ p); getPositionRight host)
        self (idle regs) r { self with nPosition := 1 }
        (idle (Function.update regs .right
          (Function.update (regs .right) .absPos (BitVec.ofInt _ p)))) ∧
      (r = p ↔ host.longBits = 32 ∨ 0 ≤ p)) :=
  ⟨⟨readBack host p, setPos_getPosition_runs other self regs hl hu rfl, readBack_eq host p⟩,
    ⟨readBack host p, setPos_getPosition_runs other self regs hl hu rfl, readBack_eq host p⟩⟩

theorem getPosition_setPos_forward :
    ∃ r, Runs (chain fun _ _ => 0)
        (do select 0; setPos .lp64 (BitVec.ofInt _ 5); getPositionLeft .lp64)
        ⟨0, 0, true, true⟩ (idle fun _ _ => 0) r ⟨0, 0, true, true⟩
        (idle (Function.update (fun _ _ => 0) .left
          (Function.update (fun _ => 0) .absPos (BitVec.ofInt _ 5)))) ∧
      (r = 5 ↔ Host.lp64.longBits = 32 ∨ (0 : ℤ) ≤ 5) :=
  (getPosition_setPos .lp64 (fun _ _ => 0) ⟨0, 0, true, true⟩ (fun _ _ => 0) (by norm_num)
    (by norm_num)).1

/-- One step backwards reads as 2^32 - 1 steps. -/
theorem getPosition_backward :
    Runs (chain fun _ _ => 0)
        (do select 0; setPos .lp64 (BitVec.ofInt _ (-1)); getPositionLeft .lp64)
        ⟨0, 0, true, true⟩ (idle fun _ _ => 0) 4294967295 ⟨0, 0, true, true⟩
        (idle (Function.update (fun _ _ => 0) .left
          (Function.update (fun _ => 0) .absPos (BitVec.ofInt _ (-1))))) ∧
      (4294967295 : ℤ) ≠ -1 :=
  ⟨setPos_getPosition_runs (fun _ _ => 0) ⟨0, 0, true, true⟩ (fun _ _ => 0) (by norm_num)
    (by norm_num) rfl, by decide⟩

end LineFollower
