import LineFollower.Lib.Rounding
import Mathlib.Data.Rat.Floor

/-!
# The host

The widths and the conversions that the language leaves to the machine.
-/

namespace LineFollower

open Lib

abbrev Byte := BitVec 8

/-- How wide `long` and `size_t` are, and what a floating-point value becomes
as an integer type of `w` bits. The language defines that value when the
truncated one fits; a host may return anything when it does not. -/
structure Host where
  longBits : Nat
  longBits_ok : longBits = 32 ∨ longBits = 64
  toUnsigned : (w : Nat) → ℚ → BitVec w
  toSigned : (w : Nat) → ℚ → BitVec w
  toUnsigned_fits : ∀ w q, 0 ≤ trunc q → trunc q < 2 ^ w →
    toUnsigned w q = BitVec.ofInt w (trunc q)
  toSigned_fits : ∀ w q, -2 ^ (w - 1) ≤ trunc q → trunc q < 2 ^ (w - 1) →
    toSigned w q = BitVec.ofInt w (trunc q)

theorem Host.le_longBits (host : Host) : 32 ≤ host.longBits := by
  rcases host.longBits_ok with h | h <;> omega

theorem Host.longBytes (host : Host) : host.longBits / 8 = 4 ∨ host.longBits / 8 = 8 := by
  rcases host.longBits_ok with h | h <;> omega

/-- A 64-bit host that wraps what does not fit. -/
def Host.lp64 : Host where
  longBits := 64
  longBits_ok := .inr rfl
  toUnsigned w q := BitVec.ofInt w (trunc q)
  toSigned w q := BitVec.ofInt w (trunc q)
  toUnsigned_fits _ _ _ _ := rfl
  toSigned_fits _ _ _ _ := rfl

/-- The values of the host's 32-bit `int`. -/
def FitsInt (n : ℤ) : Prop := -2 ^ 31 ≤ n ∧ n < 2 ^ 31

instance (n : ℤ) : Decidable (FitsInt n) := inferInstanceAs (Decidable (_ ∧ _))

end LineFollower
