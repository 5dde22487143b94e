import LineFollower.Motors.Fields
import LineFollower.Motors.Session

/-!
# The number of microsteps

`L6470::setMicroSteps` takes a number of microsteps to a full step, and STEP_SEL
is the number of times that it can be halved. The loop gives up after eight
turns, one more than the field has values for.
-/

namespace LineFollower

open Lib Lib.Exchange

def syncSel1 : BitVec 32 := 0x10

/-- `for (; stepVal < 8; stepVal++)`, with `turns` left. -/
def stepValLoop : ℕ → BitVec 32 → BitVec 32 → BitVec 32
  | 0, _, stepVal => stepVal
  | turns + 1, nMicroSteps, stepVal =>
    if nMicroSteps = 1 then stepVal
    else stepValLoop turns (nMicroSteps >>> 1) (stepVal + 1)

def setMicroSteps (host : Host) (nMicroSteps : BitVec 32) : Spi Unit := do
  hardHiZ
  let stepVal := stepValLoop 8 nMicroSteps 0
  setParam host .stepMode ((stepVal ||| syncSel1).setWidth host.longBits)

-- ---------------------------------------------------------------------------
-- The loop
-- ---------------------------------------------------------------------------

def halvings (turns n : ℕ) : ℕ := if 1 ≤ n ∧ n < 2 ^ turns then Nat.log2 n else turns

theorem halvings_succ {n : ℕ} (turns : ℕ) (h : n ≠ 1) :
    halvings (turns + 1) n = halvings turns (n / 2) + 1 := by
  have hpow : 2 ^ (turns + 1) = 2 * 2 ^ turns := Nat.pow_succ'
  unfold halvings
  by_cases hlt : 1 ≤ n / 2 ∧ n / 2 < 2 ^ turns
  · have hlog : Nat.log2 n = Nat.log2 (n / 2) + 1 := by
      rw [Nat.log2_def, if_pos (by omega)]
    rw [if_pos hlt, if_pos (by omega), hlog]
  · rw [if_neg hlt, if_neg (by omega)]

theorem stepValLoop_eq (turns : ℕ) (nMicroSteps stepVal : BitVec 32) :
    stepValLoop turns nMicroSteps stepVal =
      stepVal + BitVec.ofNat 32 (halvings turns nMicroSteps.toNat) := by
  induction turns generalizing nMicroSteps stepVal with
  | zero =>
    have hzero : halvings 0 nMicroSteps.toNat = 0 := if_neg (by omega)
    rw [hzero, stepValLoop, BitVec.add_zero]
  | succ turns ih =>
    rw [stepValLoop]
    split
    · rename_i hone
      have hlt : 1 < 2 ^ (turns + 1) := Nat.one_lt_two_pow (Nat.succ_ne_zero turns)
      have hzero : halvings (turns + 1) nMicroSteps.toNat = 0 := by
        rw [hone]
        exact if_pos ⟨Nat.le_refl 1, hlt⟩
      rw [hzero, BitVec.add_zero]
    · rename_i hne
      have hne : nMicroSteps.toNat ≠ 1 := fun h => hne (BitVec.eq_of_toNat_eq h)
      have hhalf : (nMicroSteps >>> 1).toNat = nMicroSteps.toNat / 2 := BitVec.toNat_ushiftRight _ _
      rw [ih, hhalf, halvings_succ turns hne, BitVec.ofNat_add, BitVec.add_assoc,
        BitVec.add_comm 1]
      rfl

theorem halvings_le (n : ℕ) : halvings 8 n ≤ 8 := by
  unfold halvings
  split
  · rename_i h
    exact Nat.le_of_lt ((Nat.log2_lt (by omega)).mpr h.2)
  · exact Nat.le_refl 8

-- ---------------------------------------------------------------------------
-- The register
-- ---------------------------------------------------------------------------

variable {host : Host}

def microStepMode (n : ℕ) : Byte := BitVec.ofNat 8 (halvings 8 n) ||| 0x10

theorem setMicroSteps_value (nMicroSteps : BitVec 32) :
    (((stepValLoop 8 nMicroSteps 0 ||| syncSel1).setWidth host.longBits).setWidth 8 : Byte) =
      microStepMode nMicroSteps.toNat := by
  have hloop : stepValLoop 8 nMicroSteps 0 = BitVec.ofNat 32 (halvings 8 nMicroSteps.toNat) :=
    (stepValLoop_eq 8 nMicroSteps 0).trans (BitVec.zero_add _)
  have hall : ∀ k < 9, ((BitVec.ofNat 32 k ||| syncSel1).setWidth 8 : Byte) =
      BitVec.ofNat 8 k ||| 0x10 := by decide
  have hwide := host.le_longBits
  rw [hloop, BitVec.setWidth_setWidth_of_le _ (by omega)]
  exact hall _ (Nat.lt_succ_of_le (halvings_le _))

theorem setMicroSteps_sends (nMicroSteps : BitVec 32) :
    Sends [cmdHardHiZ, ParamRegister.stepMode.value, microStepMode nMicroSteps.toNat]
      (setMicroSteps host nMicroSteps) := by
  have hset := setParam_sends .stepMode
    ((stepValLoop 8 nMicroSteps 0 ||| syncSel1).setWidth host.longBits)
  have hbyte : bytesBelow (wireValue .stepMode
      ((stepValLoop 8 nMicroSteps 0 ||| syncSel1).setWidth host.longBits)) 1 =
      [microStepMode nMicroSteps.toNat] := by
    rw [← @setMicroSteps_value host]
    exact congrArg (fun v => [BitVec.setWidth 8 v]) (BitVec.ushiftRight_zero _)
  have hlen : byteLength ParamRegister.stepMode.len = 1 := rfl
  rw [hlen, hbyte] at hset
  exact (command_sends cmdHardHiZ).seq hset

theorem setMicroSteps_does (nMicroSteps : BitVec 32) :
    Does (setMicroSteps host nMicroSteps) (fun _ => ())
      (fun r => Function.update r .stepMode (microStepMode nMicroSteps.toNat)) := by
  have hhiz : Does hardHiZ (fun _ => ()) id := command_does argBytes_hardHiZ (by decide)
  exact (hhiz.bind fun _ => setParam_does .stepMode _).congr (fun _ => rfl) fun r =>
    congrArg (Function.update r .stepMode) (setMicroSteps_value nMicroSteps)

theorem stepSel_microStepMode (r : Registers) (n : ℕ) :
    fields.read (Function.update r .stepMode (microStepMode n)) .stepSel =
      BitVec.ofNat 8 (halvings 8 n % 8) := by
  have hall : ∀ k < 9, (BitVec.ofNat 8 k ||| 0x10 : Byte) &&& stepSelMask =
      BitVec.ofNat 8 (k % 8) := by
    decide
  have hread : fields.read (Function.update r .stepMode (microStepMode n)) .stepSel =
      microStepMode n &&& stepSelMask :=
    congrArg (· &&& stepSelMask) (Function.update_self _ _ _)
  exact hread.trans (hall _ (Nat.lt_succ_of_le (halvings_le n)))

/-- Two to the mode is the largest power that is not above the number. -/
theorem halvings_power {n : ℕ} (hpos : 1 ≤ n) (hlt : n < 256) :
    2 ^ (halvings 8 n % 8) ≤ n ∧ n < 2 ^ (halvings 8 n % 8 + 1) := by
  have hlog : Nat.log2 n < 8 := (Nat.log2_lt (by omega)).mpr hlt
  have hhalvings : halvings 8 n % 8 = Nat.log2 n := by
    rw [halvings, if_pos ⟨hpos, hlt⟩, Nat.mod_eq_of_lt hlog]
  rw [hhalvings]
  exact ⟨Nat.log2_self_le (by omega), Nat.lt_log2_self⟩

theorem halvings_none {n : ℕ} (h : n = 0 ∨ 256 ≤ n) : halvings 8 n % 8 = 0 := by
  rw [halvings, if_neg (by omega)]

theorem halvings_exact (n : ℕ) : 2 ^ (halvings 8 n % 8) = n ↔ ∃ k < 8, n = 2 ^ k := by
  constructor
  · intro h
    exact ⟨_, Nat.mod_lt _ (by decide), h.symm⟩
  · rintro ⟨k, hk, rfl⟩
    have hlt : 2 ^ k < 256 := Nat.pow_lt_pow_right (by decide) hk
    obtain ⟨hle, hnext⟩ := halvings_power Nat.one_le_two_pow hlt
    have hbelow := (Nat.pow_le_pow_iff_right (by decide)).mp hle
    have habove := (Nat.pow_lt_pow_iff_right (by decide)).mp hnext
    rw [Nat.le_antisymm hbelow (Nat.le_of_lt_succ habove)]

/-- For every number of microsteps: the motor is released and only STEP_MODE
written, whatever it was, with SYNC_SEL at one and SYNC_EN off. `getStepMode`
then tells the number back exactly when it is one of the chip's. A number
between two of these is rounded down, and one that is too large selects the full
step, as zero does. -/
theorem setMicroSteps_getStepMode (host : Host) (nMicroSteps : BitVec 32) :
    ∃ mode < 8, ∃ written : Byte,
      Sends [cmdHardHiZ, ParamRegister.stepMode.value, written] (setMicroSteps host nMicroSteps) ∧
      Does (do setMicroSteps host nMicroSteps; getStepMode host) (fun _ => BitVec.ofNat 8 mode)
        (fun r => Function.update r .stepMode written) ∧
      written &&& (syncEn ||| syncSelMask) = 0x10 ∧
      (2 ^ mode = nMicroSteps.toNat ↔ ∃ k < 8, nMicroSteps.toNat = 2 ^ k) ∧
      (1 ≤ nMicroSteps.toNat → nMicroSteps.toNat < 256 →
        2 ^ mode ≤ nMicroSteps.toNat ∧ nMicroSteps.toNat < 2 ^ (mode + 1)) ∧
      (nMicroSteps.toNat = 0 ∨ 256 ≤ nMicroSteps.toNat → mode = 0) := by
  have hget : Does (do setMicroSteps host nMicroSteps; getStepMode host)
      (fun _ => BitVec.ofNat 8 (halvings 8 nMicroSteps.toNat % 8))
      (fun r => Function.update r .stepMode (microStepMode nMicroSteps.toNat)) :=
    ((setMicroSteps_does nMicroSteps).bind fun _ => getStepMode_does).congr
      (fun r => stepSel_microStepMode r _) fun _ => rfl
  have hsync : ∀ k < 9, (BitVec.ofNat 8 k ||| 0x10 : Byte) &&& (syncEn ||| syncSelMask) = 0x10 := by
    decide
  exact ⟨_, Nat.mod_lt _ (by decide), _, setMicroSteps_sends nMicroSteps, hget,
    hsync _ (Nat.lt_succ_of_le (halvings_le _)), halvings_exact _, halvings_power, halvings_none⟩

end LineFollower
