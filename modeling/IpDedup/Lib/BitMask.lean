import Mathlib.Data.BitVec
import Mathlib.Tactic.Common

/-!
# Bit masks

The usual ways to write the mask of some low or high bits of a word with one
shift, and what these masks select.

## Main definitions

* `LowZero`: words without bits at the low positions

## Main results

* `getLsbD_shiftLeft_one_sub_one`, `getMsbD_allOnes_shiftLeft`: the bits of the masks
* `and_shiftLeft_one_sub_one_eq_zero_iff`: the test for low bits
-/

set_option autoImplicit false

namespace BitMask

section LowMask

variable {n : Nat} (x : BitVec n) {count : Nat}

/-- The `count` lowest bits of a word are zero. -/
def LowZero (count : Nat) : Prop := ∀ i < count, x.getLsbD i = false

instance (count : Nat) : Decidable (LowZero x count) :=
  inferInstanceAs (Decidable (∀ i < count, x.getLsbD i = false))

theorem shiftLeft_one_sub_one_eq (inside : count < n) :
    (1#n <<< count) - 1#n = BitVec.ofNat n (2 ^ count - 1) := by
  have small : 2 ^ count < 2 ^ n := Nat.pow_lt_pow_right (by decide) inside
  have positive : 0 < 2 ^ count := Nat.two_pow_pos count
  have one : 1 < 2 ^ n := Nat.one_lt_two_pow (by omega)
  have shifted : (1#n <<< count).toNat = 2 ^ count := by
    rw [← BitVec.twoPow, BitVec.toNat_twoPow, Nat.mod_eq_of_lt small]
  apply BitVec.eq_of_toNat_eq
  have le : 1#n ≤ 1#n <<< count := by
    rw [BitVec.le_def, shifted, BitVec.toNat_ofNat, Nat.mod_eq_of_lt one]
    exact positive
  rw [BitVec.toNat_sub_of_le le, shifted, BitVec.toNat_ofNat, BitVec.toNat_ofNat,
    Nat.mod_eq_of_lt one, Nat.mod_eq_of_lt (by omega)]

/-- `(1 << count) - 1` has the `count` lowest bits. -/
theorem getLsbD_shiftLeft_one_sub_one (inside : count < n) (i : Nat) :
    ((1#n <<< count) - 1#n).getLsbD i = decide (i < count) := by
  rw [shiftLeft_one_sub_one_eq inside, BitVec.getLsbD_ofNat, Nat.testBit_two_pow_sub_one,
    ← Bool.decide_and]
  congr 1
  apply propext
  omega

/-- `~0 << count` has all bits but the `count` lowest. -/
theorem getLsbD_allOnes_shiftLeft {i : Nat} (inside : i < n) :
    (BitVec.allOnes n <<< count).getLsbD i = decide (count ≤ i) := by
  have own : i - count < n := by omega
  rw [BitVec.getLsbD_shiftLeft, BitVec.getLsbD_allOnes, decide_eq_true inside, decide_eq_true own,
    Bool.true_and, Bool.and_true, ← decide_not]
  congr 1
  apply propext
  omega

/-- `~0 << (n - count)` has the `count` highest bits. -/
theorem getMsbD_allOnes_shiftLeft (fits : count ≤ n) {i : Nat} (inside : i < n) :
    (BitVec.allOnes n <<< (n - count)).getMsbD i = decide (i < count) := by
  have last : n - 1 - i < n := by omega
  rw [BitVec.getMsbD, decide_eq_true inside, Bool.true_and, getLsbD_allOnes_shiftLeft last]
  congr 1
  apply propext
  omega

/-- A word has no bit of a mask of low bits. -/
theorem and_eq_zero_iff_lowZero {mask : BitVec n} (fits : count ≤ n)
    (bits : ∀ i < n, mask.getLsbD i = decide (i < count)) :
    x &&& mask = 0 ↔ LowZero x count := by
  constructor
  · intro none i low
    have bit := congrArg (fun y => y.getLsbD i) none
    simpa [bits i (by omega), low] using bit
  · intro zero
    apply BitVec.eq_of_getLsbD_eq
    intro i inside
    rw [BitVec.getLsbD_and, bits i inside]
    by_cases low : i < count
    · simp [zero i low]
    · simp [low]

theorem and_shiftLeft_one_sub_one_eq_zero_iff (inside : count < n) :
    x &&& ((1#n <<< count) - 1#n) = 0 ↔ LowZero x count :=
  and_eq_zero_iff_lowZero x inside.le fun i _ => getLsbD_shiftLeft_one_sub_one inside i

end LowMask

section Append

variable {m n : Nat} {high : BitVec m} {low : BitVec n} {count : Nat}

theorem lowZero_append_of_le (few : count ≤ n) :
    LowZero (high ++ low) count ↔ LowZero low count := by
  refine forall₂_congr fun i inside => ?_
  rw [BitVec.getLsbD_append, if_pos (by omega)]

theorem lowZero_all : LowZero low n ↔ low = 0 := by
  constructor
  · intro zero
    apply BitVec.eq_of_getLsbD_eq
    intro i inside
    rw [zero i inside]
    exact BitVec.getLsbD_zero.symm
  · rintro rfl i -
    exact BitVec.getLsbD_zero

theorem lowZero_append_add :
    LowZero (high ++ low) (n + count) ↔ low = 0 ∧ LowZero high count := by
  rw [← lowZero_all]
  constructor
  · intro zero
    constructor
    · intro i inside
      have bit := zero i (by omega)
      rwa [BitVec.getLsbD_append, if_pos inside] at bit
    · intro i inside
      have bit := zero (n + i) (by omega)
      rwa [BitVec.getLsbD_append, if_neg (by omega), Nat.add_sub_cancel_left] at bit
  · rintro ⟨zeroL, zeroH⟩ i inside
    rw [BitVec.getLsbD_append]
    by_cases inLow : i < n
    · rw [if_pos inLow]
      exact zeroL i inLow
    · rw [if_neg inLow]
      exact zeroH (i - n) (by omega)

end Append

end BitMask
