import Mathlib.Data.Nat.Basic
import Mathlib.Data.List.Basic
import Mathlib.Tactic.Common

/-!
# Numerals

Digits and their values in bases up to 36, and the numerals that `Nat.toDigits`
writes.

## Main definitions

* `Numeral.digit?`: the value of a digit
* `Numeral.value`: the value of a string of digits

## Main results

* `Numeral.value_toDigits`, `Numeral.value_padded`: reading a numeral gives back the number,
  also with leading zeros
-/

set_option autoImplicit false

namespace Numeral

/-- The value of a digit in the given base. Both cases of letters count. -/
def digit? (base : Nat) (c : Char) : Option Nat :=
  let n := c.toNat
  let v :=
    if '0'.toNat ≤ n ∧ n ≤ '9'.toNat then n - '0'.toNat
    else if 'a'.toNat ≤ n ∧ n ≤ 'z'.toNat then n - 'a'.toNat + 10
    else if 'A'.toNat ≤ n ∧ n ≤ 'Z'.toNat then n - 'A'.toNat + 10
    else base
  if v < base then some v else none

/-- A character that is a digit in the given base. -/
def isDigit (base : Nat) (c : Char) : Bool := (digit? base c).isSome

/-- The value of a string of digits, after the digits that make `init`. -/
def valueFrom (base : Nat) : Nat → List Char → Nat
  | init, [] => init
  | init, c :: s => valueFrom base (base * init + (digit? base c).getD 0) s

/-- The value of a string of digits. -/
def value (base : Nat) (s : List Char) : Nat := valueFrom base 0 s

@[simp] theorem valueFrom_nil (base init : Nat) : valueFrom base init [] = init := rfl

@[simp] theorem valueFrom_cons (base init : Nat) (c : Char) (s : List Char) :
    valueFrom base init (c :: s) = valueFrom base (base * init + (digit? base c).getD 0) s := rfl

theorem valueFrom_append (base init : Nat) (s t : List Char) :
    valueFrom base init (s ++ t) = valueFrom base (valueFrom base init s) t := by
  induction s generalizing init with
  | nil => rfl
  | cons c s ih => exact ih _

variable {base n : Nat}

theorem isDigit_mono {base' : Nat} (le : base ≤ base') {c : Char} (digit : isDigit base c = true) :
    isDigit base' c = true := by
  unfold isDigit digit? at *
  grind

/-! ### Written numerals -/

theorem digit?_digitChar (small : base ≤ 16) (lt : n < base) :
    digit? base n.digitChar = some n := by
  have table : ∀ m < 16, digit? 16 m.digitChar = some m := by decide
  have wide := table n (Nat.lt_of_lt_of_le lt small)
  unfold digit? at wide ⊢
  grind

theorem isDigit_digitChar (small : base ≤ 16) (lt : n < base) :
    isDigit base n.digitChar = true := by
  rw [isDigit, digit?_digitChar small lt]
  rfl

theorem isDigit_of_mem_toDigits (large : 1 < base) (small : base ≤ 16) {c : Char}
    (mem : c ∈ Nat.toDigits base n) : isDigit base c = true := by
  induction n using Nat.strongRecOn with
  | ind n ih =>
    rw [Nat.toDigits_eq_if large] at mem
    split_ifs at mem with lt
    · obtain rfl := List.mem_singleton.mp mem
      exact isDigit_digitChar small lt
    · rcases List.mem_append.mp mem with front | last
      · exact ih (n / base) (Nat.div_lt_self (by omega) large) front
      · obtain rfl := List.mem_singleton.mp last
        exact isDigit_digitChar small (Nat.mod_lt n (by omega))

/-- Reading a written numeral gives back the number. -/
theorem value_toDigits (large : 1 < base) (small : base ≤ 16) :
    value base (Nat.toDigits base n) = n := by
  induction n using Nat.strongRecOn with
  | ind n ih =>
    rw [Nat.toDigits_eq_if large]
    split_ifs with lt
    · simp [value, digit?_digitChar small lt]
    · have front := ih (n / base) (Nat.div_lt_self (by omega) large)
      rw [value] at front ⊢
      rw [valueFrom_append, front, valueFrom_cons, valueFrom_nil,
        digit?_digitChar small (Nat.mod_lt n (by omega)), Option.getD_some]
      exact Nat.div_add_mod n base

/-! ### Leading zeros -/

theorem digit?_zero (large : 1 < base) : digit? base '0' = some 0 := by
  simp [digit?, show 0 < base by omega]

theorem valueFrom_zeros (large : 1 < base) (k : Nat) (s : List Char) :
    valueFrom base 0 (List.replicate k '0' ++ s) = valueFrom base 0 s := by
  induction k with
  | zero => rfl
  | succ k ih =>
    rw [List.replicate_succ, List.cons_append, valueFrom_cons, digit?_zero large]
    exact ih

/-- Leading zeros do not change the value. -/
theorem value_padded (large : 1 < base) (small : base ≤ 16) (width : Nat) :
    value base ((Nat.toDigits base n).leftpad width '0') = n := by
  rw [List.leftpad, value, valueFrom_zeros large]
  exact value_toDigits large small

theorem isDigit_of_mem_padded (large : 1 < base) (small : base ≤ 16) {width : Nat} {c : Char}
    (mem : c ∈ (Nat.toDigits base n).leftpad width '0') : isDigit base c = true := by
  rw [List.leftpad, List.mem_append] at mem
  rcases mem with zero | digit
  · obtain rfl := (List.mem_replicate.mp zero).2
    rw [isDigit, digit?_zero large]
    rfl
  · exact isDigit_of_mem_toDigits large small digit

end Numeral
