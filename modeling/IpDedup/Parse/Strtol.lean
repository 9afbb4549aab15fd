import IpDedup.Parse.Common

/-!
# What `strtol` takes for a number

`util/parse_ip/common.c` leaves the reading of numbers to `strtol` and then
checks that the whole text was consumed. That is more than digits: white space
and a sign may stand in front of them, and `0x` in base 16.

## Main definitions

* `StrtolNumeral`: the texts that are read to their end, and their number

## Main results

* `parseIpStrtol_iff`: these are all of them, but for the empty text
* `parseIpReadOctet_iff`, `parseIpReadDoubleOctet_iff`: the same with a bound
-/

set_option autoImplicit false

open Numeral

namespace IpDedup

/-- White space, an optional sign, in base 16 an optional `0x`, and digits, at least one. -/
def StrtolNumeral (base : Nat) (s : List Char) (number : Int) : Prop :=
  ∃ blanks sign mark digits, s = blanks ++ (sign ++ (mark ++ digits)) ∧
    (∀ c ∈ blanks, isspace c = true) ∧ (sign = [] ∨ sign = ['+'] ∨ sign = ['-']) ∧
    (mark = [] ∨ base = 16 ∧ (mark = ['0', 'x'] ∨ mark = ['0', 'X'])) ∧
    digits ≠ [] ∧ (∀ c ∈ digits, isDigit base c = true) ∧
    number = if sign = ['-'] then -(value base digits : Int) else value base digits

section Strtol

variable {base : Nat} {s : List Char} {number : Int}

/-- The parts of a numeral, which can be computed. -/
theorem StrtolNumeral.of_parts (blanks sign mark digits : List Char)
    (parts : s = blanks ++ (sign ++ (mark ++ digits)) ∧ blanks.all isspace = true ∧
      (sign = [] ∨ sign = ['+'] ∨ sign = ['-']) ∧
      (mark = [] ∨ base = 16 ∧ (mark = ['0', 'x'] ∨ mark = ['0', 'X'])) ∧
      digits ≠ [] ∧ digits.all (isDigit base) = true ∧
      number = if sign = ['-'] then -(value base digits : Int) else value base digits) :
    StrtolNumeral base s number := by
  obtain ⟨text, spaces, signs, marks, nonempty, all, own⟩ := parts
  exact ⟨blanks, sign, mark, digits, text, List.all_eq_true.mp spaces, signs, marks, nonempty,
    List.all_eq_true.mp all, own⟩

/-! ### From the text to the number -/

theorem strtolSkipHex_mark {x : Char} {digits : List Char} (mark : x = 'x' ∨ x = 'X')
    (nonempty : digits ≠ []) (all : ∀ c ∈ digits, isDigit 16 c = true) :
    strtolSkipHex 16 ('0' :: x :: digits) = digits := by
  obtain ⟨d, digits, rfl⟩ := List.exists_cons_of_ne_nil nonempty
  exact if_pos ⟨rfl, rfl, mark, all d List.mem_cons_self⟩

theorem strtolSign_sign {sign rest : List Char} {c : Char}
    (signs : sign = [] ∨ sign = ['+'] ∨ sign = ['-']) (digit : isDigit base c = true) :
    strtolSign (sign ++ c :: rest) = (decide (sign = ['-']), c :: rest) := by
  rcases signs with rfl | rfl | rfl
  · exact strtolSign_digit digit rest
  · rfl
  · rfl

/-- A numeral is read to its end. -/
theorem StrtolNumeral.strtol_eq (small : base ≤ 16) (numeral : StrtolNumeral base s number) :
    strtol s base = (strtolClamp number, []) := by
  obtain ⟨blanks, sign, mark, digits, rfl, spaces, signs, marks, nonempty, all, rfl⟩ := numeral
  -- a digit follows the sign, with the mark or without it
  obtain ⟨c, rest, front, digit⟩ :
      ∃ c rest, mark ++ digits = c :: rest ∧ isDigit base c = true := by
    rcases marks with rfl | ⟨rfl, rfl | rfl⟩
    · obtain ⟨d, rest, rfl⟩ := List.exists_cons_of_ne_nil nonempty
      exact ⟨d, rest, rfl, all d List.mem_cons_self⟩
    · exact ⟨'0', _, rfl, rfl⟩
    · exact ⟨'0', _, rfl, rfl⟩
  have visible : (blanks ++ (sign ++ c :: rest)).dropWhile isspace = sign ++ c :: rest := by
    rw [List.dropWhile_append_of_pos spaces]
    rcases signs with rfl | rfl | rfl
    · simp [not_isspace_of_isDigit digit]
    · rfl
    · rfl
  have skip : strtolSkipHex base (mark ++ digits) = digits := by
    rcases marks with rfl | ⟨rfl, rfl | rfl⟩
    · exact strtolSkipHex_digits small all
    · exact strtolSkipHex_mark (Or.inl rfl) nonempty all
    · exact strtolSkipHex_mark (Or.inr rfl) nonempty all
  have taken : digits.takeWhile (isDigit base) = digits := List.takeWhile_eq_self_iff.mpr all
  have left : digits.dropWhile (isDigit base) = [] := List.dropWhile_eq_nil_iff.mpr all
  rw [front] at skip ⊢
  simp only [strtol, visible, strtolSign_sign signs digit, skip, taken, left, if_neg nonempty,
    decide_eq_true_eq]

/-! ### From the number to the text -/

theorem strtolSign_cases (s : List Char) :
    ∃ sign, (sign = [] ∨ sign = ['+'] ∨ sign = ['-']) ∧ s = sign ++ (strtolSign s).2 ∧
      (strtolSign s).1 = decide (sign = ['-']) := by
  cases s with
  | nil => exact ⟨[], by simp [strtolSign]⟩
  | cons c s =>
    rw [strtolSign]
    split_ifs with minus plus
    · exact ⟨['-'], by simp [minus]⟩
    · exact ⟨['+'], by simp [plus]⟩
    · exact ⟨[], by simp⟩

theorem strtolSkipHex_cases (base : Nat) (s : List Char) :
    ∃ mark, (mark = [] ∨ base = 16 ∧ (mark = ['0', 'x'] ∨ mark = ['0', 'X'])) ∧
      s = mark ++ strtolSkipHex base s := by
  match s with
  | [] | [_] | [_, _] => exact ⟨[], by simp [strtolSkipHex]⟩
  | z :: x :: d :: s =>
    rw [strtolSkipHex]
    split_ifs with skipped
    · obtain ⟨base16, rfl, rfl | rfl, -⟩ := skipped
      · exact ⟨['0', 'x'], by simp [base16]⟩
      · exact ⟨['0', 'X'], by simp [base16]⟩
    · exact ⟨[], by simp⟩

/-- What is read to its end is a numeral. -/
theorem strtolNumeral_of_strtol (nonempty : s ≠ []) (read : (strtol s base).2 = []) :
    ∃ number, StrtolNumeral base s number ∧ (strtol s base).1 = strtolClamp number := by
  obtain ⟨sign, signs, signed, negative⟩ := strtolSign_cases (s.dropWhile isspace)
  obtain ⟨mark, marks, marked⟩ :=
    strtolSkipHex_cases base (strtolSign (s.dropWhile isspace)).2
  simp only [strtol] at read ⊢
  by_cases none : (strtolSkipHex base (strtolSign (s.dropWhile isspace)).2).takeWhile
      (isDigit base) = []
  · -- without a digit, the whole text is left
    rw [if_pos none] at read
    exact absurd read nonempty
  · rw [if_neg none] at read ⊢
    have all := List.dropWhile_eq_nil_iff.mp read
    rw [List.takeWhile_eq_self_iff.mpr all] at none ⊢
    refine ⟨_, ⟨s.takeWhile isspace, sign, mark, _, ?_, ?_, signs, marks, none, all, rfl⟩, ?_⟩
    · rw [← marked, ← signed, List.takeWhile_append_dropWhile]
    · exact fun c mem => List.mem_takeWhile_imp mem
    · simp only [negative, decide_eq_true_eq]

/-! ### Reading numbers -/

theorem parseIpStrtol_iff (small : base ≤ 16) (nonempty : s ≠ []) :
    parseIpStrtol s base = some number ↔
      ∃ n, StrtolNumeral base s n ∧ number = strtolClamp n := by
  simp only [parseIpStrtol]
  constructor
  · intro read
    split_ifs at read with finish
    obtain ⟨n, numeral, clamped⟩ := strtolNumeral_of_strtol nonempty finish
    exact ⟨n, numeral, (Option.some.inj read).symm.trans clamped⟩
  · rintro ⟨n, numeral, rfl⟩
    rw [numeral.strtol_eq small]
    rfl

/-- Numbers within some bound are not clamped. -/
theorem strtolClamp_bounds {n : Int} {max : Nat} (fits : (max : Int) < longMax) :
    ¬ (strtolClamp n < 0 ∨ strtolClamp n > max) ↔ ¬ (n < 0 ∨ n > max) := by
  unfold strtolClamp longMax longMin at *
  split_ifs <;> omega

theorem strtolClamp_of_bounds {n : Int} {max : Nat} (fits : (max : Int) < longMax)
    (bounds : ¬ (n < 0 ∨ n > max)) : strtolClamp n = n := by
  unfold strtolClamp longMax longMin at *
  split_ifs <;> omega

/-- A number that is read with a bound is that of a numeral. -/
theorem parseIpStrtol_bounded (small : base ≤ 16) (nonempty : s ≠ []) {max : Nat}
    (fits : (max : Int) < longMax) (n : Nat) :
    ((parseIpStrtol s base).bind fun buf =>
        if buf < 0 ∨ buf > max then none else some buf.toNat) = some n ↔
      StrtolNumeral base s n ∧ n ≤ max := by
  rw [Option.bind_eq_some_iff]
  constructor
  · rintro ⟨number, read, bounded⟩
    -- a number out of range stays out of it when it is clamped
    obtain ⟨m, numeral, rfl⟩ := (parseIpStrtol_iff small nonempty).mp read
    split_ifs at bounded with outside
    have inside := (strtolClamp_bounds fits).mp outside
    rw [strtolClamp_of_bounds fits inside] at bounded
    obtain ⟨k, rfl⟩ := Int.eq_ofNat_of_zero_le (show 0 ≤ m by omega)
    obtain rfl : k = n := Option.some.inj bounded
    exact ⟨numeral, by omega⟩
  · rintro ⟨numeral, le⟩
    have inside : ¬ ((n : Int) < 0 ∨ (n : Int) > max) := by omega
    refine ⟨n, (parseIpStrtol_iff small nonempty).mpr ⟨n, numeral, ?_⟩, if_neg inside⟩
    exact (strtolClamp_of_bounds fits inside).symm

theorem parseIpReadOctet_iff (small : base ≤ 16) (nonempty : s ≠ []) (n : Nat) :
    parseIpReadOctet s base = some n ↔ StrtolNumeral base s n ∧ n ≤ 0xff :=
  parseIpStrtol_bounded small nonempty (by decide) n

theorem parseIpReadDoubleOctet_iff (small : base ≤ 16) (nonempty : s ≠ []) (n : Nat) :
    parseIpReadDoubleOctet s base = some n ↔ StrtolNumeral base s n ∧ n ≤ 0xffff :=
  parseIpStrtol_bounded small nonempty (by decide) n

theorem StrtolNumeral.ne_nil (numeral : StrtolNumeral base s number) : s ≠ [] := by
  obtain ⟨blanks, sign, mark, digits, rfl, -, -, -, nonempty, -⟩ := numeral
  simp [nonempty]

/-- The chars of a numeral. -/
theorem StrtolNumeral.mem (numeral : StrtolNumeral base s number) {c : Char} (mem : c ∈ s) :
    isspace c = true ∨ c ∈ ['+', '-'] ∨ base = 16 ∧ c ∈ ['x', 'X'] ∨ isDigit base c = true := by
  obtain ⟨blanks, sign, mark, digits, rfl, spaces, signs, marks, -, all, -⟩ := numeral
  simp only [List.mem_append] at mem
  rcases mem with blank | inSign | inMark | digit
  · exact Or.inl (spaces c blank)
  · rcases signs with rfl | rfl | rfl <;> simp at inSign <;> simp [inSign]
  · rcases marks with rfl | ⟨rfl, rfl | rfl⟩ <;> simp at inMark <;>
      rcases inMark with rfl | rfl <;> simp <;> decide
  · exact Or.inr (Or.inr (Or.inr (all c digit)))

/-- A separator is in no numeral. -/
theorem StrtolNumeral.not_mem (numeral : StrtolNumeral base s number) {sep : Char}
    (small : base ≤ 16) (separator : sep ∈ ['.', ':', '/', nul]) : sep ∉ s := by
  intro inside
  have one : sep = '.' ∨ sep = ':' ∨ sep = '/' ∨ sep = nul := by simpa using separator
  rcases numeral.mem inside with blank | extra | ⟨-, extra⟩ | digit
  · rcases one with rfl | rfl | rfl | rfl <;> cases blank
  · rcases one with rfl | rfl | rfl | rfl <;> simp [nul] at extra
  · rcases one with rfl | rfl | rfl | rfl <;> simp [nul] at extra
  · have wide := isDigit_mono small digit
    rcases one with rfl | rfl | rfl | rfl <;> cases wide

/-- A decimal numeral has no mark. -/
theorem StrtolNumeral.x_not_mem (numeral : StrtolNumeral 10 s number) : 'x' ∉ s := by
  intro inside
  rcases numeral.mem inside with blank | extra | ⟨other, -⟩ | digit
  · cases blank
  · simp at extra
  · cases other
  · cases digit

end Strtol

/-- A member of the first of two related lists has a partner in the second one. -/
theorem exists_mem_of_forall₂ {α β : Type} {R : α → β → Prop} {xs : List α} {ys : List β}
    (related : List.Forall₂ R xs ys) {x : α} (mem : x ∈ xs) : ∃ y ∈ ys, R x y := by
  induction related with
  | nil => cases mem
  | cons first _ ih =>
    rcases List.mem_cons.mp mem with rfl | later
    · exact ⟨_, List.mem_cons_self, first⟩
    · obtain ⟨y, here, partner⟩ := ih later
      exact ⟨y, List.mem_cons_of_mem _ here, partner⟩

/-! ### The suffix of a line -/

/-- An optional suffix with a prefix length. -/
def PrefixlenText (max : Nat) (suffix : List Char) : Option Nat → Prop
  | none => suffix = []
  | some prefixlen => ∃ t, suffix = '/' :: t ∧ StrtolNumeral 10 t prefixlen ∧ prefixlen ≤ max

/-- A prefix length part that is read as some prefix length. -/
def ReadsPrefixlen (max : Nat) : Option (List Char) → Option Nat → Prop
  | none, none => True
  | some t, some prefixlen => t ≠ [] ∧ parseIpReadOctet t 10 = some prefixlen ∧ prefixlen ≤ max
  | _, _ => False

section Suffix

variable {s a : List Char} {max : Nat} {prefixlen? : Option Nat}

/-- A line without null chars is the address part, and what was cut off behind a slash. -/
theorem text_of_parseIpSplitPrefixlen {t? : Option (List Char)} (clean : nul ∉ s)
    (split : parseIpSplitPrefixlen s = some (a, t?)) :
    s = a ++ (t?.elim [] fun t => '/' :: t) ∧ ∀ t ∈ t?, t ≠ [] := by
  have nonempty := cstr_ne_nil_of_parseIpSplitPrefixlen split
  rcases slash_cases s with fresh | ⟨a', t, rfl, fresh⟩
  · rw [parseIpSplitPrefixlen_clean nonempty fresh, cstr_of_not_mem clean] at split
    obtain ⟨rfl, rfl⟩ := Prod.mk.inj (Option.some.inj split)
    simp
  · have front : nul ∉ a' := fun mem => clean (by simp [mem])
    have back : nul ∉ t := fun mem => clean (by simp [mem])
    rw [parseIpSplitPrefixlen_slash nonempty fresh, cstr_of_not_mem front,
      cstr_of_not_mem back] at split
    split_ifs at split with none
    obtain ⟨rfl, rfl⟩ := Prod.mk.inj (Option.some.inj split)
    refine ⟨rfl, fun t mem => ?_⟩
    obtain rfl := Option.some.inj mem
    rintro rfl
    exact none rfl

/-- Such a line is cut into these parts again. -/
theorem parseIpSplitPrefixlen_text {t? : Option (List Char)}
    (clean : nul ∉ a ++ (t?.elim [] fun t => '/' :: t)) (nonempty : a ≠ []) (fresh : '/' ∉ a)
    (suffix : ∀ t ∈ t?, t ≠ [] ∧ '/' ∉ t) :
    parseIpSplitPrefixlen (a ++ (t?.elim [] fun t => '/' :: t)) = some (a, t?) := by
  have front : nul ∉ a := fun mem => clean (by simp [mem])
  have visible : cstr (a ++ (t?.elim [] fun t => '/' :: t)) ≠ [] := by
    rw [cstr_of_not_mem clean]
    simp [nonempty]
  cases t? with
  | none =>
    rw [Option.elim_none, List.append_nil] at visible ⊢
    rw [parseIpSplitPrefixlen_clean visible fresh, cstr_of_not_mem front]
  | some t =>
    obtain ⟨more, fresh'⟩ := suffix t rfl
    have back : nul ∉ t := fun mem => clean (by simp [mem])
    rw [Option.elim_some] at visible ⊢
    rw [parseIpSplitPrefixlen_slash visible fresh', cstr_of_not_mem front, cstr_of_not_mem back,
      if_neg]
    obtain ⟨c, t, rfl⟩ := List.exists_cons_of_ne_nil more
    rintro rfl
    exact back List.mem_cons_self

theorem prefixlenText_iff (byte : max ≤ 0xff) {suffix : List Char} :
    PrefixlenText max suffix prefixlen? ↔
      ∃ t?, suffix = (t?.elim [] fun t => '/' :: t) ∧ ReadsPrefixlen max t? prefixlen? := by
  cases prefixlen? with
  | none =>
    constructor
    · intro empty
      exact ⟨none, empty, trivial⟩
    · rintro ⟨_ | t, rfl, reads⟩
      · rfl
      · cases reads
  | some prefixlen =>
    constructor
    · rintro ⟨t, rfl, numeral, le⟩
      have read := (parseIpReadOctet_iff (by decide) numeral.ne_nil prefixlen).mpr
        ⟨numeral, le.trans byte⟩
      exact ⟨some t, rfl, numeral.ne_nil, read, le⟩
    · rintro ⟨_ | t, rfl, reads⟩
      · cases reads
      · obtain ⟨more, read, le⟩ := reads
        exact ⟨t, rfl, ((parseIpReadOctet_iff (by decide) more prefixlen).mp read).1, le⟩

/-- The lines with some kind of address are those that are cut into one and a prefix length. -/
theorem exists_text_iff (byte : max ≤ 0xff) (clean : nul ∉ s) {address : List Char → Prop}
    (plain : ∀ a, address a → a ≠ [] ∧ '/' ∉ a) :
    (∃ a suffix, s = a ++ suffix ∧ address a ∧ PrefixlenText max suffix prefixlen?) ↔
      ∃ a t?, parseIpSplitPrefixlen s = some (a, t?) ∧ address a ∧
        ReadsPrefixlen max t? prefixlen? := by
  constructor
  · rintro ⟨a, suffix, rfl, own, text⟩
    obtain ⟨t?, rfl, reads⟩ := (prefixlenText_iff byte).mp text
    obtain ⟨nonempty, fresh⟩ := plain a own
    refine ⟨a, t?, parseIpSplitPrefixlen_text clean nonempty fresh ?_, own, reads⟩
    intro t mem
    obtain rfl := Option.mem_def.mp mem
    cases prefixlen? with
    | none => cases reads
    | some prefixlen =>
      have found := (parseIpReadOctet_iff (by decide) reads.1 prefixlen).mp reads.2.1
      exact ⟨reads.1, found.1.not_mem (by decide) (by decide)⟩
  · rintro ⟨a, t?, split, own, reads⟩
    exact ⟨a, _, (text_of_parseIpSplitPrefixlen clean split).1, own,
      (prefixlenText_iff byte).mpr ⟨t?, rfl, reads⟩⟩

end Suffix

end IpDedup
