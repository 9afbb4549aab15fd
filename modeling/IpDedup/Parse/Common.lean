import IpDedup.Lib.Numeral
import Mathlib.Data.List.TakeWhile

/-!
# Parsing helpers

`util/parse_ip/common.c`, and the functions of the C library it rests on. A
line is the list of the bytes before its terminating null char, and may have
null chars of its own; as a C string it ends at the first of them.

## Main definitions

* `ParseIpRet`, `ParseIpType`: return codes and address families
* `strtol`, `strchr`: functions of the C library
* `parseIpSplitPrefixlen`: cuts the `/<prefixlen>` suffix off
* `parseIpReadOctet`, `parseIpReadDoubleOctet`

## Main results

* `parseIpReadOctet_numeral`: decimal numerals up to 255 are read
* `parseIpReadOctet_foreign`: a char that no number contains makes reading fail
-/

set_option autoImplicit false

open Numeral

namespace IpDedup

/-- `PARSE_IP_RET_*` -/
inductive ParseIpRet where
  | badInfileDup
  | badInfile
  | readErr
  | fail
  | success
  | invalid
  | invalidNet
  | didNotTry
  | notImplemented
  | eof
deriving DecidableEq, Repr

/-- The number behind a return code; the source compares them. -/
def ParseIpRet.code : ParseIpRet → Int
  | .badInfileDup => -4
  | .badInfile => -3
  | .readErr => -2
  | .fail => -1
  | .success => 0
  | .invalid => 1
  | .invalidNet => 2
  | .didNotTry => 3
  | .notImplemented => 4
  | .eof => 5

@[simp] theorem ParseIpRet.code_inj {ret ret' : ParseIpRet} :
    ret.code = ret'.code ↔ ret = ret' := by
  cases ret <;> cases ret' <;> simp [ParseIpRet.code]

/-- `PARSE_IP_TYPE_*`, a mask with one bit for each address family. -/
structure ParseIpType where
  ipv4 : Bool
  ipv6 : Bool
deriving DecidableEq, Repr

namespace ParseIpType

/-- `PARSE_IP_TYPE_NONE` -/
def none : ParseIpType := ⟨false, false⟩

/-- `PARSE_IP_TYPE_IPV4` -/
def onlyIpv4 : ParseIpType := ⟨true, false⟩

/-- `PARSE_IP_TYPE_IPV6` -/
def onlyIpv6 : ParseIpType := ⟨false, true⟩

/-- `PARSE_IP_TYPE_BOTH` -/
def both : ParseIpType := ⟨true, true⟩

end ParseIpType

def parseIpCheckTypeValid (type : ParseIpType) : Bool :=
  type.ipv4 || type.ipv6

/-! ### The C library -/

/-- The terminating null char of a C string. -/
def nul : Char := '\x00'

/-- The C string at the start of some memory. -/
def cstr (mem : List Char) : List Char := mem.takeWhile (· ≠ nul)

/-- `strchr`, as the text before and after the first occurrence. -/
def strchr (c : Char) : List Char → Option (List Char × List Char)
  | [] => none
  | x :: s => if x = c then some ([], s) else (strchr c s).map fun found => (x :: found.1, found.2)

/-- `isspace` in the C locale. -/
def isspace (c : Char) : Bool :=
  c ∈ [' ', '\t', '\n', '\x0b', '\x0c', '\r']

/-- The optional sign that `strtol` reads, and the rest. -/
def strtolSign : List Char → Bool × List Char
  | [] => (false, [])
  | c :: s => if c = '-' then (true, s) else if c = '+' then (false, s) else (false, c :: s)

/-- In base 16, `strtol` skips a leading `0x` when a digit follows it. -/
def strtolSkipHex (base : Nat) : List Char → List Char
  | z :: x :: d :: s =>
    if base = 16 ∧ z = '0' ∧ (x = 'x' ∨ x = 'X') ∧ isDigit 16 d then d :: s else z :: x :: d :: s
  | s => s

/-- The greatest `long`, in 64 bits. -/
def longMax : Int := 0x7fffffffffffffff

/-- The least `long`. -/
def longMin : Int := -0x8000000000000000

/-- A number that `strtol` returns; those outside of `long` are clamped. -/
def strtolClamp (number : Int) : Int :=
  if number > longMax then longMax else if number < longMin then longMin else number

/-- `strtol` in a base from 2 to 36: the number, and the text that was not read.
Without a digit nothing is read. -/
def strtol (arg : List Char) (base : Nat) : Int × List Char :=
  let (negative, s) := strtolSign (arg.dropWhile isspace)
  let s := strtolSkipHex base s
  let digits := s.takeWhile (isDigit base)
  if digits = [] then
    (0, arg)
  else
    let magnitude : Int := value base digits
    let number := if negative then -magnitude else magnitude
    (strtolClamp number, s.dropWhile (isDigit base))

/-! ### `common.c` -/

/-- `parse_ip_split_prefixlen`, looking at the last `k` places of the line. -/
def parseIpSplitPrefixlenLoop (s : List Char) : Nat → Option (List Char × Option (List Char))
  | 0 => some (cstr s, none)
  | k + 1 =>
    if s[k]? = some '/' then
      -- a slash must not end the line
      if s[k + 1]?.getD nul = nul then none
      else some (cstr (s.take k), some (cstr (s.drop (k + 1))))
    else parseIpSplitPrefixlenLoop s k

/-- The address part of a line and its prefixlen part, or `none` on error. -/
def parseIpSplitPrefixlen (s : List Char) : Option (List Char × Option (List Char)) :=
  if cstr s = [] then none else parseIpSplitPrefixlenLoop s s.length

/-- The number that makes up the whole string. -/
def parseIpStrtol (arg : List Char) (base : Nat) : Option Int :=
  let (lout, endptr) := strtol arg base
  if endptr = [] then some lout else none

def parseIpReadOctet (arg : List Char) (base : Nat) : Option Nat := do
  let buf ← parseIpStrtol arg base
  if buf < 0 ∨ buf > 0xff then none else some buf.toNat

def parseIpReadDoubleOctet (arg : List Char) (base : Nat) : Option Nat := do
  let buf ← parseIpStrtol arg base
  if buf < 0 ∨ buf > 0xffff then none else some buf.toNat

/-- An address that does not start with `0x`. -/
def PlainAddr (addrStr : List Char) : Prop :=
  ¬ (addrStr[0]? = some '0' ∧ addrStr[1]? = some 'x')

/-- A line in hexadecimal notation: it starts with `0x`, and text follows its last slash. -/
def HexNotation (line : List Char) : Prop :=
  ['0', 'x'] <+: line ∧ ∀ a p, line = a ++ '/' :: p → '/' ∉ p → p.head?.getD nul ≠ nul

/-! ### Strings -/

/-- The text before the first separator. -/
theorem takeWhile_ne_append {c : Char} {a : List Char} (fresh : c ∉ a) (b : List Char) :
    (a ++ c :: b).takeWhile (· ≠ c) = a := by
  rw [List.takeWhile_append_of_pos]
  · simp
  · intro x mem
    simpa using fun same : x = c => fresh (same ▸ mem)

theorem takeWhile_ne_of_not_mem {c : Char} {a : List Char} (fresh : c ∉ a) :
    a.takeWhile (· ≠ c) = a := by
  rw [List.takeWhile_eq_self_iff]
  intro x mem
  simpa using fun same : x = c => fresh (same ▸ mem)

@[simp] theorem cstr_nil : cstr [] = [] := rfl

theorem cstr_of_not_mem {s : List Char} (clean : nul ∉ s) : cstr s = s :=
  takeWhile_ne_of_not_mem clean

theorem cstr_cons {c : Char} (s : List Char) (h : c ≠ nul) : cstr (c :: s) = c :: cstr s := by
  simp [cstr, h]

theorem mem_of_mem_cstr {c : Char} {s : List Char} (mem : c ∈ cstr s) : c ∈ s :=
  (List.takeWhile_prefix _).mem mem

theorem cstr_append_nul {s : List Char} (clean : nul ∉ s) (t : List Char) :
    cstr (s ++ nul :: t) = s :=
  takeWhile_ne_append clean t

theorem strchr_append {c : Char} {s : List Char} (fresh : c ∉ s) (t : List Char) :
    strchr c (s ++ c :: t) = some (s, t) := by
  induction s with
  | nil => simp [strchr]
  | cons x s ih =>
    simp only [List.mem_cons, not_or] at fresh
    rw [List.cons_append, strchr, if_neg (Ne.symm fresh.1), ih fresh.2]
    rfl

theorem strchr_of_not_mem {c : Char} {s : List Char} (fresh : c ∉ s) : strchr c s = none := by
  induction s with
  | nil => rfl
  | cons x s ih =>
    simp only [List.mem_cons, not_or] at fresh
    rw [strchr, if_neg (Ne.symm fresh.1), ih fresh.2]
    rfl

/-- A string without the separator, or the text on both sides of the first one. -/
theorem strchr_cases (c : Char) (s : List Char) :
    (strchr c s = none ∧ c ∉ s) ∨ ∃ a b, strchr c s = some (a, b) ∧ s = a ++ c :: b ∧ c ∉ a := by
  by_cases mem : c ∈ s
  · obtain ⟨a, b, rfl, fresh⟩ := List.eq_append_cons_of_mem mem
    exact Or.inr ⟨a, b, strchr_append fresh b, rfl, fresh⟩
  · exact Or.inl ⟨strchr_of_not_mem mem, mem⟩

theorem length_lt_of_strchr {c : Char} {s a b : List Char} (found : strchr c s = some (a, b)) :
    b.length < s.length := by
  rcases strchr_cases c s with ⟨missing, -⟩ | ⟨a', b', here, rfl, -⟩
  · simp [missing] at found
  · rw [here] at found
    cases found
    simp only [List.length_append, List.length_cons]
    omega

/-- A char that no separator precedes stands before the first separator. -/
theorem mem_of_strchr {sep c : Char} {a rest s t : List Char} (fresh : sep ∉ a) (other : c ≠ sep)
    (found : strchr sep (a ++ c :: rest) = some (s, t)) : c ∈ s := by
  rcases strchr_cases sep (a ++ c :: rest) with ⟨missing, -⟩ | ⟨s', t', here, cut, fresh'⟩
  · simp [missing] at found
  · rw [here] at found
    cases found
    have front : sep ∉ a ++ [c] := by simp [fresh, other.symm]
    have reach : (a ++ [c] ++ rest).takeWhile (· ≠ sep) = s := by
      rw [← takeWhile_ne_append fresh' t, ← cut]
      simp
    rw [List.takeWhile_append_of_pos] at reach
    · simp [← reach]
    · intro x mem
      simpa using fun same : x = sep => front (same ▸ mem)

theorem intercalate_ne_nil {sep g : List Char} (nonempty : g ≠ []) (gs : List (List Char)) :
    sep.intercalate (g :: gs) ≠ [] := by
  obtain ⟨c, g, rfl⟩ := List.exists_cons_of_ne_nil nonempty
  simp

theorem head?_intercalate {sep g : List Char} (nonempty : g ≠ []) (gs : List (List Char)) :
    (sep.intercalate (g :: gs)).head? = g.head? := by
  obtain ⟨c, g, rfl⟩ := List.exists_cons_of_ne_nil nonempty
  simp

theorem mem_intercalate {sep c : Char} {groups : List (List Char)}
    (mem : c ∈ [sep].intercalate groups) : c = sep ∨ ∃ g ∈ groups, c ∈ g := by
  induction groups with
  | nil => cases mem
  | cons g groups ih =>
    cases groups with
    | nil => exact Or.inr ⟨g, List.mem_cons_self, by simpa using mem⟩
    | cons g' groups =>
      rw [List.intercalate_cons_cons, List.mem_append, List.mem_append, List.mem_singleton] at mem
      rcases mem with (inside | same) | rest
      · exact Or.inr ⟨g, List.mem_cons_self, inside⟩
      · exact Or.inl same
      · rcases ih rest with same | ⟨h, later, inside⟩
        · exact Or.inl same
        · exact Or.inr ⟨h, List.mem_cons_of_mem _ later, inside⟩

theorem mem_dropWhile {p : Char → Bool} {c : Char} {s : List Char} (mem : c ∈ s)
    (stays : p c = false) : c ∈ s.dropWhile p := by
  rw [← List.takeWhile_append_dropWhile (p := p) (l := s), List.mem_append] at mem
  rcases mem with front | rest
  · simp [List.mem_takeWhile_imp front] at stays
  · exact rest

/-! ### Numbers -/

section Numbers

variable {base : Nat} {s : List Char}

theorem not_isspace_of_isDigit {c : Char} (digit : isDigit base c = true) : isspace c = false := by
  rw [isspace, decide_eq_false_iff_not]
  intro mem
  simp only [List.mem_cons, List.not_mem_nil, or_false] at mem
  rcases mem with rfl | rfl | rfl | rfl | rfl | rfl <;> simp [isDigit, digit?] at digit

theorem strtolSign_digit {c : Char} (digit : isDigit base c = true) (s : List Char) :
    strtolSign (c :: s) = (false, c :: s) := by
  rw [strtolSign, if_neg, if_neg]
  · rintro rfl
    simp [isDigit, digit?] at digit
  · rintro rfl
    simp [isDigit, digit?] at digit

theorem strtolSkipHex_digits (small : base ≤ 16) (digits : ∀ c ∈ s, isDigit base c = true) :
    strtolSkipHex base s = s := by
  match s with
  | [] | [_] | [_, _] => rfl
  | z :: x :: d :: s =>
    rw [strtolSkipHex, if_neg]
    rintro ⟨-, -, mark, -⟩
    have digit := digits x (by simp)
    -- in base 16 or below, `x` is no digit
    rcases mark with rfl | rfl <;> simp [isDigit, digit?] at digit <;> omega

/-- `strtol` reads a numeral to its end. -/
theorem strtol_numeral (small : base ≤ 16) (nonempty : s ≠ [])
    (digits : ∀ c ∈ s, isDigit base c = true) (fits : (value base s : Int) ≤ longMax) :
    strtol s base = ((value base s : Int), []) := by
  obtain ⟨c, t, rfl⟩ := List.exists_cons_of_ne_nil nonempty
  have first := digits c List.mem_cons_self
  have visible : (c :: t).dropWhile isspace = c :: t := by
    simp [not_isspace_of_isDigit first]
  have all : (c :: t).takeWhile (isDigit base) = c :: t := List.takeWhile_eq_self_iff.mpr digits
  have rest : (c :: t).dropWhile (isDigit base) = [] := List.dropWhile_eq_nil_iff.mpr digits
  have exact : strtolClamp (value base (c :: t)) = value base (c :: t) := by
    unfold strtolClamp longMax longMin at *
    split_ifs <;> omega
  simp only [strtol, visible, strtolSign_digit first, strtolSkipHex_digits small digits, all, rest]
  rw [if_neg (by simp), if_neg (by simp), exact]

/-- A char that belongs to no number in the base. -/
def ForeignChar (base : Nat) (c : Char) : Prop :=
  isspace c = false ∧ c ∉ ['-', '+', 'x', 'X'] ∧ isDigit base c = false

theorem mem_strtolSign {c : Char} (mem : c ∈ s) (sign : c ∉ ['-', '+']) :
    c ∈ (strtolSign s).2 := by
  cases s with
  | nil => cases mem
  | cons x s =>
    rw [strtolSign]
    split_ifs with minus plus
    · grind
    · grind
    · exact mem

theorem mem_strtolSkipHex {c : Char} (mem : c ∈ s) (zero : c ≠ '0') (mark : c ∉ ['x', 'X']) :
    c ∈ strtolSkipHex base s := by
  match s with
  | [] | [_] | [_, _] => exact mem
  | z :: x :: d :: s =>
    rw [strtolSkipHex]
    split_ifs with skipped
    · grind
    · exact mem

/-- `strtol` stops at a foreign char, at the latest. -/
theorem strtol_foreign {c : Char} (pos : 1 < base) (mem : c ∈ s) (foreign : ForeignChar base c) :
    (strtol s base).2 ≠ [] := by
  obtain ⟨space, extra, digit⟩ := foreign
  have zero : c ≠ '0' := by
    rintro rfl
    simp [isDigit, digit?_zero pos] at digit
  have signed := mem_strtolSign (mem_dropWhile mem space) (by grind)
  have skipped : c ∈ strtolSkipHex base _ := mem_strtolSkipHex signed zero (by grind)
  have rest := mem_dropWhile skipped digit
  -- the whole text is left if there is no digit, and otherwise what follows the digits
  by_cases none : (strtolSkipHex base (strtolSign (s.dropWhile isspace)).2).takeWhile
      (isDigit base) = []
  · simpa only [strtol, none, if_true] using List.ne_nil_of_mem mem
  · simpa only [strtol, none, if_false] using List.ne_nil_of_mem rest

theorem parseIpStrtol_numeral (small : base ≤ 16) (nonempty : s ≠ [])
    (digits : ∀ c ∈ s, isDigit base c = true) (fits : (value base s : Int) ≤ longMax) :
    parseIpStrtol s base = some (value base s : Int) := by
  rw [parseIpStrtol, strtol_numeral small nonempty digits fits]
  rfl

theorem parseIpStrtol_foreign {c : Char} (pos : 1 < base) (mem : c ∈ s)
    (foreign : ForeignChar base c) : parseIpStrtol s base = none :=
  if_neg (strtol_foreign pos mem foreign)

theorem parseIpReadOctet_numeral (small : base ≤ 16) (nonempty : s ≠ [])
    (digits : ∀ c ∈ s, isDigit base c = true) (byte : value base s < 256) :
    parseIpReadOctet s base = some (value base s) := by
  have fits : (value base s : Int) ≤ longMax := by
    unfold longMax
    omega
  rw [parseIpReadOctet, parseIpStrtol_numeral small nonempty digits fits, Option.bind_eq_bind,
    Option.bind_some, if_neg (by omega), Int.toNat_natCast]

theorem parseIpReadDoubleOctet_numeral (small : base ≤ 16) (nonempty : s ≠ [])
    (digits : ∀ c ∈ s, isDigit base c = true) (short : value base s < 65536) :
    parseIpReadDoubleOctet s base = some (value base s) := by
  have fits : (value base s : Int) ≤ longMax := by
    unfold longMax
    omega
  rw [parseIpReadDoubleOctet, parseIpStrtol_numeral small nonempty digits fits,
    Option.bind_eq_bind, Option.bind_some, if_neg (by omega), Int.toNat_natCast]

theorem parseIpReadOctet_foreign {c : Char} (pos : 1 < base) (mem : c ∈ s)
    (foreign : ForeignChar base c) : parseIpReadOctet s base = none := by
  rw [parseIpReadOctet, parseIpStrtol_foreign pos mem foreign]
  rfl

theorem parseIpReadDoubleOctet_foreign {c : Char} (pos : 1 < base) (mem : c ∈ s)
    (foreign : ForeignChar base c) : parseIpReadDoubleOctet s base = none := by
  rw [parseIpReadDoubleOctet, parseIpStrtol_foreign pos mem foreign]
  rfl

end Numbers

/-! ### Cutting the prefixlen off -/

section SplitPrefixlen

variable {s a p : List Char} {k : Nat}

theorem parseIpSplitPrefixlenLoop_skip (other : s[k]? ≠ some '/') :
    parseIpSplitPrefixlenLoop s (k + 1) = parseIpSplitPrefixlenLoop s k := by
  rw [parseIpSplitPrefixlenLoop, if_neg other]

theorem parseIpSplitPrefixlenLoop_clean (fresh : '/' ∉ s) (k : Nat) :
    parseIpSplitPrefixlenLoop s k = some (cstr s, none) := by
  induction k with
  | zero => rfl
  | succ k ih =>
    rw [parseIpSplitPrefixlenLoop_skip fun slash => fresh (List.mem_of_getElem? slash), ih]

/-- The search runs down to the last slash. -/
theorem parseIpSplitPrefixlenLoop_last (fresh : '/' ∉ p) (j : Nat) :
    parseIpSplitPrefixlenLoop (a ++ '/' :: p) (a.length + 1 + j) =
      if p.head?.getD nul = nul then none else some (cstr a, some (cstr p)) := by
  induction j with
  | zero =>
    have next : (a ++ '/' :: p)[a.length + 1]? = p.head? := by
      simp [List.getElem?_append_right, List.head?_eq_getElem?]
    simp [parseIpSplitPrefixlenLoop, next]
  | succ j ih =>
    have other : (a ++ '/' :: p)[a.length + 1 + j]? ≠ some '/' := by
      rw [List.getElem?_append_right (by omega)]
      have index : a.length + 1 + j - a.length = j + 1 := by omega
      rw [index, List.getElem?_cons_succ]
      exact fun slash => fresh (List.mem_of_getElem? slash)
    rw [← Nat.add_assoc, parseIpSplitPrefixlenLoop_skip other, ih]

/-- A line without a slash is an address part. -/
theorem parseIpSplitPrefixlen_clean (nonempty : cstr s ≠ []) (fresh : '/' ∉ s) :
    parseIpSplitPrefixlen s = some (cstr s, none) := by
  rw [parseIpSplitPrefixlen, if_neg nonempty, parseIpSplitPrefixlenLoop_clean fresh]

/-- A line is cut at its last slash, which must not end it. -/
theorem parseIpSplitPrefixlen_slash (nonempty : cstr (a ++ '/' :: p) ≠ []) (fresh : '/' ∉ p) :
    parseIpSplitPrefixlen (a ++ '/' :: p) =
      if p.head?.getD nul = nul then none else some (cstr a, some (cstr p)) := by
  have length : (a ++ '/' :: p).length = a.length + 1 + p.length := by
    simp
    omega
  rw [parseIpSplitPrefixlen, if_neg nonempty, length, parseIpSplitPrefixlenLoop_last fresh]

/-- A line has no slash, or it has a last one. -/
theorem slash_cases (s : List Char) :
    '/' ∉ s ∨ ∃ a p, s = a ++ '/' :: p ∧ '/' ∉ p := by
  by_cases mem : '/' ∈ s
  · -- the first slash of the reversed line
    obtain ⟨p, a, reversed, fresh⟩ := List.eq_append_cons_of_mem (List.mem_reverse.mpr mem)
    refine Or.inr ⟨a.reverse, p.reverse, ?_, by simpa using fresh⟩
    simpa using congrArg List.reverse reversed
  · exact Or.inl mem

/-- An empty line is not cut. -/
theorem cstr_ne_nil_of_parseIpSplitPrefixlen {parts : List Char × Option (List Char)}
    (split : parseIpSplitPrefixlen s = some parts) : cstr s ≠ [] := by
  intro empty
  simp [parseIpSplitPrefixlen, empty] at split

/-- The parts of a line are C strings from its two ends. -/
theorem parts_of_parseIpSplitPrefixlen {addrStr : List Char} {prefixlenStr : Option (List Char)}
    (split : parseIpSplitPrefixlen s = some (addrStr, prefixlenStr)) :
    (∃ front, front <+: s ∧ addrStr = cstr front) ∧
      ∀ p ∈ prefixlenStr, ∃ back, back <:+ s ∧ p = cstr back := by
  have nonempty := cstr_ne_nil_of_parseIpSplitPrefixlen split
  rcases slash_cases s with fresh | ⟨a, p, rfl, fresh⟩
  · rw [parseIpSplitPrefixlen_clean nonempty fresh] at split
    cases split
    exact ⟨⟨s, List.prefix_rfl, rfl⟩, fun p none => by cases none⟩
  · rw [parseIpSplitPrefixlen_slash nonempty fresh] at split
    split_ifs at split
    cases split
    refine ⟨⟨a, List.prefix_append _ _, rfl⟩, fun q same => ?_⟩
    cases same
    exact ⟨p, (List.suffix_cons _ _).trans (List.suffix_append _ _), rfl⟩

/-- Both parts of a line that is cut are made of chars of the line. -/
theorem mem_of_parseIpSplitPrefixlen {addrStr : List Char} {prefixlenStr : Option (List Char)}
    (split : parseIpSplitPrefixlen s = some (addrStr, prefixlenStr)) :
    (∀ c ∈ addrStr, c ∈ s) ∧ ∀ p ∈ prefixlenStr, ∀ c ∈ p, c ∈ s := by
  obtain ⟨⟨front, before, rfl⟩, suffix⟩ := parts_of_parseIpSplitPrefixlen split
  refine ⟨fun c mem => before.mem (mem_of_mem_cstr mem), fun p own c mem => ?_⟩
  obtain ⟨back, behind, rfl⟩ := suffix p own
  exact behind.mem (mem_of_mem_cstr mem)

/-- The address part is what a line begins with, and has no null char. -/
theorem prefix_of_parseIpSplitPrefixlen {addrStr : List Char} {prefixlenStr : Option (List Char)}
    (split : parseIpSplitPrefixlen s = some (addrStr, prefixlenStr)) :
    addrStr <+: s ∧ nul ∉ addrStr := by
  obtain ⟨⟨front, before, rfl⟩, -⟩ := parts_of_parseIpSplitPrefixlen split
  refine ⟨(List.takeWhile_prefix _).trans before, fun mem => ?_⟩
  simpa using List.mem_takeWhile_imp mem

/-! ### Hexadecimal notation -/

theorem not_plainAddr_iff : ¬ PlainAddr s ↔ ['0', 'x'] <+: s := by
  rw [PlainAddr, not_not]
  constructor
  · rintro ⟨zero, x⟩
    rcases s with _ | ⟨a, _ | ⟨b, t⟩⟩
    · simp at zero
    · simp at x
    · obtain rfl : a = '0' := Option.some.inj zero
      obtain rfl : b = 'x' := Option.some.inj x
      exact List.prefix_append _ _
  · rintro ⟨t, rfl⟩
    exact ⟨rfl, rfl⟩

theorem PlainAddr.of_prefix {t : List Char} (plain : PlainAddr s) (front : t <+: s) :
    PlainAddr t := by
  by_contra hex
  exact not_plainAddr_iff.mpr ((not_plainAddr_iff.mp hex).trans front) plain

/-- A line in hexadecimal notation is cut, and its address part starts with `0x`. -/
theorem hexNotation_iff :
    HexNotation s ↔ ∃ addrStr prefixlenStr,
      parseIpSplitPrefixlen s = some (addrStr, prefixlenStr) ∧ ¬ PlainAddr addrStr := by
  simp only [not_plainAddr_iff]
  constructor
  · rintro ⟨⟨t, rfl⟩, suffix⟩
    have nonempty : cstr (['0', 'x'] ++ t) ≠ [] := by
      rw [List.cons_append, cstr_cons _ (by decide)]
      exact List.cons_ne_nil _ _
    rcases slash_cases (['0', 'x'] ++ t) with fresh | ⟨a, p, cut, fresh⟩
    · refine ⟨_, _, parseIpSplitPrefixlen_clean nonempty fresh, cstr t, ?_⟩
      rfl
    · -- neither of the first two chars is the slash
      obtain ⟨u, rfl⟩ : ['0', 'x'] <+: a := by
        rcases a with _ | ⟨c, _ | ⟨d, u⟩⟩
        · simp at cut
        · simp at cut
        · simp only [List.cons_append, List.nil_append, List.cons.injEq] at cut
          obtain ⟨rfl, rfl, -⟩ := cut
          exact List.prefix_append _ _
      have more := suffix _ p cut fresh
      rw [cut] at nonempty ⊢
      refine ⟨_, _, (parseIpSplitPrefixlen_slash nonempty fresh).trans (if_neg more), cstr u, rfl⟩
  · rintro ⟨addrStr, prefixlenStr, split, hex⟩
    refine ⟨hex.trans (prefix_of_parseIpSplitPrefixlen split).1, ?_⟩
    intro front rest same fresh none
    subst same
    -- a slash at the end would have kept the line from being cut
    rw [parseIpSplitPrefixlen_slash (cstr_ne_nil_of_parseIpSplitPrefixlen split) fresh,
      if_pos none] at split
    cases split

end SplitPrefixlen

end IpDedup
