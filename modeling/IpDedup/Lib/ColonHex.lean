import IpDedup.Lib.Numeral
import Mathlib.Data.BitVec

/-!
# Hexadecimal groups between colons

The text form of 128-bit addresses, as a reader takes it: eight groups of one to
four hexadecimal digits. One double colon may stand for one or more groups of
zeros, and the last two groups may be four decimal numbers between dots.

## Main definitions

* `ColonHex.decode?`: the number that a text denotes
* `ColonHex.text`: groups written without leading zeros
* `ColonHex.Plain`: lower-case digits without a leading zero

## Main results

* `ColonHex.blocks?_text`, `ColonHex.blocks?_double`: groups that are written are read back
* `ColonHex.eq_of_cut?`: a text with one double colon is cut nowhere else
* `ColonHex.number_blocks`: the blocks of a number make up the number
-/

set_option autoImplicit false

open Numeral

namespace ColonHex

/-! ### Reading -/

/-- One to four hexadecimal digits. -/
def group? (g : List Char) : Option Nat :=
  if g ≠ [] ∧ g.length ≤ 4 ∧ g.all (isDigit 16) then some (value 16 g) else none

/-- One to three decimal digits, up to 255. -/
def octet? (g : List Char) : Option Nat :=
  if g ≠ [] ∧ g.length ≤ 3 ∧ g.all (isDigit 10) ∧ value 10 g < 256 then some (value 10 g) else none

/-- Four decimal numbers between dots, which make two groups. -/
def dotted? (g : List Char) : Option (List Nat) := do
  match ← (g.splitOn '.').mapM octet? with
  | [a, b, c, d] => some [256 * a + b, 256 * c + d]
  | _ => none

/-- Groups, of which the last one may be dotted. -/
def groups? : List (List Char) → Option (List Nat)
  | [] => some []
  | [g] => if '.' ∈ g then dotted? g else (group? g).map ([·])
  | g :: gs => do
    let block ← group? g
    let blocks ← groups? gs
    pure (block :: blocks)

/-- What stands behind a double colon. -/
def back? (s : List Char) : Option (List Nat) :=
  if s = [] then some [] else groups? (s.splitOn ':')

/-- What stands in front of a double colon, where nothing is dotted. -/
def front? (s : List Char) : Option (List Nat) := if '.' ∈ s then none else back? s

/-- Cut a text at the first double colon. -/
def cut? : List Char → Option (List Char × List Char)
  | ':' :: ':' :: s => some ([], s)
  | c :: s => (cut? s).map (Prod.map (c :: ·) id)
  | [] => none

/-- The eight blocks that a text denotes. -/
def blocks? (s : List Char) : Option (List Nat) :=
  match cut? s with
  | none => do
    let blocks ← groups? (s.splitOn ':')
    if blocks.length = 8 then some blocks else none
  | some (l, r) => do
    let front ← front? l
    let back ← back? r
    if front.length + back.length < 8 then
      some (front ++ List.replicate (8 - (front.length + back.length)) 0 ++ back)
    else none

/-- Blocks of 16 bits, put together. -/
def number (blocks : List Nat) : Nat := blocks.foldl (65536 * · + ·) 0

/-- The address that a text denotes. -/
def decode? (s : List Char) : Option (BitVec 128) :=
  (blocks? s).map fun blocks => BitVec.ofNat 128 (number blocks)

example : decode? "1:2:3:4:5:6:7:8".toList = some 0x00010002000300040005000600070008#128 := by
  decide

example : decode? "64:FF9b::192.0.2.1".toList = some 0x0064ff9b0000000000000000c0000201#128 := by
  decide

example : decode? "1::2::3".toList = none := by decide

/-! ### Writing -/

/-- The text of some blocks, without leading zeros. -/
def text (blocks : List Nat) : List Char := [':'].intercalate (blocks.map (Nat.toDigits 16))

/-- Lower-case digits without a leading zero, unless the zero is all there is. -/
structure Plain (g : List Char) : Prop where
  lower : ∀ c ∈ g, c ∈ "0123456789abcdef".toList
  lead : g.head? = some '0' → g = ['0']

section Digits

variable {n : Nat}

theorem digitChar_lower (small : n < 16) : n.digitChar ∈ "0123456789abcdef".toList := by
  have table : ∀ m < 16, m.digitChar ∈ "0123456789abcdef".toList := by decide
  exact table n small

theorem plain_nil : Plain [] := ⟨by simp, by simp⟩

theorem plain_toDigits (n : Nat) : Plain (Nat.toDigits 16 n) := by
  induction n using Nat.strongRecOn with
  | ind n ih =>
    rw [Nat.toDigits_eq_if (by decide)]
    split_ifs with small
    · -- a single digit may be a zero
      refine ⟨fun c mem => ?_, fun zero => ?_⟩
      · obtain rfl := List.mem_singleton.mp mem
        exact digitChar_lower small
      · rw [List.head?_cons, Option.some_inj] at zero
        rw [zero]
    · have front := ih (n / 16) (by omega)
      refine ⟨fun c mem => ?_, fun zero => ?_⟩
      · rcases List.mem_append.mp mem with front' | last
        · exact front.lower c front'
        · obtain rfl := List.mem_singleton.mp last
          exact digitChar_lower (Nat.mod_lt n (by decide))
      · -- a leading zero would be all there is of the quotient, which is positive
        rw [List.head?_append_of_ne_nil _ Nat.toDigits_ne_nil] at zero
        have quotient : value 16 (Nat.toDigits 16 (n / 16)) = n / 16 :=
          value_toDigits (by decide) (by decide)
        rw [front.lead zero] at quotient
        have positive : 0 < n / 16 := Nat.div_pos (Nat.le_of_not_lt small) (by decide)
        simp [value, digit?] at quotient
        omega

theorem length_toDigits_le (short : n < 65536) : (Nat.toDigits 16 n).length ≤ 4 :=
  (Nat.length_toDigits_le_iff (by decide) (by decide)).mpr short

theorem not_mem_toDigits {c : Char} (other : isDigit 16 c = false) : c ∉ Nat.toDigits 16 n := by
  intro mem
  rw [isDigit_of_mem_toDigits (by decide) (by decide) mem] at other
  cases other

theorem group?_toDigits (short : n < 65536) : group? (Nat.toDigits 16 n) = some n := by
  have digits : (Nat.toDigits 16 n).all (isDigit 16) = true :=
    List.all_eq_true.mpr fun c => isDigit_of_mem_toDigits (by decide) (by decide)
  rw [group?, if_pos ⟨Nat.toDigits_ne_nil, length_toDigits_le short, digits⟩,
    value_toDigits (by decide) (by decide)]

end Digits

/-! ### Reading what is written -/

section Text

variable {blocks ls rs : List Nat} {s l r : List Char}

@[simp] theorem text_nil : text [] = [] := rfl

@[simp] theorem text_singleton (n : Nat) : text [n] = Nat.toDigits 16 n := by
  simp [text]

theorem text_cons_cons (n m : Nat) (blocks : List Nat) :
    text (n :: m :: blocks) = Nat.toDigits 16 n ++ ':' :: text (m :: blocks) := by
  simp [text, List.intercalate_cons_cons]

theorem head?_text (n : Nat) (blocks : List Nat) :
    (text (n :: blocks)).head? = (Nat.toDigits 16 n).head? := by
  cases blocks with
  | nil => rw [text_singleton]
  | cons m blocks => rw [text_cons_cons, List.head?_append_of_ne_nil _ Nat.toDigits_ne_nil]

theorem head?_text_ne_colon (blocks : List Nat) : (text blocks).head? ≠ some ':' := by
  cases blocks with
  | nil => simp
  | cons n blocks =>
    rw [head?_text]
    exact fun colon => not_mem_toDigits (by decide) (List.mem_of_head? colon)

theorem text_ne_nil (nonempty : blocks ≠ []) : text blocks ≠ [] := by
  obtain ⟨n, blocks, rfl⟩ := List.exists_cons_of_ne_nil nonempty
  cases blocks <;> simp [text_cons_cons]

theorem dot_not_mem_text (blocks : List Nat) : '.' ∉ text blocks := by
  induction blocks with
  | nil => simp
  | cons n blocks ih =>
    have digits : '.' ∉ Nat.toDigits 16 n := not_mem_toDigits (by decide)
    cases blocks with
    | nil => rwa [text_singleton]
    | cons m blocks =>
      rw [text_cons_cons, List.mem_append, List.mem_cons, not_or, not_or]
      exact ⟨digits, by decide, ih⟩

theorem splitOn_text (nonempty : blocks ≠ []) :
    (text blocks).splitOn ':' = blocks.map (Nat.toDigits 16) := by
  apply List.splitOn_intercalate
  · intro g mem
    obtain ⟨n, -, rfl⟩ := List.mem_map.mp mem
    exact not_mem_toDigits (by decide)
  · simpa using nonempty

theorem groups?_map (bound : ∀ n ∈ blocks, n < 65536) :
    groups? (blocks.map (Nat.toDigits 16)) = some blocks := by
  induction blocks with
  | nil => rfl
  | cons n blocks ih =>
    have first := group?_toDigits (bound n List.mem_cons_self)
    cases blocks with
    | nil =>
      have plain : '.' ∉ Nat.toDigits 16 n := not_mem_toDigits (by decide)
      simp [groups?, plain, first]
    | cons m blocks =>
      have rest := ih fun k mem => bound k (List.mem_cons_of_mem n mem)
      rw [List.map_cons] at rest ⊢
      rw [List.map_cons, groups?, first, rest]
      · rfl
      · simp

theorem back?_text (bound : ∀ n ∈ blocks, n < 65536) : back? (text blocks) = some blocks := by
  by_cases none : blocks = []
  · subst none
    rfl
  · rw [back?, if_neg (text_ne_nil none), splitOn_text none, groups?_map bound]

theorem front?_text (bound : ∀ n ∈ blocks, n < 65536) : front? (text blocks) = some blocks := by
  rw [front?, if_neg (dot_not_mem_text blocks), back?_text bound]

theorem plain_of_mem_splitOn_text {g : List Char} (mem : g ∈ (text blocks).splitOn ':') :
    Plain g := by
  by_cases none : blocks = []
  · subst none
    obtain rfl : g = [] := by simpa using mem
    exact plain_nil
  · rw [splitOn_text none] at mem
    obtain ⟨n, -, rfl⟩ := List.mem_map.mp mem
    exact plain_toDigits n

/-! ### Cutting at the double colon -/

/-- A text begins with a double colon, or is cut in what follows its first character. -/
theorem cut?_cons (c : Char) (s : List Char) :
    (∃ s', c = ':' ∧ s = ':' :: s' ∧ cut? (c :: s) = some ([], s')) ∨
      (c = ':' → s.head? ≠ some ':') ∧ cut? (c :: s) = (cut? s).map (Prod.map (c :: ·) id) := by
  by_cases double : c = ':' ∧ s.head? = some ':'
  · obtain ⟨rfl, head⟩ := double
    obtain ⟨s', rfl⟩ := List.head?_eq_some_iff.mp head
    exact Or.inl ⟨s', rfl, rfl, rfl⟩
  · rw [not_and] at double
    refine Or.inr ⟨double, ?_⟩
    rw [cut?]
    rintro s' rfl rfl
    exact double rfl rfl

theorem cut?_cons_of_ne {c : Char} (other : c ≠ ':') (s : List Char) :
    cut? (c :: s) = (cut? s).map (Prod.map (c :: ·) id) := by
  rcases cut?_cons c s with ⟨_, colon, -⟩ | ⟨-, eq⟩
  · exact absurd colon other
  · exact eq

theorem cut?_colon_cons (single : s.head? ≠ some ':') :
    cut? (':' :: s) = (cut? s).map (Prod.map (':' :: ·) id) := by
  rcases cut?_cons ':' s with ⟨_, -, rfl, -⟩ | ⟨-, eq⟩
  · exact absurd rfl single
  · exact eq

theorem cut?_append {g : List Char} (fresh : ':' ∉ g) (s : List Char) :
    cut? (g ++ s) = (cut? s).map (Prod.map (g ++ ·) id) := by
  induction g with
  | nil =>
    have same : Prod.map (fun x : List Char => [] ++ x) (id : List Char → List Char) = id := rfl
    rw [same, Option.map_id, List.nil_append, id]
  | cons c g ih =>
    rw [List.mem_cons, not_or] at fresh
    rw [List.cons_append, cut?_cons_of_ne (Ne.symm fresh.1), ih fresh.2, Option.map_map]
    rfl

/-- Groups with single colons between them are not cut. -/
theorem cut?_text (blocks : List Nat) : cut? (text blocks) = none := by
  induction blocks with
  | nil => rfl
  | cons n blocks ih =>
    have fresh : ':' ∉ Nat.toDigits 16 n := not_mem_toDigits (by decide)
    cases blocks with
    | nil =>
      have whole := cut?_append fresh []
      rw [List.append_nil] at whole
      rw [text_singleton, whole]
      rfl
    | cons m blocks =>
      rw [text_cons_cons, cut?_append fresh, cut?_colon_cons (head?_text_ne_colon _), ih]
      rfl

/-- The cut is behind the groups in front of the double colon. -/
theorem cut?_text_append (blocks : List Nat) (r : List Char) :
    cut? (text blocks ++ ':' :: ':' :: r) = some (text blocks, r) := by
  induction blocks with
  | nil => rfl
  | cons n blocks ih =>
    have fresh : ':' ∉ Nat.toDigits 16 n := not_mem_toDigits (by decide)
    cases blocks with
    | nil =>
      rw [text_singleton, cut?_append fresh]
      simp [cut?]
    | cons m blocks =>
      have head : (text (m :: blocks) ++ ':' :: ':' :: r).head? ≠ some ':' := by
        rw [List.head?_append_of_ne_nil _ (text_ne_nil (List.cons_ne_nil m blocks))]
        exact head?_text_ne_colon _
      rw [text_cons_cons, List.append_assoc, cut?_append fresh, List.cons_append,
        cut?_colon_cons head, ih]
      rfl

/-- Where a double colon is, there is a cut. -/
theorem cut?_ne_none (l r : List Char) : cut? (l ++ ':' :: ':' :: r) ≠ none := by
  induction l with
  | nil => simp [cut?]
  | cons c l ih =>
    rw [List.cons_append]
    rcases cut?_cons c (l ++ ':' :: ':' :: r) with ⟨s', -, -, eq⟩ | ⟨-, eq⟩
    · simp [eq]
    · simpa [eq] using ih

/-- If nothing behind the cut belongs to another double colon, there is no other double colon. -/
theorem eq_of_cut? {front back : List Char} (first : cut? s = some (l, r))
    (none : cut? r = none) (single : r.head? ≠ some ':')
    (eq : s = front ++ ':' :: ':' :: back) : front = l ∧ back = r := by
  induction front generalizing s l with
  | nil =>
    subst eq
    obtain ⟨rfl, rfl⟩ : [] = l ∧ back = r := by simpa [cut?] using first
    exact ⟨rfl, rfl⟩
  | cons c front ih =>
    subst eq
    rw [List.cons_append] at first
    rcases cut?_cons c (front ++ ':' :: ':' :: back) with ⟨s', rfl, rest, cut⟩ | ⟨-, cut⟩
    · -- the text begins with the double colon, and the other one lies behind it or overlaps it
      obtain rfl : s' = r := (Prod.mk.inj (Option.some.inj (cut.symm.trans first))).2
      cases front with
      | nil =>
        obtain rfl : ':' :: back = s' := List.tail_eq_of_cons_eq rest
        exact absurd rfl single
      | cons c' front =>
        obtain rfl : front ++ ':' :: ':' :: back = s' := List.tail_eq_of_cons_eq rest
        exact absurd none (cut?_ne_none front back)
    · rw [cut, Option.map_eq_some_iff] at first
      obtain ⟨⟨l', r'⟩, below, pair⟩ := first
      obtain ⟨rfl, rfl⟩ : c :: l' = l ∧ r' = r := Prod.mk.inj pair
      obtain ⟨rfl, rfl⟩ := ih below rfl
      exact ⟨rfl, rfl⟩

/-! ### Whole texts -/

/-- The text of some groups, a double colon, and more groups. -/
def double (ls rs : List Nat) : List Char := text ls ++ ':' :: ':' :: text rs

/-- Eight groups are read back. -/
theorem blocks?_text (bound : ∀ n ∈ blocks, n < 65536) (size : blocks.length = 8) :
    blocks? (text blocks) = some blocks := by
  have nonempty : blocks ≠ [] := List.ne_nil_of_length_eq_add_one size
  simp only [blocks?, cut?_text, splitOn_text nonempty, groups?_map bound, Option.bind_eq_bind,
    Option.bind_some, size, if_true]

/-- Groups around a double colon are read back, with zeros in between. -/
theorem blocks?_double (boundL : ∀ n ∈ ls, n < 65536) (boundR : ∀ n ∈ rs, n < 65536)
    (room : ls.length + rs.length < 8) :
    blocks? (double ls rs) =
      some (ls ++ List.replicate (8 - (ls.length + rs.length)) 0 ++ rs) := by
  simp only [blocks?, double, cut?_text_append, front?_text boundL, back?_text boundR,
    Option.bind_eq_bind, Option.bind_some, room, if_true]

/-- A double colon between groups is the only one. -/
theorem eq_of_double {front back : List Char} (eq : double ls rs = front ++ ':' :: ':' :: back) :
    front = text ls ∧ back = text rs :=
  eq_of_cut? (cut?_text_append ls (text rs)) (cut?_text rs) (head?_text_ne_colon rs) eq

theorem text_ne_append_double {front back : List Char} :
    text blocks ≠ front ++ ':' :: ':' :: back := by
  intro eq
  exact cut?_ne_none front back (eq ▸ cut?_text blocks)

theorem plain_of_mem_splitOn_double {g : List Char} (mem : g ∈ (double ls rs).splitOn ':') :
    Plain g := by
  rw [double, List.splitOn_append_cons_self, List.mem_append] at mem
  rcases mem with left | right
  · exact plain_of_mem_splitOn_text left
  · -- between the two colons there is an empty group
    have split : (':' :: text rs).splitOn ':' = [] :: (text rs).splitOn ':' := by
      simp [List.splitOn_cons_eq_if_modifyHead]
    rw [split, List.mem_cons] at right
    rcases right with rfl | right
    · exact plain_nil
    · exact plain_of_mem_splitOn_text right

/-- Four digits for each group and a colon behind each but the last one. -/
theorem length_text_le (bound : ∀ n ∈ blocks, n < 65536) :
    (text blocks).length ≤ 5 * blocks.length - 1 := by
  induction blocks with
  | nil => simp
  | cons n blocks ih =>
    have first := length_toDigits_le (bound n List.mem_cons_self)
    have rest := ih fun k mem => bound k (List.mem_cons_of_mem n mem)
    cases blocks with
    | nil =>
      rw [text_singleton, List.length_singleton]
      omega
    | cons m blocks =>
      rw [text_cons_cons, List.length_append, List.length_cons]
      simp only [List.length_cons] at rest ⊢
      omega

theorem length_double_le (boundL : ∀ n ∈ ls, n < 65536) (boundR : ∀ n ∈ rs, n < 65536)
    (room : ls.length + rs.length < 8) : (double ls rs).length ≤ 39 := by
  have left := length_text_le boundL
  have right := length_text_le boundR
  rw [double, List.length_append, List.length_cons, List.length_cons]
  omega

end Text

/-! ### The number -/

theorem number_concat (blocks : List Nat) (n : Nat) :
    number (blocks ++ [n]) = 65536 * number blocks + n := by
  rw [number, List.foldl_append]
  rfl

/-- The lowest blocks of a number make up the number, as far as they reach. -/
theorem number_blocks (n k : Nat) :
    number ((List.range k).map fun i => n / 65536 ^ (k - 1 - i) % 65536) = n % 65536 ^ k := by
  induction k generalizing n with
  | zero => simp [number, Nat.mod_one]
  | succ k ih =>
    -- all blocks but the last one are those of the quotient
    have front : (List.range k).map (fun i => n / 65536 ^ (k + 1 - 1 - i) % 65536) =
        (List.range k).map fun i => n / 65536 / 65536 ^ (k - 1 - i) % 65536 := by
      refine List.map_congr_left fun i mem => ?_
      have inside : i < k := List.mem_range.mp mem
      have power : k + 1 - 1 - i = (k - 1 - i) + 1 := by omega
      rw [power, Nat.pow_succ', Nat.div_div_eq_div_mul]
    rw [List.range_succ, List.map_append, List.map_singleton, number_concat, front, ih,
      Nat.pow_succ', Nat.mod_mul, Nat.add_comm]
    simp

end ColonHex
