import IpDedup.Lib.Numeral
import Mathlib.Data.List.TakeWhile

/-!
# JSON texts

A decoder for JSON with objects, arrays, natural numbers, and strings without
escapes, and the rules by which a text that is put together from parts decodes
to what its parts decode to.

## Main definitions

* `Json`, `Json.decode`
* `Json.Reads`: a text that is read as a value, whatever stands behind it

## Main results

* `Json.Reads.arr`, `Json.Reads.obj`: arrays and objects
* `Json.Reads.decode`: a text that is read as a value decodes to it
-/

set_option autoImplicit false

open Numeral

/-- The values; an object keeps the order of its members. -/
inductive Json where
  | str (text : List Char)
  | num (n : Nat)
  | arr (items : List Json)
  | obj (members : List (List Char × Json))

namespace Json

/-! ### The decoder -/

/-- White space between tokens. -/
def isWs (c : Char) : Bool := c = ' ' || c = '\t' || c = '\n' || c = '\r'

def skipWs (text : List Char) : List Char := text.dropWhile isWs

/-- Characters that stand for themselves in a string. -/
def isPlain (c : Char) : Bool := 0x20 ≤ c.toNat && c ≠ '"' && c ≠ '\\'

/-- The rest of a string, up to the quote that ends it. -/
def readString : List Char → Option (List Char × List Char)
  | [] => none
  | c :: text =>
    if c = '"' then some ([], text)
    else if isPlain c then (readString text).map fun out => (c :: out.1, out.2)
    else none

/-- A number without a sign, a fraction or an exponent, and without leading zeros. -/
def readNumber (text : List Char) : Option (Nat × List Char) :=
  let digits := text.takeWhile (isDigit 10)
  if digits = [] ∨ digits.head? = some '0' ∧ digits ≠ ['0'] then none
  else some (Numeral.value 10 digits, text.dropWhile (isDigit 10))

mutual

/-- A value, and the text behind it. -/
def readValue : Nat → List Char → Option (Json × List Char)
  | 0, _ => none
  | fuel + 1, text =>
    match skipWs text with
    | '"' :: text => (readString text).map fun out => (.str out.1, out.2)
    | '[' :: text =>
      if (skipWs text).head? = some ']' then some (.arr [], (skipWs text).tail)
      else (readItems fuel text).map fun out => (.arr out.1, out.2)
    | '\x7b' :: text =>
      if (skipWs text).head? = some '\x7d' then some (.obj [], (skipWs text).tail)
      else (readMembers fuel text).map fun out => (.obj out.1, out.2)
    | text => (readNumber text).map fun out => (.num out.1, out.2)

/-- The items of an array, and its end. -/
def readItems : Nat → List Char → Option (List Json × List Char)
  | 0, _ => none
  | fuel + 1, text => do
    let item ← readValue fuel text
    match skipWs item.2 with
    | ',' :: text => (readItems fuel text).map fun out => (item.1 :: out.1, out.2)
    | ']' :: text => some ([item.1], text)
    | _ => none

/-- The members of an object, and its end. -/
def readMembers : Nat → List Char → Option (List (List Char × Json) × List Char)
  | 0, _ => none
  | fuel + 1, text =>
    match skipWs text with
    | '"' :: text => do
      let name ← readString text
      match skipWs name.2 with
      | ':' :: text =>
        let value ← readValue fuel text
        match skipWs value.2 with
        | ',' :: text =>
          (readMembers fuel text).map fun out => ((name.1, value.1) :: out.1, out.2)
        | '\x7d' :: text => some ([(name.1, value.1)], text)
        | _ => none
      | _ => none
    | _ => none

end

/-- A text that is a value, with white space around it. -/
def decode (text : List Char) : Option Json := do
  let out ← readValue text.length text
  if skipWs out.2 = [] then some out.1 else none

/-! ### Reading -/

/-- White space only. -/
def Blank (ws : List Char) : Prop := ∀ c ∈ ws, isWs c = true

instance (ws : List Char) : Decidable (Blank ws) := List.decidableBAll _ _

/-- Characters that stand for themselves in a string. -/
def Plain (s : List Char) : Prop := ∀ c ∈ s, isPlain c = true

instance (s : List Char) : Decidable (Plain s) := List.decidableBAll _ _

section Reading

variable {ws text rest s : List Char} {n fuel : Nat} {v : Json} {vs : List Json}
  {members : List (List Char × Json)}

theorem skipWs_append (blank : Blank ws) (text : List Char) :
    skipWs (ws ++ text) = skipWs text := by
  rw [skipWs, skipWs, List.dropWhile_append_of_pos blank]

theorem skipWs_cons {c : Char} (solid : isWs c = false) (text : List Char) :
    skipWs (c :: text) = c :: text := by
  simp [skipWs, solid]

/-- White space in front does not matter. -/
theorem readValue_congr {text' : List Char} (same : skipWs text = skipWs text') (fuel : Nat) :
    readValue fuel text = readValue fuel text' := by
  cases fuel with
  | zero => rfl
  | succ fuel => rw [readValue, readValue, same]

theorem readItems_congr {text' : List Char} (same : skipWs text = skipWs text') (fuel : Nat) :
    readItems fuel text = readItems fuel text' := by
  cases fuel with
  | zero => rfl
  | succ fuel => rw [readItems, readItems, readValue_congr same]

theorem readMembers_congr {text' : List Char} (same : skipWs text = skipWs text') (fuel : Nat) :
    readMembers fuel text = readMembers fuel text' := by
  cases fuel with
  | zero => rfl
  | succ fuel => rw [readMembers, readMembers, same]

/-! ### Rules -/

/-- A number may stand in front of this text. -/
def Ends (rest : List Char) : Prop := ∀ c ∈ rest.head?, isDigit 10 c = false

/-- The text is read as a value, whatever stands behind it. -/
def Reads (text : List Char) (v : Json) : Prop :=
  ∀ fuel rest, text.length ≤ fuel → Ends rest → readValue fuel (text ++ rest) = some (v, rest)

/-- The text is read as the items of an array. -/
def ReadsItems (text : List Char) (vs : List Json) : Prop :=
  ∀ fuel rest, text.length ≤ fuel → readItems fuel (text ++ rest) = some (vs, rest)

/-- The text is read as the members of an object. -/
def ReadsMembers (text : List Char) (members : List (List Char × Json)) : Prop :=
  ∀ fuel rest, text.length ≤ fuel → readMembers fuel (text ++ rest) = some (members, rest)

/-- Digits are not white space. -/
theorem isDigit_of_isWs {c : Char} (blank : isWs c = true) : isDigit 10 c = false := by
  have cases : c = ' ' ∨ c = '\t' ∨ c = '\n' ∨ c = '\r' := by simpa [isWs, or_assoc] using blank
  rcases cases with rfl | rfl | rfl | rfl <;> decide

theorem ends_blank {c : Char} (blank : Blank ws) (mark : isDigit 10 c = false)
    (rest : List Char) : Ends (ws ++ c :: rest) := by
  cases ws with
  | nil => exact fun _ first => Option.some.inj first ▸ mark
  | cons w ws =>
    intro _ first
    exact Option.some.inj first ▸ isDigit_of_isWs (blank w List.mem_cons_self)

/-- White space in front. -/
theorem Reads.blank (reads : Reads text v) (blank : Blank ws) : Reads (ws ++ text) v := by
  intro fuel rest enough ends
  rw [List.length_append] at enough
  rw [List.append_assoc, readValue_congr (skipWs_append blank _)]
  exact reads fuel rest (by omega) ends

theorem ReadsItems.blank (reads : ReadsItems text vs) (blank : Blank ws) :
    ReadsItems (ws ++ text) vs := by
  intro fuel rest enough
  rw [List.length_append] at enough
  rw [List.append_assoc, readItems_congr (skipWs_append blank _)]
  exact reads fuel rest (by omega)

theorem ReadsMembers.blank (reads : ReadsMembers text members) (blank : Blank ws) :
    ReadsMembers (ws ++ text) members := by
  intro fuel rest enough
  rw [List.length_append] at enough
  rw [List.append_assoc, readMembers_congr (skipWs_append blank _)]
  exact reads fuel rest (by omega)

theorem readString_append (plain : Plain s) (rest : List Char) :
    readString (s ++ '"' :: rest) = some (s, rest) := by
  induction s with
  | nil => rfl
  | cons c s ih =>
    obtain ⟨first, others⟩ := List.forall_mem_cons.mp plain
    have quote : c ≠ '"' := by
      rintro rfl
      cases first
    rw [List.cons_append, readString, if_neg quote, if_pos first, ih others]
    rfl

theorem Reads.str (plain : Plain s) : Reads ('"' :: s ++ ['"']) (.str s) := by
  intro fuel rest enough ends
  obtain ⟨fuel, rfl⟩ := Nat.exists_eq_succ_of_ne_zero (n := fuel) (by rintro rfl; simp at enough)
  rw [readValue, List.append_assoc, List.cons_append, skipWs_cons (by decide)]
  simp only [List.cons_append, List.nil_append, readString_append plain, Option.map_some]

/-- A written number has no leading zeros. -/
theorem toDigits_of_zero (zero : (Nat.toDigits 10 n).head? = some '0') :
    Nat.toDigits 10 n = ['0'] := by
  induction n using Nat.strongRecOn with
  | ind n ih =>
    rw [Nat.toDigits_eq_if (by decide)] at zero ⊢
    split_ifs at zero ⊢ with small
    · exact congrArg (fun c => [c]) (Option.some.inj zero)
    · -- the first digit is that of the front, which would be zero
      rw [List.head?_append_of_ne_nil _ Nat.toDigits_ne_nil] at zero
      have front := ih (n / 10) (Nat.div_lt_self (by omega) (by decide)) zero
      have none : value 10 (Nat.toDigits 10 (n / 10)) = n / 10 :=
        value_toDigits (by decide) (by decide)
      rw [front] at none
      have : n / 10 = 0 := none.symm
      omega

theorem readNumber_append (n : Nat) (ends : Ends rest) :
    readNumber (Nat.toDigits 10 n ++ rest) = some (n, rest) := by
  have digits : ∀ c ∈ Nat.toDigits 10 n, isDigit 10 c = true := fun c mem =>
    isDigit_of_mem_toDigits (by decide) (by decide) mem
  have behind : rest.takeWhile (isDigit 10) = [] ∧ rest.dropWhile (isDigit 10) = rest := by
    cases rest with
    | nil => exact ⟨rfl, rfl⟩
    | cons c rest =>
      have other := ends c rfl
      simp [other]
  have front : (Nat.toDigits 10 n ++ rest).takeWhile (isDigit 10) = Nat.toDigits 10 n := by
    rw [List.takeWhile_append_of_pos digits, behind.1, List.append_nil]
  rw [readNumber, front, List.dropWhile_append_of_pos digits, behind.2, if_neg]
  · rw [value_toDigits (by decide) (by decide)]
  · rintro (none | ⟨zero, more⟩)
    · exact Nat.toDigits_ne_nil none
    · exact more (toDigits_of_zero zero)

theorem Reads.num (n : Nat) : Reads (Nat.toDigits 10 n) (.num n) := by
  intro fuel rest enough ends
  have number := readNumber_append n ends
  obtain ⟨d, ds, digits⟩ := List.exists_cons_of_ne_nil (Nat.toDigits_ne_nil (b := 10) (n := n))
  have digit : isDigit 10 d = true :=
    isDigit_of_mem_toDigits (n := n) (by decide) (by decide) (by rw [digits]; simp)
  rw [digits] at enough number ⊢
  obtain ⟨fuel, rfl⟩ := Nat.exists_eq_succ_of_ne_zero (n := fuel) (by rintro rfl; simp at enough)
  -- digits are neither white space nor the first character of another value
  have other {c : Char} (mark : isDigit 10 c = false) : d ≠ c := by
    rintro rfl
    exact Bool.false_ne_true (mark.symm.trans digit)
  have solid : isWs d = false := by
    by_contra blank
    rw [Bool.not_eq_false] at blank
    exact Bool.false_ne_true ((isDigit_of_isWs blank).symm.trans digit)
  rw [List.cons_append] at number ⊢
  rw [readValue, skipWs_cons solid]
  split
  · next same => exact absurd (List.cons.inj same).1 (other (by decide))
  · next same => exact absurd (List.cons.inj same).1 (other (by decide))
  · next same => exact absurd (List.cons.inj same).1 (other (by decide))
  · rw [number]
    rfl

/-- The last item of an array. -/
theorem ReadsItems.last (reads : Reads text v) (blank : Blank ws) :
    ReadsItems (text ++ ws ++ [']']) [v] := by
  intro fuel rest enough
  simp only [List.length_append, List.length_singleton] at enough
  obtain ⟨fuel, rfl⟩ := Nat.exists_eq_succ_of_ne_zero (n := fuel) (by omega)
  have value := reads fuel (ws ++ ']' :: rest) (by omega) (ends_blank blank (by decide) rest)
  rw [readItems]
  simp only [List.append_assoc, List.singleton_append, value, Option.bind_eq_bind,
    Option.bind_some, skipWs_append blank]
  rw [skipWs_cons (by decide)]
  rfl

/-- Another item of an array. -/
theorem ReadsItems.cons (reads : Reads text v) (blank : Blank ws) {more : List Char}
    (others : ReadsItems more vs) : ReadsItems (text ++ ws ++ ',' :: more) (v :: vs) := by
  intro fuel rest enough
  simp only [List.length_append, List.length_cons] at enough
  obtain ⟨fuel, rfl⟩ := Nat.exists_eq_succ_of_ne_zero (n := fuel) (by omega)
  have value := reads fuel (ws ++ ',' :: (more ++ rest)) (by omega)
    (ends_blank blank (by decide) _)
  rw [readItems]
  simp only [List.append_assoc, List.cons_append, value, Option.bind_eq_bind,
    Option.bind_some, skipWs_append blank]
  rw [skipWs_cons (by decide)]
  simp only [others fuel rest (by omega), Option.map_some]

/-- The items of an array one by one. -/
theorem ReadsItems.separated {sep : List Char} (first : Reads text v) {texts : List (List Char)}
    (others : List.Forall₂ Reads texts vs) (blankSep : Blank sep) (blank : Blank ws) :
    ReadsItems (text ++ texts.flatMap (fun text => ',' :: sep ++ text) ++ (ws ++ [']']))
      (v :: vs) := by
  induction others generalizing text v with
  | nil =>
    rw [List.flatMap_nil, List.append_nil, ← List.append_assoc]
    exact .last first blank
  | cons next _ ih =>
    have more := ReadsItems.cons first (show Blank [] from List.forall_mem_nil _)
      ((ih next).blank blankSep)
    convert more using 1
    simp

/-- What ends an array is not a value. -/
theorem readItems_close (close : (skipWs text).head? = some ']') (fuel : Nat) :
    readItems fuel text = none := by
  obtain ⟨rest, close⟩ := List.head?_eq_some_iff.mp close
  cases fuel with
  | zero => rfl
  | succ fuel =>
    cases fuel with
    | zero => rfl
    | succ fuel =>
      rw [readItems, readValue, close]
      rfl

theorem Reads.arr (reads : ReadsItems text vs) : Reads ('[' :: text) (.arr vs) := by
  intro fuel rest enough ends
  rw [List.length_cons] at enough
  obtain ⟨fuel, rfl⟩ := Nat.exists_eq_succ_of_ne_zero (n := fuel) (by omega)
  have items := reads fuel rest (by omega)
  have opens : ¬ (skipWs (text ++ rest)).head? = some ']' := by
    intro close
    rw [readItems_close close] at items
    cases items
  rw [List.cons_append, readValue, skipWs_cons (by decide)]
  refine (if_neg opens).trans ?_
  rw [items]
  rfl

theorem Reads.arr_nil (blank : Blank ws) : Reads ('[' :: ws ++ [']']) (.arr []) := by
  intro fuel rest enough ends
  obtain ⟨fuel, rfl⟩ := Nat.exists_eq_succ_of_ne_zero (n := fuel) (by rintro rfl; simp at enough)
  rw [readValue, List.append_assoc, List.cons_append, skipWs_cons (by decide)]
  simp only [List.singleton_append, skipWs_append blank]
  rw [skipWs_cons (by decide)]
  rfl

/-- The last member of an object. -/
theorem ReadsMembers.last (name : List Char) (plain : Plain name)
    (reads : Reads text v) (blank : Blank ws) :
    ReadsMembers ('"' :: name ++ ['"', ':'] ++ text ++ ws ++ ['\x7d']) [(name, v)] := by
  intro fuel rest enough
  simp only [List.length_append, List.length_cons, List.length_nil] at enough
  obtain ⟨fuel, rfl⟩ := Nat.exists_eq_succ_of_ne_zero (n := fuel) (by omega)
  have value := reads fuel (ws ++ '\x7d' :: rest) (by omega) (ends_blank blank (by decide) _)
  simp only [List.append_assoc, List.cons_append, List.nil_append]
  rw [readMembers, skipWs_cons (by decide)]
  simp only [readString_append plain, Option.bind_eq_bind, Option.bind_some]
  rw [skipWs_cons (by decide)]
  simp only [value, Option.bind_some, skipWs_append blank]
  rw [skipWs_cons (by decide)]
  rfl

/-- Another member of an object. -/
theorem ReadsMembers.cons (name : List Char) (plain : Plain name)
    (reads : Reads text v) (blank : Blank ws) {more : List Char}
    (others : ReadsMembers more members) :
    ReadsMembers ('"' :: name ++ ['"', ':'] ++ text ++ ws ++ ',' :: more)
      ((name, v) :: members) := by
  intro fuel rest enough
  simp only [List.length_append, List.length_cons, List.length_nil] at enough
  obtain ⟨fuel, rfl⟩ := Nat.exists_eq_succ_of_ne_zero (n := fuel) (by omega)
  have value := reads fuel (ws ++ ',' :: (more ++ rest)) (by omega)
    (ends_blank blank (by decide) _)
  simp only [List.append_assoc, List.cons_append, List.nil_append]
  rw [readMembers, skipWs_cons (by decide)]
  simp only [readString_append plain, Option.bind_eq_bind, Option.bind_some]
  rw [skipWs_cons (by decide)]
  simp only [value, Option.bind_some, skipWs_append blank]
  rw [skipWs_cons (by decide)]
  simp only [others fuel rest (by omega), Option.map_some]

/-- What ends an object is not a member. -/
theorem readMembers_close (close : (skipWs text).head? = some '\x7d') (fuel : Nat) :
    readMembers fuel text = none := by
  obtain ⟨rest, close⟩ := List.head?_eq_some_iff.mp close
  cases fuel with
  | zero => rfl
  | succ fuel =>
    rw [readMembers, close]
    rfl

theorem Reads.obj (reads : ReadsMembers text members) :
    Reads ('\x7b' :: text) (.obj members) := by
  intro fuel rest enough ends
  rw [List.length_cons] at enough
  obtain ⟨fuel, rfl⟩ := Nat.exists_eq_succ_of_ne_zero (n := fuel) (by omega)
  have own := reads fuel rest (by omega)
  have opens : ¬ (skipWs (text ++ rest)).head? = some '\x7d' := by
    intro close
    rw [readMembers_close close] at own
    cases own
  rw [List.cons_append, readValue, skipWs_cons (by decide)]
  refine (if_neg opens).trans ?_
  rw [own]
  rfl

/-- A text that is read as a value decodes to it, also with white space behind it. -/
theorem Reads.decode (reads : Reads text v) (blank : Blank ws) :
    Json.decode (text ++ ws) = some v := by
  have ends : Ends ws := by
    intro c first
    exact isDigit_of_isWs (blank c (List.mem_of_mem_head? first))
  have nothing : skipWs ws = [] := List.dropWhile_eq_nil_iff.mpr blank
  rw [Json.decode, reads _ _ (by simp) ends, Option.bind_eq_bind, Option.bind_some, if_pos nothing]

end Reading

end Json
