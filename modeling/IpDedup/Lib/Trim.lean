import Mathlib.Data.List.DropRight
import Mathlib.Tactic.Common

/-!
# Trimming lists

Some elements count as blank and are cut off at both ends of a list. A list with
a solid middle keeps the middle, together with what stands between it and the
first and last element that is not blank.

## Main definitions

* `Trim.trim`, `Trim.Solid`

## Main results

* `Trim.trim_append`: trimming around a solid middle
-/

set_option autoImplicit false

namespace Trim

variable {α : Type} (blank : α → Bool)

/-- The list without the blanks at its ends. -/
def trim (s : List α) : List α := (s.dropWhile blank).rdropWhile blank

/-- Neither end of the list is blank. -/
structure Solid (s : List α) : Prop where
  front : ∀ c ∈ s.head?, blank c = false
  back : ∀ c ∈ s.getLast?, blank c = false

variable {blank} {s u v : List α}

theorem dropWhile_of_solid (solid : Solid blank s) : s.dropWhile blank = s := by
  cases s with
  | nil => rfl
  | cons c s =>
    have first := solid.front c rfl
    simp [first]

theorem rdropWhile_of_solid (solid : Solid blank s) : s.rdropWhile blank = s := by
  rw [List.rdropWhile_eq_self_iff]
  intro nonempty
  simp [solid.back _ (List.getLast?_eq_some_getLast nonempty)]

theorem trim_of_solid (solid : Solid blank s) : trim blank s = s := by
  rw [trim, dropWhile_of_solid solid, rdropWhile_of_solid solid]

/-- Cutting off blanks in front of a solid list stops at it. -/
theorem dropWhile_append_solid (solid : Solid blank s) (nonempty : s ≠ []) (v : List α) :
    (u ++ s ++ v).dropWhile blank = u.dropWhile blank ++ s ++ v := by
  obtain ⟨c, s, rfl⟩ := List.exists_cons_of_ne_nil nonempty
  have first := solid.front c rfl
  rw [List.append_assoc, List.dropWhile_append]
  split_ifs with all
  · rw [List.isEmpty_iff] at all
    simp [all, first]
  · rw [List.append_assoc]

/-- Cutting off blanks behind a solid list stops at it. -/
theorem rdropWhile_append_solid (solid : Solid blank s) (nonempty : s ≠ []) (u : List α) :
    (u ++ s ++ v).rdropWhile blank = u ++ s ++ v.rdropWhile blank := by
  obtain ⟨s, c, rfl⟩ := (List.eq_nil_or_concat' s).resolve_left nonempty
  have last := solid.back c (by simp)
  induction v using List.reverseRecOn with
  | nil => simp [← List.append_assoc, last]
  | append_singleton v d ih =>
    rw [← List.append_assoc, List.rdropWhile_concat, List.rdropWhile_concat]
    split_ifs
    · exact ih
    · simp

theorem trim_append (solid : Solid blank s) (nonempty : s ≠ []) :
    trim blank (u ++ s ++ v) = u.dropWhile blank ++ s ++ v.rdropWhile blank := by
  rw [trim, dropWhile_append_solid solid nonempty, rdropWhile_append_solid solid nonempty]

theorem trim_eq_nil_iff : trim blank s = [] ↔ ∀ c ∈ s, blank c = true := by
  rw [trim, List.rdropWhile_eq_nil_iff]
  constructor
  · intro all
    -- the first element that is left would be blank
    by_contra some
    have left : s.dropWhile blank ≠ [] := by
      rwa [ne_eq, List.dropWhile_eq_nil_iff]
    obtain ⟨c, rest, cut⟩ := List.exists_cons_of_ne_nil left
    have first := List.head?_dropWhile_not blank s
    rw [cut] at first all
    simp [all c List.mem_cons_self] at first
  · intro all c mem
    exact all c ((List.dropWhile_sublist blank).subset mem)

theorem mem_of_mem_trim {c : α} (mem : c ∈ trim blank s) : c ∈ s :=
  (List.dropWhile_sublist blank).subset ((List.rdropWhile_prefix _ _).subset mem)

end Trim
