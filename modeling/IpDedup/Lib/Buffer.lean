import Mathlib.Data.List.Basic
import Mathlib.Tactic.Common

/-!
# Buffers

A buffer is the list of its cells. Storing outside of it is undefined, and
storing one cell after the other overwrites a part of it.

## Main definitions

* `Buffer.store?`, `Buffer.storeAll?`: store one cell, or several in a row
* `Buffer.overwrite`: a buffer with a part of it replaced

## Main results

* `Buffer.storeAll?_eq`: cells that fit are stored
* `Buffer.overwrite_overwrite`: going on behind what was stored, over the last cells of it
-/

set_option autoImplicit false

namespace Buffer

variable {α : Type} {buf : List α} {i : Nat}

/-- Store one cell. -/
def store? (buf : List α) (i : Nat) (a : α) : Option (List α) :=
  if i < buf.length then some (buf.set i a) else none

/-- Store cells in a row. -/
def storeAll? (buf : List α) (i : Nat) : List α → Option (List α)
  | [] => some buf
  | a :: as => do
    let buf ← store? buf i a
    storeAll? buf (i + 1) as

/-- The buffer with other cells from index `i` on. -/
def overwrite (buf : List α) (i : Nat) (as : List α) : List α :=
  buf.take i ++ as ++ buf.drop (i + as.length)

theorem length_overwrite {as : List α} (fits : i + as.length ≤ buf.length) :
    (overwrite buf i as).length = buf.length := by
  rw [overwrite, List.length_append, List.length_append, List.length_take, List.length_drop]
  omega

@[simp] theorem overwrite_nil (buf : List α) (i : Nat) : overwrite buf i [] = buf := by
  rw [overwrite, List.append_nil, List.length_nil, Nat.add_zero, List.take_append_drop]

theorem overwrite_zero (buf as : List α) : overwrite buf 0 as = as ++ buf.drop as.length := by
  rw [overwrite, List.take_zero, List.nil_append, Nat.zero_add]

theorem overwrite_singleton (inside : i < buf.length) (a : α) :
    overwrite buf i [a] = buf.set i a := by
  rw [overwrite, List.set_eq_take_append_cons_drop, if_pos inside, List.length_singleton,
    List.append_assoc, List.singleton_append]

theorem store?_eq (inside : i < buf.length) (a : α) :
    store? buf i a = some (overwrite buf i [a]) := by
  rw [store?, if_pos inside, overwrite_singleton inside]

/-- Going on where the last cells, `xs`, of what was stored begin. -/
theorem overwrite_overwrite (as xs bs : List α) (fits : i + (as ++ xs).length ≤ buf.length)
    (reaches : xs.length ≤ bs.length) :
    overwrite (overwrite buf i (as ++ xs)) (i + as.length) bs = overwrite buf i (as ++ bs) := by
  rw [List.length_append] at fits
  have front : (buf.take i).length = i := by
    rw [List.length_take]
    omega
  -- in front of the second store everything is as the first one left it, and behind it as it was
  have taken : (overwrite buf i (as ++ xs)).take (i + as.length) = buf.take i ++ as := by
    have length : i + as.length = (buf.take i ++ as).length := by rw [List.length_append, front]
    rw [overwrite, ← List.append_assoc, List.append_assoc, length, List.take_left]
  have dropped : (overwrite buf i (as ++ xs)).drop (i + as.length + bs.length) =
      buf.drop (i + (as ++ bs).length) := by
    have index : i + as.length + bs.length =
        (buf.take i ++ (as ++ xs)).length + (bs.length - xs.length) := by
      rw [List.length_append, List.length_append, front]
      omega
    rw [overwrite, index, List.drop_length_add_append, List.drop_drop]
    congr 1
    simp only [List.length_append]
    omega
  rw [overwrite, taken, dropped, overwrite]
  simp only [List.append_assoc]

/-- Cells that fit are stored. -/
theorem storeAll?_eq {as : List α} (fits : i + as.length ≤ buf.length) :
    storeAll? buf i as = some (overwrite buf i as) := by
  induction as generalizing buf i with
  | nil => rw [storeAll?, overwrite_nil]
  | cons a as ih =>
    rw [List.length_cons] at fits
    have inside : i < buf.length := by omega
    have rest : i + 1 + as.length ≤ (overwrite buf i [a]).length := by
      rw [length_overwrite inside]
      omega
    have whole : overwrite (overwrite buf i [a]) (i + 1) as = overwrite buf i (a :: as) :=
      overwrite_overwrite [a] [] as inside (Nat.zero_le _)
    rw [storeAll?, store?_eq inside a, Option.bind_eq_bind, Option.bind_some, ih rest, whole]

end Buffer
