import IpDedup.Lib.Buffer
import IpDedup.Machine
import Mathlib.Data.List.Infix

/-!
# The dynamically allocated array

`util/dynarray.c`. The array is the block that `arr` points to, cell by cell; a
load or a store outside of it, and a load from a cell that was never written to,
is undefined. What happens to items is recorded as a list of events.

## Main definitions

* `Dynarray`: `struct dynarray`
* `dynarrayResize`, `dynarrayAppend`, `dynarrayPop`, `dynarrayRelease`, `newDynarray`

## Main results

* `dynarrayResizeLoop_eq_none`: a loop that is still going after 65 rounds never ends
* `dynarrayResizeLoop_ends`: up to `2 ^ 63`, the loop ends with enough room
-/

set_option autoImplicit false

open Buffer

namespace IpDedup

/-- Values of type `size_t` wrap. -/
def sizeT (n : Nat) : Nat := n % 2 ^ 64

theorem sizeT_of_lt {n : Nat} (h : n < 2 ^ 64) : sizeT n = n := Nat.mod_eq_of_lt h

/-- `sizeof (void*)` -/
def sizeofPtr : Nat := 8

/-- A cell of the array: an item, where `none` is `NULL`, or nothing yet. -/
abbrev Cell (α : Type) := Option (Option α)

/-- `dynarray_free_item_ptr_func`: what the destructor leaves in the item pointer. -/
abbrev DynarrayFreeItemPtrFunc (α : Type) := α → Option α

/-- `struct dynarray` -/
structure Dynarray (α : Type) where
  arr : Option (List (Cell α))
  len : Nat
  size : Nat
  itemDestructor : Option (DynarrayFreeItemPtrFunc α)

/-- `DYNARRAY_DEFAULT_INITIAL_CAPACITY` -/
def dynarrayDefaultInitialCapacity : Nat := 1

/-- What happens to an item. -/
inductive ItemEvent (α : Type) where
  | destroyed (item : α)
  | freed (item : α)
deriving DecidableEq, Repr

/-- The return code, what `p_darr` points to afterwards, and what happened to items. -/
structure DynarrayOut (α : Type) where
  ret : Int
  pDarr : Option (Dynarray α)
  events : List (ItemEvent α)

section Functions

variable {α : Type}

/-! ### Memory -/

/-- `malloc` for cells. -/
def mallocCells (bytes : Nat) : Run (Option (List (Cell α))) := do
  if ← malloc then pure (some (List.replicate (bytes / sizeofPtr) none)) else pure none

/-- `realloc` keeps the cells there is room for. Without memory, the old block stays. For no bytes
the result is up to the implementation. -/
def reallocCells (arr : List (Cell α)) (bytes : Nat) : Run (Option (List (Cell α))) :=
  if bytes = 0 then fun _ => none
  else do
    let count := bytes / sizeofPtr
    if ← malloc then
      pure (some (arr.take count ++ List.replicate (count - arr.length) none))
    else
      pure none

/-- `x_free` of an item: the pointer afterwards, and what happened. -/
def xFree : Option α → Option α × List (ItemEvent α)
  | none => (none, [])
  | some item => (none, [.freed item])

/-! ### Items -/

/-- `_dynarray_free_item_ptr_use_destructor` -/
def dynarrayFreeItemPtrUseDestructor (itemDestructor : DynarrayFreeItemPtrFunc α) :
    Option α → Option α × List (ItemEvent α)
  | none => (none, [])
  | some item =>
    let (itemPtr, freed) := xFree (itemDestructor item)
    (itemPtr, .destroyed item :: freed)

/-- `_dynarray_free_item_ptr` -/
def dynarrayFreeItemPtr (itemDestructor : Option (DynarrayFreeItemPtrFunc α)) (item : Option α) :
    Option α × List (ItemEvent α) :=
  match itemDestructor with
  | some itemDestructor => dynarrayFreeItemPtrUseDestructor itemDestructor item
  | none => xFree item

/-- `dynarray_free_const_item_ptr` -/
def dynarrayFreeConstItemPtr : DynarrayFreeItemPtrFunc α := fun _ => none

def dynarraySetItemDestructor (pDarr : Option (Dynarray α))
    (itemDestructor : Option (DynarrayFreeItemPtrFunc α)) : Option (Dynarray α) :=
  pDarr.map fun darr => { darr with itemDestructor := itemDestructor }

def dynarraySetDataReadonly (pDarr : Option (Dynarray α)) : Option (Dynarray α) :=
  dynarraySetItemDestructor pDarr (some dynarrayFreeConstItemPtr)

/-- The rounds from item `k` on, with `count = len - k` rounds to go. -/
def dynarrayReleaseLoop (free : Option α → Option α × List (ItemEvent α)) :
    Nat → Nat → List (Cell α) → Option (List (Cell α) × List (ItemEvent α))
  | 0, _, arr => some (arr, [])
  | count + 1, k, arr => do
    let item ← arr[k]?.join
    let (item, freed) := free item
    let arr ← store? arr k (some item)
    let (arr, rest) ← dynarrayReleaseLoop free count (k + 1) arr
    some (arr, freed ++ rest)

def dynarrayRelease (pDarr : Option (Dynarray α)) : Option (DynarrayOut α) :=
  match pDarr with
  | none => some ⟨0, none, []⟩
  | some darr =>
    match darr.arr with
    | none => some ⟨0, some { darr with len := 0 }, []⟩
    | some arr => do
      let (arr, events) ←
        match darr.itemDestructor with
        | none => dynarrayReleaseLoop xFree darr.len 0 arr
        | some itemDestructor =>
          dynarrayReleaseLoop (dynarrayFreeItemPtrUseDestructor itemDestructor) darr.len 0 arr
      some ⟨0, some { darr with arr := some arr, len := 0 }, events⟩

def dynarrayFree (pDarr : Option (Dynarray α)) : Option (DynarrayOut α) :=
  match pDarr with
  | none => some ⟨0, none, []⟩
  | some darr => do
    let out ← dynarrayRelease (some darr)
    if out.ret ≠ 0 then some { out with ret := -1 }
    else do
      let darr ← out.pDarr
      some ⟨0, some { darr with arr := none, size := 0 }, out.events⟩

/-! ### Size -/

/-- `while ( want_len > new_size ) { new_size *= 2; }`, for a number of rounds. `none` is a loop
that is still going. -/
def dynarrayResizeLoop (wantLen : Nat) : Nat → Nat → Option Nat
  | 0, _ => none
  | rounds + 1, newSize =>
    if wantLen > newSize then dynarrayResizeLoop wantLen rounds (sizeT (newSize * 2))
    else some newSize

/-- After 64 rounds the size is zero, so that 65 are as good as any number. -/
def dynarrayResize (pDarr : Option (Dynarray α)) (wantLen : Nat) : Run (DynarrayOut α) := do
  let darr ← pDarr
  match darr.arr with
  | none => pure ⟨-1, some darr, []⟩
  | some arr =>
    if wantLen < 1 ∨ wantLen ≤ darr.size then pure ⟨0, some darr, []⟩
    else do
      let newSize ← dynarrayResizeLoop wantLen 65 (sizeT (2 * darr.size))
      match ← reallocCells arr (sizeT (newSize * sizeofPtr)) with
      | some new => pure ⟨0, some { darr with arr := some new, size := newSize }, []⟩
      | none => do
        let out ← dynarrayFree (some darr)
        pure { out with ret := -1 }

def dynarrayGrow (pDarr : Option (Dynarray α)) : Run (DynarrayOut α) := do
  let darr ← pDarr
  dynarrayResize (some darr) (sizeT (darr.len + 1))

/-! ### A new array -/

/-- `p_darr` points to a block that may hold anything. -/
def dynarrayInit (darr : Dynarray α) (initialSize : Nat) : Run (Int × Dynarray α) := do
  let realInitSize := if initialSize > 0 then initialSize else dynarrayDefaultInitialCapacity
  match ← mallocCells (sizeT (realInitSize * sizeofPtr)) with
  | none => pure (-10, { darr with arr := none })
  | some arr => pure (0, ⟨some arr, 0, realInitSize, none⟩)

/-- `block` is what the memory for the struct holds when `malloc` returns it. -/
def newDynarray (block : Dynarray α) (initialSize : Nat) : Run (Option (Dynarray α)) := do
  if ← malloc then
    let (ret, darr) ← dynarrayInit block initialSize
    if ret ≠ 0 then pure none else pure (some darr)
  else
    pure none

/-! ### Append and pop -/

def dynarrayAppend (pDarr : Option (Dynarray α)) (data : Option α) : Run (DynarrayOut α) := do
  let grown ← dynarrayGrow pDarr
  -- the array has been freed with its items, and `data` stays with the caller
  if grown.ret ≠ 0 then pure { grown with ret := -1 }
  else do
    let darr ← grown.pDarr
    if darr.size < 1 then pure { grown with ret := -50 }
    else do
      let arr ← darr.arr
      let arr ← store? arr darr.len (some data)
      pure ⟨0, some { darr with arr := some arr, len := sizeT (darr.len + 1) }, grown.events⟩

/-- The outcome, and what is written to `*data_out`; `wanted` tells that `data_out` is not
`NULL`. -/
def dynarrayPop (pDarr : Option (Dynarray α)) (wanted : Bool) :
    Option (DynarrayOut α × Option (Option α)) :=
  match pDarr with
  | none => some (⟨-5, none, []⟩, none)
  | some darr =>
    match darr.arr with
    | none => some (⟨-5, some darr, []⟩, none)
    | some arr =>
      if darr.size = 0 ∨ darr.len = 0 then some (⟨-5, some darr, []⟩, none)
      else do
        let pdata ← arr[darr.len - 1]?.join
        let arr ← store? arr (darr.len - 1) (some none)
        let darr := { darr with arr := some arr, len := darr.len - 1 }
        -- an item that the caller does not take is freed
        if wanted then some (⟨0, some darr, []⟩, some pdata)
        else
          let (_, events) := dynarrayFreeItemPtr darr.itemDestructor pdata
          some (⟨0, some darr, events⟩, none)

end Functions

/-! ### Blocks -/

section Blocks

variable {α : Type} {arr : List (Cell α)} {count : Nat}

theorem mallocCells_apply (fits : count * sizeofPtr < 2 ^ 64) (mem : Mallocs) :
    mallocCells (sizeT (count * sizeofPtr)) mem =
      some (if mem 0 then some (List.replicate count (none : Cell α)) else none,
        fun n => mem (n + 1)) := by
  have cells : count * sizeofPtr / sizeofPtr = count := Nat.mul_div_cancel count (by decide)
  rw [mallocCells, sizeT_of_lt fits, cells]
  cases answer : mem 0 <;> simp [answer]

/-- A larger block begins with the old one. -/
theorem reallocCells_apply (fits : count * sizeofPtr < 2 ^ 64) (positive : 0 < count)
    (grows : arr.length ≤ count) (mem : Mallocs) :
    reallocCells arr (sizeT (count * sizeofPtr)) mem =
      some (if mem 0 then some (arr ++ List.replicate (count - arr.length) none) else none,
        fun n => mem (n + 1)) := by
  have cells : count * sizeofPtr / sizeofPtr = count := Nat.mul_div_cancel count (by decide)
  have bytes : count * sizeofPtr ≠ 0 := Nat.mul_ne_zero positive.ne' (by decide)
  rw [reallocCells, sizeT_of_lt fits, if_neg bytes, cells, List.take_of_length_le grows]
  cases answer : mem 0 <;> simp [answer]

end Blocks

/-! ### The doubling loop -/

section Loop

variable {wantLen newSize rounds : Nat}

/-- The loop is still going exactly if no value so far was large enough. -/
theorem dynarrayResizeLoop_eq_none_iff (fits : newSize < 2 ^ 64) :
    dynarrayResizeLoop wantLen rounds newSize = none ↔
      ∀ k < rounds, newSize * 2 ^ k % 2 ^ 64 < wantLen := by
  induction rounds generalizing newSize with
  | zero => simp [dynarrayResizeLoop]
  | succ rounds ih =>
    have next : sizeT (newSize * 2) < 2 ^ 64 := Nat.mod_lt _ (by decide)
    have value (k : Nat) : sizeT (newSize * 2) * 2 ^ k % 2 ^ 64 =
        newSize * 2 ^ (k + 1) % 2 ^ 64 := by
      have power : 2 ^ (k + 1) = 2 * 2 ^ k := Nat.pow_succ'
      rw [sizeT, Nat.mod_mul_mod, power, Nat.mul_assoc]
    rw [dynarrayResizeLoop]
    split_ifs with more
    · -- the values of the other rounds are those of the loop that starts at the next one
      rw [ih next]
      constructor
      · intro all k below
        cases k with
        | zero => rwa [Nat.pow_zero, Nat.mul_one, Nat.mod_eq_of_lt fits]
        | succ k => exact value k ▸ all k (Nat.lt_of_succ_lt_succ below)
      · exact fun all k below => (value k).symm ▸ all (k + 1) (Nat.succ_lt_succ below)
    · refine iff_of_false (by simp) fun all => more ?_
      have first := all 0 (Nat.succ_pos rounds)
      rwa [Nat.pow_zero, Nat.mul_one, Nat.mod_eq_of_lt fits] at first

/-- The value is zero after 64 rounds, so a loop that is still going then never ends. -/
theorem dynarrayResizeLoop_eq_none (fits : newSize < 2 ^ 64)
    (going : dynarrayResizeLoop wantLen 65 newSize = none) (rounds : Nat) :
    dynarrayResizeLoop wantLen rounds newSize = none := by
  rw [dynarrayResizeLoop_eq_none_iff fits] at going ⊢
  intro k _
  rcases Nat.lt_or_ge k 65 with early | late
  · exact going k early
  · -- every bit has been shifted out
    have zero (j : Nat) (enough : 64 ≤ j) : newSize * 2 ^ j % 2 ^ 64 = 0 := by
      obtain ⟨i, rfl⟩ := Nat.exists_eq_add_of_le enough
      rw [Nat.pow_add, Nat.mul_left_comm, Nat.mul_mod_right]
    have last := going 64 (by decide)
    rw [zero 64 le_rfl] at last
    rwa [zero k (by omega)]

/-- From a positive size on, the loop finds room for up to `2 ^ 63` items, and no more than twice
that. -/
theorem dynarrayResizeLoop_ends (room : wantLen ≤ newSize * 2 ^ rounds)
    (small : wantLen ≤ 2 ^ 63) (start : newSize < 2 * wantLen) :
    ∃ size, dynarrayResizeLoop wantLen (rounds + 1) newSize = some size ∧
      wantLen ≤ size ∧ size < 2 * wantLen := by
  induction rounds generalizing newSize with
  | zero =>
    rw [Nat.pow_zero, Nat.mul_one] at room
    refine ⟨newSize, ?_, room, start⟩
    rw [dynarrayResizeLoop, if_neg (Nat.not_lt.mpr room)]
  | succ rounds ih =>
    by_cases more : wantLen > newSize
    · -- the size is below `wantLen`, so doubling it does not wrap
      have double : sizeT (newSize * 2) = newSize * 2 := sizeT_of_lt (by omega)
      rw [Nat.pow_succ', ← Nat.mul_assoc] at room
      obtain ⟨size, ends, enough⟩ := ih room (by omega)
      refine ⟨size, ?_, enough⟩
      rw [dynarrayResizeLoop, if_pos more, double, ends]
    · refine ⟨newSize, ?_, Nat.le_of_not_lt more, start⟩
      rw [dynarrayResizeLoop, if_neg more]

end Loop

end IpDedup
