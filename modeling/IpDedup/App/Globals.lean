import IpDedup.App.MainRun
import IpDedup.Tree.CollectArray
import Mathlib.Data.Multiset.AddSub

/-!
# The global variables

`app/ip-dedup/globals.c`: what is known while the command line is read. Names of
datafiles are replaced by paths, which are built on the heap and collected in an
array that owns them. What happens to their blocks is recorded as a list of events.

## Main definitions

* `NamePtr`: pointers to names, with the number of their block
* `CmdGlobals`: `struct ipdedup_globals` before there are trees
* `ipdedupGlobalsGetDatafilePath`, `ipdedupGlobalsPileOfShamePush`, `ipdedupGlobalsFree`
* `held`: the blocks of paths that are in use after some events

## Main results

* `ipdedupGlobalsPileOfShamePush_pushed`: a path is owned by the array then, or the array is gone
* `ipdedupGlobalsFree_left`: freeing the globals frees all blocks that are owned
-/

set_option autoImplicit false

namespace IpDedup

open Dynarray

/-! ### Exit codes -/

/-- `EXIT_FAILURE` -/
def exitFailure : Int := 1

/-! ### Functions -/

/-- A pointer to a name. Only a path that was built has a block on the heap; blocks are numbered in
the order in which they are allocated. -/
structure NamePtr where
  text : List Char
  block : Option Nat
deriving DecidableEq, Repr

/-- `struct ipdedup_globals`, before there are trees. `datadir_len` is the length of `datadir`. -/
structure CmdGlobals where
  treeMode : ParseIpType
  collapsePrefixlenV4 : Nat
  collapsePrefixlenV6 : Nat
  datadir : Option (List Char)
  progName : List Char
  outfile : Option (List Char)
  pileOfShame : Option (Dynarray NamePtr)
  infiles : Option (Dynarray NamePtr)
  purgeInfiles : Option (Dynarray NamePtr)
  wantInvert : Bool
  wantKeepGoing : Bool
  wantStrict : Bool
  wantLongOutput : Bool
  wantReduxOutput : Bool
  wantJsonOutput : Bool

/-- An empty name unsets the directory. -/
def ipdedupGlobalsSetDatadir (g : CmdGlobals) (datadir : Option (List Char)) : CmdGlobals :=
  { g with datadir := if datadir.getD [] = [] then none else datadir }

/-- `ipdedup_datadir` is the directory that the program was built with. -/
def ipdedupGlobalsInit (ipdedupDatadir : Option (List Char)) : CmdGlobals :=
  let g : CmdGlobals :=
    { treeMode := .none
      collapsePrefixlenV4 := 0
      collapsePrefixlenV6 := 0
      datadir := none
      progName := []
      outfile := none
      pileOfShame := none
      infiles := none
      purgeInfiles := none
      wantInvert := false
      wantKeepGoing := false
      wantStrict := false
      wantLongOutput := false
      wantReduxOutput := false
      wantJsonOutput := false }
  match ipdedupDatadir with
  | some datadir => ipdedupGlobalsSetDatadir g (some datadir)
  | none => g

/-- What happens to paths on the heap: a block is allocated for the next path, or a pointer is
freed. -/
inductive PathEvent where
  | built (path : List Char)
  | freed (ptr : NamePtr)
deriving DecidableEq, Repr

/-- How many blocks were allocated. -/
def numBuilt (events : List PathEvent) : Nat :=
  events.countP fun
    | .built _ => true
    | .freed _ => false

/-- What happened to paths when something happened to the items of an array. -/
def pathEvents (events : List (ItemEvent NamePtr)) : List PathEvent :=
  events.filterMap fun
    | .destroyed _ => none
    | .freed ptr => some (.freed ptr)

/-- The values of `errno` that are told apart. -/
inductive Errno where
  | einval
  | enoent
  | other
deriving DecidableEq, Repr

/-- `INT_MAX` -/
def intMax : Nat := 0x7fffffff

/-- The path of a file in a directory. -/
def datafilePath (datadir relpath : List Char) : List Char :=
  datadir ++ (if datadir.getLast? ≠ some '/' then ['/'] else []) ++ relpath

/-- `_ipdedup_globals_get_datafile_path`, where `next` is the number of the next block. -/
def getDatafilePathIn (next : Nat) (datadir relpath : List Char) :
    Run (Except Errno NamePtr × List PathEvent) := do
  if relpath.length < 1 then pure (.error .einval, [])
  else
    let sbuf : NamePtr := ⟨datafilePath datadir relpath, some next⟩
    if ← malloc then
      -- `snprintf` cannot return the length of a longer text
      if sbuf.text.length ≤ intMax then pure (.ok sbuf, [.built sbuf.text])
      else pure (.error .other, [.built sbuf.text, .freed sbuf])
    else pure (.error .other, [])

def ipdedupGlobalsGetDatafilePath (next : Nat) (g : CmdGlobals) (relpath : List Char) :
    Run (Except Errno NamePtr × List PathEvent) :=
  match g.datadir with
  | none => pure (.error .enoent, [])
  | some datadir =>
    if datadir.length < 1 then pure (.error .enoent, []) else getDatafilePathIn next datadir relpath

/-- `block` is what the memory for a new array struct holds. -/
def ipdedupGlobalsPileOfShamePush (block : Dynarray NamePtr) (g : CmdGlobals)
    (arg : NamePtr) : Run (Int × CmdGlobals × List PathEvent) := do
  let pile ← (match g.pileOfShame with
    | none => newDynarray block 12
    | some pile => pure (some pile))
  match pile with
  | none => pure (-1, g, [])
  | some pile =>
    let out ← dynarrayAppend (some pile) (some arg)
    pure (out.ret, { g with pileOfShame := out.pDarr }, pathEvents out.events)

/-- What `ipdedup_globals_free` does to paths. -/
def ipdedupGlobalsFree (g : CmdGlobals) : Option (List PathEvent) := do
  let pile ← dynarrayFree g.pileOfShame
  let infiles ← dynarrayFree g.infiles
  let purgeInfiles ← dynarrayFree g.purgeInfiles
  some (pathEvents (pile.events ++ infiles.events ++ purgeInfiles.events))

/-! ### Blocks of paths -/

/-- The blocks that are in use after some events, where `next` is the number of the next block. Only
a pointer to a block that is in use can be freed. -/
def held : List PathEvent → Nat → Multiset Nat → Option (Multiset Nat)
  | [], _, blocks => some blocks
  | .built _ :: events, next, blocks => held events (next + 1) (next ::ₘ blocks)
  | .freed ptr :: events, next, blocks =>
    ptr.block.bind fun n => if n ∈ blocks then held events next (blocks.erase n) else none

/-- Some blocks are freed, one after the other. -/
def Frees (events : List PathEvent) (blocks : List Nat) : Prop :=
  ∃ ptrs : List NamePtr, events = ptrs.map .freed ∧ ptrs.map NamePtr.block = blocks.map some

section Held

variable {blocks : Multiset Nat}

theorem held_append (events events' : List PathEvent) (next : Nat) (blocks : Multiset Nat) :
    held (events ++ events') next blocks =
      (held events next blocks).bind (held events' (next + numBuilt events)) := by
  induction events generalizing next blocks with
  | nil => rfl
  | cons event events ih =>
    cases event with
    | built path =>
      have count : next + numBuilt (.built path :: events) = next + 1 + numBuilt events := by
        rw [numBuilt, List.countP_cons_of_pos rfl, numBuilt]
        omega
      rw [count]
      exact ih _ _
    | freed ptr =>
      have count : numBuilt (.freed ptr :: events) = numBuilt events :=
        List.countP_cons_of_neg Bool.false_ne_true
      rw [List.cons_append, held, held, count]
      cases ptr.block with
      | none => rfl
      | some n =>
        rw [Option.bind_some, Option.bind_some]
        split_ifs
        · exact ih _ _
        · rfl

/-- The block of a pointer is freed. -/
theorem held_freed {ptr : NamePtr} {n : Nat} (same : ptr.block = some n) (next : Nat) :
    held [.freed ptr] next (n ::ₘ blocks) = some blocks := by
  rw [held, same, Option.bind_some, if_pos (Multiset.mem_cons_self _ _), Multiset.erase_cons_head,
    held]

theorem Frees.held {events : List PathEvent} {freed : List Nat} (frees : Frees events freed)
    (next : Nat) : held events next (freed + blocks) = some blocks := by
  obtain ⟨ptrs, rfl, same⟩ := frees
  induction ptrs generalizing freed with
  | nil =>
    obtain rfl := List.map_eq_nil_iff.mp same.symm
    rw [List.map_nil, IpDedup.held, Multiset.coe_nil, Multiset.zero_add]
  | cons ptr ptrs ih => cases freed with
    | nil => cases same
    | cons n freed =>
      obtain ⟨own, others⟩ := List.cons.inj same
      rw [List.map_cons, IpDedup.held, own, Option.bind_some, ← Multiset.cons_coe,
        Multiset.cons_add, if_pos (Multiset.mem_cons_self _ _), Multiset.erase_cons_head, ih others]

end Held

/-! ### Arrays of names -/

section Arrays

/-- The items of an array, where a cell that was never written to is undefined. -/
def dynarrayItems {α : Type} (darr : Dynarray α) : Option (List (Option α)) := do
  let arr ← darr.arr
  (arr.take darr.len).mapM id

theorem dynarrayItems_live {α : Type} (items : List (Option α)) (unused : List (Cell α))
    (d : Option (DynarrayFreeItemPtrFunc α)) :
    dynarrayItems (live items unused d) = some items := by
  have cells : (items.map some ++ unused).take items.length = items.map some := by
    rw [List.take_left' (List.length_map _)]
  have read : (items.map some).mapM id = some items := by
    clear cells
    induction items with
    | nil => rfl
    | cons item items ih =>
      rw [List.map_cons, List.mapM_cons, ih]
      rfl
  simp only [dynarrayItems, live, Option.bind_eq_bind, Option.bind_some, cells]
  exact read

theorem dynarraySetDataReadonly_live {α : Type} (items : List (Option α))
    (unused : List (Cell α)) (d : Option (DynarrayFreeItemPtrFunc α)) :
    dynarraySetDataReadonly (some (live items unused d)) = some (live items unused readonly) := rfl

/-- The names in an array of pointers. -/
def dynarrayNames (darr : Dynarray NamePtr) : Option (List (Option (List Char))) :=
  (dynarrayItems darr).map (List.map (Option.map NamePtr.text))

/-- An array of names on loan. -/
inductive Lends : List (List Char) → Option (Dynarray NamePtr) → Prop where
  | live {names} {ptrs : List NamePtr} {unused} : ptrs.map NamePtr.text = names →
    1 ≤ ptrs.length + unused.length → Lends names (some (live (ptrs.map some) unused readonly))

theorem Lends.names {names : List (List Char)} {darr : Option (Dynarray NamePtr)}
    (lends : Lends names darr) : darr.bind dynarrayNames = some (names.map some) := by
  cases lends with
  | live same =>
    rw [Option.bind_some, dynarrayNames, dynarrayItems_live, ← same]
    simp

/-- An array that nothing is freed with. -/
inductive OnLoan : Option (Dynarray NamePtr) → Prop where
  | null : OnLoan none
  | live {names darr} : Lends names darr → OnLoan darr
  | lost : OnLoan (some (lost readonly))

/-- The array that owns blocks. -/
inductive Owns : List Nat → Option (Dynarray NamePtr) → Prop where
  | null : Owns [] none
  | live {blocks} {ptrs : List NamePtr} {unused} : ptrs.map NamePtr.block = blocks.map some →
    1 ≤ ptrs.length + unused.length → Owns blocks (some (live (ptrs.map some) unused none))

/-- The array that owns blocks, or one that is gone with them. -/
def Left (blocks : List Nat) (pile : Option (Dynarray NamePtr)) : Prop :=
  Owns blocks pile ∨ blocks = [] ∧ pile = some (lost none)

theorem pathEvents_readonly (items : List (Option NamePtr)) :
    pathEvents (items.flatMap (itemEvents readonly)) = [] := by
  rw [pathEvents, List.filterMap_eq_nil_iff]
  intro event mem
  cases event with
  | destroyed ptr => rfl
  | freed ptr => exact absurd mem (not_freed_itemEvents items ptr)

theorem pathEvents_owned (ptrs : List NamePtr) :
    pathEvents ((ptrs.map some).flatMap (itemEvents none)) = ptrs.map .freed := by
  induction ptrs with
  | nil => rfl
  | cons ptr ptrs ih =>
    rw [List.map_cons, List.flatMap_cons, pathEvents, List.filterMap_append, List.map_cons,
      ← ih]
    rfl

/-- A block is owned by the array then, or the blocks that it owned are freed. -/
structure Pushed (blocks : List Nat) (n : Nat) (mem mem' : Mallocs) (ret : Int)
    (pile : Option (Dynarray NamePtr)) (events : List PathEvent) : Prop where
  all : mem = Mallocs.all → mem' = Mallocs.all
  outcome : (ret = 0 ∧ events = [] ∧ Owns (blocks ++ [n]) pile) ∨
    ret = -1 ∧ Frees events blocks ∧ Left [] pile ∧ mem ≠ Mallocs.all

section Push

variable {blocks : List Nat} {arg : NamePtr} {n : Nat} (own : arg.block = some n) (mem : Mallocs)
include own

theorem dynarrayAppend_pushed {ptrs : List NamePtr} {unused : List (Cell NamePtr)}
    (same : ptrs.map NamePtr.block = blocks.map some) (positive : 1 ≤ ptrs.length + unused.length)
    (few : blocks.length < 2 ^ 60) :
    ∃ out mem', dynarrayAppend (some (live (ptrs.map some) unused none)) (some arg) mem =
        some (out, mem') ∧
      Pushed blocks n mem mem' out.ret out.pDarr (pathEvents out.events) := by
  have length : ptrs.length = blocks.length := by simpa using congrArg List.length same
  obtain ⟨out, mem', run, all, outcome⟩ :=
    @dynarrayAppend_ends _ (ptrs.map some) unused none (by rwa [List.length_map])
      (by rwa [List.length_map, length]) (some arg) mem
  refine ⟨out, mem', run, all, ?_⟩
  rcases outcome with ⟨unused', rfl⟩ | ⟨rfl, short⟩
  · have cells : ptrs.map some ++ [some arg] = (ptrs ++ [arg]).map some := by simp
    refine Or.inl ⟨rfl, rfl, ?_⟩
    rw [cells]
    refine .live ?_ ?_
    · rw [List.map_append, List.map_append, same, List.map_singleton, List.map_singleton, own]
    · rw [List.length_append, List.length_singleton]
      omega
  · -- an array that cannot grow is freed with what it owns
    exact Or.inr ⟨rfl, ⟨ptrs, pathEvents_owned ptrs, same⟩, Or.inr ⟨rfl, rfl⟩, short⟩

theorem ipdedupGlobalsPileOfShamePush_pushed (block : Dynarray NamePtr) {g : CmdGlobals}
    (owns : Owns blocks g.pileOfShame) (few : blocks.length < 2 ^ 60) :
    ∃ ret pile events mem', ipdedupGlobalsPileOfShamePush block g arg mem =
        some ((ret, { g with pileOfShame := pile }, events), mem') ∧
      Pushed blocks n mem mem' ret pile events := by
  rw [ipdedupGlobalsPileOfShamePush]
  generalize pileOfShame : g.pileOfShame = pile at owns ⊢
  cases owns with
  | null =>
    -- the array is made for the first path
    obtain ⟨new, mem₁, made, all, ⟨rfl, short⟩ | ⟨unused, rfl, positive⟩⟩ :=
      newDynarray_ends block (show 12 < 2 ^ 60 by decide) mem
    · have unchanged : { g with pileOfShame := none } = g := by rw [← pileOfShame]
      refine ⟨-1, none, [], mem₁, ?_, all, Or.inr ⟨rfl, ⟨[], rfl, rfl⟩, Or.inl .null, short⟩⟩
      simp [made, unchanged]
    · obtain ⟨out, mem', run, pushed⟩ := @dynarrayAppend_pushed [] arg n own mem₁ [] unused rfl
        (by simpa using positive) (by decide)
      refine ⟨out.ret, out.pDarr, _, mem', ?_, fun enough => pushed.all (all enough),
        pushed.outcome.imp_right ?_⟩
      · rw [List.map_nil] at run
        simp [made, run]
      · rintro ⟨ret, freed, left, short⟩
        exact ⟨ret, freed, left, fun enough => short (all enough)⟩
  | live same positive =>
    obtain ⟨out, mem', run, pushed⟩ := dynarrayAppend_pushed own mem same positive few
    refine ⟨out.ret, out.pDarr, _, mem', ?_, pushed⟩
    simp [run]

end Push

/-- Freeing the globals frees all blocks that are owned, and nothing else. -/
theorem ipdedupGlobalsFree_left {g : CmdGlobals} {blocks : List Nat}
    (left : Left blocks g.pileOfShame) (infiles : OnLoan g.infiles)
    (purgeInfiles : OnLoan g.purgeInfiles) :
    ∃ events, ipdedupGlobalsFree g = some events ∧ Frees events blocks := by
  -- the arrays of names free nothing
  have loan {darr : Option (Dynarray NamePtr)} (loan : OnLoan darr) :
      ∃ out, dynarrayFree darr = some out ∧ pathEvents out.events = [] := by
    cases loan with
    | null => exact ⟨_, rfl, rfl⟩
    | live lends =>
      cases lends with
      | live => exact ⟨_, dynarrayFree_live _ _ _, pathEvents_readonly _⟩
    | lost => exact ⟨_, rfl, rfl⟩
  have own : ∃ out, dynarrayFree g.pileOfShame = some out ∧
      Frees (pathEvents out.events) blocks := by
    rcases left with owns | ⟨rfl, gone⟩
    · generalize g.pileOfShame = pile at owns ⊢
      cases owns with
      | null => exact ⟨_, rfl, [], rfl, rfl⟩
      | @live blocks ptrs unused same =>
        exact ⟨_, dynarrayFree_live _ _ _, ptrs, pathEvents_owned ptrs, same⟩
    · rw [gone]
      exact ⟨_, rfl, [], rfl, rfl⟩
  obtain ⟨pile, freePile, frees⟩ := own
  obtain ⟨out, freeInfiles, none⟩ := loan infiles
  obtain ⟨out', freePurgeInfiles, none'⟩ := loan purgeInfiles
  refine ⟨pathEvents pile.events, ?_, frees⟩
  rw [ipdedupGlobalsFree, freePile, freeInfiles, freePurgeInfiles]
  simp only [pathEvents, List.filterMap_append, Option.bind_eq_bind, Option.bind_some] at *
  rw [none, none', List.append_nil, List.append_nil]

end Arrays

end IpDedup
