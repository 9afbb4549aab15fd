import IpDedup.Tree.Operations
import IpDedup.Util.DynarrayRuns

/-!
# Collecting into an array

`ip4_tree_collect_addr` and `ip6_tree_collect_addr` append pointers to the
addresses of a tree to an array that grows, and give up when it cannot grow.

## Main definitions

* `ipTreeCollectAddrDynarray`: the array that is collected, or `NULL`
* `dynarrayForeach`: the addresses that are read from the array

## Main results

* `ipTreeCollectAddrDynarray_run`: the array holds the collected networks, whatever allocations fail
-/

set_option autoImplicit false

namespace IpDedup

open Dynarray

/-! ### Collecting -/

section Code

variable {α : Type}

/-- `_ip4_tree_collect_addr_into`, `_ip6_tree_collect_addr_into` -/
def ipTreeCollectAddrIntoDynarray (darr : Option (Dynarray α)) :
    IpTreeNode α → Run (DynarrayOut α)
  | .null => pure ⟨0, darr, []⟩
  | .node left right hot addr =>
    if hot then do
      let out ← dynarrayAppend darr (some addr)
      -- no recursion on a hot node
      if out.ret ≠ 0 then pure { out with ret := -1 } else pure { out with ret := 0 }
    else do
      let out ← ipTreeCollectAddrIntoDynarray darr left
      if out.ret ≠ 0 then pure { out with ret := -1 }
      else do
        let next ← ipTreeCollectAddrIntoDynarray out.pDarr right
        let events := out.events ++ next.events
        if next.ret ≠ 0 then pure ⟨-1, next.pDarr, events⟩ else pure ⟨0, next.pDarr, events⟩

/-- `ip4_tree_collect_addr`, `ip6_tree_collect_addr`, with what happened to the addresses. `block`
is what the memory for the array struct holds. -/
def ipTreeCollectAddrDynarray (block : Dynarray α) (tree : IpTree α) :
    Run (Option (Dynarray α) × List (ItemEvent α)) := do
  match ← newDynarray block 1 with
  | none => pure (none, [])
  | some darr =>
    let out ← ipTreeCollectAddrIntoDynarray (dynarraySetDataReadonly (some darr)) tree.root
    if out.ret ≠ 0 then do
      let freed ← dynarrayFree out.pDarr
      pure (none, out.events ++ freed.events)
    else pure (out.pDarr, out.events)

/-- The items that `dynarray_foreach` goes through. They are read through, so none may be `NULL`. -/
def dynarrayForeach (darr : Dynarray α) : Option (List α) := do
  let arr ← darr.arr
  (arr.take darr.len).mapM fun cell => cell.join

end Code

/-! ### Runs -/

section Runs

variable {α : Type} {items : List (Option α)} {unused : List (Cell α)}
  {d : Option (DynarrayFreeItemPtrFunc α)}

theorem reallocCells_all {arr : List (Cell α)} {bytes : Nat} {new : Option (List (Cell α))}
    {mem : Mallocs} (run : reallocCells arr bytes Mallocs.all = some (new, mem)) :
    new.isSome ∧ mem = Mallocs.all := by
  unfold reallocCells at run
  split_ifs at run
  obtain ⟨rfl, rfl⟩ := Prod.mk.inj (Option.some.inj run)
  exact ⟨rfl, rfl⟩

/-- With memory, an array grows. -/
theorem dynarrayResize_all {wantLen : Nat} {out : DynarrayOut α} {mem : Mallocs}
    (run : dynarrayResize (some (live items unused d)) wantLen Mallocs.all = some (out, mem)) :
    out.ret = 0 ∧ mem = Mallocs.all := by
  simp only [dynarrayResize, live, Run.bind_apply, Run.lift_apply, Option.map_some,
    Option.bind_some] at run
  split_ifs at run with enough
  · obtain ⟨rfl, rfl⟩ := Prod.mk.inj (Option.some.inj run)
    exact ⟨rfl, rfl⟩
  · rw [Run.bind_apply] at run
    obtain ⟨⟨size, mem₁⟩, loop, run⟩ := Option.bind_eq_some_iff.mp run
    rw [Run.lift_apply] at loop
    obtain ⟨_, -, same⟩ := Option.map_eq_some_iff.mp loop
    obtain ⟨rfl, rfl⟩ := Prod.mk.inj same
    rw [Run.bind_apply] at run
    obtain ⟨⟨new, mem₂⟩, block, run⟩ := Option.bind_eq_some_iff.mp run
    obtain ⟨isSome, rfl⟩ := reallocCells_all block
    obtain ⟨cells, rfl⟩ := Option.isSome_iff_exists.mp isSome
    obtain ⟨rfl, rfl⟩ := Prod.mk.inj (Option.some.inj run)
    exact ⟨rfl, rfl⟩

/-- With memory, appending does not lose the array. -/
theorem dynarrayAppend_all {data : Option α} {out : DynarrayOut α} {mem : Mallocs}
    (run : dynarrayAppend (some (live items unused d)) data Mallocs.all = some (out, mem)) :
    out.ret ≠ -1 ∧ mem = Mallocs.all := by
  rw [dynarrayAppend, Run.bind_apply] at run
  obtain ⟨⟨grown, mem₁⟩, grow, run⟩ := Option.bind_eq_some_iff.mp run
  obtain ⟨ret, rfl⟩ := dynarrayResize_all grow
  dsimp only at run
  rw [if_neg (not_not_intro ret), Run.bind_apply] at run
  obtain ⟨⟨darr, mem₂⟩, load, run⟩ := Option.bind_eq_some_iff.mp run
  rw [Run.lift_apply] at load
  obtain ⟨_, -, same⟩ := Option.map_eq_some_iff.mp load
  obtain ⟨rfl, rfl⟩ := Prod.mk.inj same
  split_ifs at run
  · obtain ⟨rfl, rfl⟩ := Prod.mk.inj (Option.some.inj run)
    exact ⟨by simp, rfl⟩
  · simp only [Run.bind_apply, Run.lift_apply, Option.bind_map, Option.bind_eq_some_iff,
      Function.comp_apply] at run
    obtain ⟨arr, -, cells, -, run⟩ := run
    obtain ⟨rfl, rfl⟩ := Prod.mk.inj (Option.some.inj run)
    exact ⟨by simp, rfl⟩

/-- An address is appended, or there is no memory and the array is gone. -/
theorem dynarrayAppend_ends (positive : 1 ≤ items.length + unused.length)
    (few : items.length < 2 ^ 60) (data : Option α) (mem : Mallocs) :
    ∃ out mem', dynarrayAppend (some (live items unused d)) data mem = some (out, mem') ∧
      (mem = Mallocs.all → mem' = Mallocs.all) ∧
      ((∃ unused', out = ⟨0, some (live (items ++ [data]) unused' d), []⟩) ∨
        out = ⟨-1, some (lost d), items.flatMap (itemEvents d)⟩ ∧ mem ≠ Mallocs.all) := by
  obtain ⟨out, mem', run, outcome⟩ := dynarrayAppend_live (d := d) positive few data mem
  refine ⟨out, mem', run, ?_, ?_⟩
  · rintro rfl
    exact (dynarrayAppend_all run).2
  · refine outcome.imp_right fun gone => ⟨gone, ?_⟩
    rintro rfl
    exact (dynarrayAppend_all run).1 (by rw [gone])

/-- The addresses that are collected from a node. -/
def IpTreeNode.hotAddrs (node : IpTreeNode α) : List α := ipTreeCollectAddrInto [] node

theorem ipTreeCollectAddrInto_eq (darr : List α) (node : IpTreeNode α) :
    ipTreeCollectAddrInto darr node = darr ++ node.hotAddrs := by
  unfold IpTreeNode.hotAddrs
  induction node generalizing darr with
  | null => exact (List.append_nil darr).symm
  | node left right hot addr ihLeft ihRight =>
    rw [ipTreeCollectAddrInto, ipTreeCollectAddrInto]
    cases hot with
    | true => rfl
    | false =>
      simp only [Bool.false_eq_true, reduceIte]
      rw [ihRight, ihLeft, ihRight (ipTreeCollectAddrInto [] left), List.append_assoc]

/-- The array for data on loan. -/
abbrev readonly : Option (DynarrayFreeItemPtrFunc α) := some dynarrayFreeConstItemPtr

/-- No address is freed with the array. -/
theorem not_freed_itemEvents (items : List (Option α)) (a : α) :
    ItemEvent.freed a ∉ items.flatMap (itemEvents readonly) := by
  rw [List.mem_flatMap]
  rintro ⟨item, -, mem⟩
  cases item <;> simp [itemEvents, dynarrayFreeConstItemPtr] at mem

/-- What collecting from a node leaves: the addresses are appended, or the array is gone for want of
memory. -/
structure Collected (node : IpTreeNode α) (items : List (Option α)) (mem mem' : Mallocs)
    (out : DynarrayOut α) : Prop where
  all : mem = Mallocs.all → mem' = Mallocs.all
  outcome : (out.ret = 0 ∧ out.events = [] ∧ ∃ unused', out.pDarr =
      some (live (items ++ node.hotAddrs.map some) unused' readonly) ∧
        1 ≤ (items ++ node.hotAddrs.map some).length + unused'.length) ∨
    (out.ret = -1 ∧ out.pDarr = some (lost readonly) ∧ mem ≠ Mallocs.all ∧
      ∀ a, ItemEvent.freed a ∉ out.events)

theorem ipTreeCollectAddrIntoDynarray_run (node : IpTreeNode α) {items : List (Option α)}
    {unused : List (Cell α)} (positive : 1 ≤ items.length + unused.length)
    (few : (items ++ node.hotAddrs.map some).length < 2 ^ 60) (mem : Mallocs) :
    ∃ out mem', ipTreeCollectAddrIntoDynarray (some (live items unused readonly)) node mem =
      some (out, mem') ∧ Collected node items mem mem' out := by
  induction node generalizing items unused mem with
  | null =>
    refine ⟨_, mem, rfl, id, Or.inl ⟨rfl, rfl, unused, ?_, ?_⟩⟩ <;>
      simp [IpTreeNode.hotAddrs, ipTreeCollectAddrInto, positive]
  | node left right hot addr ihLeft ihRight =>
    cases hot with
    | true =>
      have own : (IpTreeNode.node left right true addr).hotAddrs = [addr] := rfl
      rw [own, List.length_append, List.map_singleton, List.length_singleton] at few
      obtain ⟨out, mem', run, all, outcome⟩ :=
        dynarrayAppend_ends (d := readonly) positive (by omega) (some addr) mem
      rw [ipTreeCollectAddrIntoDynarray, if_pos rfl, Run.bind_apply, run, Option.bind_some]
      rcases outcome with ⟨unused', rfl⟩ | ⟨rfl, short⟩
      · refine ⟨_, mem', rfl, all, Or.inl ⟨rfl, rfl, unused', rfl, ?_⟩⟩
        rw [own, List.length_append, List.map_singleton, List.length_singleton]
        omega
      · exact ⟨_, mem', rfl, all, Or.inr ⟨rfl, rfl, short, not_freed_itemEvents items⟩⟩
    | false =>
      have own : (IpTreeNode.node left right false addr).hotAddrs =
          left.hotAddrs ++ right.hotAddrs := ipTreeCollectAddrInto_eq left.hotAddrs right
      rw [own, List.map_append, ← List.append_assoc] at few
      have fewLeft : (items ++ left.hotAddrs.map some).length < 2 ^ 60 :=
        (List.sublist_append_left _ _).length_le.trans_lt few
      obtain ⟨out, mem₁, run, first⟩ := ihLeft positive fewLeft mem
      rw [ipTreeCollectAddrIntoDynarray, if_neg Bool.false_ne_true, Run.bind_apply, run,
        Option.bind_some]
      rcases first.outcome with ⟨ret, events, unused₁, darr, positive₁⟩ | ⟨ret, gone, short, safe⟩
      · -- the right subtree goes on with the array of the left one
        obtain ⟨next, mem₂, run₂, second⟩ := ihRight positive₁ few mem₁
        have all : mem = Mallocs.all → mem₂ = Mallocs.all := fun enough =>
          second.all (first.all enough)
        rw [if_neg (not_not_intro ret), darr, Run.bind_apply, run₂, Option.bind_some, events]
        rcases second.outcome with ⟨ret₂, events₂, unused₂, darr₂, positive₂⟩ |
            ⟨ret₂, gone, short, safe⟩
        · rw [if_neg (not_not_intro ret₂)]
          rw [List.append_assoc, ← List.map_append, ← own] at darr₂ positive₂
          exact ⟨_, mem₂, rfl, all, Or.inl ⟨rfl, events₂, unused₂, darr₂, positive₂⟩⟩
        · rw [if_pos (by rw [ret₂]; decide)]
          exact ⟨_, mem₂, rfl, all, Or.inr ⟨rfl, gone, fun enough => short (first.all enough),
            safe⟩⟩
      · -- the array is gone, and the right subtree is not visited
        rw [if_pos (by rw [ret]; decide)]
        exact ⟨_, mem₁, rfl, first.all, Or.inr ⟨rfl, gone, short, safe⟩⟩

/-- A new array has no items, and there is one if there is memory. -/
theorem newDynarray_ends (block : Dynarray α) {initialSize : Nat} (small : initialSize < 2 ^ 60)
    (mem : Mallocs) :
    ∃ new mem', newDynarray block initialSize mem = some (new, mem') ∧
      (mem = Mallocs.all → mem' = Mallocs.all) ∧
      ((new = none ∧ mem ≠ Mallocs.all) ∨
        ∃ unused, new = some (live [] unused none) ∧ 1 ≤ unused.length) := by
  obtain ⟨new, mem', run, outcome⟩ := newDynarray_live block small mem
  have made : ∃ darr, newDynarray block initialSize Mallocs.all = some (some darr, Mallocs.all) :=
    ⟨_, rfl⟩
  obtain ⟨darr, made⟩ := made
  refine ⟨new, mem', run, ?_, outcome.imp_left fun none => ⟨none, ?_⟩⟩
  · rintro rfl
    exact congrArg Prod.snd (Option.some.inj (run.symm.trans made))
  · rintro rfl
    rw [none, made] at run
    cases congrArg Prod.fst (Option.some.inj run)

/-- While there are fewer than `2 ^ 60` networks, collecting ends whatever allocations fail: with
an array of exactly the collected networks, or with `NULL`, and the latter only for want of memory.
The addresses stay in the tree; none of them is freed. -/
theorem ipTreeCollectAddrDynarray_run (block : Dynarray α) (tree : IpTree α)
    (few : (ipTreeCollectAddr tree).length < 2 ^ 60) (mem : Mallocs) :
    ∃ darr events mem',
      ipTreeCollectAddrDynarray block tree mem = some ((darr, events), mem') ∧
        (mem = Mallocs.all → mem' = Mallocs.all) ∧
        ((∃ unused, darr = some (live ((ipTreeCollectAddr tree).map some) unused readonly)) ∨
          darr = none ∧ mem ≠ Mallocs.all) ∧
        ∀ addr, ItemEvent.freed addr ∉ events := by
  obtain ⟨new, mem₁, made, all, outcome⟩ := newDynarray_ends block (show 1 < 2 ^ 60 by decide) mem
  rw [ipTreeCollectAddrDynarray, Run.bind_apply, made, Option.bind_some]
  rcases outcome with ⟨rfl, short⟩ | ⟨unused, rfl, positive⟩
  · exact ⟨none, [], mem₁, rfl, all, Or.inr ⟨rfl, short⟩, fun addr => List.not_mem_nil⟩
  · have start : dynarraySetDataReadonly (some (live [] unused none)) =
        some (live ([] : List (Option α)) unused readonly) := rfl
    obtain ⟨out, mem₂, run, collected⟩ := ipTreeCollectAddrIntoDynarray_run tree.root
      (show 1 ≤ ([] : List (Option α)).length + unused.length by simpa using positive)
      (by rw [List.nil_append, List.length_map]; exact few) mem₁
    have enough : mem = Mallocs.all → mem₂ = Mallocs.all := fun h => collected.all (all h)
    dsimp only
    rw [start, Run.bind_apply, run, Option.bind_some]
    -- a failed append frees the array, and what was collected stays in the tree
    rcases collected.outcome with ⟨ret, events, unused', darr, -⟩ | ⟨ret, gone, short, safe⟩
    · rw [if_neg (not_not_intro ret)]
      refine ⟨_, _, mem₂, rfl, enough, Or.inl ⟨unused', darr⟩, fun addr => ?_⟩
      rw [events]
      exact List.not_mem_nil
    · rw [if_pos (by rw [ret]; decide), gone]
      refine ⟨none, out.events ++ [], mem₂, rfl, enough, Or.inr ⟨rfl, fun h => short (all h)⟩, ?_⟩
      rw [List.append_nil]
      exact safe

/-- What was collected is what is read from the array. -/
theorem dynarrayForeach_live (addrs : List α) (unused : List (Cell α)) :
    dynarrayForeach (live (addrs.map some) unused d) = some addrs := by
  have cells : ((addrs.map some).map some ++ unused).take (addrs.map some).length =
      addrs.map fun addr => some (some addr) := by
    rw [List.take_left' (List.length_map _), List.map_map]
    rfl
  have read : (addrs.map fun addr => some (some addr)).mapM (fun cell : Cell α => cell.join) =
      some addrs := by
    clear cells
    induction addrs with
    | nil => rfl
    | cons addr addrs ih =>
      rw [List.map_cons, List.mapM_cons, ih]
      rfl
  simp only [dynarrayForeach, live, Option.bind_eq_bind, Option.bind_some, cells]
  exact read

/-- The tree lends its addresses. Whatever allocations fail, collecting them frees none, and it
fails only for want of memory. An array that is collected yields exactly the networks of the tree,
in their order, and frees none of them with itself. -/
theorem ipTreeCollectAddrDynarray_lends (block : Dynarray α) (tree : IpTree α)
    (few : (ipTreeCollectAddr tree).length < 2 ^ 60) (mem : Mallocs) :
    ∃ darr events mem',
      ipTreeCollectAddrDynarray block tree mem = some ((darr, events), mem') ∧
        (∀ addr, ItemEvent.freed addr ∉ events) ∧ (darr = none → mem ≠ Mallocs.all) ∧
        ∀ arr ∈ darr, dynarrayForeach arr = some (ipTreeCollectAddr tree) ∧
          ∃ out, dynarrayFree (some arr) = some out ∧
            ∀ addr, ItemEvent.freed addr ∉ out.events := by
  obtain ⟨darr, events, mem', run, -, outcome, safe⟩ :=
    ipTreeCollectAddrDynarray_run block tree few mem
  refine ⟨darr, events, mem', run, safe, ?_, ?_⟩
  · rintro rfl
    rcases outcome with ⟨unused, array⟩ | ⟨-, short⟩
    · cases array
    · exact short
  · rintro arr own
    rcases outcome with ⟨unused, rfl⟩ | ⟨rfl, -⟩
    · obtain rfl := Option.some.inj own
      exact ⟨dynarrayForeach_live _ unused, _, dynarrayFree_live _ _ _, not_freed_itemEvents _⟩
    · cases own

/-- The two halves of the IPv4 addresses, where the array cannot grow to hold both. -/
theorem ipTreeCollectAddrDynarray_lends_short :
    let tree : IpTree (Ip4Addr .bits64) := ⟨ip4TreeNodeOps .bits64,
      .node (.node .null .null true ⟨1, 0⟩) (.node .null .null true ⟨1, 0x80000000⟩) false
        ⟨0, 0⟩, 0⟩
    ∃ darr events mem',
      ipTreeCollectAddrDynarray ⟨none, 0, 0, none⟩ tree (fun n => n < 2) =
          some ((darr, events), mem') ∧
        (∀ addr, ItemEvent.freed addr ∉ events) ∧
        (darr = none → (fun n => decide (n < 2)) ≠ Mallocs.all) ∧
        ∀ arr ∈ darr, dynarrayForeach arr = some (ipTreeCollectAddr tree) ∧
          ∃ out, dynarrayFree (some arr) = some out ∧
            ∀ addr, ItemEvent.freed addr ∉ out.events := by
  intro tree
  exact ipTreeCollectAddrDynarray_lends _ tree (by decide) _

end Runs

end IpDedup
