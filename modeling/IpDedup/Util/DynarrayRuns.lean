import IpDedup.Util.Dynarray

/-!
# A dynarray is a list

Over any sequence of calls, and whichever allocations fail, a dynarray behaves
as a list that is lost when an item cannot be appended for want of memory.

## Main definitions

* `ListStep`, `ListRun`: what calls do to a list
* `Dynarray.Represents`: the items come first in the array, unused cells behind them

## Main results

* `dynarrayCall_step`: one call
* `newDynarray_run`: every sequence of calls
-/

set_option autoImplicit false

open Buffer

namespace IpDedup

variable {α : Type}

/-! ### Lists -/

/-- The calls on a dynarray. `pop` is asked for the item or gives it up. -/
inductive DynarrayOp (α : Type) where
  | append (data : Option α)
  | pop (wanted : Bool)
  | release
  | setItemDestructor (itemDestructor : Option (DynarrayFreeItemPtrFunc α))

/-- What a call returns, what it writes to `*data_out`, and what happens to items. -/
structure Response (α : Type) where
  ret : Int
  data : Option (Option α)
  events : List (ItemEvent α)

/-- What happens to an item that is given up. -/
def itemEvents (itemDestructor : Option (DynarrayFreeItemPtrFunc α)) :
    Option α → List (ItemEvent α)
  | none => []
  | some item =>
    match itemDestructor with
    | none => [.freed item]
    | some itemDestructor => .destroyed item :: ((itemDestructor item).map .freed).toList

/-- The items, unless they are lost, and what gives them up. -/
structure ListState (α : Type) where
  items : Option (List (Option α))
  itemDestructor : Option (DynarrayFreeItemPtrFunc α)

/-- What a call does to a list. -/
inductive ListStep : ListState α → DynarrayOp α → Response α → ListState α → Prop where
  | append (items d data) :
    ListStep ⟨some items, d⟩ (.append data) ⟨0, none, []⟩ ⟨some (items ++ [data]), d⟩
  | appendFail (items d data) :
    ListStep ⟨some items, d⟩ (.append data) ⟨-1, none, items.flatMap (itemEvents d)⟩ ⟨none, d⟩
  | appendLost (d data) : ListStep ⟨none, d⟩ (.append data) ⟨-1, none, []⟩ ⟨none, d⟩
  | pop (items d last) :
    ListStep ⟨some (items ++ [last]), d⟩ (.pop true) ⟨0, some last, []⟩ ⟨some items, d⟩
  | drop (items d last) :
    ListStep ⟨some (items ++ [last]), d⟩ (.pop false) ⟨0, none, itemEvents d last⟩ ⟨some items, d⟩
  | popEmpty (d wanted) : ListStep ⟨some [], d⟩ (.pop wanted) ⟨-5, none, []⟩ ⟨some [], d⟩
  | popLost (d wanted) : ListStep ⟨none, d⟩ (.pop wanted) ⟨-5, none, []⟩ ⟨none, d⟩
  | release (items d) :
    ListStep ⟨some items, d⟩ .release ⟨0, none, items.flatMap (itemEvents d)⟩ ⟨some [], d⟩
  | releaseLost (d) : ListStep ⟨none, d⟩ .release ⟨0, none, []⟩ ⟨none, d⟩
  | setItemDestructor (items d d') :
    ListStep ⟨items, d⟩ (.setItemDestructor d') ⟨0, none, []⟩ ⟨items, d'⟩

/-- Calls in a row, each with its response. -/
inductive ListRun :
    ListState α → List (DynarrayOp α × Response α) → ListState α → Prop where
  | nil (s) : ListRun s [] s
  | cons {s s' s'' op response calls} : ListStep s op response s' → ListRun s' calls s'' →
    ListRun s ((op, response) :: calls) s''

/-- An append that does not return zero. -/
def AppendFailed (call : DynarrayOp α × Response α) : Prop :=
  ∃ data, call.1 = .append data ∧ call.2.ret ≠ 0

/-- Appending and popping fail and do nothing. -/
def Refused (call : DynarrayOp α × Response α) : Prop :=
  (∃ data, call.1 = .append data) ∨ (∃ wanted, call.1 = .pop wanted) →
    call.2.ret ≠ 0 ∧ call.2.data = none ∧ call.2.events = []

section Lost

variable {s s' : ListState α} {op : DynarrayOp α} {response : Response α}
  {calls : List (DynarrayOp α × Response α)}

/-- The items are lost by an append that fails, and stay lost. -/
theorem ListStep.lost_iff (step : ListStep s op response s') :
    s'.items = none ↔ s.items = none ∨ AppendFailed (op, response) := by
  cases step <;> simp [AppendFailed]

theorem ListStep.refused (step : ListStep s op response s') (lost : s.items = none) :
    Refused (op, response) := by
  obtain ⟨items, d⟩ := s
  obtain rfl : items = none := lost
  cases step <;> simp [Refused]

/-- What happens to items in a call is that some of them are given up. -/
theorem ListStep.exists_events (step : ListStep s op response s') :
    ∃ givenUp : List (Option α),
      response.events = givenUp.flatMap (itemEvents s.itemDestructor) := by
  cases step with
  | appendFail items d => exact ⟨items, rfl⟩
  | drop items d last => exact ⟨[last], (List.append_nil _).symm⟩
  | release items d => exact ⟨items, rfl⟩
  | _ => exact ⟨[], rfl⟩

theorem ListRun.lost_iff (run : ListRun s calls s') :
    s'.items = none ↔ s.items = none ∨ ∃ call ∈ calls, AppendFailed call := by
  induction run with
  | nil s => simp
  | cons step _ ih =>
    rw [ih, step.lost_iff, or_assoc]
    simp only [List.mem_cons, exists_eq_or_imp]

theorem ListRun.refused (run : ListRun s calls s') (lost : s.items = none) :
    ∀ call ∈ calls, Refused call := by
  induction run with
  | nil s => simp
  | cons step _ ih =>
    rw [List.forall_mem_cons]
    exact ⟨step.refused lost, ih (step.lost_iff.mpr (Or.inl lost))⟩

/-- Behind an append that fails, appending and popping fail. -/
theorem ListRun.pairwise_refused (run : ListRun s calls s') :
    calls.Pairwise fun call later => AppendFailed call → Refused later := by
  induction run with
  | nil s => exact .nil
  | cons step run ih =>
    refine .cons (fun later mem failed => ?_) ih
    exact run.refused (step.lost_iff.mpr (Or.inr failed)) later mem

/-- Items of an array that only holds data on loan are handed back, but never freed. -/
theorem ListRun.readonly (run : ListRun s calls s')
    (readonly : s.itemDestructor = some dynarrayFreeConstItemPtr)
    (keeps : ∀ call ∈ calls, ∀ d, call.1 ≠ .setItemDestructor d) :
    ∀ call ∈ calls, ∀ item, ItemEvent.freed item ∉ call.2.events := by
  have loan (item : Option α) (a : α) :
      ItemEvent.freed a ∉ itemEvents (some dynarrayFreeConstItemPtr) item := by
    cases item <;> simp [itemEvents, dynarrayFreeConstItemPtr]
  induction run with
  | nil s => simp
  | @cons s s₁ s₂ op response calls step _ ih =>
    rw [List.forall_mem_cons] at keeps ⊢
    have same : s₁.itemDestructor = s.itemDestructor := by
      cases step <;> first | rfl | exact absurd rfl (keeps.1 _)
    refine ⟨fun item freed => ?_, ih (same.trans readonly) keeps.2⟩
    obtain ⟨givenUp, events⟩ := step.exists_events
    rw [events, readonly, List.mem_flatMap] at freed
    obtain ⟨lost, -, mem⟩ := freed
    exact loan lost item mem

end Lost

/-! ### Items that are given up -/

section Items

variable {items : List (Option α)} {unused : List (Cell α)}

theorem dynarrayFreeItemPtr_eq (d : Option (DynarrayFreeItemPtrFunc α)) (item : Option α) :
    dynarrayFreeItemPtr d item = (none, itemEvents d item) := by
  cases item with
  | none => cases d <;> rfl
  | some item => cases d with
    | none => rfl
    | some d => cases left : d item <;>
      simp [dynarrayFreeItemPtr, dynarrayFreeItemPtrUseDestructor, itemEvents, xFree, left]

/-- The loop clears the cells of the items, one after the other. -/
theorem dynarrayReleaseLoop_eq {free : Option α → Option α × List (ItemEvent α)}
    {events : Option α → List (ItemEvent α)} (frees : ∀ item, free item = (none, events item))
    (cleared : List (Cell α)) :
    dynarrayReleaseLoop free items.length cleared.length (cleared ++ (items.map some ++ unused)) =
      some (cleared ++ (List.replicate items.length (some none) ++ unused),
        items.flatMap events) := by
  induction items generalizing cleared with
  | nil => rfl
  | cons item items ih =>
    have load : (cleared ++ ((item :: items).map some ++ unused))[cleared.length]?.join =
        some item := by simp
    have store : store? (cleared ++ ((item :: items).map some ++ unused)) cleared.length
        (some none) = some ((cleared ++ [some none]) ++ (items.map some ++ unused)) := by
      simp [store?]
    have rest := ih (cleared ++ [some none])
    rw [List.length_append, List.length_singleton] at rest
    simp only [List.length_cons, dynarrayReleaseLoop, load, frees, store, rest,
      Option.bind_eq_bind, Option.bind_some]
    simp [List.replicate_succ]

end Items

/-! ### Arrays that hold a list -/

namespace Dynarray

/-- Items and unused cells. -/
def live (items : List (Option α)) (unused : List (Cell α))
    (d : Option (DynarrayFreeItemPtrFunc α)) : Dynarray α :=
  ⟨some (items.map some ++ unused), items.length, items.length + unused.length, d⟩

/-- An array that is gone. -/
def lost (d : Option (DynarrayFreeItemPtrFunc α)) : Dynarray α := ⟨none, 0, 0, d⟩

/-- The array has at least one cell, and the items come first, or it is gone with the items. -/
inductive Represents : Dynarray α → ListState α → Prop where
  | live {items unused d} : 1 ≤ items.length + unused.length →
    Represents (live items unused d) ⟨some items, d⟩
  | lost (d) : Represents (lost d) ⟨none, d⟩

end Dynarray

open Dynarray

section Calls

variable {items : List (Option α)} {unused : List (Cell α)}
  {d : Option (DynarrayFreeItemPtrFunc α)} {wantLen : Nat}

theorem dynarrayRelease_live (items : List (Option α)) (unused : List (Cell α))
    (d : Option (DynarrayFreeItemPtrFunc α)) :
    dynarrayRelease (some (live items unused d)) =
      some ⟨0, some (live [] (List.replicate items.length (some none) ++ unused) d),
        items.flatMap (itemEvents d)⟩ := by
  have frees := dynarrayFreeItemPtr_eq d
  cases d with
  | none =>
    have loop : dynarrayReleaseLoop xFree items.length 0 (items.map some ++ unused) = _ :=
      dynarrayReleaseLoop_eq frees []
    simp only [dynarrayRelease, live, loop, Option.bind_eq_bind, Option.bind_some]
    simp
  | some d =>
    have loop : dynarrayReleaseLoop (dynarrayFreeItemPtrUseDestructor d) items.length 0
        (items.map some ++ unused) = _ := dynarrayReleaseLoop_eq frees []
    simp only [dynarrayRelease, live, loop, Option.bind_eq_bind, Option.bind_some]
    simp

theorem dynarrayFree_live (items : List (Option α)) (unused : List (Cell α))
    (d : Option (DynarrayFreeItemPtrFunc α)) :
    dynarrayFree (some (live items unused d)) =
      some ⟨0, some (lost d), items.flatMap (itemEvents d)⟩ := by
  simp only [dynarrayFree, dynarrayRelease_live, Option.bind_eq_bind, Option.bind_some]
  rfl

/-- There is room afterwards, or the array is gone with the items. -/
theorem dynarrayResize_live (positive : 1 ≤ items.length + unused.length)
    (small : wantLen ≤ 2 ^ 60) (mem : Mallocs) :
    ∃ out mem', dynarrayResize (some (live items unused d)) wantLen mem = some (out, mem') ∧
      ((∃ unused', out = ⟨0, some (live items unused' d), []⟩ ∧ 1 ≤ items.length + unused'.length ∧
          wantLen ≤ items.length + unused'.length) ∨
        out = ⟨-1, some (lost d), items.flatMap (itemEvents d)⟩) := by
  by_cases enough : wantLen ≤ items.length + unused.length
  · refine ⟨_, mem, ?_, Or.inl ⟨unused, rfl, positive, enough⟩⟩
    simp [dynarrayResize, live, enough]
  · have more : items.length + unused.length < wantLen := Nat.lt_of_not_le enough
    have double : sizeT (2 * (items.length + unused.length)) =
        2 * (items.length + unused.length) := sizeT_of_lt (by omega)
    have room : wantLen ≤ 2 * (items.length + unused.length) * 2 ^ 64 := by omega
    obtain ⟨size, loop, large, bound⟩ :=
      dynarrayResizeLoop_ends room (small.trans (by decide)) (by omega)
    -- the number of bytes does not wrap either
    have fits : size * sizeofPtr < 2 ^ 64 := by
      rw [sizeofPtr]
      omega
    have grows : (items.map some ++ unused).length ≤ size := by
      rw [List.length_append, List.length_map]
      omega
    have block := reallocCells_apply fits (by omega) grows mem
    have gone := dynarrayFree_live items unused d
    rw [live] at gone
    have wanted : ¬ (wantLen < 1 ∨ wantLen ≤ items.length + unused.length) := by omega
    rw [List.length_append, List.length_map] at block
    generalize fresh : List.replicate (size - (items.length + unused.length)) none = new at block
    have total : items.length + (unused ++ new).length = size := by
      rw [List.length_append, ← fresh, List.length_replicate]
      omega
    cases answer : mem 0 with
    | true =>
      refine ⟨_, fun n => mem (n + 1), ?_, Or.inl ⟨unused ++ new, rfl, by omega, by omega⟩⟩
      simp only [dynarrayResize, live, Run.bind_apply, Run.lift_apply, Option.map_some,
        Option.bind_some, wanted, if_false, double, loop, block, answer, if_true, total,
        List.append_assoc]
      rfl
    | false =>
      refine ⟨_, fun n => mem (n + 1), ?_, Or.inr rfl⟩
      simp only [dynarrayResize, live, Run.bind_apply, Run.lift_apply, Option.map_some,
        Option.bind_some, wanted, if_false, double, loop, block, answer, Bool.false_eq_true, gone]
      rfl

/-- The item is appended, or the array is gone with the items. -/
theorem dynarrayAppend_live (positive : 1 ≤ items.length + unused.length)
    (few : items.length < 2 ^ 60) (data : Option α) (mem : Mallocs) :
    ∃ out mem', dynarrayAppend (some (live items unused d)) data mem = some (out, mem') ∧
      ((∃ unused', out = ⟨0, some (live (items ++ [data]) unused' d), []⟩) ∨
        out = ⟨-1, some (lost d), items.flatMap (itemEvents d)⟩) := by
  have next : sizeT (items.length + 1) = items.length + 1 := sizeT_of_lt (by omega)
  have grow : dynarrayGrow (some (live items unused d)) =
      dynarrayResize (some (live items unused d)) (items.length + 1) :=
    congrArg (dynarrayResize (some (live items unused d))) next
  obtain ⟨out, mem', resize, outcome⟩ := dynarrayResize_live positive few mem
  rw [← grow] at resize
  rcases outcome with ⟨unused', rfl, positive', room⟩ | rfl
  · -- there is an unused cell behind the items
    obtain ⟨cell, unused', rfl⟩ := List.exists_cons_of_length_pos (l := unused') (by omega)
    have store : store? (items.map some ++ cell :: unused') items.length (some data) =
        some ((items ++ [data]).map some ++ unused') := by
      simp [store?]
    have total : items.length + (cell :: unused').length =
        (items ++ [data]).length + unused'.length := by
      rw [List.length_append, List.length_cons, List.length_singleton]
      omega
    have sized : ¬ (items ++ [data]).length + unused'.length < 1 := by
      rw [← total]
      exact Nat.not_lt.mpr positive'
    refine ⟨_, mem', ?_, Or.inl ⟨unused', rfl⟩⟩
    rw [dynarrayAppend, Run.bind_apply, resize]
    simp only [live, Run.bind_apply, Run.lift_apply, Option.map_some, Option.bind_some, ne_eq,
      not_true_eq_false, if_false, sized, store, next, total]
    rw [List.length_append, List.length_singleton]
    rfl
  · refine ⟨_, mem', ?_, Or.inr rfl⟩
    rw [dynarrayAppend, Run.bind_apply, resize]
    rfl

/-- The last item is removed. -/
theorem dynarrayPop_live (items : List (Option α)) (last : Option α) (unused : List (Cell α))
    (d : Option (DynarrayFreeItemPtrFunc α)) (wanted : Bool) :
    dynarrayPop (some (live (items ++ [last]) unused d)) wanted =
      some (⟨0, some (live items (some none :: unused) d),
          if wanted then [] else itemEvents d last⟩, if wanted then some last else none) := by
  have index : (items ++ [last]).length - 1 = items.length := by simp
  have cells : (items ++ [last]).map some ++ unused = items.map some ++ some last :: unused := by
    simp
  have load : (items.map some ++ some last :: unused)[items.length]?.join = some last := by simp
  have store : store? (items.map some ++ some last :: unused) items.length (some none) =
      some (items.map some ++ some none :: unused) := by
    simp [store?]
  have total : (items ++ [last]).length + unused.length =
      items.length + (some none :: unused).length := by
    rw [List.length_append, List.length_singleton, List.length_cons]
    omega
  have sized : ¬ (items.length + (some none :: unused).length = 0 ∨
      (items ++ [last]).length = 0) := by
    simp
  simp only [dynarrayPop, live, index, cells, load, store, total, sized, if_false,
    Option.bind_eq_bind, Option.bind_some, dynarrayFreeItemPtr_eq]
  cases wanted <;> rfl

/-- A new array has at least one cell and no items. -/
theorem newDynarray_live (block : Dynarray α) {initialSize : Nat} (small : initialSize < 2 ^ 60)
    (mem : Mallocs) :
    ∃ new mem', newDynarray block initialSize mem = some (new, mem') ∧
      (new = none ∨ ∃ unused, new = some (live [] unused none) ∧ 1 ≤ unused.length) := by
  generalize size : (if initialSize > 0 then initialSize else dynarrayDefaultInitialCapacity) = n
  have positive : 1 ≤ n := by
    rw [← size]
    split_ifs with given
    · exact given
    · exact le_rfl
  have fits : n * sizeofPtr < 2 ^ 64 := by
    rw [← size, sizeofPtr, dynarrayDefaultInitialCapacity]
    split_ifs <;> omega
  -- there is one allocation for the struct and one for the cells
  cases struct : mem 0 with
  | false =>
    refine ⟨none, fun k => mem (k + 1), ?_, Or.inl rfl⟩
    simp [newDynarray, struct]
  | true =>
    have cells := mallocCells_apply (α := α) fits fun k => mem (k + 1)
    cases array : mem 1 with
    | false =>
      refine ⟨none, fun k => mem (k + 2), ?_, Or.inl rfl⟩
      simp [newDynarray, dynarrayInit, struct, size, cells, array]
    | true =>
      refine ⟨_, fun k => mem (k + 2), ?_, Or.inr ⟨List.replicate n none, rfl, ?_⟩⟩
      · simp [newDynarray, dynarrayInit, struct, size, cells, array, live]
      · rwa [List.length_replicate]

end Calls

/-! ### Runs -/

/-- One call: what `p_darr` points to afterwards, and the response. -/
def dynarrayCall (pDarr : Option (Dynarray α)) :
    DynarrayOp α → Run (Option (Dynarray α) × Response α)
  | .append data => do
    let out ← dynarrayAppend pDarr data
    pure (out.pDarr, ⟨out.ret, none, out.events⟩)
  | .pop wanted => do
    let (out, data) ← dynarrayPop pDarr wanted
    pure (out.pDarr, ⟨out.ret, data, out.events⟩)
  | .release => do
    let out ← dynarrayRelease pDarr
    pure (out.pDarr, ⟨out.ret, none, out.events⟩)
  | .setItemDestructor itemDestructor =>
    pure (dynarraySetItemDestructor pDarr itemDestructor, ⟨0, none, []⟩)

/-- Calls in a row: what `p_darr` points to in the end, and the calls with their responses. -/
def dynarrayRun (pDarr : Option (Dynarray α)) :
    List (DynarrayOp α) → Run (Option (Dynarray α) × List (DynarrayOp α × Response α))
  | [] => pure (pDarr, [])
  | op :: ops => do
    let (pDarr, response) ← dynarrayCall pDarr op
    let (pDarr, calls) ← dynarrayRun pDarr ops
    pure (pDarr, (op, response) :: calls)

section Runs

variable {darr : Dynarray α} {s s' : ListState α}

/-- A call does to the array what it does to the list. -/
theorem dynarrayCall_step (represents : darr.Represents s) (few : darr.len < 2 ^ 60)
    (op : DynarrayOp α) (mem : Mallocs) :
    ∃ darr' response mem' s',
      dynarrayCall (some darr) op mem = some ((some darr', response), mem') ∧
      ListStep s op response s' ∧ darr'.Represents s' := by
  cases represents with
  | lost d => cases op with
    | append data => exact ⟨lost d, _, mem, _, rfl, .appendLost d data, .lost d⟩
    | pop wanted => exact ⟨lost d, _, mem, _, rfl, .popLost d wanted, .lost d⟩
    | release => exact ⟨lost d, _, mem, _, rfl, .releaseLost d, .lost d⟩
    | setItemDestructor d' =>
      exact ⟨lost d', _, mem, _, rfl, .setItemDestructor none d d', .lost d'⟩
  | @live items unused d positive => cases op with
    | append data =>
      have outcome := dynarrayAppend_live (d := d) positive few data mem
      obtain ⟨out, mem', append, ⟨unused', rfl⟩ | rfl⟩ := outcome
      · have positive' : 1 ≤ (items ++ [data]).length + unused'.length := by
          rw [List.length_append, List.length_singleton]
          omega
        refine ⟨_, _, mem', _, ?_, .append items d data, .live positive'⟩
        rw [dynarrayCall, Run.bind_apply, append]
        rfl
      · refine ⟨_, _, mem', _, ?_, .appendFail items d data, .lost d⟩
        rw [dynarrayCall, Run.bind_apply, append]
        rfl
    | pop wanted =>
      -- the last item is handed over if it is wanted, and freed otherwise
      rcases List.eq_nil_or_concat' items with rfl | ⟨items, last, rfl⟩
      · exact ⟨live [] unused d, _, mem, _, by simp [dynarrayCall, dynarrayPop, live],
          .popEmpty d wanted, .live positive⟩
      · have pop := dynarrayPop_live items last unused d wanted
        have called : dynarrayCall (some (live (items ++ [last]) unused d)) (.pop wanted) mem =
            some ((some (live items (some none :: unused) d),
              ⟨0, if wanted then some last else none,
                if wanted then [] else itemEvents d last⟩), mem) := by
          rw [dynarrayCall, pop]
          rfl
        have positive' : 1 ≤ items.length + (some none :: unused).length := by
          rw [List.length_cons]
          omega
        refine ⟨_, _, mem, _, called, ?_, .live positive'⟩
        cases wanted
        · exact .drop items d last
        · exact .pop items d last
    | release =>
      have positive' : 1 ≤ ([] : List (Option α)).length +
          (List.replicate items.length (some none) ++ unused).length := by
        simpa using positive
      refine ⟨_, _, mem, _, ?_, .release items d, .live positive'⟩
      rw [dynarrayCall, dynarrayRelease_live]
      rfl
    | setItemDestructor d' =>
      exact ⟨live items unused d', _, mem, _, rfl, .setItemDestructor (some items) d d',
        .live positive⟩

theorem dynarrayRun_cons {op : DynarrayOp α} {ops : List (DynarrayOp α)} {darr₁ : Dynarray α}
    {response : Response α} {mem mem₁ mem' : Mallocs} {pDarr : Option (Dynarray α)}
    {calls : List (DynarrayOp α × Response α)}
    (call : dynarrayCall (some darr) op mem = some ((some darr₁, response), mem₁))
    (run : dynarrayRun (some darr₁) ops mem₁ = some ((pDarr, calls), mem')) :
    dynarrayRun (some darr) (op :: ops) mem =
      some ((pDarr, (op, response) :: calls), mem') := by
  rw [dynarrayRun, Run.bind_apply, call, Option.bind_some]
  change (dynarrayRun (some darr₁) ops >>= fun out => pure (out.1, (op, response) :: out.2))
    mem₁ = _
  rw [Run.bind_apply, run]
  rfl

/-- Calls do to the array what they do to the list, as long as there are fewer than `2 ^ 60` items
whenever a call is made. -/
theorem dynarrayRun_represents (represents : darr.Represents s) (ops : List (DynarrayOp α))
    (mem : Mallocs)
    (few : ∀ done, done <+: ops → ∀ darr' calls mem',
      dynarrayRun (some darr) done mem = some ((some darr', calls), mem') → darr'.len < 2 ^ 60) :
    ∃ darr' calls mem' s', dynarrayRun (some darr) ops mem = some ((some darr', calls), mem') ∧
      calls.map Prod.fst = ops ∧ ListRun s calls s' ∧ darr'.Represents s' := by
  induction ops generalizing darr s mem with
  | nil => exact ⟨darr, [], mem, s, rfl, rfl, .nil s, represents⟩
  | cons op ops ih =>
    have now : darr.len < 2 ^ 60 := few [] List.nil_prefix darr [] mem rfl
    obtain ⟨darr₁, response, mem₁, s₁, call, step, represents₁⟩ :=
      dynarrayCall_step represents now op mem
    -- the array is never too long behind the first call either
    have later : ∀ done, done <+: ops → ∀ darr' calls mem',
        dynarrayRun (some darr₁) done mem₁ = some ((some darr', calls), mem') →
          darr'.len < 2 ^ 60 := by
      intro done front darr' calls mem' run
      exact few (op :: done) (List.cons_prefix_cons.mpr ⟨rfl, front⟩) darr' _ mem'
        (dynarrayRun_cons call run)
    obtain ⟨darr', calls, mem', s', run, same, list, represents'⟩ := ih represents₁ mem₁ later
    exact ⟨darr', (op, response) :: calls, mem', s', dynarrayRun_cons call run,
      by rw [List.map_cons, same], .cons step list, represents'⟩

/-- The data of an array may be declared to be on loan. From then on, none of it is freed. -/
theorem dynarraySetDataReadonly_run (represents : darr.Represents s) (ops : List (DynarrayOp α))
    (mem : Mallocs) (keeps : ∀ op ∈ ops, ∀ d, op ≠ .setItemDestructor d)
    (few : ∀ done, done <+: ops → ∀ darr' calls mem',
      dynarrayRun (dynarraySetDataReadonly (some darr)) done mem =
        some ((some darr', calls), mem') → darr'.len < 2 ^ 60) :
    ∃ darr' calls mem', dynarrayRun (dynarraySetDataReadonly (some darr)) ops mem =
        some ((some darr', calls), mem') ∧
      ∀ call ∈ calls, ∀ item, ItemEvent.freed item ∉ call.2.events := by
  have loan : Dynarray.Represents { darr with itemDestructor := some dynarrayFreeConstItemPtr }
      ⟨s.items, some dynarrayFreeConstItemPtr⟩ := by
    cases represents with
    | lost d => exact .lost _
    | live positive => exact .live positive
  obtain ⟨darr', calls, mem', s', run, same, list, -⟩ := dynarrayRun_represents loan ops mem few
  refine ⟨darr', calls, mem', run, list.readonly rfl fun call mem => keeps call.1 ?_⟩
  rw [← same]
  exact List.mem_map_of_mem mem

end Runs

/-- What holds of an array between calls. Every cell lies below `size`, and when the array is full,
the loop that doubles its size ends with room for one more item. -/
structure Dynarray.Sound (darr : Dynarray α) : Prop where
  positive : darr.arr ≠ none → 1 ≤ darr.size
  bounded : darr.arr ≠ none → darr.len ≤ darr.size
  cells : ∀ arr, darr.arr = some arr → arr.length = darr.size
  gone : darr.arr = none → darr.len = 0
  grows : darr.arr ≠ none → darr.len = darr.size →
    ∃ size, dynarrayResizeLoop (darr.len + 1) 65 (sizeT (2 * darr.size)) = some size ∧
      darr.len + 1 ≤ size

theorem Dynarray.Represents.sound {darr : Dynarray α} {s : ListState α}
    (represents : darr.Represents s) (few : darr.len < 2 ^ 60) : darr.Sound := by
  cases represents with
  | lost d =>
    refine ⟨?_, ?_, ?_, fun _ => rfl, ?_⟩ <;> simp [Dynarray.lost]
  | @live items unused d positive =>
    refine ⟨fun _ => positive, fun _ => Nat.le_add_right _ _, ?_, ?_, fun _ full => ?_⟩
    · rintro _ ⟨⟩
      rw [List.length_append, List.length_map]
      rfl
    · rintro ⟨⟩
    · have size : (Dynarray.live items unused d).size = items.length := full.symm
      have len : (Dynarray.live items unused d).len = items.length := rfl
      rw [len] at few
      change 1 ≤ (Dynarray.live items unused d).size at positive
      rw [size] at positive
      have double : sizeT (2 * items.length) = 2 * items.length := sizeT_of_lt (by omega)
      rw [size, len, double]
      obtain ⟨size, loop, room, -⟩ : ∃ size, dynarrayResizeLoop (items.length + 1) (64 + 1)
          (2 * items.length) = some size ∧ _ :=
        dynarrayResizeLoop_ends (by omega) (by omega) (by omega)
      exact ⟨size, loop, room⟩

/-- Whatever is called on a new array, and whichever allocations fail, the array does what a list
does, as long as there are fewer than `2 ^ 60` items. -/
theorem newDynarray_run (block : Dynarray α) (initialSize : Nat) (ops : List (DynarrayOp α))
    (mem : Mallocs) (small : initialSize < 2 ^ 60)
    (few : ∀ darr mem', newDynarray block initialSize mem = some (some darr, mem') →
      ∀ done, done <+: ops → ∀ darr' calls mem'',
        dynarrayRun (some darr) done mem' = some ((some darr', calls), mem'') →
          darr'.len < 2 ^ 60) :
    ∃ new mem', newDynarray block initialSize mem = some (new, mem') ∧
      ∀ darr, new = some darr → ∃ darr' calls mem'' s,
        dynarrayRun (some darr) ops mem' = some ((some darr', calls), mem'') ∧
          calls.map Prod.fst = ops ∧ ListRun ⟨some [], none⟩ calls s ∧ darr'.Represents s ∧
          darr'.Sound ∧ (darr'.arr = none ↔ ∃ call ∈ calls, AppendFailed call) ∧
          calls.Pairwise fun call later => AppendFailed call → Refused later := by
  obtain ⟨new, mem', made, outcome⟩ := newDynarray_live block small mem
  refine ⟨new, mem', made, ?_⟩
  rintro darr rfl
  obtain ⟨unused, rfl, positive⟩ : ∃ unused, darr = Dynarray.live [] unused none ∧
      1 ≤ unused.length := by
    simpa using outcome
  have start : (Dynarray.live [] unused none).Represents ⟨some [], none⟩ :=
    .live (by simpa using positive)
  obtain ⟨darr', calls, mem'', s, run, same, list, represents⟩ :=
    dynarrayRun_represents start ops mem' (few _ mem' made)
  have last : darr'.len < 2 ^ 60 := few _ mem' made ops List.prefix_rfl darr' calls mem'' run
  -- the array is gone exactly if the list is
  have lost : darr'.arr = none ↔ s.items = none := by
    cases represents <;> simp [Dynarray.live, Dynarray.lost]
  refine ⟨darr', calls, mem'', s, run, same, list, represents, represents.sound last, ?_,
    list.pairwise_refused⟩
  rw [lost, list.lost_iff]
  simp

/-- An item is appended to an array of one cell, and there is no memory for the second one. -/
theorem newDynarray_run_second :
    ∃ darr mem calls mem' s,
      newDynarray (⟨none, 0, 0, none⟩ : Dynarray Nat) 0 (fun n => n < 2) = some (some darr, mem) ∧
        dynarrayRun (some darr) [.append (some 1), .append (some 2), .pop true] mem =
          some ((some (Dynarray.lost none), calls), mem') ∧
        ListRun ⟨some [], none⟩ calls s ∧
        calls.Pairwise fun call later => AppendFailed call → Refused later := by
  have first : newDynarray (⟨none, 0, 0, none⟩ : Dynarray Nat) 0 (fun n => n < 2) =
      some (some (Dynarray.live [] [none] none), fun n => decide (n + 2 < 2)) := rfl
  have few : ∀ darr mem, newDynarray (⟨none, 0, 0, none⟩ : Dynarray Nat) 0 (fun n => n < 2) =
      some (some darr, mem) →
        ∀ done, done <+: [.append (some 1), .append (some 2), .pop true] →
          ∀ darr' calls mem', dynarrayRun (some darr) done mem =
            some ((some darr', calls), mem') → darr'.len < 2 ^ 60 := by
    intro darr mem made done front darr' calls mem' run
    rw [first, Option.some_inj, Prod.mk.injEq, Option.some_inj] at made
    obtain ⟨rfl, rfl⟩ := made
    obtain ⟨len, lens⟩ : ∃ len, (dynarrayRun (some (Dynarray.live [] [none] none)) done
        fun n => decide (n + 2 < 2)).map (fun out => out.1.1.map Dynarray.len) =
          some (some len) ∧ len ≤ 1 := by
      rw [← List.mem_inits] at front
      simp only [List.inits, List.map_cons, List.map_nil, List.mem_cons, List.not_mem_nil,
        or_false] at front
      rcases front with rfl | rfl | rfl | rfl
      exacts [⟨0, rfl, by decide⟩, ⟨1, rfl, by decide⟩, ⟨0, rfl, by decide⟩, ⟨0, rfl, by decide⟩]
    rw [run, Option.map_some, Option.map_some, Option.some_inj, Option.some_inj] at lens
    omega
  obtain ⟨new, mem, made, run⟩ := newDynarray_run ⟨none, 0, 0, none⟩ 0
    [.append (some 1), .append (some 2), .pop true] (fun n => n < 2) (by decide) few
  obtain ⟨rfl, rfl⟩ : some (Dynarray.live [] [none] none) = new ∧ _ = mem :=
    Prod.mk.inj (Option.some.inj (first.symm.trans made))
  obtain ⟨darr', calls, mem', s, ran, -, list, -, -, -, refused⟩ := run _ rfl
  have last : (dynarrayRun (some (Dynarray.live [] [none] none))
      [.append (some 1), .append (some 2), .pop true] fun n => decide (n + 2 < 2)).map
        (fun out => out.1.1) = some (some (Dynarray.lost none)) := rfl
  rw [ran, Option.map_some, Option.some_inj, Option.some_inj] at last
  obtain rfl : darr' = Dynarray.lost none := last
  exact ⟨_, _, calls, mem', s, made, ran, list, refused⟩

end IpDedup
