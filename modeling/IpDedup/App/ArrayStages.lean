import IpDedup.App.MainRun
import IpDedup.Tree.CollectArray

/-!
# The stages that collect networks

Purging and printing go through the networks of a tree by way of an array. If
there is no memory for it, the purge fails, but printing goes on: nothing is
written for the tree, and only the compact form reports an error.

## Main definitions

* `fprintTreeDynarray`, `fprintIp6TreeCompactDynarray`, `fprintIpTreeJsonDynarray`
* `mainRunPrintDynarray`: the output of a run
* `mainRunDynarray`: a run with arrays

## Main results

* `mainRunPrintDynarray_run`: a family is printed completely or not at all
-/

set_option autoImplicit false

namespace IpDedup

open Dynarray

variable {w : UintFast32}

/-! ### Going through a tree -/

/-- What is done with the collected networks, after which the array is freed; or what is done
without an array. -/
def withCollected {α β : Type} (block : Dynarray α) (tree : IpTree α) (without : Run β)
    (process : List α → Run β) : Run β := do
  let collected ← ipTreeCollectAddrDynarray block tree
  match collected.1 with
  | none => without
  | some darr => do
    let addrs ← dynarrayForeach darr
    let out ← process addrs
    let _ ← dynarrayFree (some darr)
    pure out

/-- The structs that `malloc` returns for arrays may hold anything. -/
structure Blocks (w : UintFast32) where
  v4 : Dynarray (Ip4Addr w)
  v6 : Dynarray Ip6Addr

/-! ### Printing -/

/-- What is written for the collected networks; or `missing`, if there is no array. -/
def printCollected {α β : Type} (block : Dynarray α) (tree : IpTree α) (missing : β)
    (process : List α → Option β) : Run β :=
  withCollected block tree (pure missing) fun darr => liftM (process darr)

/-- `_fprint_ip4_tree`, `_fprint_ip6_tree` -/
def fprintTreeDynarray {α : Type} (block : Dynarray α) (fFprint : α → List Char)
    (tree : IpTree α) : Run (List Char) :=
  printCollected block tree [] fun darr => some (darr.flatMap fFprint)

def fprintIp4TreeDynarray (block : Dynarray (Ip4Addr w)) (tree : IpTree (Ip4Addr w))
    (redux : Bool) : Run (List Char) :=
  fprintTreeDynarray block (if redux then fprintIp4AddrOrNet else fprintIp4Net) tree

def fprintIp6TreeDynarray (block : Dynarray Ip6Addr) (tree : IpTree Ip6Addr) (redux : Bool) :
    Run (List Char) :=
  fprintTreeDynarray block (if redux then fprintIp6AddrOrNet else fprintIp6Net) tree

def fprintIp6TreeCompactDynarray (block : Dynarray Ip6Addr) (tree : IpTree Ip6Addr)
    (redux : Bool) : Run (Int × List Char) :=
  printCollected block tree (-1, []) fun darr => some (fprintIp6TreeCompactLoop redux darr)

/-- The part of `fprint_ip4_tree_json` that goes through the array. -/
def fprintIp4TreeJsonDarr (darr : List (Ip4Addr w)) : Option (Int × List Char) := do
  let text ← fprintIp4TreeJsonLoop 0 darr
  pure (0, text ++ if darr.length > 0 then ['\n'] else [])

/-- The part of `fprint_ip6_tree_json` that goes through the array. -/
def fprintIp6TreeJsonDarr (darr : List Ip6Addr) : Option (Int × List Char) := do
  let out ← fprintIp6TreeJsonLoop 0 darr
  pure (out.1, out.2 ++ if darr.length > 0 then ['\n'] else [])

def fprintIp4TreeJsonDynarray (block : Dynarray (Ip4Addr w)) (tree : IpTree (Ip4Addr w)) :
    Run (Int × List Char) :=
  printCollected block tree (-1, []) fprintIp4TreeJsonDarr

def fprintIp6TreeJsonDynarray (block : Dynarray Ip6Addr) (tree : IpTree Ip6Addr) :
    Run (Int × List Char) :=
  printCollected block tree (-1, []) fprintIp6TreeJsonDarr

/-- The return codes for the two trees are ignored. -/
def fprintIpTreeJsonDynarray (blocks : Blocks w) (treeV4 : Option (IpTree (Ip4Addr w)))
    (treeV6 : Option (IpTree Ip6Addr)) : Run (List Char) := do
  let outV4 ← treeV4.elim (pure (0, [])) fun tree => fprintIp4TreeJsonDynarray blocks.v4 tree
  let outV6 ← treeV6.elim (pure (0, [])) fun tree => fprintIp6TreeJsonDynarray blocks.v6 tree
  pure (printedJson outV4.2 outV6.2)

/-- The part of `main_run` that prints the tree for IPv6. -/
def mainRunPrintIp6Dynarray (block : Dynarray Ip6Addr) (g : IpdedupGlobals w) :
    Option (IpTree Ip6Addr) → Run (Int × List Char)
  | none => pure (0, [])
  | some tree =>
    if g.wantLongOutput then do
      let text ← fprintIp6TreeDynarray block tree g.wantReduxOutput
      pure (0, text)
    else do
      let out ← fprintIp6TreeCompactDynarray block tree g.wantReduxOutput
      pure (if out.1 ≠ 0 then exSoftware else 0, out.2)

/-- The part of `main_run` that prints. -/
def mainRunPrintDynarray (blocks : Blocks w) (sys : System) (g : IpdedupGlobals w)
    (obj : IpTreeBuildData w) : Run (Int × List Char) :=
  if g.outfile.any fun outfile => !sys.openOutfile outfile then pure (exCantcreat, [])
  else if g.wantJsonOutput then do
    let text ← fprintIpTreeJsonDynarray blocks obj.v4 obj.v6
    pure (0, text)
  else do
    let textV4 ← obj.v4.elim (pure []) fun tree =>
      fprintIp4TreeDynarray blocks.v4 tree g.wantReduxOutput
    let out ← mainRunPrintIp6Dynarray blocks.v6 g obj.v6
    pure (out.1, textV4 ++ out.2)

/-! ### Purging -/

/-- The part of `ip_tree_builder_purge` for one family. -/
def ipTreeBuilderPurgeTreeDynarray {α : Type} (block : Dynarray α)
    (tree? purgeTree? : Option (IpTree α)) : Run (Int × Option (IpTree α)) :=
  match purgeTree? with
  | none => pure (0, tree?)
  | some purgeTree =>
    withCollected block purgeTree (pure (-1, tree?)) fun arr => do
      let tree ← tree?
      let out ← ipTreeBuilderPurge tree arr
      pure (out.1, some out.2)

def ipTreeBuilderPurgeBothDynarray (blocks : Blocks w) (obj : IpTreeBuildData w)
    (purgeTreeV4 : Option (IpTree (Ip4Addr w))) (purgeTreeV6 : Option (IpTree Ip6Addr)) :
    Run (Int × IpTreeBuildData w) := do
  let out ← ipTreeBuilderPurgeTreeDynarray blocks.v4 obj.v4 purgeTreeV4
  let obj := { obj with v4 := out.2 }
  if out.1 ≠ 0 then pure (-1, obj)
  else
    let out ← ipTreeBuilderPurgeTreeDynarray blocks.v6 obj.v6 purgeTreeV6
    let obj := { obj with v6 := out.2 }
    if out.1 ≠ 0 then pure (-1, obj) else pure (0, obj)

/-! ### The run -/

/-- What a run does once the files to be purged were read. -/
def mainRunPurgeParsedDynarray (blocks : Blocks w) (sys : System) (g : IpdedupGlobals w)
    (obj : IpTreeBuildData w) (purge : Int × Option (IpTreeBuildData w)) : Run (MainOut w) := do
  let status := mainInterpretParseRet purge.1
  if status.1 ≠ 0 then
    pure ⟨status.1, status.2 ++ ["Error: failed to parse purge input\n"], [], obj, purge.2⟩
  else
    let purgeBuilder ← purge.2
    let purged ← ipTreeBuilderPurgeBothDynarray blocks obj purgeBuilder.v4 purgeBuilder.v6
    if purged.1 ≠ 0 then
      pure ⟨exSoftware, ["Error: failed to purge networks\n"], [], purged.2, purge.2⟩
    else
      let printed ← mainRunPrintDynarray blocks sys g purged.2
      pure ⟨printed.1, [], printed.2, purged.2, purge.2⟩

/-- `main_run` -/
def mainRunDynarray (P : Platform) (blocks : Blocks P.fast32) (sys : System)
    (g : IpdedupGlobals P.fast32) (bufs : ParseBufs P.fast32) : Run (MainOut P.fast32) := do
  let parsed ← mainInnerParseInput P sys g (mainRunSetAutoCollapse g) bufs
  let status := mainInterpretParseRet parsed.ret
  if status.1 ≠ 0 then
    pure ⟨status.1, status.2 ++ ["Error: failed to parse input\n"], [], parsed.obj, none⟩
  else
    let inverted ← mainRunInvert g.wantInvert (mainRunCollapse parsed.obj)
    if inverted.1 ≠ 0 then pure ⟨inverted.1, [], [], inverted.2, none⟩
    else if g.purgeInfiles.length < 1 then
      let printed ← mainRunPrintDynarray blocks sys g inverted.2
      pure ⟨printed.1, [], printed.2, inverted.2, none⟩
    else
      let stdin ← parsed.stream
      let purge ← mainParseDedupToTree P sys.fopen stdin g g.purgeInfiles parsed.bufs
      mainRunPurgeParsedDynarray blocks sys g inverted.2 purge

/-! ### Without memory -/

section Memory

/-- The collected networks are processed, or there is no memory for the array. -/
theorem withCollected_run {α β : Type} (block : Dynarray α) {tree : IpTree α}
    (few : (ipTreeCollectAddr tree).length < 2 ^ 60) (without : Run β) (process : List α → Run β)
    (mem : Mallocs) :
    ∃ mem', (mem = Mallocs.all → mem' = Mallocs.all) ∧
      (withCollected block tree without process mem = process (ipTreeCollectAddr tree) mem' ∨
        mem ≠ Mallocs.all ∧ withCollected block tree without process mem = without mem') := by
  obtain ⟨darr, events, mem', run, all, outcome, -⟩ :=
    ipTreeCollectAddrDynarray_run block tree few mem
  refine ⟨mem', all, ?_⟩
  rw [withCollected, Run.bind_apply, run, Option.bind_some]
  rcases outcome with ⟨unused, rfl⟩ | ⟨rfl, short⟩
  · apply Or.inl
    dsimp only
    rw [dynarrayForeach_live, Run.lift_some_bind, Run.bind_apply, dynarrayFree_live]
    exact Option.bind_fun_some _
  · exact Or.inr ⟨short, rfl⟩

theorem withCollected_all {α β : Type} (block : Dynarray α) {tree : IpTree α}
    (few : (ipTreeCollectAddr tree).length < 2 ^ 60) (without : Run β) (process : List α → Run β) :
    withCollected block tree without process Mallocs.all =
      process (ipTreeCollectAddr tree) Mallocs.all := by
  obtain ⟨mem', all, run | ⟨short, -⟩⟩ := withCollected_run block few without process Mallocs.all
  · rw [run, all rfl]
  · exact absurd rfl short

/-- The trees that there was memory for. -/
def IpTreeBuildData.keep (obj : IpTreeBuildData w) (keepV4 keepV6 : Bool) : IpTreeBuildData w :=
  { obj with
    v4 := if keepV4 then obj.v4 else none
    v6 := if keepV6 then obj.v6 else none }

/-- Both trees are small enough to be collected. -/
structure IpTreeBuildData.Few (obj : IpTreeBuildData w) : Prop where
  v4 : ∀ tree ∈ obj.v4, (ipTreeCollectAddr tree).length < 2 ^ 60
  v6 : ∀ tree ∈ obj.v6, (ipTreeCollectAddr tree).length < 2 ^ 60

/-- The networks of one family are printed, or left out for want of memory. `text` is what is
written. -/
theorem printTree_run {α β : Type} (text : β → List Char) (block : Dynarray α)
    {tree? : Option (IpTree α)}
    (few : ∀ tree ∈ tree?, (ipTreeCollectAddr tree).length < 2 ^ 60) (missing absent : β)
    (nothing : text missing = [] ∧ text absent = []) (process : List α → Option β)
    (mem : Mallocs) :
    ∃ (keep : Bool) (mem' : Mallocs) (out? : Option β),
      (mem = Mallocs.all → keep = true ∧ mem' = Mallocs.all) ∧
      (tree?.elim (pure absent) fun tree => printCollected block tree missing process) mem =
        out?.map (fun out => (out, mem')) ∧
      out?.map text = (if keep then tree? else none).elim (some []) fun tree =>
        (process (ipTreeCollectAddr tree)).map text := by
  cases tree? with
  | none =>
    -- a family that is not in the mode
    refine ⟨true, mem, some absent, fun enough => ⟨rfl, enough⟩, rfl, congrArg some nothing.2⟩
  | some tree =>
    obtain ⟨mem', all, run | ⟨short, run⟩⟩ := withCollected_run block (few tree rfl)
      (pure missing) (fun darr => liftM (process darr)) mem
    · exact ⟨true, mem', process (ipTreeCollectAddr tree), fun enough => ⟨rfl, all enough⟩,
        run.trans (Run.lift_apply _ _), rfl⟩
    · exact ⟨false, mem', some missing, fun enough => absurd enough short, run,
        congrArg some nothing.1⟩

section Print

variable (blocks : Blocks w) {obj : IpTreeBuildData w} (few : obj.Few) (mem : Mallocs)

theorem fprintIp4TreeJsonDarr_collect (tree : IpTree (Ip4Addr w)) :
    (fprintIp4TreeJsonDarr (ipTreeCollectAddr tree)).map Prod.snd = fprintIp4TreeJson tree := by
  rw [fprintIp4TreeJsonDarr, fprintIp4TreeJson]
  cases fprintIp4TreeJsonLoop 0 (ipTreeCollectAddr tree) <;> rfl

include few

/-- A list is complete or empty. -/
theorem fprintIpTreeJsonDynarray_run :
    ∃ keepV4 keepV6 mem',
      (mem = Mallocs.all → (keepV4 = true ∧ keepV6 = true) ∧ mem' = Mallocs.all) ∧
      fprintIpTreeJsonDynarray blocks obj.v4 obj.v6 mem =
        (fprintIpTreeJson (obj.keep keepV4 keepV6).v4 (obj.keep keepV4 keepV6).v6).map
          fun text => (text, mem') := by
  obtain ⟨keepV4, mem₁, outV4, all₁, runV4, textV4⟩ :=
    printTree_run Prod.snd blocks.v4 few.v4 (-1, []) (0, []) ⟨rfl, rfl⟩ fprintIp4TreeJsonDarr mem
  obtain ⟨keepV6, mem₂, outV6, all₂, runV6, textV6⟩ :=
    printTree_run Prod.snd blocks.v6 few.v6 (-1, []) (0, []) ⟨rfl, rfl⟩ fprintIp6TreeJsonDarr mem₁
  refine ⟨keepV4, keepV6, mem₂, fun enough => ?_, ?_⟩
  · obtain ⟨keep₁, enough₁⟩ := all₁ enough
    obtain ⟨keep₂, enough₂⟩ := all₂ enough₁
    exact ⟨⟨keep₁, keep₂⟩, enough₂⟩
  · -- what is printed from an array is what is printed from the list in it
    simp only [fprintIp4TreeJsonDarr_collect] at textV4
    have listV4 : (obj.keep keepV4 keepV6).v4.elim (some []) fprintIp4TreeJson =
        outV4.map Prod.snd := textV4.symm
    have listV6 : ((obj.keep keepV4 keepV6).v6.elim (some []) fun tree =>
        (fprintIp6TreeJson tree).map Prod.snd) = outV6.map Prod.snd := textV6.symm
    have first : (obj.v4.elim (pure (0, [])) fun tree =>
        fprintIp4TreeJsonDynarray blocks.v4 tree) mem = outV4.map fun out => (out, mem₁) := runV4
    have second : (obj.v6.elim (pure (0, [])) fun tree =>
        fprintIp6TreeJsonDynarray blocks.v6 tree) mem₁ = outV6.map fun out => (out, mem₂) := runV6
    rw [fprintIpTreeJson_eq, listV4, listV6, fprintIpTreeJsonDynarray, Run.bind_apply, first]
    -- an undefined netmask leaves the rest undefined, in both
    cases outV4 with
    | none => rfl
    | some out =>
      simp only [Option.map_some, Option.bind_some, Run.bind_apply, second]
      cases outV6 with
      | none => rfl
      | some out => rfl

/-- The text for IPv4 is complete or empty. -/
theorem fprintIp4TreeDynarray_run (redux : Bool) :
    ∃ keep mem', (mem = Mallocs.all → keep = true ∧ mem' = Mallocs.all) ∧
      (obj.v4.elim (pure []) fun tree => fprintIp4TreeDynarray blocks.v4 tree redux) mem =
        some ((if keep then obj.v4 else none).elim [] fun tree => fprintIp4Tree tree redux,
          mem') := by
  obtain ⟨keep, mem', out, all, run, text⟩ := printTree_run id blocks.v4 few.v4 [] [] ⟨rfl, rfl⟩
    (fun darr => some (darr.flatMap (if redux then fprintIp4AddrOrNet else fprintIp4Net))) mem
  refine ⟨keep, mem', all, run.trans ?_⟩
  rw [Option.map_id] at text
  rw [show out = _ from text]
  cases (if keep then obj.v4 else none) <;> rfl

/-- What is returned when the text for IPv6 is missing: only the compact form reports an error. -/
def IpdedupGlobals.missingRet (g : IpdedupGlobals w) (keepV6 : Bool) (ret : Int) : Int :=
  if g.wantJsonOutput || g.wantLongOutput || keepV6 then ret else exSoftware

/-- The text for IPv6, and what is returned. -/
def IpdedupGlobals.printedIp6 (g : IpdedupGlobals w) (tree? : Option (IpTree Ip6Addr)) :
    Int × List Char :=
  tree?.elim (0, []) fun tree =>
    if g.wantLongOutput then (0, fprintIp6Tree tree g.wantReduxOutput)
    else
      let out := fprintIp6TreeCompact tree g.wantReduxOutput
      (if out.1 ≠ 0 then exSoftware else 0, out.2)

omit few in
/-- Without JSON, the two texts are printed one after the other. -/
theorem mainRunPrint_texts {sys : System} {g : IpdedupGlobals w}
    (opens : ¬ g.outfile.any fun outfile => !sys.openOutfile outfile)
    (plain : ¬ g.wantJsonOutput) (obj : IpTreeBuildData w) :
    mainRunPrint sys g obj = some ((g.printedIp6 obj.v6).1,
      (obj.v4.elim [] fun tree => fprintIp4Tree tree g.wantReduxOutput) ++
        (g.printedIp6 obj.v6).2) := by
  rw [mainRunPrint, if_neg opens, if_neg plain]
  cases obj.v6 with
  | none => simp [IpdedupGlobals.printedIp6]
  | some tree =>
    by_cases long : g.wantLongOutput <;> simp [IpdedupGlobals.printedIp6, long]

/-- The text for IPv6 is complete or empty. -/
theorem mainRunPrintIp6Dynarray_run {g : IpdedupGlobals w} (plain : ¬ g.wantJsonOutput) :
    ∃ keep mem', (mem = Mallocs.all → keep = true ∧ mem' = Mallocs.all) ∧
      mainRunPrintIp6Dynarray blocks.v6 g obj.v6 mem =
        some ((g.missingRet keep (g.printedIp6 (if keep then obj.v6 else none)).1,
          (g.printedIp6 (if keep then obj.v6 else none)).2), mem') := by
  cases own : obj.v6 with
  | none =>
    refine ⟨true, mem, fun enough => ⟨rfl, enough⟩, ?_⟩
    simp [IpdedupGlobals.missingRet, IpdedupGlobals.printedIp6, mainRunPrintIp6Dynarray]
  | some tree =>
    have small := few.v6 tree own
    by_cases long : g.wantLongOutput
    · obtain ⟨mem', all, run | ⟨short, run⟩⟩ := withCollected_run blocks.v6 small (pure [])
        (fun darr => liftM (some (darr.flatMap
          (if g.wantReduxOutput then fprintIp6AddrOrNet else fprintIp6Net)))) mem
      · refine ⟨true, mem', fun enough => ⟨rfl, all enough⟩, ?_⟩
        rw [mainRunPrintIp6Dynarray, if_pos long, fprintIp6TreeDynarray, fprintTreeDynarray,
          printCollected, Run.bind_apply, run]
        simp [IpdedupGlobals.missingRet, IpdedupGlobals.printedIp6, long, fprintIp6Tree]
      · -- the long form returns nothing, so nobody notices
        refine ⟨false, mem', fun enough => absurd enough short, ?_⟩
        rw [mainRunPrintIp6Dynarray, if_pos long, fprintIp6TreeDynarray, fprintTreeDynarray,
          printCollected, Run.bind_apply, run]
        simp [IpdedupGlobals.missingRet, IpdedupGlobals.printedIp6, long]
    · obtain ⟨mem', all, run | ⟨short, run⟩⟩ := withCollected_run blocks.v6 small (pure (-1, []))
        (fun darr => liftM (some (fprintIp6TreeCompactLoop g.wantReduxOutput darr))) mem
      · refine ⟨true, mem', fun enough => ⟨rfl, all enough⟩, ?_⟩
        rw [mainRunPrintIp6Dynarray, if_neg long, fprintIp6TreeCompactDynarray, printCollected,
          Run.bind_apply, run]
        simp only [IpdedupGlobals.missingRet, IpdedupGlobals.printedIp6, long,
          fprintIp6TreeCompact, reduceIte, Bool.or_true, Option.elim_some]
        rfl
      · -- the compact form returns an error
        refine ⟨false, mem', fun enough => absurd enough short, ?_⟩
        rw [mainRunPrintIp6Dynarray, if_neg long, fprintIp6TreeCompactDynarray, printCollected,
          Run.bind_apply, run]
        simp [IpdedupGlobals.missingRet, IpdedupGlobals.printedIp6, long, plain]

/-- Whatever allocations fail, each family is printed completely or not at all. With enough memory
both are. Of a missing family, only the compact form tells. -/
theorem mainRunPrintDynarray_run (sys : System) (g : IpdedupGlobals w) :
    ∃ keepV4 keepV6 mem',
      (mem = Mallocs.all → (keepV4 = true ∧ keepV6 = true) ∧ mem' = Mallocs.all) ∧
      mainRunPrintDynarray blocks sys g obj mem =
        (mainRunPrint sys g (obj.keep keepV4 keepV6)).map fun out =>
          ((g.missingRet keepV6 out.1, out.2), mem') := by
  by_cases closed : g.outfile.any fun outfile => !sys.openOutfile outfile
  · -- nothing is collected
    refine ⟨true, true, mem, fun enough => ⟨⟨rfl, rfl⟩, enough⟩, ?_⟩
    rw [mainRunPrintDynarray, mainRunPrint, if_pos closed, if_pos closed]
    simp [IpdedupGlobals.missingRet]
  by_cases json : g.wantJsonOutput
  · obtain ⟨keepV4, keepV6, mem', all, run⟩ := fprintIpTreeJsonDynarray_run blocks few mem
    refine ⟨keepV4, keepV6, mem', all, ?_⟩
    rw [mainRunPrintDynarray, mainRunPrint, if_neg closed, if_neg closed, if_pos json,
      if_pos json, Run.bind_apply, run]
    cases fprintIpTreeJson (obj.keep keepV4 keepV6).v4 (obj.keep keepV4 keepV6).v6 with
    | none => rfl
    | some text => simp [IpdedupGlobals.missingRet, json]
  · obtain ⟨keepV4, mem₁, all₁, runV4⟩ :=
      fprintIp4TreeDynarray_run blocks few mem g.wantReduxOutput
    obtain ⟨keepV6, mem₂, all₂, runV6⟩ := mainRunPrintIp6Dynarray_run blocks few mem₁ json
    refine ⟨keepV4, keepV6, mem₂, fun enough => ?_, ?_⟩
    · obtain ⟨keep₁, enough₁⟩ := all₁ enough
      obtain ⟨keep₂, enough₂⟩ := all₂ enough₁
      exact ⟨⟨keep₁, keep₂⟩, enough₂⟩
    · rw [mainRunPrint_texts closed json, mainRunPrintDynarray, if_neg closed, if_neg json,
        Run.bind_apply, runV4, Option.bind_some, Run.bind_apply, runV6]
      rfl

end Print

end Memory

end IpDedup
