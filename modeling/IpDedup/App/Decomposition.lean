import IpDedup.App.InputLines
import IpDedup.App.StdinOnce

/-!
# What a run prints

A run that can read all its files prints the networks of the canonical
decomposition of a set of addresses, for each family. The set is the union of
the input, or its complement, minus what is to be purged.

## Main definitions

* `IpdedupGlobals.Reads`: all files can be read
* `IpdedupGlobals.resultV4`, `IpdedupGlobals.resultV6`: the addresses that are left
* `IpdedupGlobals.printedNets`: networks as they are printed without JSON

## Main results

* `mainRun_decomposes`: a run prints the canonical decompositions of these sets
* `mainRun_outstream_eq`: nothing else about the input has an effect on the output
-/

set_option autoImplicit false

namespace IpDedup

open IpFamily

/-! ### The tree of a family -/

section Trees

variable (family : IpFamily) (n : Nat) (found wantInvert : Bool) (inputs purges : List family.Addr)

/-- The collapsed input, inverted on request. -/
def keptSubnets : Subnets (insertDepth n family.width) :=
  if wantInvert then (inputSubnets family n inputs).invert else inputSubnets family n inputs

/-- The tree before the purge, if there is a tree. -/
def keptTree : Option (IpTree family.Addr) :=
  if found then some (family.tree n (keptSubnets family n wantInvert inputs)) else none

/-- The tree that is printed, if there is a tree. -/
def stageTree : Option (IpTree family.Addr) :=
  if found then some (family.tree n (stageSubnets family n wantInvert inputs purges)) else none

/-- The networks that are printed. -/
def stageNets : List family.Addr :=
  ipTreeCollectAddr (family.tree n (stageSubnets family n wantInvert inputs purges))

variable {n found wantInvert inputs purges} {tree? purgeTree? : Option (IpTree family.Addr)}

/-- The inserted networks determine the tree. -/
theorem insertedInto_startTree (short : ∀ addr ∈ inputs, family.prefixlen addr ≤ family.width)
    (inserted : InsertedInto inputs (startTree family n found) tree?) :
    tree? = if found then some (family.tree n (Subnets.insertAll
      (.empty (insertDepth_width_pos family n)) (inputs.map family.lawful.key))) else none := by
  cases found with
  | false =>
    cases tree? with
    | none => rfl
    | some tree => cases inserted
  | true =>
    cases tree? with
    | none => cases inserted
    | some tree =>
      have all := ipTreeInsertAll_all (n := n) rfl short (.empty (insertDepth_width_pos family n))
      exact congrArg (fun out => some out.1.2) (Option.some.inj (inserted.symm.trans all))

theorem mainRunCollapseTree_kept (short : ∀ addr ∈ inputs, family.prefixlen addr ≤ family.width)
    (inserted : InsertedInto inputs (startTree family n found) tree?) :
    mainRunCollapseTree tree? = keptTree family n found false inputs := by
  rw [insertedInto_startTree family short inserted, keptTree]
  cases found with
  | false => rfl
  | true => exact congrArg some (congrArg Prod.snd (ipTreeCollapse_tree n _))

theorem mainRunInvertTree_kept (n : Nat) (found : Bool) (inputs : List family.Addr) :
    mainRunInvertTree (keptTree family n found false inputs) Mallocs.all =
      some ((0, keptTree family n found true inputs), Mallocs.all) := by
  cases found with
  | false => rfl
  | true =>
    have inverted := ipTreeInvert_all (n := n) (insertDepth_le n family.width) _
      (invertibleBelow_inputSubnets n inputs)
    rw [keptTree, if_pos rfl, mainRunInvertTree, Run.bind_apply]
    change (ipTreeInvert (family.tree n (inputSubnets family n inputs)) Mallocs.all).bind _ = _
    rw [inverted]
    rfl

/-- Purging the networks of a second tree. -/
theorem ipTreeBuilderPurgeTree_stage (n : Nat) (wantInvert : Bool) (inputs : List family.Addr)
    (short : ∀ addr ∈ purges, family.prefixlen addr ≤ family.width)
    (inserted : InsertedInto purges (startTree family 0 found) purgeTree?) :
    ipTreeBuilderPurgeTree (keptTree family n found wantInvert inputs) purgeTree? Mallocs.all =
      some ((0, stageTree family n found wantInvert inputs purges), Mallocs.all) := by
  rw [insertedInto_startTree family short inserted]
  cases found with
  | false => rfl
  | true =>
    have purged := ipTreeBuilderPurge_collect (n := n)
      ((keptSubnets family n wantInvert inputs).deepen (insertDepth_le n family.width))
      (purgeSubnets family purges) 0
    have run : ipTreeBuilderPurgeTree (keptTree family n true wantInvert inputs)
        (some (family.tree 0 (purgeSubnets family purges))) Mallocs.all =
        some ((0, stageTree family n true wantInvert inputs purges), Mallocs.all) := by
      rw [ipTreeBuilderPurgeTree, keptTree, if_pos rfl, Run.lift_some_bind, Run.bind_apply]
      exact congrArg (Option.bind · _) purged
    exact run

variable {family}

/-- Without networks to be purged, the tree stays as it is. -/
theorem stageTree_nil :
    stageTree family n found wantInvert inputs [] = keptTree family n found wantInvert inputs := rfl

/-- The networks that are printed are the canonical decomposition of what is kept and not purged. -/
theorem canonical_stageNets : family.Canonical (stageNets family n wantInvert inputs purges) :=
  canonical_collect n (noHotSiblings_stageSubnets wantInvert inputs purges)

theorem covered_stageNets (shortInputs : ∀ addr ∈ inputs, family.prefixlen addr ≤ family.width)
    (shortPurges : ∀ addr ∈ purges, family.prefixlen addr ≤ family.width) :
    family.covered (stageNets family n wantInvert inputs purges) =
      keptSet family n wantInvert inputs \ family.covered purges := by
  ext x
  rw [stageNets, mem_covered_tree, covers_stageSubnets shortInputs shortPurges]

/-- What they cover determines the networks that are printed. -/
theorem stageNets_eq_of_covered_eq {m : Nat} {wantInvert' : Bool}
    {inputs' purges' : List family.Addr}
    (cover : family.covered (stageNets family n wantInvert inputs purges) =
      family.covered (stageNets family m wantInvert' inputs' purges')) :
    stageNets family n wantInvert inputs purges = stageNets family m wantInvert' inputs' purges' :=
  collect_eq_of_covered_eq (noHotSiblings_stageSubnets _ _ _) (noHotSiblings_stageSubnets _ _ _)
    cover

/-- Without networks, nothing is printed. -/
theorem stageNets_nil : stageNets family n wantInvert [] [] = [] := by
  have none : ∀ addr ∈ ([] : List family.Addr), family.prefixlen addr ≤ family.width := by simp
  have nothing : family.covered [] = family.covered (stageNets family n wantInvert [] []) := by
    rw [covered_stageNets none none, keptSet]
    ext x
    cases wantInvert <;> simp [covered, inputSet]
  -- a decomposition is not longer than any list with the same addresses
  have short := canonical_stageNets.minimal [] none nothing
  exact List.length_eq_zero_iff.mp (Nat.le_zero.mp short)

end Trees

/-! ### The run -/

section Run

variable {P : Platform} (sys : System) (g : IpdedupGlobals P.fast32) (f : ParseIpAddrFunc P.fast32)

/-- The lines of the input files. -/
def IpdedupGlobals.inputLines : List (List Char) :=
  IpDedup.inputLines sys.fopen sys.stdin g.inputNames

/-- The lines of the files to be purged, which find what the input files left of `stdin`. -/
def IpdedupGlobals.purgeLines : List (List Char) :=
  IpDedup.inputLines sys.fopen (stdinAfter g.inputNames sys.stdin) g.purgeInfiles

/-- All files can be read, and none of the two lists asks for `stdin` twice. -/
structure IpdedupGlobals.Reads : Prop where
  inputs : ∀ name ∈ g.inputNames, FileRead f g.wantKeepGoing sys.fopen sys.stdin name
  purges : ∀ name ∈ g.purgeInfiles, FileRead f g.wantKeepGoing sys.fopen sys.stdin name
  inputsOnce : ¬ AsksStdinTwice (FileRead f g.wantKeepGoing sys.fopen sys.stdin) g.inputNames
  purgesOnce : ¬ AsksStdinTwice (FileRead f g.wantKeepGoing sys.fopen sys.stdin) g.purgeInfiles

/-- One file is not asked for twice. -/
theorem not_asksStdinTwice_single (read : Option (List Char) → Prop) (name : Option (List Char)) :
    ¬ AsksStdinTwice read [name] := by
  rw [AsksStdinTwice, asksStdinAgain_cons]
  simp [asksStdinAgain_nil]

/-- The output goes to `stdout`, or to a file that can be opened. -/
def IpdedupGlobals.Opens : Prop := ∀ outfile ∈ g.outfile, sys.openOutfile outfile = true

/-- The IPv4 networks that a run prints. -/
def IpdedupGlobals.netsV4 : List (Ip4Addr P.fast32) :=
  stageNets (v4 P.fast32) g.collapsePrefixlenV4 g.wantInvert
    ((g.inputLines sys).flatMap f.netsV4) ((g.purgeLines sys).flatMap f.netsV4)

/-- The IPv6 networks that a run prints. -/
def IpdedupGlobals.netsV6 : List Ip6Addr :=
  stageNets v6 g.collapsePrefixlenV6 g.wantInvert
    ((g.inputLines sys).flatMap f.netsV6) ((g.purgeLines sys).flatMap f.netsV6)

/-- The IPv4 addresses that are left. -/
def IpdedupGlobals.resultV4 : Set (BitVec (v4 P.fast32).width) :=
  keptSet (v4 P.fast32) g.collapsePrefixlenV4 g.wantInvert ((g.inputLines sys).flatMap f.netsV4) \
    (v4 P.fast32).covered ((g.purgeLines sys).flatMap f.netsV4)

/-- The IPv6 addresses that are left. -/
def IpdedupGlobals.resultV6 : Set (BitVec v6.width) :=
  keptSet v6 g.collapsePrefixlenV6 g.wantInvert ((g.inputLines sys).flatMap f.netsV6) \
    v6.covered ((g.purgeLines sys).flatMap f.netsV6)

/-- Networks as they are printed without JSON, those of IPv4 first. -/
def IpdedupGlobals.printedNets {w : UintFast32} (g : IpdedupGlobals w)
    (netsV4 : List (Ip4Addr w)) (netsV6 : List Ip6Addr) : List Char :=
  netsV4.flatMap (if g.wantReduxOutput then fprintIp4AddrOrNet else fprintIp4Net) ++
    if g.wantLongOutput then
      netsV6.flatMap (if g.wantReduxOutput then fprintIp6AddrOrNet else fprintIp6Net)
    else (fprintIp6TreeCompactLoop g.wantReduxOutput netsV6).2

variable {sys g f} {mode : ParseIpType}

theorem short_netsV4 (sound : f.Sound mode) (lines : List (List Char)) :
    ∀ net ∈ lines.flatMap f.netsV4, net.prefixlen ≤ ip4MaxPrefixlen := by
  intro net mem
  obtain ⟨line, -, own⟩ := List.mem_flatMap.mp mem
  exact (sound.shortV4 line net own).2

theorem short_netsV6 (sound : f.Sound mode) (lines : List (List Char)) :
    ∀ net ∈ lines.flatMap f.netsV6, net.prefixlen ≤ ip6MaxPrefixlen := by
  intro net mem
  obtain ⟨line, -, own⟩ := List.mem_flatMap.mp mem
  exact (sound.shortV6 line net own).2

/-- Lines have networks of the families of the mode only. -/
theorem netsV4_other (sound : f.Sound mode) (other : mode.ipv4 = false)
    (lines : List (List Char)) : lines.flatMap f.netsV4 = [] := by
  rw [List.eq_nil_iff_forall_not_mem]
  intro net mem
  obtain ⟨line, -, own⟩ := List.mem_flatMap.mp mem
  rw [(sound.shortV4 line net own).1] at other
  cases other

theorem netsV6_other (sound : f.Sound mode) (other : mode.ipv6 = false)
    (lines : List (List Char)) : lines.flatMap f.netsV6 = [] := by
  rw [List.eq_nil_iff_forall_not_mem]
  intro net mem
  obtain ⟨line, -, own⟩ := List.mem_flatMap.mp mem
  rw [(sound.shortV6 line net own).1] at other
  cases other

/-- The builder has the trees before the purge. -/
structure Kept (f : ParseIpAddrFunc P.fast32) (g : IpdedupGlobals P.fast32)
    (lines : List (List Char)) (obj : IpTreeBuildData P.fast32) : Prop where
  v4 : obj.v4 = keptTree (v4 P.fast32) g.collapsePrefixlenV4 g.treeMode.ipv4 g.wantInvert
    (lines.flatMap f.netsV4)
  v6 : obj.v6 = keptTree v6 g.collapsePrefixlenV6 g.treeMode.ipv6 g.wantInvert
    (lines.flatMap f.netsV6)

/-- The builder has the trees that are printed. -/
structure Staged (f : ParseIpAddrFunc P.fast32) (g : IpdedupGlobals P.fast32)
    (lines purgeLines : List (List Char)) (obj : IpTreeBuildData P.fast32) : Prop where
  v4 : obj.v4 = stageTree (v4 P.fast32) g.collapsePrefixlenV4 g.treeMode.ipv4 g.wantInvert
    (lines.flatMap f.netsV4) (purgeLines.flatMap f.netsV4)
  v6 : obj.v6 = stageTree v6 g.collapsePrefixlenV6 g.treeMode.ipv6 g.wantInvert
    (lines.flatMap f.netsV6) (purgeLines.flatMap f.netsV6)

variable {lines purgeLines : List (List Char)} {obj purgeBuilder : IpTreeBuildData P.fast32}

/-- Collapsing and inverting the trees of the input. -/
theorem mainRunInvert_kept (sound : f.Sound mode) (made : g.treeBuilder = .empty g.treeMode)
    (inserted : Inserted (lines.flatMap f.netsV4) (lines.flatMap f.netsV6)
      (mainRunSetAutoCollapse g) obj) :
    ∃ obj', mainRunInvert g.wantInvert (mainRunCollapse obj) Mallocs.all =
      some ((0, obj'), Mallocs.all) ∧ Kept f g lines obj' := by
  rw [mainRunSetAutoCollapse_new made] at inserted
  have collapsed4 := mainRunCollapseTree_kept (v4 P.fast32) (short_netsV4 sound lines) inserted.v4
  have collapsed6 := mainRunCollapseTree_kept v6 (short_netsV6 sound lines) inserted.v6
  rw [mainRunCollapse, collapsed4, collapsed6]
  -- without `-i`, `main_run` skips `ip_tree_invert` and keeps both trees
  cases want : g.wantInvert with
  | false => exact ⟨_, rfl, by rw [want], by rw [want]⟩
  | true =>
    have run4 := mainRunInvertTree_kept (v4 P.fast32) g.collapsePrefixlenV4 g.treeMode.ipv4
      (lines.flatMap f.netsV4)
    have run6 := mainRunInvertTree_kept v6 g.collapsePrefixlenV6 g.treeMode.ipv6
      (lines.flatMap f.netsV6)
    simp only [mainRunInvert, reduceIte, Run.bind_apply, run4, run6, Option.bind_some,
      ne_eq, not_true_eq_false, Run.pure_apply]
    exact ⟨_, rfl, by rw [want], by rw [want]⟩

/-- Purging what the second builder holds. -/
theorem ipTreeBuilderPurgeBoth_staged (sound : f.Sound mode) (kept : Kept f g lines obj)
    (inserted : Inserted (purgeLines.flatMap f.netsV4) (purgeLines.flatMap f.netsV6)
      (.empty g.treeMode) purgeBuilder) :
    ∃ obj', ipTreeBuilderPurgeBoth obj purgeBuilder.v4 purgeBuilder.v6 Mallocs.all =
      some ((0, obj'), Mallocs.all) ∧ Staged f g lines purgeLines obj' := by
  have run4 := ipTreeBuilderPurgeTree_stage (v4 P.fast32) g.collapsePrefixlenV4 g.wantInvert
    (lines.flatMap f.netsV4) (short_netsV4 sound purgeLines) inserted.v4
  have run6 := ipTreeBuilderPurgeTree_stage v6 g.collapsePrefixlenV6 g.wantInvert
    (lines.flatMap f.netsV6) (short_netsV6 sound purgeLines) inserted.v6
  rw [← kept.v4] at run4
  rw [← kept.v6] at run6
  simp only [ipTreeBuilderPurgeBoth, Run.bind_apply, run4, run6, Option.bind_some,
    ne_eq, not_true_eq_false, reduceIte, Run.pure_apply]
  exact ⟨_, rfl, rfl, rfl⟩

/-- What a run does once it has collapsed and inverted its input. -/
def mainRunKept (P : Platform) (sys : System) (g : IpdedupGlobals P.fast32)
    (kept : IpTreeBuildData P.fast32) (bufs : ParseBufs P.fast32) : Run (MainOut P.fast32) :=
  if g.purgeInfiles.length < 1 then do
    let printed ← mainRunPrint sys g kept
    pure ⟨printed.1, [], printed.2, kept, none⟩
  else do
    let purge ← mainParseDedupToTree P sys.fopen (stdinAfter g.inputNames sys.stdin) g
      g.purgeInfiles bufs
    mainRunPurgeParsed sys g kept purge

/-- A run that can read its input goes on with the trees of the input. -/
theorem mainRun_kept (made : g.treeBuilder = .empty g.treeMode)
    (parser : parseIpFileParser P g.treeMode g.wantStrict = some f)
    (read : ∀ name ∈ g.inputNames, FileRead f g.wantKeepGoing sys.fopen sys.stdin name)
    (once : ¬ AsksStdinTwice (FileRead f g.wantKeepGoing sys.fopen sys.stdin) g.inputNames)
    (bufs : ParseBufs P.fast32) :
    ∃ (kept : IpTreeBuildData P.fast32) (bufs' : ParseBufs P.fast32),
      Kept f g (g.inputLines sys) kept ∧
        mainRun P sys g bufs Mallocs.all = mainRunKept P sys g kept bufs' Mallocs.all := by
  have start := mainRunSetAutoCollapse_new made
  have fresh : (mainRunSetAutoCollapse g).didReadStdin = false := by rw [start]
  obtain ⟨parsed, run, success, left, -, inserted⟩ := ipTreeBuilderParseFilesDoInsert_read bufs
    (by rw [start]; exact parser) (mainRunSetAutoCollapse_usable made) read
    (by rw [fresh]; exact once)
  obtain ⟨kept, inverted, isKept⟩ :=
    mainRunInvert_kept (parseIpFileParser_sound parser) made inserted
  refine ⟨kept, parsed.bufs, isKept, ?_⟩
  rw [mainRun, Run.bind_apply, mainInnerParseInput_eq, run, Option.bind_some, success,
    mainInterpretParseRet_eq_zero.mpr rfl, if_neg (not_not_intro rfl), Run.bind_apply, inverted,
    Option.bind_some, if_neg (not_not_intro rfl), left]
  rfl

/-- A run that can read all its files prints what is left in the trees, and holds the networks of
the files to be purged. -/
theorem mainRun_staged (made : g.treeBuilder = .empty g.treeMode)
    (parser : parseIpFileParser P g.treeMode g.wantStrict = some f) (reads : g.Reads sys f)
    (bufs : ParseBufs P.fast32) :
    ∃ (obj : IpTreeBuildData P.fast32) (purgeBuilder : Option (IpTreeBuildData P.fast32)),
      Staged f g (g.inputLines sys) (g.purgeLines sys) obj ∧
        (∀ purges ∈ purgeBuilder, Inserted ((g.purgeLines sys).flatMap f.netsV4)
          ((g.purgeLines sys).flatMap f.netsV6) (.empty g.treeMode) purges) ∧
        mainRun P sys g bufs Mallocs.all = (mainRunPrint sys g obj).map fun printed =>
          (⟨printed.1, [], printed.2, obj, purgeBuilder⟩, Mallocs.all) := by
  obtain ⟨kept, bufs', isKept, goOn⟩ := mainRun_kept made parser reads.inputs reads.inputsOnce bufs
  rw [goOn, mainRunKept]
  -- a second builder is only made if there are files to be purged
  by_cases nothing : g.purgeInfiles = []
  · refine ⟨kept, none, ⟨?_, ?_⟩, nofun, ?_⟩
    · rw [isKept.v4, IpdedupGlobals.purgeLines, nothing]
      exact stageTree_nil.symm
    · rw [isKept.v6, IpdedupGlobals.purgeLines, nothing]
      exact stageTree_nil.symm
    · rw [nothing, if_pos (by decide), Run.bind_apply, Run.lift_apply, Option.bind_map]
      exact (Option.map_eq_bind ..).symm
  · have some : ¬ g.purgeInfiles.length < 1 := by
      simpa [Nat.lt_one_iff] using nothing
    -- a `stdin` that was read to its end can be read again, and has no lines left
    have readOn : FileRead f g.wantKeepGoing sys.fopen (stdinAfter g.inputNames sys.stdin) =
        FileRead f g.wantKeepGoing sys.fopen sys.stdin := fileRead_after reads.inputs
    obtain ⟨purge, purgeRun, purgeSuccess, -, -, purged⟩ := ipTreeBuilderParseFilesDoInsert_read
      bufs' parser (IpTreeBuildData.empty_usable g.treeMode)
      (by rw [readOn]; exact reads.purges) (by rw [readOn]; exact reads.purgesOnce)
    obtain ⟨obj, purging, staged⟩ :=
      ipTreeBuilderPurgeBoth_staged (parseIpFileParser_sound parser) isKept purged
    refine ⟨obj, .some purge.obj, staged, ?_, ?_⟩
    · rintro _ ⟨⟩
      exact purged
    have new := ipTreeBuilderNew_all (w := P.fast32) (parseIpFileParser_valid parser)
    rw [if_neg some]
    simp only [mainParseDedupToTree, Run.bind_apply, new, Option.bind_some, purgeRun,
      Run.pure_apply, mainRunPurgeParsed, purgeSuccess, mainInterpretParseRet_eq_zero.mpr,
      ne_eq, not_true_eq_false, reduceIte, Run.lift_apply, Option.map_some, purging,
      Option.bind_map]
    exact (Option.map_eq_bind ..).symm

/-! ### What is printed -/

theorem Staged.elim_v4 {β : Type} (staged : Staged f g (g.inputLines sys) (g.purgeLines sys) obj)
    (sound : f.Sound g.treeMode) (text : List (Ip4Addr P.fast32) → List β) (nil : text [] = []) :
    (obj.v4.elim [] fun tree => text (ipTreeCollectAddr tree)) = text (g.netsV4 sys f) := by
  rw [staged.v4, stageTree, IpdedupGlobals.netsV4]
  cases found : g.treeMode.ipv4 with
  | true => rfl
  | false =>
    -- the mode has no tree for the family, and its parser returns no networks of it
    rw [netsV4_other sound found, netsV4_other sound found, stageNets_nil, nil]
    rfl

theorem Staged.elim_v6 {β : Type} (staged : Staged f g (g.inputLines sys) (g.purgeLines sys) obj)
    (sound : f.Sound g.treeMode) (text : List Ip6Addr → List β) (nil : text [] = []) :
    (obj.v6.elim [] fun tree => text (ipTreeCollectAddr tree)) = text (g.netsV6 sys f) := by
  rw [staged.v6, stageTree, IpdedupGlobals.netsV6]
  cases found : g.treeMode.ipv6 with
  | true => rfl
  | false =>
    rw [netsV6_other sound found, netsV6_other sound found, stageNets_nil, nil]
    rfl

theorem opens_iff :
    g.Opens sys ↔ ¬ (g.outfile.any fun outfile => !sys.openOutfile outfile) = true := by
  rw [IpdedupGlobals.Opens]
  cases g.outfile <;> simp

/-- Without JSON, printing does not fail once the output is open. -/
theorem mainRunPrint_plain (opens : g.Opens sys) (plain : g.wantJsonOutput = false)
    (sound : f.Sound g.treeMode)
    (staged : Staged f g (g.inputLines sys) (g.purgeLines sys) obj) :
    mainRunPrint sys g obj = some (0, g.printedNets (g.netsV4 sys f) (g.netsV6 sys f)) := by
  have textV4 := staged.elim_v4 sound (fun nets => nets.flatMap
    (if g.wantReduxOutput then fprintIp4AddrOrNet else fprintIp4Net)) rfl
  rw [mainRunPrint, if_neg (opens_iff.mp opens), plain, if_neg Bool.false_ne_true,
    IpdedupGlobals.printedNets, ← textV4]
  cases long : g.wantLongOutput with
  | true =>
    have textV6 := staged.elim_v6 sound (fun nets => nets.flatMap
      (if g.wantReduxOutput then fprintIp6AddrOrNet else fprintIp6Net)) rfl
    rw [if_pos rfl, ← textV6]
    cases obj.v6 with
    | none => exact congrArg (fun text => some ((0 : Int), text)) (List.append_nil _).symm
    | some tree => rfl
  | false =>
    have textV6 := staged.elim_v6 sound
      (fun nets => (fprintIp6TreeCompactLoop g.wantReduxOutput nets).2) rfl
    rw [if_neg Bool.false_ne_true, ← textV6]
    cases obj.v6 with
    | none => exact congrArg (fun text => some ((0 : Int), text)) (List.append_nil _).symm
    | some tree =>
      simp only [Bool.false_eq_true, reduceIte, fprintIp6TreeCompact_ret, ne_eq,
        not_true_eq_false]
      rfl

/-! ### Main results -/

/-- A run with a new builder that can read all its files and open its output, and writes no
JSON. -/
structure IpdedupGlobals.Prints (sys : System) (g : IpdedupGlobals P.fast32)
    (f : ParseIpAddrFunc P.fast32) : Prop where
  made : ipTreeBuilderNew g.treeMode Mallocs.all = some (some g.treeBuilder, Mallocs.all)
  parser : parseIpFileParser P g.treeMode g.wantStrict = some f
  reads : g.Reads sys f
  opens : g.Opens sys
  plain : g.wantJsonOutput = false

/-- The builder is a new one. -/
theorem treeBuilder_eq_empty
    (made : ipTreeBuilderNew g.treeMode Mallocs.all = some (some g.treeBuilder, Mallocs.all))
    (parser : parseIpFileParser P g.treeMode g.wantStrict = some f) :
    g.treeBuilder = .empty g.treeMode := by
  have own := ipTreeBuilderNew_all (w := P.fast32) (parseIpFileParser_valid parser)
  simpa using made.symm.trans own

theorem mainRun_prints (prints : g.Prints sys f) (bufs : ParseBufs P.fast32) :
    ∃ out, mainRun P sys g bufs Mallocs.all = some (out, Mallocs.all) ∧ out.ret = 0 ∧
      out.stderr = [] ∧ out.outstream = g.printedNets (g.netsV4 sys f) (g.netsV6 sys f) := by
  have made := treeBuilder_eq_empty prints.made prints.parser
  obtain ⟨obj, purgeBuilder, staged, -, run⟩ :=
    mainRun_staged made prints.parser prints.reads bufs
  rw [mainRunPrint_plain prints.opens prints.plain (parseIpFileParser_sound prints.parser) staged]
    at run
  exact ⟨_, run, rfl, rfl, rfl⟩

theorem covered_netsV4 (sound : f.Sound mode) :
    (v4 P.fast32).covered (g.netsV4 sys f) = g.resultV4 sys f :=
  covered_stageNets (short_netsV4 sound _) (short_netsV4 sound _)

theorem covered_netsV6 (sound : f.Sound mode) : v6.covered (g.netsV6 sys f) = g.resultV6 sys f :=
  covered_stageNets (short_netsV6 sound _) (short_netsV6 sound _)

/-- While allocation succeeds, a run that can read its files and open its output succeeds. For each
family, it prints the canonical decomposition of what is left of the input. -/
theorem mainRun_decomposes (prints : g.Prints sys f) (bufs : ParseBufs P.fast32) :
    ∃ (out : MainOut P.fast32) (netsV4 : List (Ip4Addr P.fast32)) (netsV6 : List Ip6Addr),
      mainRun P sys g bufs Mallocs.all = some (out, Mallocs.all) ∧ out.ret = 0 ∧
        out.stderr = [] ∧ out.outstream = g.printedNets netsV4 netsV6 ∧
        (v4 P.fast32).Canonical netsV4 ∧ (v4 P.fast32).covered netsV4 = g.resultV4 sys f ∧
        v6.Canonical netsV6 ∧ v6.covered netsV6 = g.resultV6 sys f := by
  have sound := parseIpFileParser_sound prints.parser
  obtain ⟨out, run, ret, stderr, outstream⟩ := mainRun_prints prints bufs
  exact ⟨out, g.netsV4 sys f, g.netsV6 sys f, run, ret, stderr, outstream,
    canonical_stageNets, covered_netsV4 sound, canonical_stageNets, covered_netsV6 sound⟩

/-- The two halves of a network, read from `stdin`, without a single address. -/
theorem mainRun_decomposes_halves :
    let P : Platform := ⟨.bits64, fun x _ => x, fun x _ => x⟩
    let f : ParseIpAddrFunc P.fast32 := parseIp4AddrCombined
    let sys : System := ⟨fun _ => some ⟨["10.0.0.1\n".toList], false⟩,
      ⟨["10.128.0.0/9\n".toList, "# private\n".toList, "10.0.0.0/9\n".toList], false⟩,
      fun _ => true⟩
    let g : IpdedupGlobals P.fast32 := ⟨.onlyIpv4, .empty .onlyIpv4, 0, 0, none, none,
      [some ['p']], false, false, false, false, false, false⟩
    ∃ (out : MainOut P.fast32) (netsV4 : List (Ip4Addr P.fast32)) (netsV6 : List Ip6Addr),
      mainRun P sys g .zero Mallocs.all = some (out, Mallocs.all) ∧ out.ret = 0 ∧
        out.stderr = [] ∧ out.outstream = g.printedNets netsV4 netsV6 ∧
        (v4 P.fast32).Canonical netsV4 ∧ (v4 P.fast32).covered netsV4 = g.resultV4 sys f ∧
        v6.Canonical netsV6 ∧ v6.covered netsV6 = g.resultV6 sys f := by
  intro P f sys g
  have inputs : ∀ name ∈ [stdinName], FileRead f g.wantKeepGoing sys.fopen sys.stdin name := by
    unfold FileRead
    decide +kernel
  have purges : ∀ name ∈ g.purgeInfiles,
      FileRead f g.wantKeepGoing sys.fopen sys.stdin name := by
    unfold FileRead
    decide +kernel
  have prints : g.Prints sys f := by
    refine ⟨ipTreeBuilderNew_all rfl, rfl, ⟨inputs, purges, not_asksStdinTwice_single _ _,
      not_asksStdinTwice_single _ _⟩, ?_, rfl⟩
    simp [g, IpdedupGlobals.Opens]
  exact mainRun_decomposes prints .zero

/-- Two such runs that leave the same addresses print the same, whatever files, lines and notation
these come from, and whatever modes and options led to them. -/
theorem mainRun_outstream_eq {sys' : System} {g' : IpdedupGlobals P.fast32}
    {f' : ParseIpAddrFunc P.fast32} (prints : g.Prints sys f) (prints' : g'.Prints sys' f')
    (long : g'.wantLongOutput = g.wantLongOutput) (redux : g'.wantReduxOutput = g.wantReduxOutput)
    (sameV4 : g'.resultV4 sys' f' = g.resultV4 sys f)
    (sameV6 : g'.resultV6 sys' f' = g.resultV6 sys f) (bufs bufs' : ParseBufs P.fast32) :
    (mainRun P sys' g' bufs' Mallocs.all).map (fun out => out.1.outstream) =
      (mainRun P sys g bufs Mallocs.all).map fun out => out.1.outstream := by
  have sound := parseIpFileParser_sound prints.parser
  have sound' := parseIpFileParser_sound prints'.parser
  obtain ⟨out, run, -, -, outstream⟩ := mainRun_prints prints bufs
  obtain ⟨out', run', -, -, outstream'⟩ := mainRun_prints prints' bufs'
  -- canonical decompositions of the same set are the same list
  have netsV4 : g'.netsV4 sys' f' = g.netsV4 sys f := by
    apply stageNets_eq_of_covered_eq
    exact (covered_netsV4 sound').trans (sameV4.trans (covered_netsV4 sound).symm)
  have netsV6 : g'.netsV6 sys' f' = g.netsV6 sys f := by
    apply stageNets_eq_of_covered_eq
    exact (covered_netsV6 sound').trans (sameV6.trans (covered_netsV6 sound).symm)
  rw [run, run', Option.map_some, Option.map_some, outstream, outstream', netsV4, netsV6,
    IpdedupGlobals.printedNets, IpdedupGlobals.printedNets, long, redux]

/-- A network, and its two halves in the other order and another notation. -/
theorem mainRun_outstream_eq_halves :
    let P : Platform := ⟨.bits64, fun x _ => x, fun x _ => x⟩
    let sys : System := ⟨fun _ => none, ⟨["10.0.0.0/8\n".toList], false⟩, fun _ => true⟩
    let sys' : System := ⟨fun _ => none,
      ⟨["10.128.0.0/9\n".toList, "10/9\n".toList], false⟩, fun _ => true⟩
    let g : IpdedupGlobals P.fast32 := ⟨.onlyIpv4, .empty .onlyIpv4, 0, 0, none, none, [],
      false, false, false, false, false, false⟩
    (mainRun P sys' g .zero Mallocs.all).map (fun out => out.1.outstream) =
      (mainRun P sys g .zero Mallocs.all).map fun out => out.1.outstream := by
  intro P sys sys' g
  let f : ParseIpAddrFunc P.fast32 := parseIp4AddrCombined
  have prints (sys : System)
      (inputs : ∀ name ∈ [stdinName], FileRead f g.wantKeepGoing sys.fopen sys.stdin name) :
      g.Prints sys f := by
    refine ⟨ipTreeBuilderNew_all rfl, rfl, ⟨inputs, by simp [g], not_asksStdinTwice_single _ _,
      asksStdinAgain_nil⟩, ?_, rfl⟩
    simp [g, IpdedupGlobals.Opens]
  have inputs : ∀ name ∈ [stdinName], FileRead f g.wantKeepGoing sys.fopen sys.stdin name := by
    unfold FileRead
    decide +kernel
  have inputs' : ∀ name ∈ [stdinName], FileRead f g.wantKeepGoing sys'.fopen sys'.stdin name := by
    unfold FileRead
    decide +kernel
  have netsV4 : g.netsV4 sys' f = g.netsV4 sys f := by
    decide +kernel
  have netsV6 : g.netsV6 sys' f = g.netsV6 sys f := by
    decide +kernel
  have sound : f.Sound .onlyIpv4 := parseIp4AddrCombined_sound
  refine mainRun_outstream_eq (prints sys inputs) (prints sys' inputs') rfl rfl ?_ ?_ .zero .zero
  · rw [← covered_netsV4 sound, netsV4, covered_netsV4 sound]
  · rw [← covered_netsV6 sound, netsV6, covered_netsV6 sound]

end Run

end IpDedup
