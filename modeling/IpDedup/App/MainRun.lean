import IpDedup.App.FilesRun
import IpDedup.Print.Tree

/-!
# The program

`main_run` of `app/ip-dedup/main.c`: parse the input, collapse and invert the
trees, purge what a second builder read, and print. The first stage that fails
ends the run.

## Main definitions

* `System`, `IpdedupGlobals`: what a run asks the system for, and what it is asked to do
* `mainInterpretParseRet`: exit codes and messages for the return codes of the parser
* `mainRun`

## Main results

* `mainInnerParseInput_run`: the input stage reads the input files, or `stdin` if there are none
* `mainRunInvert_inserted`: collapsing and inverting never fail
-/

set_option autoImplicit false

namespace IpDedup

variable {w : UintFast32}

/-! ### Exit codes -/

/-- `EX_USAGE` -/
def exUsage : Int := 64

/-- `EX_DATAERR` -/
def exDataerr : Int := 65

/-- `EX_CANTCREAT` -/
def exCantcreat : Int := 73

/-- `EX_IOERR` -/
def exIoerr : Int := 74

/-- The exit code, and what is written to `stderr`. -/
def mainInterpretParseRet (parseRet : Int) : Int × List String :=
  if parseRet = ParseIpRet.success.code then (0, [])
  else if parseRet = ParseIpRet.badInfileDup.code then
    (exUsage, ["Error: will not read stdin twice.\n"])
  else if parseRet = ParseIpRet.badInfile.code then (exUsage, [])
  else if parseRet = ParseIpRet.readErr.code then (exIoerr, [])
  else if parseRet = ParseIpRet.fail.code then (exSoftware, [])
  else if parseRet = ParseIpRet.invalid.code then (exDataerr, [])
  else if parseRet = ParseIpRet.invalidNet.code then
    (exDataerr, ["Error: network address has host bits set.\n"])
  else (exSoftware, [])

/-! ### The stages -/

/-- What a run asks the system for: files to read, `stdin`, and whether an output file can be
opened. -/
structure System where
  fopen : List Char → Option InputStream
  stdin : InputStream
  openOutfile : List Char → Bool

/-- `struct ipdedup_globals`, as far as `main_run` reads it. `tree_v4` and `tree_v6` are shared
references to the trees of the builder. -/
structure IpdedupGlobals (w : UintFast32) where
  treeMode : ParseIpType
  treeBuilder : IpTreeBuildData w
  collapsePrefixlenV4 : Nat
  collapsePrefixlenV6 : Nat
  outfile : Option (List Char)
  infiles : Option (List (Option (List Char)))
  purgeInfiles : List (Option (List Char))
  wantInvert : Bool
  wantKeepGoing : Bool
  wantStrict : Bool
  wantLongOutput : Bool
  wantReduxOutput : Bool
  wantJsonOutput : Bool

/-- What a run leaves: its exit code, what it wrote, and the builders for the input and for the
networks to be purged. -/
structure MainOut (w : UintFast32) where
  ret : Int
  stderr : List String
  outstream : List Char
  treeBuilder : IpTreeBuildData w
  purgeBuilder : Option (IpTreeBuildData w)

/-- Set auto-collapse on the trees. -/
def mainRunSetAutoCollapse (g : IpdedupGlobals w) : IpTreeBuildData w :=
  { g.treeBuilder with
    v4 := g.treeBuilder.v4.map fun tree => ipTreeSetAutoCollapse tree g.collapsePrefixlenV4
    v6 := g.treeBuilder.v6.map fun tree => ipTreeSetAutoCollapse tree g.collapsePrefixlenV6 }

/-- `obj` is the builder; the return code of the parser is still to be interpreted. -/
def mainInnerParseInput (P : Platform) (sys : System) (g : IpdedupGlobals P.fast32)
    (obj : IpTreeBuildData P.fast32) (bufs : ParseBufs P.fast32) : Run (BuilderOut P.fast32) :=
  match g.infiles with
  | none =>
    ipTreeBuilderParseStreamDoInsert P obj (some sys.stdin) true g.wantKeepGoing g.wantStrict bufs
  | some infiles =>
    ipTreeBuilderParseFilesDoInsert P obj sys.fopen sys.stdin (some infiles) g.wantKeepGoing
      g.wantStrict bufs

/-- A tree that is there is collapsed. -/
def mainRunCollapseTree {α : Type} (tree? : Option (IpTree α)) : Option (IpTree α) :=
  tree?.map fun tree => (ipTreeCollapse tree).2

def mainRunCollapse (obj : IpTreeBuildData w) : IpTreeBuildData w :=
  { obj with v4 := mainRunCollapseTree obj.v4, v6 := mainRunCollapseTree obj.v6 }

/-- A tree that is there is inverted. -/
def mainRunInvertTree {α : Type} (tree? : Option (IpTree α)) : Run (Int × Option (IpTree α)) :=
  match tree? with
  | none => pure (0, none)
  | some tree => do
    let out ← ipTreeInvert tree
    pure (out.1, some out.2)

def mainRunInvert (wantInvert : Bool) (obj : IpTreeBuildData w) :
    Run (Int × IpTreeBuildData w) :=
  if wantInvert then do
    let out ← mainRunInvertTree obj.v4
    let obj := { obj with v4 := out.2 }
    if out.1 ≠ 0 then pure (exSoftware, obj)
    else
      let out ← mainRunInvertTree obj.v6
      let obj := { obj with v6 := out.2 }
      if out.1 ≠ 0 then pure (exSoftware, obj) else pure (0, obj)
  else pure (0, obj)

/-- Read the files with a builder of their own, and leave it. -/
def mainParseDedupToTree (P : Platform) (fopen : List Char → Option InputStream)
    (stdin : InputStream) (g : IpdedupGlobals P.fast32) (infiles : List (Option (List Char)))
    (bufs : ParseBufs P.fast32) : Run (Int × Option (IpTreeBuildData P.fast32)) := do
  let treeBuilder ← ipTreeBuilderNew g.treeMode
  match treeBuilder with
  | none => pure (-1, none)
  | some treeBuilder =>
    let out ← ipTreeBuilderParseFilesDoInsert P treeBuilder fopen stdin (some infiles)
      g.wantKeepGoing g.wantStrict bufs
    pure (out.ret, some out.obj)

/-- The part of `ip_tree_builder_purge` for one family; where there are networks to be purged,
there must be a tree. -/
def ipTreeBuilderPurgeTree {α : Type} (tree? purgeTree? : Option (IpTree α)) :
    Run (Int × Option (IpTree α)) :=
  match purgeTree? with
  | none => pure (0, tree?)
  | some purgeTree => do
    let tree ← tree?
    let out ← ipTreeBuilderPurge tree (ipTreeCollectAddr purgeTree)
    pure (out.1, some out.2)

def ipTreeBuilderPurgeBoth (obj : IpTreeBuildData w) (purgeTreeV4 : Option (IpTree (Ip4Addr w)))
    (purgeTreeV6 : Option (IpTree Ip6Addr)) : Run (Int × IpTreeBuildData w) := do
  let out ← ipTreeBuilderPurgeTree obj.v4 purgeTreeV4
  let obj := { obj with v4 := out.2 }
  if out.1 ≠ 0 then pure (-1, obj)
  else
    let out ← ipTreeBuilderPurgeTree obj.v6 purgeTreeV6
    let obj := { obj with v6 := out.2 }
    if out.1 ≠ 0 then pure (-1, obj) else pure (0, obj)

/-- What is printed, unless the output file cannot be opened. -/
def mainRunPrint (sys : System) (g : IpdedupGlobals w) (obj : IpTreeBuildData w) :
    Option (Int × List Char) :=
  if g.outfile.any fun outfile => !sys.openOutfile outfile then some (exCantcreat, [])
  else if g.wantJsonOutput then do
    let text ← fprintIpTreeJson obj.v4 obj.v6
    pure (0, text)
  else
    let textV4 := obj.v4.elim [] fun tree => fprintIp4Tree tree g.wantReduxOutput
    match obj.v6 with
    | none => some (0, textV4)
    | some tree =>
      if g.wantLongOutput then some (0, textV4 ++ fprintIp6Tree tree g.wantReduxOutput)
      else
        let out := fprintIp6TreeCompact tree g.wantReduxOutput
        some (if out.1 ≠ 0 then exSoftware else 0, textV4 ++ out.2)

/-! ### The run -/

/-- What a run does once the files to be purged were read. -/
def mainRunPurgeParsed (sys : System) (g : IpdedupGlobals w) (obj : IpTreeBuildData w)
    (purge : Int × Option (IpTreeBuildData w)) : Run (MainOut w) := do
  let status := mainInterpretParseRet purge.1
  if status.1 ≠ 0 then
    pure ⟨status.1, status.2 ++ ["Error: failed to parse purge input\n"], [], obj, purge.2⟩
  else
    let purgeBuilder ← purge.2
    let purged ← ipTreeBuilderPurgeBoth obj purgeBuilder.v4 purgeBuilder.v6
    if purged.1 ≠ 0 then
      pure ⟨exSoftware, ["Error: failed to purge networks\n"], [], purged.2, purge.2⟩
    else
      let printed ← mainRunPrint sys g purged.2
      pure ⟨printed.1, [], printed.2, purged.2, purge.2⟩

def mainRun (P : Platform) (sys : System) (g : IpdedupGlobals P.fast32)
    (bufs : ParseBufs P.fast32) : Run (MainOut P.fast32) := do
  let parsed ← mainInnerParseInput P sys g (mainRunSetAutoCollapse g) bufs
  let status := mainInterpretParseRet parsed.ret
  if status.1 ≠ 0 then
    pure ⟨status.1, status.2 ++ ["Error: failed to parse input\n"], [], parsed.obj, none⟩
  else
    let inverted ← mainRunInvert g.wantInvert (mainRunCollapse parsed.obj)
    if inverted.1 ≠ 0 then pure ⟨inverted.1, [], [], inverted.2, none⟩
    else if g.purgeInfiles.length < 1 then
      -- nothing to purge
      let printed ← mainRunPrint sys g inverted.2
      pure ⟨printed.1, [], printed.2, inverted.2, none⟩
    else
      -- what the input files left of `stdin` is what the files to be purged find
      let stdin ← parsed.stream
      let purge ← mainParseDedupToTree P sys.fopen stdin g g.purgeInfiles parsed.bufs
      mainRunPurgeParsed sys g inverted.2 purge

/-! ### The input stage -/

section Input

variable {P : Platform} {sys : System} {g : IpdedupGlobals P.fast32}
  {f : ParseIpAddrFunc P.fast32} {obj : IpTreeBuildData P.fast32} (bufs : ParseBufs P.fast32)

/-- The input files; if there are none, `stdin` is the input. -/
def IpdedupGlobals.inputNames (g : IpdedupGlobals w) : List (Option (List Char)) :=
  g.infiles.getD [stdinName]

theorem mainInnerParseInput_eq (mem : Mallocs) :
    mainInnerParseInput P sys g obj bufs mem =
      ipTreeBuilderParseFilesDoInsert P obj sys.fopen sys.stdin (some g.inputNames)
        g.wantKeepGoing g.wantStrict bufs mem := by
  rw [mainInnerParseInput, IpdedupGlobals.inputNames]
  cases g.infiles with
  | some infiles => rfl
  | none =>
    -- a list that names only `stdin` is read in one round
    change _ = Option.bind _ some
    exact (Option.bind_fun_some _).symm

/-- The input stage reads the input files, or `stdin` if there are none. -/
theorem mainInnerParseInput_run
    (parser : parseIpFileParser P obj.treeMode g.wantStrict = some f) (usable : obj.Usable) :
    ∃ out, mainInnerParseInput P sys g obj bufs Mallocs.all = some (out, Mallocs.all) ∧
      FilesRun f (FileRead f g.wantKeepGoing sys.fopen sys.stdin) sys.stdin g.inputNames obj
        out := by
  rw [mainInnerParseInput_eq]
  exact ipTreeBuilderParseFilesDoInsert_run bufs parser usable _ _ _ _

end Input

/-! ### The trees -/

section Trees

open IpFamily

variable {n : Nat} {found : Bool}

theorem insertDepth_width_pos (family : IpFamily) (n : Nat) : 0 < insertDepth n family.width :=
  insertDepth_pos n family.width_pos

/-- A tree without networks, if there is a tree. -/
def startTree (family : IpFamily) (n : Nat) (found : Bool) : Option (IpTree family.Addr) :=
  if found then some (family.tree n (.empty (insertDepth_width_pos family n))) else none

/-- Collapsing and inverting do not fail on a tree that networks were inserted into. -/
theorem mainRunInvertTree_inserted (family : IpFamily) {nets : List family.Addr}
    {tree? : Option (IpTree family.Addr)}
    (short : ∀ net ∈ nets, family.prefixlen net ≤ family.width)
    (inserted : InsertedInto nets (startTree family n found) tree?) :
    ∃ tree?', mainRunInvertTree (mainRunCollapseTree tree?) Mallocs.all =
      some ((0, tree?'), Mallocs.all) := by
  cases found with
  | false =>
    cases tree? with
    | none => exact ⟨none, rfl⟩
    | some tree => cases inserted
  | true =>
    cases tree? with
    | none => cases inserted
    | some tree =>
      -- the insertions determine the tree, and collapsing makes it invertible
      have all := ipTreeInsertAll_all (n := n) rfl short
        (.empty (insertDepth_width_pos family n))
      obtain rfl : family.tree n (Subnets.insertAll
          (.empty (insertDepth_width_pos family n)) (nets.map family.lawful.key)) = tree :=
        congrArg (fun out => out.1.2) (Option.some.inj (all.symm.trans inserted))
      have inverted := ipTreeInvert_all (n := n) (insertDepth_le n family.width) _
        (invertibleBelow_inputSubnets n nets)
      rw [inputSubnets] at inverted
      refine ⟨some (family.tree n (inputSubnets family n nets).invert), ?_⟩
      simp only [mainRunCollapseTree, Option.map_some, ipTreeCollapse_tree, mainRunInvertTree,
        Run.bind_apply, inverted, Option.bind_some, Run.pure_apply, inputSubnets]

end Trees

section Invert

variable {P : Platform} {g : IpdedupGlobals P.fast32} {f : ParseIpAddrFunc P.fast32}
  {obj : IpTreeBuildData P.fast32}

/-- Auto-collapse is set on the trees of a new builder. -/
theorem mainRunSetAutoCollapse_new (made : g.treeBuilder = .empty g.treeMode) :
    mainRunSetAutoCollapse g =
      ⟨startTree (.v4 P.fast32) g.collapsePrefixlenV4 g.treeMode.ipv4,
        startTree .v6 g.collapsePrefixlenV6 g.treeMode.ipv6, g.treeMode, false⟩ := by
  rw [mainRunSetAutoCollapse, made, IpTreeBuildData.empty]
  cases g.treeMode.ipv4 <;> cases g.treeMode.ipv6 <;> rfl

/-- The builder is usable whatever auto-collapse is set to. -/
theorem mainRunSetAutoCollapse_usable (made : g.treeBuilder = .empty g.treeMode) :
    (mainRunSetAutoCollapse g).Usable := by
  rw [mainRunSetAutoCollapse_new made]
  constructor
  · intro ipv4
    exact ⟨g.collapsePrefixlenV4, _, by simp [Subnets.empty], if_pos ipv4⟩
  · intro ipv6
    exact ⟨g.collapsePrefixlenV6, _, by simp [Subnets.empty], if_pos ipv6⟩

/-- After the input was read, collapsing and inverting never fail. -/
theorem mainRunInvert_inserted {mode : ParseIpType} (sound : f.Sound mode)
    (made : g.treeBuilder = .empty g.treeMode)
    (built : BuiltFrom f (mainRunSetAutoCollapse g) obj) (wantInvert : Bool) :
    ∃ obj', mainRunInvert wantInvert (mainRunCollapse obj) Mallocs.all =
        some ((0, obj'), Mallocs.all) ∧ obj'.didReadStdin = obj.didReadStdin := by
  obtain ⟨lines, inserted⟩ := built.inserted
  rw [mainRunSetAutoCollapse_new made] at inserted
  have shortV4 : ∀ net ∈ lines.flatMap f.netsV4, net.prefixlen ≤ ip4MaxPrefixlen := by
    intro net mem
    obtain ⟨line, -, own⟩ := List.mem_flatMap.mp mem
    exact (sound.shortV4 line net own).2
  have shortV6 : ∀ net ∈ lines.flatMap f.netsV6, net.prefixlen ≤ ip6MaxPrefixlen := by
    intro net mem
    obtain ⟨line, -, own⟩ := List.mem_flatMap.mp mem
    exact (sound.shortV6 line net own).2
  cases wantInvert with
  | false => exact ⟨_, rfl, rfl⟩
  | true =>
    -- both trees were built by insertions, and these can be inverted
    obtain ⟨tree4, run4⟩ :=
      mainRunInvertTree_inserted (.v4 P.fast32) shortV4 inserted.v4
    obtain ⟨tree6, run6⟩ := mainRunInvertTree_inserted .v6 shortV6 inserted.v6
    refine ⟨{ obj with v4 := tree4, v6 := tree6 }, ?_, rfl⟩
    simp only [mainRunInvert, mainRunCollapse, reduceIte, Run.bind_apply, run4, Option.bind_some,
      ne_eq, not_true_eq_false, run6, Run.pure_apply]

end Invert

end IpDedup
