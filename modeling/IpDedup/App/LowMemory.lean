import IpDedup.App.Size

/-!
# Runs with little memory

A run that runs out of memory before it prints anything ends with `EX_SOFTWARE`.
While it prints, it can only lose all networks of a family. Otherwise it does
what it does with enough memory.

## Main definitions

* `LowMemory`: what a run may end with that has too little memory

## Main results

* `mainRunDynarray_tries`: what a run does whatever allocations fail
* `mainRunDynarray_prints`: what it prints
-/

set_option autoImplicit false

namespace IpDedup

open ParseIpAddrFunc

/-! ### Reading -/

section Reading

variable {α : Type} {tdesc : IpTreeTypedesc α} {laws : tdesc.Lawful} {tree? : Option (IpTree α)}
  {w : UintFast32} {obj : IpTreeBuildData w}

/-- Inserting the network that was found, if there is one. -/
theorem ipTreeInsertInto_tries {found : Bool} {addr : α}
    (rooted : found = true → laws.Rooted tree?)
    (short : found = true → tdesc.fGetAddrPrefixlen addr ≤ tdesc.maxPrefixlen) :
    ∃ tree?', Tries (if found then ipTreeInsertInto tree? addr else pure (0, tree?)) (0, tree?')
      fun out => out.1 = -1 := by
  cases found with
  | false => exact ⟨tree?, .pure _ _⟩
  | true =>
    obtain ⟨n, s, root, rfl⟩ := rooted rfl
    have ends := ipTreeInsert_label laws [] n (short rfl) (Nat.zero_le _) root
    refine ⟨some (laws.tree [] n (BitTrie.insert (insertLevels n tdesc [] addr)
      (laws.keyFrom [] addr) s)), ?_⟩
    rw [if_pos rfl]
    change Tries (ipTreeInsert _ addr >>= fun out => pure (out.1, some out.2)) _ _
    exact (ends.tries trivial).wrap fun out bad => bad

/-- Inserting the networks of a record. -/
theorem ipTreeBuilderProcessParsedInsert_tries (usable : obj.Usable) (vaddr : ParseIpAddrData w)
    (shortV4 : ∀ net ∈ vaddr.netsV4,
      obj.treeMode.ipv4 = true ∧ net.prefixlen ≤ ip4MaxPrefixlen)
    (shortV6 : ∀ net ∈ vaddr.netsV6,
      obj.treeMode.ipv6 = true ∧ net.prefixlen ≤ ip6MaxPrefixlen) :
    ∃ obj', Tries (ipTreeBuilderProcessParsedInsert obj vaddr) (0, obj') fun out => out.1 = -1 := by
  have ipv4 (found : vaddr.addrType.ipv4 = true) := shortV4 vaddr.addrV4
    (by simp [ParseIpAddrData.netsV4, found])
  have ipv6 (found : vaddr.addrType.ipv6 = true) := shortV6 vaddr.addrV6
    (by simp [ParseIpAddrData.netsV6, found])
  obtain ⟨tree4, tries4⟩ := ipTreeInsertInto_tries
    (fun found => usable.v4 (ipv4 found).1) (fun found => (ipv4 found).2)
  obtain ⟨tree6, tries6⟩ := ipTreeInsertInto_tries
    (fun found => usable.v6 (ipv6 found).1) (fun found => (ipv6 found).2)
  refine ⟨{ obj with v4 := tree4, v6 := tree6 }, ?_⟩
  rw [ipTreeBuilderProcessParsedInsert]
  refine tries4.check (by decide) (tries6.check (by decide) (.pure _ _) ?_) ?_
  · exact fun _ _ => rfl
  · exact fun _ _ => rfl

/-- Reading a stream fails with this code when it runs out of memory. -/
def BuilderOut.Fails (out : BuilderOut w) : Prop := out.ret = -1

variable {f : ParseIpAddrFunc w} {mode : ParseIpType} {keepGoing : Bool}
  {pfileState : ParseIpFileState w} {lines : List (List Char)} {status : KeepGoingStatus}
  {left : InputStream}

/-- Reading the lines of a stream. -/
theorem ipTreeBuilderParseStreamDoLoop_tries (sound : f.Sound mode) (bufs : ParseBufs w)
    (reads : pfileState.Reads keepGoing f lines status left) (usable : obj.Usable)
    (same : obj.treeMode = mode) :
    ∃ out, Tries (ipTreeBuilderParseStreamDoLoop ipTreeBuilderProcessParsedInsert obj pfileState
      bufs) out BuilderOut.Fails := by
  induction lines generalizing obj pfileState bufs status with
  | nil =>
    obtain ⟨last, next, -, -⟩ := parseIpFileNext_end bufs reads
    rw [ipTreeBuilderParseStreamDoLoop, next]
    cases left.broken <;> exact ⟨_, .pure _ _⟩
  | cons line lines ih =>
    by_cases valid : f.Valid line
    · obtain ⟨ret, next, netsV4, netsV6⟩ := parseIpFileNext_valid bufs sound reads valid
      have shortV4 := sound.shortV4 line
      have shortV6 := sound.shortV6 line
      rw [← netsV4, ← same] at shortV4
      rw [← netsV6, ← same] at shortV6
      obtain ⟨obj', run, inserted, usable', -⟩ := ipTreeBuilderProcessParsedInsert_usable usable
        (parseIpFileNext pfileState bufs).2.1.addr shortV4 shortV6
      obtain ⟨obj'', tries⟩ := ipTreeBuilderProcessParsedInsert_tries usable
        (parseIpFileNext pfileState bufs).2.1.addr shortV4 shortV6
      obtain rfl : obj' = obj'' := congrArg Prod.snd (tries.unique run)
      obtain ⟨out, others⟩ := ih (parseIpFileNext pfileState bufs).2.2 next usable'
        (inserted.treeMode.trans same)
      refine ⟨out, ?_⟩
      rw [ipTreeBuilderParseStreamDoLoop, dif_pos ret]
      refine tries.bind others ?_
      -- a network that cannot be inserted ends the stream
      intro out bad mem
      rw [if_pos (by rw [bad]; decide)]
      exact ⟨_, mem, rfl, bad⟩
    · by_cases skips : keepGoing = true ∧
          ((f.fresh line).ret = .invalid ∨ (f.fresh line).ret = .invalidNet)
      · -- the line is skipped, and the round is that of the next line
        obtain ⟨rfl, invalid⟩ := skips
        obtain ⟨next, bufs', round, reads'⟩ := parseIpFileNext_skip bufs sound reads invalid
        rw [ipTreeBuilderParseStreamDoLoop_congr _ obj round]
        exact ih bufs' reads' usable same
      · -- the line ends the stream, and nothing is inserted
        have stops :=
          parseIpFileNext_stop bufs sound reads valid fun going bad => skips ⟨going, bad⟩
        rw [ipTreeBuilderParseStreamDoLoop, dif_neg (by rwa [stops])]
        split_ifs <;> exact ⟨_, .pure _ _⟩

end Reading

section Files

variable {P : Platform} {f : ParseIpAddrFunc P.fast32} {strictNetaddr : Bool}
  {obj : IpTreeBuildData P.fast32}

/-- Reading a stream. -/
theorem ipTreeBuilderParseStreamDo_tries
    (parser : parseIpFileParser P obj.treeMode strictNetaddr = some f) (usable : obj.Usable)
    (stream : InputStream) (isStdin keepGoing : Bool) (bufs : ParseBufs P.fast32) :
    ∃ out, Tries (ipTreeBuilderParseStreamDo P ipTreeBuilderProcessParsedInsert obj (some stream)
      isStdin keepGoing strictNetaddr bufs) out BuilderOut.Fails := by
  rw [ipTreeBuilderParseStreamDo]
  by_cases refused : isStdin ∧ obj.didReadStdin
  · rw [if_pos refused]
    exact ⟨_, .pure _ _⟩
  · rw [if_neg refused]
    obtain ⟨pfileState, init, reads⟩ := parseIpFileInitStream_reads parser keepGoing stream
    rw [init]
    refine ipTreeBuilderParseStreamDoLoop_tries (parseIpFileParser_sound parser) bufs reads ?_ ?_
    · cases isStdin <;> exact ⟨usable.v4, usable.v6⟩
    · cases isStdin <;> rfl

/-- Reading a file. -/
theorem ipTreeBuilderParseFile_tries (fopen : List Char → Option InputStream) (keepGoing : Bool)
    {out : BuilderOut P.fast32} {stdin : InputStream} (same : out.stream = some stdin)
    (parser : parseIpFileParser P out.obj.treeMode strictNetaddr = some f)
    (usable : out.obj.Usable) (name : Option (List Char)) :
    ∃ out', Tries (ipTreeBuilderParseFile P ipTreeBuilderProcessParsedInsert fopen keepGoing
      strictNetaddr name out) out' BuilderOut.Fails := by
  unfold ipTreeBuilderParseFile
  cases name with
  | none => exact ⟨_, .pure _ _⟩
  | some name =>
    dsimp only
    split_ifs
    · exact ⟨_, .pure _ _⟩
    · rw [same]
      exact ipTreeBuilderParseStreamDo_tries parser usable _ _ _ _
    · cases fopen name with
      | none => exact ⟨_, .pure _ _⟩
      | some stream =>
        obtain ⟨file, tries⟩ := ipTreeBuilderParseStreamDo_tries parser usable stream false
          keepGoing out.bufs
        exact ⟨_, tries.wrap fun file bad => bad⟩

/-- Reading files, up to the first one that fails. -/
theorem ipTreeBuilderParseFilesDoLoop_tries
    (parser : parseIpFileParser P obj.treeMode strictNetaddr = some f) (usable : obj.Usable)
    (fopen : List Char → Option InputStream) (keepGoing : Bool)
    (names : List (Option (List Char))) (stdin : InputStream) (bufs : ParseBufs P.fast32) :
    ∃ out, Tries (ipTreeBuilderParseFilesDoLoop P ipTreeBuilderProcessParsedInsert fopen keepGoing
      strictNetaddr names ⟨ParseIpRet.success.code, obj, some stdin, bufs⟩) out
      BuilderOut.Fails := by
  induction names generalizing obj stdin bufs with
  | nil => exact ⟨_, .pure _ _⟩
  | cons name names ih =>
    rw [ipTreeBuilderParseFilesDoLoop, if_neg (not_not_intro rfl)]
    obtain ⟨out, tries⟩ := ipTreeBuilderParseFile_tries fopen keepGoing
      (show (⟨ParseIpRet.success.code, obj, some stdin, bufs⟩ : BuilderOut P.fast32).stream = _
        from rfl) parser usable name
    -- a file that runs out of memory is the last one
    suffices goOn : ∃ out', Tries (ipTreeBuilderParseFilesDoLoop P ipTreeBuilderProcessParsedInsert
        fopen keepGoing strictNetaddr names out) out' BuilderOut.Fails by
      obtain ⟨out', others⟩ := goOn
      refine ⟨out', tries.bind others ?_⟩
      intro out bad mem
      rw [ipTreeBuilderParseFilesDoLoop_stop _ _ (by rw [bad]; decide)]
      exact ⟨out, mem, rfl, bad⟩
    by_cases again : name = stdinName ∧ obj.didReadStdin = true
    · -- so is a second `stdin`
      obtain ⟨rfl, didRead⟩ := again
      obtain rfl := tries.unique (congrFun (ipTreeBuilderParseFile_refused _ didRead) _)
      rw [ipTreeBuilderParseFilesDoLoop_stop _ _ (by simp)]
      exact ⟨_, .pure _ _⟩
    · obtain ⟨out', run, ret, -, next⟩ := ipTreeBuilderParseFile_run keepGoing fopen
        ⟨ParseIpRet.success.code, obj, some stdin, bufs⟩ rfl parser usable again
      obtain rfl := tries.unique run
      by_cases good : FileRead f keepGoing fopen stdin name
      · obtain ⟨left, built⟩ := next good
        have success : out'.ret = ParseIpRet.success.code := ret.trans (congrArg _ good)
        have others := @ih out'.obj (by rw [built.treeMode]; exact parser) built.usable
          (stdinAfter [name] stdin) out'.bufs
        rwa [← success, ← left] at others
      · have bad : out'.ret ≠ ParseIpRet.success.code := by
          rw [ret]
          exact fun same => good (ParseIpRet.code_inj.mp same)
        rw [ipTreeBuilderParseFilesDoLoop_stop _ _ bad]
        exact ⟨_, .pure _ _⟩

end Files

/-! ### New builders -/

section New

theorem newNode_tries {α : Type} (node : IpTreeNode α) :
    Tries (newNode node) node fun out => out = .null := by
  refine malloc_tries.bind (.pure _ _) ?_
  rintro _ rfl mem
  exact ⟨.null, mem, rfl, rfl⟩

/-- A new tree, or none for want of memory. -/
theorem ipTreeNew_tries (family : IpFamily) :
    Tries (ipTreeNew family.typedesc) (some (family.tree 0 (.empty family.width_pos)))
      fun out => out = none := by
  rw [ipTreeNew, family.lawful.newNull]
  refine malloc_tries.bind ((newNode_tries _).bind (.pure _ _) ?_) ?_
  all_goals
    rintro _ rfl mem
    exact ⟨none, mem, rfl, rfl⟩

/-- A new builder, or none for want of memory. -/
theorem ipTreeBuilderNew_tries {w : UintFast32} {mode : ParseIpType}
    (valid : parseIpCheckTypeValid mode = true) :
    Tries (ipTreeBuilderNew mode) (some (IpTreeBuildData.empty (w := w) mode))
      fun out => out = none := by
  have new : Tries (ipTreeBuildDataNewEmpty (w := w)) (some ⟨none, none, .none, false⟩)
      fun out => out = none := by
    refine malloc_tries.bind (.pure _ _) ?_
    rintro _ rfl mem
    exact ⟨none, mem, rfl, rfl⟩
  have v4 (obj : IpTreeBuildData w) : Tries (ipTreeBuildDataInitV4 obj)
      (0, { obj with v4 := some ((IpFamily.v4 w).tree 0 (.empty (IpFamily.v4 w).width_pos)) })
      fun out => out.1 = -1 := by
    refine (ipTreeNew_tries (.v4 w)).bind (.pure _ _) ?_
    rintro _ rfl mem
    exact ⟨_, mem, rfl, rfl⟩
  have v6 (obj : IpTreeBuildData w) : Tries (ipTreeBuildDataInitV6 obj)
      (0, { obj with v6 := some (IpFamily.v6.tree 0 (.empty IpFamily.v6.width_pos)) })
      fun out => out.1 = -1 := by
    refine (ipTreeNew_tries .v6).bind (.pure _ _) ?_
    rintro _ rfl mem
    exact ⟨_, mem, rfl, rfl⟩
  -- a mode that does not ask for a family makes no tree for it
  have optional {init : Run (Int × IpTreeBuildData w)} {obj obj' : IpTreeBuildData w}
      (tries : Tries init (0, obj') fun out => out.1 = -1) (found : Bool) :
      Tries (if found then init else pure (0, obj)) (0, if found then obj' else obj)
        fun out => out.1 = -1 := by
    cases found with
    | false => exact .pure _ _
    | true => exact tries
  rw [ipTreeBuilderNew, valid, if_neg (by decide)]
  refine new.bind ((optional (v4 _) mode.ipv4).check (by decide) ((optional (v6 _) mode.ipv6).check
    (by decide) ?_ fun _ _ => rfl) fun _ _ => rfl) ?_
  · rw [IpTreeBuildData.empty]
    cases mode.ipv4 <;> cases mode.ipv6 <;> exact .pure _ _
  · rintro _ rfl mem
    exact ⟨none, mem, rfl, rfl⟩

end New

/-! ### Trees -/

section Trees

open IpFamily BitTrie

variable (family : IpFamily) {n : Nat} {found : Bool} {inputs purges : List family.Addr}
  {purgeTree? : Option (IpTree family.Addr)}

theorem mainRunInvertTree_tries (n : Nat) (found : Bool) (inputs : List family.Addr) :
    Tries (mainRunInvertTree (keptTree family n found false inputs))
      (0, keptTree family n found true inputs) fun out => out.1 = -1 := by
  cases found with
  | false => exact .pure _ _
  | true =>
    let S := inputSubnets family n inputs
    have room : ([] : NodePath).length + insertDepth n family.width ≤ family.width := by
      simpa using insertDepth_le n family.width
    have ends := ipTreeInvert_label family.lawful [] n S.root S.leafy S.fits room
    change Tries (ipTreeInvert (family.tree n S) >>= fun out => pure (out.1, some out.2)) _ _
    exact (ends.tries (invertibleBelow_inputSubnets n inputs)).wrap fun out bad => bad

variable {family}

theorem ipTreeBuilderPurge_tries {addrs : List family.Addr}
    (short : ∀ addr ∈ addrs, family.prefixlen addr ≤ family.width) (S : Subnets family.width) :
    Tries (ipTreeBuilderPurge (family.tree n S) addrs)
      (0, family.tree n (S.removeAll (addrs.map family.lawful.key))) fun out => out.1 = -1 := by
  induction addrs generalizing S with
  | nil => exact .pure _ _
  | cons addr addrs ih =>
    obtain ⟨first, others⟩ := List.forall_mem_cons.mp short
    have ends := ipTreePurge_label family.lawful [] n first (Nat.zero_le _) S.root S.leafy
    rw [keyFrom_nil, ← take_key first] at ends
    refine (ends.tries trivial).bind (ih others (S.remove (family.lawful.key addr))) ?_
    rintro ⟨_, out⟩ rfl mem
    exact ⟨_, mem, rfl, rfl⟩

/-- The collected networks are processed, or the run fails for want of memory. -/
theorem withCollected_tries {α β : Type} (block : Dynarray α) {tree : IpTree α}
    (few : (ipTreeCollectAddr tree).length < 2 ^ 60) {process : List α → Run β}
    {missing done : β} {failed : β → Prop}
    (tries : Tries (process (ipTreeCollectAddr tree)) done failed) (bad : failed missing) :
    Tries (withCollected block tree (pure missing) process) done failed := by
  refine ⟨(withCollected_all block few _ _).trans tries.1, fun mem => ?_⟩
  obtain ⟨mem₁, -, run | ⟨-, run⟩⟩ := withCollected_run block few (pure missing) process mem
  · obtain ⟨out, mem₂, own, outcome⟩ := tries.2 mem₁
    exact ⟨out, mem₂, run.trans own, outcome⟩
  · exact ⟨missing, mem₁, run, Or.inr bad⟩

variable (family)

/-- Purging the networks of a second tree. -/
theorem ipTreeBuilderPurgeTreeDynarray_tries (block : Dynarray family.Addr) (n : Nat)
    (wantInvert : Bool) (inputs : List family.Addr)
    (short : ∀ addr ∈ purges, family.prefixlen addr ≤ family.width)
    (inserted : InsertedInto purges (startTree family 0 found) purgeTree?)
    (few : ∀ tree ∈ purgeTree?, (ipTreeCollectAddr tree).length < 2 ^ 60) :
    Tries (ipTreeBuilderPurgeTreeDynarray block (keptTree family n found wantInvert inputs)
        purgeTree?)
      (0, stageTree family n found wantInvert inputs purges) fun out => out.1 = -1 := by
  have own := insertedInto_startTree family short inserted
  cases found with
  | false =>
    obtain rfl := own
    exact .pure _ _
  | true =>
    obtain rfl := own
    let S := (keptSubnets family n wantInvert inputs).deepen (insertDepth_le n family.width)
    have tries := ipTreeBuilderPurge_tries (n := n)
      (prefixlen_collect 0 (purgeSubnets family purges)) S
    rw [key_collect] at tries
    refine withCollected_tries block (few _ rfl) ?_ rfl
    change Tries (ipTreeBuilderPurge (family.tree n S) _ >>= fun out => pure (out.1, some out.2))
      _ _
    exact tries.wrap fun out bad => bad

end Trees

/-! ### The run -/

section Run

variable {P : Platform} {sys : System} {g : IpdedupGlobals P.fast32} {f : ParseIpAddrFunc P.fast32}
  {mode : ParseIpType} {lines purgeLines : List (List Char)}
  {obj purgeBuilder : IpTreeBuildData P.fast32}

/-- Collapsing and inverting. -/
theorem mainRunInvert_tries (sound : f.Sound mode) (made : g.treeBuilder = .empty g.treeMode)
    (inserted : Inserted (lines.flatMap f.netsV4) (lines.flatMap f.netsV6)
      (mainRunSetAutoCollapse g) obj) :
    ∃ obj', Tries (mainRunInvert g.wantInvert (mainRunCollapse obj)) (0, obj')
        (fun out => out.1 = exSoftware) ∧ Kept f g lines obj' := by
  obtain ⟨obj', run, kept⟩ := mainRunInvert_kept sound made inserted
  refine ⟨obj', ?_, kept⟩
  rw [mainRunSetAutoCollapse_new made] at inserted
  have collapsed4 := mainRunCollapseTree_kept (.v4 P.fast32) (short_netsV4 sound lines) inserted.v4
  have collapsed6 := mainRunCollapseTree_kept .v6 (short_netsV6 sound lines) inserted.v6
  -- the run with enough memory tells which trees these are
  suffices tries : ∃ obj', Tries (mainRunInvert g.wantInvert (mainRunCollapse obj)) (0, obj')
      fun out => out.1 = exSoftware by
    obtain ⟨obj'', tries⟩ := tries
    rwa [tries.unique run]
  rw [mainRunCollapse, collapsed4, collapsed6]
  unfold mainRunInvert
  split_ifs
  · have tries4 := mainRunInvertTree_tries (.v4 P.fast32) g.collapsePrefixlenV4 g.treeMode.ipv4
      (lines.flatMap f.netsV4)
    have tries6 := mainRunInvertTree_tries .v6 g.collapsePrefixlenV6 g.treeMode.ipv6
      (lines.flatMap f.netsV6)
    exact ⟨_, tries4.check (by decide) (tries6.check (by decide) (.pure _ _) fun _ _ => rfl)
      fun _ _ => rfl⟩
  · exact ⟨_, .pure _ _⟩

/-- Purging the networks of the second builder. -/
theorem ipTreeBuilderPurgeBothDynarray_tries (blocks : Blocks P.fast32) (sound : f.Sound mode)
    (kept : Kept f g lines obj)
    (inserted : Inserted (purgeLines.flatMap f.netsV4) (purgeLines.flatMap f.netsV6)
      (.empty g.treeMode) purgeBuilder) (few : purgeBuilder.Few) :
    ∃ obj', Tries (ipTreeBuilderPurgeBothDynarray blocks obj purgeBuilder.v4 purgeBuilder.v6)
        (0, obj') (fun out => out.1 = -1) ∧
      ipTreeBuilderPurgeBoth obj purgeBuilder.v4 purgeBuilder.v6 Mallocs.all =
        some ((0, obj'), Mallocs.all) := by
  have tries4 := ipTreeBuilderPurgeTreeDynarray_tries (.v4 P.fast32) blocks.v4
    g.collapsePrefixlenV4 g.wantInvert (lines.flatMap f.netsV4) (short_netsV4 sound purgeLines)
    inserted.v4 few.v4
  have tries6 := ipTreeBuilderPurgeTreeDynarray_tries .v6 blocks.v6 g.collapsePrefixlenV6
    g.wantInvert (lines.flatMap f.netsV6) (short_netsV6 sound purgeLines) inserted.v6 few.v6
  have run4 := ipTreeBuilderPurgeTree_stage (.v4 P.fast32) g.collapsePrefixlenV4 g.wantInvert
    (lines.flatMap f.netsV4) (short_netsV4 sound purgeLines) inserted.v4
  have run6 := ipTreeBuilderPurgeTree_stage .v6 g.collapsePrefixlenV6 g.wantInvert
    (lines.flatMap f.netsV6) (short_netsV6 sound purgeLines) inserted.v6
  rw [← kept.v4] at tries4 run4
  rw [← kept.v6] at tries6 run6
  refine ⟨_, tries4.check (by decide) (tries6.check (by decide) (.pure _ _) fun _ _ => rfl)
    fun _ _ => rfl, ?_⟩
  · simp only [ipTreeBuilderPurgeBoth, Run.bind_apply, run4, run6, Option.bind_some, ne_eq,
      not_true_eq_false, reduceIte, Run.pure_apply]

/-- Reading the files to be purged. -/
theorem mainParseDedupToTree_tries (parser : parseIpFileParser P g.treeMode g.wantStrict = some f)
    (stdin : InputStream) (bufs : ParseBufs P.fast32) :
    ∃ out : BuilderOut P.fast32,
      Tries (mainParseDedupToTree P sys.fopen stdin g g.purgeInfiles bufs) (out.ret, some out.obj)
        (fun out => out.1 = -1) ∧
      FilesRun f (FileRead f g.wantKeepGoing sys.fopen stdin) stdin g.purgeInfiles
          (.empty g.treeMode) out := by
  have valid := parseIpFileParser_valid parser
  obtain ⟨out, run, after⟩ := mainParseDedupToTree_run bufs parser valid sys.fopen stdin
  refine ⟨out, ?_, after⟩
  obtain ⟨out', tries⟩ := ipTreeBuilderParseFilesDoLoop_tries parser
    (IpTreeBuildData.empty_usable g.treeMode) sys.fopen g.wantKeepGoing g.purgeInfiles stdin bufs
  have whole : Tries (mainParseDedupToTree P sys.fopen stdin g g.purgeInfiles bufs)
      (out'.ret, some out'.obj) fun out => out.1 = -1 := by
    refine (ipTreeBuilderNew_tries valid).bind (tries.wrap fun out bad => bad) ?_
    rintro _ rfl mem
    exact ⟨_, mem, rfl, rfl⟩
  rwa [whole.unique run]

/-- What a run may end with that has too little memory: it gives up before it prints, or it prints
without the networks of a family. `full` is what it ends with otherwise. -/
def LowMemory (sys : System) (g : IpdedupGlobals P.fast32) (full out : MainOut P.fast32) : Prop :=
  (out.ret = exSoftware ∧ out.outstream = []) ∨
    ∃ keepV4 keepV6 ret,
      mainRunPrint sys g (full.treeBuilder.keep keepV4 keepV6) = some (ret, out.outstream) ∧
        out.ret = g.missingRet keepV6 ret

/-- A run that ends with something that may be undefined. -/
theorem Run.eq_some_of_lift_bind_pure {α β : Type} {value : Option α} {next : α → β} {out : β}
    {mem mem' : Mallocs}
    (run : ((liftM value : Run α) >>= fun a => pure (next a)) mem = some (out, mem')) :
    ∃ a, value = some a ∧ next a = out := by
  cases value with
  | none => cases run
  | some a => exact ⟨a, rfl, congrArg Prod.fst (Option.some.inj run)⟩

/-- If all networks can be printed, so can those of one family. -/
theorem mainRunPrint_keep {printed : Int × List Char}
    (print : mainRunPrint sys g obj = some printed) (keepV4 keepV6 : Bool) :
    (mainRunPrint sys g (obj.keep keepV4 keepV6)).isSome := by
  by_cases closed : g.outfile.any fun outfile => !sys.openOutfile outfile
  · rw [mainRunPrint, if_pos closed]
    rfl
  by_cases json : g.wantJsonOutput
  · rw [mainRunPrint, if_neg closed, if_pos json] at print ⊢
    obtain ⟨text, lists, -⟩ := Option.bind_eq_some_iff.mp print
    rw [fprintIpTreeJson_eq] at lists
    obtain ⟨textV4, listV4, lists⟩ := Option.bind_eq_some_iff.mp lists
    obtain ⟨textV6, listV6, -⟩ := Option.bind_eq_some_iff.mp lists
    rw [fprintIpTreeJson_eq]
    cases keepV4 <;> cases keepV6 <;> simp [IpTreeBuildData.keep, listV4, listV6]
  · rw [mainRunPrint_texts closed json]
    rfl

/-- Printing at the end of a run. -/
theorem mainRunPrintDynarray_tries (blocks : Blocks P.fast32) (few : obj.Few)
    {printed : Int × List Char} (print : mainRunPrint sys g obj = some printed)
    (purgeBuilder? : Option (IpTreeBuildData P.fast32)) :
    Tries (do
        let printed ← mainRunPrintDynarray blocks sys g obj
        pure ⟨printed.1, [], printed.2, obj, purgeBuilder?⟩)
      ⟨printed.1, [], printed.2, obj, purgeBuilder?⟩
      (LowMemory sys g ⟨printed.1, [], printed.2, obj, purgeBuilder?⟩) := by
  constructor
  · obtain ⟨keepV4, keepV6, mem', all, run⟩ :=
      mainRunPrintDynarray_run blocks few Mallocs.all sys g
    obtain ⟨⟨rfl, rfl⟩, rfl⟩ := all rfl
    have whole : obj.keep true true = obj := rfl
    rw [Run.bind_apply, run, whole, print]
    simp [IpdedupGlobals.missingRet]
  · intro mem
    obtain ⟨keepV4, keepV6, mem', -, run⟩ := mainRunPrintDynarray_run blocks few mem sys g
    obtain ⟨out, kept⟩ := Option.isSome_iff_exists.mp (mainRunPrint_keep print keepV4 keepV6)
    rw [Run.bind_apply, run, kept]
    exact ⟨_, mem', rfl, Or.inr (Or.inr ⟨keepV4, keepV6, out.1, kept, rfl⟩)⟩

/-- Giving up. -/
theorem LowMemory.giveUp {full out : MainOut P.fast32} (ret : out.ret = exSoftware)
    (nothing : out.outstream = []) : LowMemory sys g full out :=
  Or.inl ⟨ret, nothing⟩

theorem mainRunPurgeParsedDynarray_tries (blocks : Blocks P.fast32) (sound : f.Sound mode)
    (kept : Kept f g lines obj) {out : BuilderOut P.fast32}
    (built : out.ret = ParseIpRet.success.code → BuiltFrom f (.empty g.treeMode) out.obj)
    {full : MainOut P.fast32}
    (run : mainRunPurgeParsed sys g obj (out.ret, some out.obj) Mallocs.all =
      some (full, Mallocs.all))
    (few : out.ret = ParseIpRet.success.code → full.treeBuilder.Few)
    (fewPurges : out.ret = ParseIpRet.success.code → out.obj.Few) :
    Tries (mainRunPurgeParsedDynarray blocks sys g obj (out.ret, some out.obj)) full
      (LowMemory sys g full) := by
  by_cases failed : (mainInterpretParseRet out.ret).1 ≠ 0
  · -- the files to be purged cannot be read, which takes no memory
    rw [mainRunPurgeParsed, if_pos failed] at run
    rw [mainRunPurgeParsedDynarray, if_pos failed]
    obtain rfl := congrArg Prod.fst (Option.some.inj run)
    exact .pure _ _
  · rw [mainRunPurgeParsed, if_neg failed] at run
    rw [mainRunPurgeParsedDynarray, if_neg failed]
    rw [not_not, mainInterpretParseRet_eq_zero] at failed
    obtain ⟨purgeLines, inserted⟩ := (built failed).inserted
    obtain ⟨obj', tries, purged⟩ :=
      ipTreeBuilderPurgeBothDynarray_tries blocks sound kept inserted (fewPurges failed)
    rw [Run.lift_some_bind, Run.bind_apply, purged, Option.bind_some,
      if_neg (not_not_intro rfl)] at run
    obtain ⟨printed, print, rfl⟩ := Run.eq_some_of_lift_bind_pure run
    rw [Run.lift_some_bind]
    exact tries.check (by decide) (mainRunPrintDynarray_tries blocks (few failed) print _)
      fun _ _ => .giveUp rfl rfl

/-- Whatever allocations fail, a run does what it does with enough memory, or gives up with
`EX_SOFTWARE` before it prints, or prints without the networks of a family. -/
theorem mainRunDynarray_tries (blocks : Blocks P.fast32)
    (made : g.treeBuilder = .empty g.treeMode)
    (parser : parseIpFileParser P g.treeMode g.wantStrict = some f) {bufs : ParseBufs P.fast32}
    {full : MainOut P.fast32}
    (run : mainRun P sys g bufs Mallocs.all = some (full, Mallocs.all))
    (fewLines : g.FewLines sys) :
    Tries (mainRunDynarray P blocks sys g bufs) full (LowMemory sys g full) := by
  have small (reads : g.Reads sys f) := few_of_reads made parser reads fewLines run
  have start := mainRunSetAutoCollapse_new made
  have reader : parseIpFileParser P (mainRunSetAutoCollapse g).treeMode g.wantStrict = some f := by
    rw [start]
    exact parser
  have usable := mainRunSetAutoCollapse_usable made
  have sound := parseIpFileParser_sound parser
  have code : (mainInterpretParseRet (-1)).1 = exSoftware := by decide
  obtain ⟨parsed, read, filesRun⟩ := @mainInnerParseInput_run P sys g f _ bufs reader usable
  obtain ⟨parsed', tries⟩ := ipTreeBuilderParseFilesDoLoop_tries reader usable sys.fopen
    g.wantKeepGoing g.inputNames sys.stdin bufs
  replace tries : Tries (mainInnerParseInput P sys g (mainRunSetAutoCollapse g) bufs) parsed'
      BuilderOut.Fails := by
    convert tries using 1
    exact funext (mainInnerParseInput_eq bufs)
  obtain rfl := tries.unique read
  rw [mainRun, Run.bind_apply, read, Option.bind_some] at run
  refine tries.bind ?_ ?_
  · by_cases failed : (mainInterpretParseRet parsed.ret).1 ≠ 0
    · rw [if_pos failed] at run ⊢
      obtain rfl := congrArg Prod.fst (Option.some.inj run)
      exact .pure _ _
    · rw [if_neg failed] at run ⊢
      rw [not_not, mainInterpretParseRet_eq_zero] at failed
      obtain ⟨inputs, inputsOnce⟩ := filesRun.success.mp failed
      rw [show (mainRunSetAutoCollapse g).didReadStdin = false by rw [start]] at inputsOnce
      obtain ⟨lines, inserted⟩ := (filesRun.built failed).inserted
      obtain ⟨obj, inverting, kept⟩ := mainRunInvert_tries sound made inserted
      rw [Run.bind_apply, inverting.1, Option.bind_some, if_neg (not_not_intro rfl)] at run
      refine inverting.bind ?_ ?_
      · -- the trees are collapsed and inverted
        rw [if_neg (not_not_intro rfl)]
        by_cases nothing : g.purgeInfiles.length < 1
        · rw [if_pos nothing] at run ⊢
          obtain ⟨printed, print, rfl⟩ := Run.eq_some_of_lift_bind_pure run
          have empty := List.length_eq_zero_iff.mp (Nat.lt_one_iff.mp nothing)
          have reads : g.Reads sys f := by
            refine ⟨inputs, ?_, inputsOnce, ?_⟩ <;> rw [empty]
            · exact List.forall_mem_nil _
            · exact asksStdinAgain_nil
          exact mainRunPrintDynarray_tries blocks (small reads).1 print _
        · rw [if_neg nothing] at run ⊢
          rw [filesRun.left failed, Run.lift_some_bind] at run ⊢
          obtain ⟨out, purging, purges⟩ :=
            mainParseDedupToTree_tries parser (stdinAfter g.inputNames sys.stdin) parsed.bufs
          rw [Run.bind_apply, purging.1, Option.bind_some] at run
          have held := (mainRunPurgeParsed_builders run).2
          -- only what was read completely is small enough for arrays
          have reads (success : out.ret = ParseIpRet.success.code) : g.Reads sys f := by
            have read := purges.success.mp success
            rw [fileRead_after inputs] at read
            exact ⟨inputs, read.1, inputsOnce, read.2⟩
          refine purging.bind (mainRunPurgeParsedDynarray_tries blocks sound kept purges.built run
            (fun success => (small (reads success)).1)
            fun success => (small (reads success)).2 _ held) ?_
          rintro ⟨ret, out⟩ rfl mem
          exact ⟨_, mem, rfl, .giveUp code rfl⟩
      · intro out bad mem
        rw [if_pos (by rw [bad]; decide)]
        exact ⟨_, mem, rfl, .giveUp bad rfl⟩
  · intro out bad mem
    rw [if_pos (by rw [bad]; decide)]
    exact ⟨_, mem, rfl, .giveUp (by rw [bad]; exact code) rfl⟩

/-- What is printed of a family, if it is printed. -/
theorem printedIp6_staged (staged : Staged f g (g.inputLines sys) (g.purgeLines sys) obj)
    (sound : f.Sound g.treeMode) :
    g.printedIp6 obj.v6 = (0, if g.wantLongOutput then
      (g.netsV6 sys f).flatMap (if g.wantReduxOutput then fprintIp6AddrOrNet else fprintIp6Net)
      else (fprintIp6TreeCompactLoop g.wantReduxOutput (g.netsV6 sys f)).2) := by
  rw [IpdedupGlobals.printedIp6]
  by_cases long : g.wantLongOutput
  · rw [if_pos long, ← staged.elim_v6 sound (fun nets => nets.flatMap
      (if g.wantReduxOutput then fprintIp6AddrOrNet else fprintIp6Net)) rfl]
    cases obj.v6 with
    | none => rfl
    | some tree => exact if_pos long
  · rw [if_neg long, ← staged.elim_v6 sound
      (fun nets => (fprintIp6TreeCompactLoop g.wantReduxOutput nets).2) rfl]
    cases obj.v6 with
    | none => rfl
    | some tree =>
      rw [Option.elim_some, if_neg long]
      simp only [fprintIp6TreeCompact_ret, ne_eq, not_true_eq_false, reduceIte]
      rfl

/-- What is printed without the networks of a family. -/
theorem mainRunPrint_keep_plain (opens : g.Opens sys) (plain : g.wantJsonOutput = false)
    (sound : f.Sound g.treeMode) (staged : Staged f g (g.inputLines sys) (g.purgeLines sys) obj)
    (keepV4 keepV6 : Bool) :
    mainRunPrint sys g (obj.keep keepV4 keepV6) =
      some (0, g.printedNets (if keepV4 then g.netsV4 sys f else [])
        (if keepV6 then g.netsV6 sys f else [])) := by
  have textV4 := staged.elim_v4 sound (fun nets => nets.flatMap
    (if g.wantReduxOutput then fprintIp4AddrOrNet else fprintIp4Net)) rfl
  have textV6 := printedIp6_staged staged sound
  have printed4 : ((obj.keep keepV4 keepV6).v4.elim [] fun tree =>
      fprintIp4Tree tree g.wantReduxOutput) = (if keepV4 then g.netsV4 sys f else []).flatMap
        (if g.wantReduxOutput then fprintIp4AddrOrNet else fprintIp4Net) := by
    cases keepV4 with
    | false => rfl
    | true => exact textV4
  have printed6 : g.printedIp6 (obj.keep keepV4 keepV6).v6 = (0, if g.wantLongOutput then
      (if keepV6 then g.netsV6 sys f else []).flatMap
        (if g.wantReduxOutput then fprintIp6AddrOrNet else fprintIp6Net)
      else (fprintIp6TreeCompactLoop g.wantReduxOutput
        (if keepV6 then g.netsV6 sys f else [])).2) := by
    cases keepV6 with
    | false => cases long : g.wantLongOutput <;> rfl
    | true => exact textV6
  rw [mainRunPrint_texts (opens_iff.mp opens) (by rw [plain]; decide), printed4, printed6,
    IpdedupGlobals.printedNets]

/-- A run that could print what is left of its input with enough memory either gives up before it
prints, or prints all networks of a family or none of them. Missing IPv4 networks are not reported,
and missing IPv6 networks are not in the long form. -/
theorem mainRunDynarray_prints (prints : g.Prints sys f) {bufs : ParseBufs P.fast32}
    (fewLines : g.FewLines sys) (blocks : Blocks P.fast32) (mem : Mallocs) :
    ∃ out mem', mainRunDynarray P blocks sys g bufs mem = some (out, mem') ∧
      ((mem ≠ Mallocs.all ∧ out.ret = exSoftware ∧ out.outstream = []) ∨
        ∃ keepV4 keepV6 : Bool,
          (mem = Mallocs.all → keepV4 = true ∧ keepV6 = true) ∧
          out.ret = (if g.wantLongOutput || keepV6 then 0 else exSoftware) ∧
          out.outstream = g.printedNets (if keepV4 then g.netsV4 sys f else [])
            (if keepV6 then g.netsV6 sys f else [])) := by
  have made := treeBuilder_eq_empty prints.made prints.parser
  have sound := parseIpFileParser_sound prints.parser
  obtain ⟨obj, purgeBuilder, staged, -, run⟩ :=
    mainRun_staged made prints.parser prints.reads bufs
  rw [mainRunPrint_plain prints.opens prints.plain sound staged, Option.map_some] at run
  have tries := mainRunDynarray_tries blocks made prints.parser run fewLines
  by_cases enough : mem = Mallocs.all
  · -- both families are printed then
    rw [enough]
    exact ⟨_, _, tries.1, Or.inr ⟨true, true, fun _ => ⟨rfl, rfl⟩, by simp, rfl⟩⟩
  obtain ⟨out, mem', own, outcome⟩ := tries.2 mem
  refine ⟨out, mem', own, ?_⟩
  rcases outcome with rfl | ⟨ret, silent⟩ | ⟨keepV4, keepV6, ret, print, code⟩
  · exact Or.inr ⟨true, true, fun _ => ⟨rfl, rfl⟩, by simp, rfl⟩
  · exact Or.inl ⟨enough, ret, silent⟩
  · rw [mainRunPrint_keep_plain prints.opens prints.plain sound staged] at print
    obtain ⟨rfl, text⟩ := Prod.mk.inj (Option.some.inj print)
    refine Or.inr ⟨keepV4, keepV6, fun all => absurd all enough, ?_, text.symm⟩
    rw [code, IpdedupGlobals.missingRet, prints.plain, Bool.false_or]

/-- Two halves of a network, read with memory for a few allocations. -/
theorem mainRunDynarray_prints_halves :
    let P : Platform := ⟨.bits64, fun x _ => x, fun x _ => x⟩
    let f : ParseIpAddrFunc P.fast32 := parseIp4AddrCombined
    let sys : System := ⟨fun _ => none, ⟨["10.128.0.0/9\n".toList, "10.0.0.0/9\n".toList], false⟩,
      fun _ => true⟩
    let g : IpdedupGlobals P.fast32 := ⟨.onlyIpv4, .empty .onlyIpv4, 0, 0, none, none, [],
      false, false, false, false, false, false⟩
    let blocks : Blocks P.fast32 := ⟨⟨none, 0, 0, none⟩, ⟨none, 0, 0, none⟩⟩
    let mem : Mallocs := fun n => decide (n < 12)
    ∃ out mem', mainRunDynarray P blocks sys g .zero mem = some (out, mem') ∧
      ((mem ≠ Mallocs.all ∧ out.ret = exSoftware ∧ out.outstream = []) ∨
        ∃ keepV4 keepV6 : Bool,
          (mem = Mallocs.all → keepV4 = true ∧ keepV6 = true) ∧
          out.ret = (if g.wantLongOutput || keepV6 then 0 else exSoftware) ∧
          out.outstream = g.printedNets (if keepV4 then g.netsV4 sys f else [])
            (if keepV6 then g.netsV6 sys f else [])) := by
  intro P f sys g blocks mem
  have inputs : ∀ name ∈ g.inputNames, FileRead f g.wantKeepGoing sys.fopen sys.stdin name := by
    unfold FileRead
    decide +kernel
  have once : ¬ AsksStdinTwice (FileRead f g.wantKeepGoing sys.fopen sys.stdin) g.inputNames :=
    not_asksStdinTwice_single _ _
  have prints : g.Prints sys f :=
    ⟨ipTreeBuilderNew_all rfl, rfl, ⟨inputs, by simp [g], once, asksStdinAgain_nil⟩,
      by simp [g, IpdedupGlobals.Opens], rfl⟩
  have fewLines : g.FewLines sys := by
    unfold IpdedupGlobals.FewLines
    decide +kernel
  exact mainRunDynarray_prints prints fewLines blocks mem

end Run

end IpDedup
