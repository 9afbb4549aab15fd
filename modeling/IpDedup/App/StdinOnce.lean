import IpDedup.App.MainRun

/-!
# Standard input is read once

A builder remembers that it read `stdin`, and refuses to read it again. But a
run reads the input files with one builder and the files to be purged with
another, which knows nothing of the first.

## Main definitions

* `MainOut.RefusesStdin`: the run ends with the usage error for a second request
* `MainOut.ReadsStdinOnce`: not both builders read `stdin`

## Main results

* `mainRun_refusesStdin_iff`: a second request is refused if and only if both requests come from
  the same list of files
-/

set_option autoImplicit false

namespace IpDedup

variable {w : UintFast32} {P : Platform}

/-- The run ends with the usage error for `PARSE_IP_RET_BAD_INFILE_DUP`. -/
def MainOut.RefusesStdin (out : MainOut w) : Prop :=
  out.ret = exUsage ∧ "Error: will not read stdin twice.\n" ∈ out.stderr

/-- At most one of the builders read `stdin`. -/
def MainOut.ReadsStdinOnce (out : MainOut w) : Prop :=
  ¬ (out.treeBuilder.didReadStdin = true ∧ ∃ obj ∈ out.purgeBuilder, obj.didReadStdin = true)

/-! ### Return codes -/

theorem mainInterpretParseRet_eq_zero {parseRet : Int} :
    (mainInterpretParseRet parseRet).1 = 0 ↔ parseRet = ParseIpRet.success.code := by
  unfold mainInterpretParseRet
  split_ifs <;> simp_all [exUsage, exDataerr, exIoerr, exSoftware]

theorem mainInterpretParseRet_badInfileDup :
    mainInterpretParseRet ParseIpRet.badInfileDup.code =
      (exUsage, ["Error: will not read stdin twice.\n"]) := rfl

/-! ### The stages of a run -/

section Stages

variable {sys : System} {g : IpdedupGlobals P.fast32} {f : ParseIpAddrFunc P.fast32}
  (bufs : ParseBufs P.fast32)

theorem ipTreeBuilderPurgeBoth_didReadStdin {obj : IpTreeBuildData w}
    {purgeTreeV4 : Option (IpTree (Ip4Addr w))} {purgeTreeV6 : Option (IpTree Ip6Addr)}
    {mem : Mallocs} {out : (Int × IpTreeBuildData w) × Mallocs}
    (run : ipTreeBuilderPurgeBoth obj purgeTreeV4 purgeTreeV6 mem = some out) :
    out.1.2.didReadStdin = obj.didReadStdin := by
  rw [ipTreeBuilderPurgeBoth, Run.bind_apply] at run
  obtain ⟨⟨purged4, mem4⟩, -, run⟩ := Option.bind_eq_some_iff.mp run
  dsimp only at run
  split_ifs at run
  · obtain rfl := Option.some.inj run
    rfl
  · rw [Run.bind_apply] at run
    obtain ⟨⟨purged6, mem6⟩, -, run⟩ := Option.bind_eq_some_iff.mp run
    dsimp only at run
    split_ifs at run <;> obtain rfl := Option.some.inj run <;> rfl

/-- Purging and printing do not read `stdin`. -/
theorem mainRunPurgeParsed_builders {sys : System} {g : IpdedupGlobals w} {obj : IpTreeBuildData w}
    {purge : Int × Option (IpTreeBuildData w)} {mem : Mallocs} {out : MainOut w × Mallocs}
    (run : mainRunPurgeParsed sys g obj purge mem = some out) :
    out.1.treeBuilder.didReadStdin = obj.didReadStdin ∧ out.1.purgeBuilder = purge.2 := by
  unfold mainRunPurgeParsed at run
  split_ifs at run with failed
  · obtain rfl := Option.some.inj run
    exact ⟨rfl, rfl⟩
  · rw [Run.bind_apply] at run
    obtain ⟨⟨purgeBuilder, mem₁⟩, -, run⟩ := Option.bind_eq_some_iff.mp run
    rw [Run.bind_apply] at run
    obtain ⟨purged, purging, run⟩ := Option.bind_eq_some_iff.mp run
    have kept := ipTreeBuilderPurgeBoth_didReadStdin purging
    split_ifs at run
    · obtain rfl := Option.some.inj run
      exact ⟨kept, rfl⟩
    · rw [Run.bind_apply] at run
      obtain ⟨printed, -, run⟩ := Option.bind_eq_some_iff.mp run
      obtain rfl := Option.some.inj run
      exact ⟨kept, rfl⟩

/-- The files to be purged are read by a new builder. -/
theorem mainParseDedupToTree_run (parser : parseIpFileParser P g.treeMode g.wantStrict = some f)
    (valid : parseIpCheckTypeValid g.treeMode = true) (fopen : List Char → Option InputStream)
    (stdin : InputStream) :
    ∃ out : BuilderOut P.fast32,
      mainParseDedupToTree P fopen stdin g g.purgeInfiles bufs Mallocs.all =
          some ((out.ret, some out.obj), Mallocs.all) ∧
        FilesRun f (FileRead f g.wantKeepGoing fopen stdin) stdin g.purgeInfiles
          (.empty g.treeMode) out := by
  have usable := IpTreeBuildData.empty_usable (w := P.fast32) g.treeMode
  obtain ⟨out, run, after⟩ := ipTreeBuilderParseFilesDoInsert_run bufs parser usable
    g.wantKeepGoing fopen stdin g.purgeInfiles
  refine ⟨out, ?_, after⟩
  simp only [mainParseDedupToTree, Run.bind_apply, ipTreeBuilderNew_all valid, Option.bind_some,
    run, Run.pure_apply]

/-- Only modes that the parser knows have a parser. -/
theorem parseIpFileParser_valid {mode : ParseIpType} {strictNetaddr : Bool}
    (parser : parseIpFileParser P mode strictNetaddr = some f) :
    parseIpCheckTypeValid mode = true := by
  obtain ⟨parsers, init, -⟩ := Option.map_eq_some_iff.mp parser
  rw [parseIpFileInitParseMode] at init
  split_ifs at init with ipv4 ipv6 both
  · rw [ipv4]; rfl
  · rw [ipv6]; rfl
  · rw [both]; rfl

/-- Where all files are read, `stdin` is asked for if it is among them. -/
theorem asksStdin_iff_mem {read : Option (List Char) → Prop} {names : List (Option (List Char))}
    (all : ∀ name ∈ names, read name) : AsksStdin read names ↔ stdinName ∈ names := by
  constructor
  · rintro ⟨before, after, rfl, -⟩
    simp
  · intro asked
    obtain ⟨before, after, rfl⟩ := List.append_of_mem asked
    exact ⟨before, after, rfl, fun name mem => all name (List.mem_append_left _ mem)⟩

end Stages

/-! ### The run -/

section Run

variable {sys : System} {g : IpdedupGlobals P.fast32} {f : ParseIpAddrFunc P.fast32}
  (bufs : ParseBufs P.fast32)

/-- A second request among the input files is refused. -/
theorem mainRun_inputsTwice (made : g.treeBuilder = .empty g.treeMode)
    (parser : parseIpFileParser P g.treeMode g.wantStrict = some f)
    (twice : AsksStdinTwice (FileRead f g.wantKeepGoing sys.fopen sys.stdin) g.inputNames) :
    ∃ out, mainRun P sys g bufs Mallocs.all = some (out, Mallocs.all) ∧ out.RefusesStdin ∧
      out.ReadsStdinOnce := by
  have start := mainRunSetAutoCollapse_new made
  obtain ⟨parsed, run, after⟩ := mainInnerParseInput_run bufs (by rw [start]; exact parser)
    (mainRunSetAutoCollapse_usable made)
  have refused : parsed.ret = ParseIpRet.badInfileDup.code := by
    refine after.refused.mpr ?_
    rw [start]
    exact twice
  rw [mainRun, Run.bind_apply, run, Option.bind_some, refused, mainInterpretParseRet_badInfileDup]
  refine ⟨_, rfl, ⟨rfl, List.mem_cons_self⟩, ?_⟩
  rintro ⟨-, obj, mem, -⟩
  cases mem

/-- A run that reads all input files goes on to the files to be purged, with a new builder. -/
theorem mainRun_inputsRead (made : g.treeBuilder = .empty g.treeMode)
    (parser : parseIpFileParser P g.treeMode g.wantStrict = some f)
    (read : ∀ name ∈ g.inputNames, FileRead f g.wantKeepGoing sys.fopen sys.stdin name)
    (once : ¬ AsksStdinTwice (FileRead f g.wantKeepGoing sys.fopen sys.stdin) g.inputNames)
    (purges : g.purgeInfiles ≠ []) :
    ∃ (obj : IpTreeBuildData P.fast32) (purge : BuilderOut P.fast32),
      mainRun P sys g bufs Mallocs.all =
          mainRunPurgeParsed sys g obj (purge.ret, some purge.obj) Mallocs.all ∧
        (obj.didReadStdin = true ↔ stdinName ∈ g.inputNames) ∧
        FilesRun f (FileRead f g.wantKeepGoing sys.fopen sys.stdin)
          (stdinAfter g.inputNames sys.stdin) g.purgeInfiles (.empty g.treeMode) purge := by
  have start := mainRunSetAutoCollapse_new made
  obtain ⟨parsed, run, after⟩ := mainInnerParseInput_run bufs (by rw [start]; exact parser)
    (mainRunSetAutoCollapse_usable made)
  have fresh : (mainRunSetAutoCollapse g).didReadStdin = false := by rw [start]
  have success : parsed.ret = ParseIpRet.success.code := by
    refine after.success.mpr ⟨read, ?_⟩
    rw [fresh]
    exact once
  obtain ⟨obj, inverted, kept⟩ := mainRunInvert_inserted (parseIpFileParser_sound parser) made
    (after.built success) g.wantInvert
  -- which files can be read without an error is the same for both builders
  obtain ⟨purge, purging, purged⟩ := mainParseDedupToTree_run parsed.bufs parser
    (parseIpFileParser_valid parser) sys.fopen (stdinAfter g.inputNames sys.stdin)
  rw [fileRead_after read] at purged
  refine ⟨obj, purge, ?_, ?_, purged⟩
  · have nonempty : ¬ g.purgeInfiles.length < 1 := by
      simpa [Nat.lt_one_iff] using purges
    rw [mainRun, Run.bind_apply, run, Option.bind_some,
      mainInterpretParseRet_eq_zero.mpr success]
    simp only [ne_eq, not_true_eq_false, reduceIte, Run.bind_apply, inverted, Option.bind_some,
      if_neg nonempty, after.left success, Run.lift_apply, Option.map_some, purging]
  · rw [kept, after.didReadStdin, fresh]
    simpa using asksStdin_iff_mem read

/-- Two requests among the files to be purged, and none among the input files: the second one is
refused. -/
theorem mainRun_purgesTwice (made : g.treeBuilder = .empty g.treeMode)
    (parser : parseIpFileParser P g.treeMode g.wantStrict = some f)
    (read : ∀ name ∈ g.inputNames, FileRead f g.wantKeepGoing sys.fopen sys.stdin name)
    (other : stdinName ∉ g.inputNames)
    (twice : AsksStdinTwice (FileRead f g.wantKeepGoing sys.fopen sys.stdin) g.purgeInfiles) :
    ∃ out, mainRun P sys g bufs Mallocs.all = some (out, Mallocs.all) ∧ out.RefusesStdin ∧
      out.ReadsStdinOnce := by
  have once : ¬ AsksStdinTwice (FileRead f g.wantKeepGoing sys.fopen sys.stdin) g.inputNames :=
    fun again => other ((asksStdin_iff_mem read).mp again.asksStdin)
  have purges : g.purgeInfiles ≠ [] := by
    intro none
    rw [none] at twice
    exact asksStdinAgain_nil twice
  obtain ⟨obj, purge, run, flag, purged⟩ := mainRun_inputsRead bufs made parser read once purges
  have refused : purge.ret = ParseIpRet.badInfileDup.code := purged.refused.mpr twice
  rw [run, mainRunPurgeParsed, refused, mainInterpretParseRet_badInfileDup]
  refine ⟨_, rfl, ⟨rfl, List.mem_cons_self⟩, ?_⟩
  rintro ⟨didRead, -⟩
  exact other (flag.mp didRead)

/-- One request among the input files and one among the files to be purged: both builders read
`stdin`. -/
theorem mainRun_bothAsk (made : g.treeBuilder = .empty g.treeMode)
    (parser : parseIpFileParser P g.treeMode g.wantStrict = some f)
    (read : ∀ name ∈ g.inputNames, FileRead f g.wantKeepGoing sys.fopen sys.stdin name)
    (once : ¬ AsksStdinTwice (FileRead f g.wantKeepGoing sys.fopen sys.stdin) g.inputNames)
    (asked : stdinName ∈ g.inputNames)
    (again : AsksStdin (FileRead f g.wantKeepGoing sys.fopen sys.stdin) g.purgeInfiles)
    {out : MainOut P.fast32} {mem : Mallocs}
    (run : mainRun P sys g bufs Mallocs.all = some (out, mem)) : ¬ out.ReadsStdinOnce := by
  have purges : g.purgeInfiles ≠ [] := by
    intro none
    rw [none] at again
    exact asksStdin_nil again
  obtain ⟨obj, purge, rest, flag, purged⟩ := mainRun_inputsRead bufs made parser read once purges
  obtain ⟨kept, purgeBuilder⟩ := mainRunPurgeParsed_builders (rest.symm.trans run)
  rw [MainOut.ReadsStdinOnce, not_not, kept, purgeBuilder]
  exact ⟨flag.mpr asked, purge.obj, rfl, purged.didReadStdin.mpr (Or.inr again)⟩

/-- While allocation succeeds, `stdin` is read once and a second request for it is refused exactly
if that request is in the same list as the first: among the input files, or, if these do not ask
for `stdin`, among the files to be purged. -/
theorem mainRun_refusesStdin_iff (P : Platform) (sys : System) {g : IpdedupGlobals P.fast32}
    (made : ipTreeBuilderNew g.treeMode Mallocs.all = some (some g.treeBuilder, Mallocs.all))
    {f : ParseIpAddrFunc P.fast32}
    (parser : parseIpFileParser P g.treeMode g.wantStrict = some f) (bufs : ParseBufs P.fast32)
    (twice : AsksStdinTwice (FileRead f g.wantKeepGoing sys.fopen sys.stdin)
      (g.inputNames ++ g.purgeInfiles)) :
    (∃ out, mainRun P sys g bufs Mallocs.all = some (out, Mallocs.all) ∧ out.RefusesStdin ∧
        out.ReadsStdinOnce) ↔
      AsksStdinTwice (FileRead f g.wantKeepGoing sys.fopen sys.stdin) g.inputNames ∨
        stdinName ∉ g.inputNames := by
  have new : g.treeBuilder = .empty g.treeMode := by
    have own := ipTreeBuilderNew_all (w := P.fast32) (parseIpFileParser_valid parser)
    simpa using made.symm.trans own
  by_cases inputsTwice :
      AsksStdinTwice (FileRead f g.wantKeepGoing sys.fopen sys.stdin) g.inputNames
  · exact iff_of_true (mainRun_inputsTwice bufs new parser inputsTwice) (Or.inl inputsTwice)
  · obtain ⟨read, again⟩ := (asksStdinTwice_append.mp twice).resolve_left inputsTwice
    by_cases asked : stdinName ∈ g.inputNames
    · -- the second builder does not know that the first one read `stdin`
      refine iff_of_false ?_ (not_or.mpr ⟨inputsTwice, not_not_intro asked⟩)
      rintro ⟨out, run, -, onlyOnce⟩
      exact mainRun_bothAsk bufs new parser read inputsTwice asked again.asksStdin run onlyOnce
    · rw [decide_eq_false asked] at again
      exact iff_of_true (mainRun_purgesTwice bufs new parser read asked again) (Or.inr asked)

/-- `stdin` is named by an input file and by a file to be purged, as in `ip-dedup -4 -p - -`. -/
theorem mainRun_refusesStdin_iff_both :
    let P : Platform := ⟨.bits64, fun x _ => x, fun x _ => x⟩
    let f : ParseIpAddrFunc P.fast32 := parseIp4AddrCombined
    let sys : System := ⟨fun _ => none, ⟨["10.0.0.0/8\n".toList], false⟩, fun _ => true⟩
    let g : IpdedupGlobals P.fast32 := ⟨.onlyIpv4, .empty .onlyIpv4, 0, 0, none, some [some ['-']],
      [some ['-']], false, false, false, false, false, false⟩
    (∃ out, mainRun P sys g .zero Mallocs.all = some (out, Mallocs.all) ∧ out.RefusesStdin ∧
        out.ReadsStdinOnce) ↔
      AsksStdinTwice (FileRead f g.wantKeepGoing sys.fopen sys.stdin) g.inputNames ∨
        stdinName ∉ g.inputNames := by
  intro P f sys g
  have read : ∀ name ∈ [stdinName], FileRead f g.wantKeepGoing sys.fopen sys.stdin name := by
    unfold FileRead
    decide +kernel
  exact mainRun_refusesStdin_iff P sys (ipTreeBuilderNew_all rfl) rfl .zero
    ⟨[stdinName], [], rfl, read, Or.inr List.mem_cons_self⟩

/-- Without input files, `stdin` is the input, and what is to be purged is read from it again:
nothing is purged, and nothing is said. -/
theorem mainRun_refusesStdin_not_implicit :
    let P : Platform := ⟨.bits64, fun x _ => x, fun x _ => x⟩
    let f : ParseIpAddrFunc P.fast32 := parseIp4AddrCombined
    let sys : System := ⟨fun _ => none, ⟨["10.0.0.0/8\n".toList], false⟩, fun _ => true⟩
    let g : IpdedupGlobals P.fast32 := ⟨.onlyIpv4, .empty .onlyIpv4, 0, 0, none, none,
      [some ['-']], false, false, false, false, false, false⟩
    let run := mainRun P sys g .zero Mallocs.all
    AsksStdinTwice (FileRead f g.wantKeepGoing sys.fopen sys.stdin)
        (g.inputNames ++ g.purgeInfiles) ∧
      run.map (fun out => (out.1.ret, out.1.stderr, out.1.outstream)) =
        some (0, [], "10.0.0.0/8\n".toList) ∧
      ¬ ∃ out, run = some (out, Mallocs.all) ∧ out.RefusesStdin ∧ out.ReadsStdinOnce := by
  intro P f sys g run
  have read : ∀ name ∈ [stdinName], FileRead f g.wantKeepGoing sys.fopen sys.stdin name := by
    unfold FileRead
    decide +kernel
  have silent : run.map (fun out => (out.1.ret, out.1.stderr, out.1.outstream)) =
      some (0, [], "10.0.0.0/8\n".toList) := by
    decide +kernel
  refine ⟨⟨[stdinName], [], rfl, read, Or.inr List.mem_cons_self⟩, silent, ?_⟩
  rintro ⟨out, ends, ⟨usage, -⟩, -⟩
  rw [ends, Option.map_some] at silent
  have success : out.ret = 0 := congrArg Prod.fst (Option.some.inj silent)
  rw [success] at usage
  exact absurd usage (by decide)

end Run

end IpDedup
