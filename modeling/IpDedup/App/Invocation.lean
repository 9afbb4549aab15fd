import IpDedup.App.Program

/-!
# Invocations

The program as a whole: from a command line and the files that it names to the
exit code, the text that is printed, and the memory that is freed.

## Main results

* `main_obeys`: the program does what the command line asks for, as far as there is memory
* `main_decomposes`: it prints the canonical decomposition of what is left of the input
* `main_exitCode`: its exit code is one of those that its help explains
* `main_frees`: every block that it allocates for a path is freed exactly once
-/

set_option autoImplicit false

namespace IpDedup

open Dynarray Getopt IpFamily

variable {P : Platform} {start : Startup} {sys : System} {bufs : ParseBufs P.fast32}
  {argv : List (List Char)}

/-- What the command line asks the run to do. -/
def asks (w : UintFast32) (start : Startup) (argv : List (List Char)) : IpdedupGlobals w :=
  cmdGlobals start (progName argv) (cmdLine start argv) w

/-- There is a parser for each mode. -/
theorem parser_of_valid {mode : ParseIpType} (valid : parseIpCheckTypeValid mode = true)
    (strictNetaddr : Bool) : ∃ f, parseIpFileParser P mode strictNetaddr = some f := by
  rw [parseIpFileParser]
  obtain ⟨ipv4, ipv6⟩ := mode
  cases ipv4 <;> cases ipv6
  · cases valid
  all_goals exact ⟨_, rfl⟩

theorem asks_parses (start : Startup) (argv : List (List Char)) :
    ∃ f, parseIpFileParser P (asks P.fast32 start argv).treeMode
      (asks P.fast32 start argv).wantStrict = some f :=
  parser_of_valid (cmdMode_valid (progName argv) (cmdLine start argv)) _

/-- Without files, `stdin` has to be read. -/
theorem asks_prints {f : ParseIpAddrFunc P.fast32}
    (parser : parseIpFileParser P (asks P.fast32 start argv).treeMode
      (asks P.fast32 start argv).wantStrict = some f)
    (noFiles : (asks P.fast32 start argv).infiles = none)
    (nothing : (asks P.fast32 start argv).purgeInfiles = [])
    (read : FileRead f (asks P.fast32 start argv).wantKeepGoing sys.fopen sys.stdin stdinName)
    (opens : (asks P.fast32 start argv).Opens sys)
    (plain : (asks P.fast32 start argv).wantJsonOutput = false) :
    (asks P.fast32 start argv).Prints sys f := by
  have names : (asks P.fast32 start argv).inputNames = [stdinName] := by
    rw [IpdedupGlobals.inputNames, noFiles]
    rfl
  refine ⟨ipTreeBuilderNew_all (parseIpFileParser_valid parser), parser, ⟨?_, ?_, ?_, ?_⟩, opens,
    plain⟩
  · rw [names]
    exact List.forall_mem_singleton.mpr read
  · rw [nothing]
    exact List.forall_mem_nil _
  · rw [names]
    exact not_asksStdinTwice_single _ _
  · rw [nothing]
    exact asksStdinAgain_nil

section Main

variable (block : Dynarray NamePtr) (blocks : Blocks P.fast32) (mem : Mallocs)

/-- The blocks that the program allocates for paths are freed in the end, each of them once,
whatever it was asked to do and wherever it stopped. No other pointer to a name is freed. -/
theorem main_frees (few : argv.length < 2 ^ 60) {out : ProgramOut P.fast32} {mem' : Mallocs}
    (run : main P start block blocks sys bufs argv mem = some (out, mem')) :
    held out.paths 0 0 = some 0 := by
  -- the program ends before the run or after it; both ways free the globals
  obtain ⟨stdout, stderr, paths, mem₁, -, freed, ⟨ret, -, own⟩ | ⟨-, own⟩⟩ :=
    main_cases start block blocks sys bufs few mem
  · obtain rfl := congrArg Prod.fst (Option.some.inj (run.symm.trans own))
    exact freed
  · obtain ⟨ran, -, same⟩ := Option.map_eq_some_iff.mp (own.symm.trans run)
    obtain rfl := congrArg Prod.fst same
    exact freed

/-- A datafile that is named twice, before an option that ends the program: there are two blocks
with the same path. -/
theorem main_frees_twice :
    let P : Platform := ⟨.bits64, fun x _ => x, fun x _ => x⟩
    let start : Startup :=
      ⟨none, true, fun _ => true, false, fun _ => false, (0, ""), "Cannot allocate memory"⟩
    let sys : System := ⟨fun _ => none, ⟨[], false⟩, fun _ => true⟩
    let block : Dynarray NamePtr := ⟨none, 0, 0, none⟩
    let blocks : Blocks P.fast32 := ⟨⟨none, 0, 0, none⟩, ⟨none, 0, 0, none⟩⟩
    let argv := [['i', 'p'], ['-', 'D', 'd'], ['-', 'p', '@', 'l'], ['-', 'p', '@', 'l'],
      ['-', 'h']]
    ∃ out mem', main P start block blocks sys .zero argv Mallocs.all = some (out, mem') ∧
      out.ret = 0 ∧ numBuilt out.paths = 2 ∧ held out.paths 0 0 = some 0 := by
  intro P start sys block blocks argv
  have ends : ((main P start block blocks sys .zero argv Mallocs.all).map fun out =>
      (out.1.ret, numBuilt out.1.paths)) = some (0, 2) := by decide +kernel
  obtain ⟨⟨out, mem'⟩, run, same⟩ := Option.map_eq_some_iff.mp ends
  obtain ⟨ret, count⟩ := Prod.mk.inj same
  exact ⟨out, mem', run, ret, count, main_frees block blocks _ (by decide) run⟩

/-- The program ends as its command line says: with the exit code of the first option or name that
is not accepted, and without a run; or with the run that is asked for. Without enough memory, it may
also end with `EX_OSERR` before the run, and in the run like any run with little memory. -/
theorem main_obeys (few : argv.length < 2 ^ 60) {full : MainOut P.fast32}
    (runs : cmdStop start (cmdLine start argv) = none →
      mainRun P sys (asks P.fast32 start argv) bufs Mallocs.all = some (full, Mallocs.all))
    (fewLines : (asks P.fast32 start argv).FewLines sys) :
    ∃ out mem', main P start block blocks sys bufs argv mem = some (out, mem') ∧
      ((∃ ret, cmdStop start (cmdLine start argv) = some ret ∧ out.run = none ∧
          out.ret = mainExitCode ret) ∨
        (cmdStop start (cmdLine start argv) = none ∧ out.run = some full ∧
          out.ret = mainExitCode full.ret) ∨
        (mem ≠ Mallocs.all ∧ out.run = none ∧ out.ret = exOserr) ∨
        (mem ≠ Mallocs.all ∧ cmdStop start (cmdLine start argv) = none ∧
          ∃ low, out.run = some low ∧ out.ret = mainExitCode low.ret ∧
            LowMemory sys (asks P.fast32 start argv) full low)) := by
  obtain ⟨stdout, stderr, paths, mem₁, all, -, ⟨ret, cause, own⟩ | ⟨goesOn, own⟩⟩ :=
    main_cases start block blocks sys bufs few mem
  · refine ⟨_, mem₁, own, ?_⟩
    -- the command line ends the program, or an allocation fails while it is read
    rcases cause with stops | ⟨rfl, short⟩
    · exact Or.inl ⟨ret, stops, rfl, rfl⟩
    · exact Or.inr (Or.inr (Or.inl ⟨short, rfl, rfl⟩))
  · obtain ⟨f, parser⟩ := asks_parses (P := P) start argv
    have tries := mainRunDynarray_tries blocks rfl parser (runs goesOn) fewLines
    obtain ⟨ran, mem₂, run, outcome⟩ := tries.2 mem₁
    have started : main P start block blocks sys bufs argv mem =
        some (⟨mainExitCode ran.ret, stdout, stderr, paths, some ran⟩, mem₂) := by
      rw [own]
      exact Option.map_eq_some_iff.mpr ⟨_, run, rfl⟩
    refine ⟨_, mem₂, started, ?_⟩
    rcases outcome with rfl | low
    · exact Or.inr (Or.inl ⟨goesOn, rfl, rfl⟩)
    · -- with enough memory, this is the full run after all
      by_cases enough : mem = Mallocs.all
      · rw [all enough, tries.1] at run
        obtain ⟨rfl, rfl⟩ := Prod.mk.inj (Option.some.inj run)
        exact Or.inr (Or.inl ⟨goesOn, rfl, rfl⟩)
      · exact Or.inr (Or.inr (Or.inr ⟨enough, goesOn, ran, rfl, rfl, low⟩))

/-- A command line that is accepted, with memory for a few allocations. -/
theorem main_obeys_strict :
    let P : Platform := ⟨.bits64, fun x _ => x, fun x _ => x⟩
    let start : Startup :=
      ⟨none, true, fun _ => false, false, fun _ => false, (0, ""), "Cannot allocate memory"⟩
    let sys : System := ⟨fun _ => none, ⟨["10.1.0.0/16\n".toList], false⟩, fun _ => true⟩
    let block : Dynarray NamePtr := ⟨none, 0, 0, none⟩
    let blocks : Blocks P.fast32 := ⟨⟨none, 0, 0, none⟩, ⟨none, 0, 0, none⟩⟩
    let argv := [['i', 'p', '4'], ['-', 's']]
    let mem : Mallocs := fun n => decide (n < 8)
    ∃ full out mem', main P start block blocks sys .zero argv mem = some (out, mem') ∧
      ((∃ ret, cmdStop start (cmdLine start argv) = some ret ∧ out.run = none ∧
          out.ret = mainExitCode ret) ∨
        (cmdStop start (cmdLine start argv) = none ∧ out.run = some full ∧
          out.ret = mainExitCode full.ret) ∨
        (mem ≠ Mallocs.all ∧ out.run = none ∧ out.ret = exOserr) ∨
        (mem ≠ Mallocs.all ∧ cmdStop start (cmdLine start argv) = none ∧
          ∃ low, out.run = some low ∧ out.ret = mainExitCode low.ret ∧
            LowMemory sys (asks P.fast32 start argv) full low)) := by
  intro P start sys block blocks argv mem
  let f : ParseIpAddrFunc P.fast32 := parseIp4NetAddrCombined P
  have prints : (asks P.fast32 start argv).Prints sys f :=
    asks_prints rfl (by decide) (by decide) (by unfold FileRead; decide +kernel)
      (fun _ _ => rfl) (by decide)
  have fewLines : (asks P.fast32 start argv).FewLines sys := by
    unfold IpdedupGlobals.FewLines
    decide +kernel
  obtain ⟨full, run, -⟩ := mainRun_prints prints .zero
  exact ⟨full, main_obeys block blocks mem (by decide) (fun _ => run) fewLines⟩

/-- While allocation succeeds, a command line that is accepted, and asks for files that can be
read, for an output that can be opened and not for JSON, prints the canonical decomposition of what
is left of the input for each family. -/
theorem main_decomposes (few : argv.length < 2 ^ 60)
    (goesOn : cmdStop start (cmdLine start argv) = none) {f : ParseIpAddrFunc P.fast32}
    (prints : (asks P.fast32 start argv).Prints sys f)
    (fewLines : (asks P.fast32 start argv).FewLines sys) :
    ∃ out ran netsV4 netsV6, main P start block blocks sys bufs argv Mallocs.all =
        some (out, Mallocs.all) ∧
      out.ret = 0 ∧ out.run = some ran ∧
      ran.outstream = (asks P.fast32 start argv).printedNets netsV4 netsV6 ∧
      (v4 P.fast32).Canonical netsV4 ∧
      (v4 P.fast32).covered netsV4 = (asks P.fast32 start argv).resultV4 sys f ∧
      v6.Canonical netsV6 ∧ v6.covered netsV6 = (asks P.fast32 start argv).resultV6 sys f := by
  obtain ⟨ran, run, ret, -, outstream⟩ := mainRun_prints prints bufs
  have tries := mainRunDynarray_tries blocks rfl prints.parser run fewLines
  have sound := parseIpFileParser_sound prints.parser
  obtain ⟨stdout, stderr, paths, mem₁, all, -, ⟨code, cause, -⟩ | ⟨-, own⟩⟩ :=
    main_cases start block blocks sys bufs few Mallocs.all
  · -- it is accepted, and there is enough memory
    rcases cause with stops | ⟨-, short⟩
    · cases goesOn.symm.trans stops
    · exact absurd rfl short
  · rw [all rfl] at own
    refine ⟨_, ran, _, _, own.trans (Option.map_eq_some_iff.mpr ⟨_, tries.1, rfl⟩), ?_, rfl,
      outstream, canonical_stageNets, covered_netsV4 sound, canonical_stageNets,
      covered_netsV6 sound⟩
    dsimp only
    rw [ret, mainExitCode, if_pos rfl]

/-- The lines are collapsed to one network, as an option asks for. -/
theorem main_decomposes_collapse :
    let P : Platform := ⟨.bits64, fun x _ => x, fun x _ => x⟩
    let f : ParseIpAddrFunc P.fast32 := parseIp4AddrCombined
    let start : Startup :=
      ⟨none, true, fun _ => false, false, fun _ => false, (0, ""), "Cannot allocate memory"⟩
    let sys : System := ⟨fun _ => none, ⟨["10.1.0.0/16\n".toList, "10.200.0.1\n".toList], false⟩,
      fun _ => true⟩
    let block : Dynarray NamePtr := ⟨none, 0, 0, none⟩
    let blocks : Blocks P.fast32 := ⟨⟨none, 0, 0, none⟩, ⟨none, 0, 0, none⟩⟩
    let argv := [['i', 'p', '4'], ['-', 'r', 'B', '8']]
    ∃ out ran netsV4 netsV6, main P start block blocks sys .zero argv Mallocs.all =
        some (out, Mallocs.all) ∧
      out.ret = 0 ∧ out.run = some ran ∧
      ran.outstream = (asks P.fast32 start argv).printedNets netsV4 netsV6 ∧
      (v4 P.fast32).Canonical netsV4 ∧
      (v4 P.fast32).covered netsV4 = (asks P.fast32 start argv).resultV4 sys f ∧
      v6.Canonical netsV6 ∧ v6.covered netsV6 = (asks P.fast32 start argv).resultV6 sys f := by
  intro P f start sys block blocks argv
  have prints : (asks P.fast32 start argv).Prints sys f :=
    asks_prints rfl (by decide) (by decide) (by unfold FileRead; decide +kernel)
      (fun _ _ => rfl) (by decide)
  have fewLines : (asks P.fast32 start argv).FewLines sys := by
    unfold IpdedupGlobals.FewLines
    decide +kernel
  exact main_decomposes block blocks (by decide) (by decide) prints fewLines

end Main

/-! ### Exit codes -/

/-- The exit codes of runs. -/
def runExitCodes : List Int := [0, exUsage, exDataerr, exSoftware, exCantcreat, exIoerr]

/-- The exit codes of programs that end without a run, those of `-L` apart. -/
def stopExitCodes : List Int := [0, exUsage, exOserr, exIoerr]

section Codes

/-- Whatever the run comes to meets the condition. -/
def Ensures {β : Type} (run : Run β) (post : β → Prop) : Prop :=
  ∀ mem out mem', run mem = some (out, mem') → post out

theorem Ensures.pure {β : Type} {post : β → Prop} {b : β} (holds : post b) :
    Ensures (pure b) post := by
  intro mem out mem' run
  obtain rfl := congrArg Prod.fst (Option.some.inj run)
  exact holds

theorem Ensures.bind {β γ : Type} {run : Run β} {next : β → Run γ} {mid : β → Prop}
    {post : γ → Prop} (first : Ensures run mid) (goOn : ∀ b, mid b → Ensures (next b) post) :
    Ensures (run >>= next) post := by
  intro mem out mem' own
  rw [Run.bind_apply] at own
  obtain ⟨⟨b, mem₁⟩, ran, rest⟩ := Option.bind_eq_some_iff.mp own
  exact goOn b (first mem b mem₁ ran) mem₁ out mem' rest

/-- Nothing is known of a part of a run. -/
theorem Ensures.any {β : Type} (run : Run β) : Ensures run fun _ => True :=
  fun _ _ _ _ => trivial

/-- The exit code is one of a run, and of a failure that comes before the output unless it is
`EX_SOFTWARE`. -/
structure RunCode (ret : Int) (outstream : List Char) : Prop where
  mem : ret ∈ runExitCodes
  silent : ret ≠ 0 → ret ≠ exSoftware → outstream = []

theorem mainInterpretParseRet_code (parseRet : Int) :
    RunCode (mainInterpretParseRet parseRet).1 [] := by
  refine ⟨?_, fun _ _ => rfl⟩
  unfold mainInterpretParseRet
  split_ifs <;> decide

theorem runCode_software (outstream : List Char) : RunCode exSoftware outstream :=
  ⟨by decide, fun _ bad => absurd rfl bad⟩

theorem runCode_success (outstream : List Char) : RunCode 0 outstream :=
  ⟨by decide, fun bad => absurd rfl bad⟩

theorem mainRunPrintDynarray_code {w : UintFast32} (blocks : Blocks w) (sys : System)
    (g : IpdedupGlobals w) (obj : IpTreeBuildData w) :
    Ensures (mainRunPrintDynarray blocks sys g obj) fun out => RunCode out.1 out.2 := by
  have ip6 : Ensures (mainRunPrintIp6Dynarray blocks.v6 g obj.v6) fun out =>
      out.1 = 0 ∨ out.1 = exSoftware := by
    cases obj.v6 with
    | none => exact .pure (Or.inl rfl)
    | some tree =>
      rw [mainRunPrintIp6Dynarray]
      split_ifs
      · exact (Ensures.any _).bind fun _ _ => .pure (Or.inl rfl)
      · refine (Ensures.any _).bind fun out _ => .pure ?_
        by_cases failed : out.1 ≠ 0
        · exact Or.inr (if_pos failed)
        · exact Or.inl (if_neg failed)
  rw [mainRunPrintDynarray]
  split_ifs
  · exact .pure ⟨by decide, fun _ _ => rfl⟩
  · exact (Ensures.any _).bind fun _ _ => .pure (runCode_success _)
  · refine (Ensures.any _).bind fun textV4 _ => ip6.bind fun out code => .pure ?_
    rcases code with code | code <;> rw [code]
    · exact runCode_success _
    · exact runCode_software _

/-- Whatever happens, a run ends with one of its exit codes. -/
theorem mainRunDynarray_code (blocks : Blocks P.fast32) (sys : System)
    (g : IpdedupGlobals P.fast32) (bufs : ParseBufs P.fast32) :
    Ensures (mainRunDynarray P blocks sys g bufs) fun out => RunCode out.ret out.outstream := by
  have inverting (obj : IpTreeBuildData P.fast32) : Ensures (mainRunInvert g.wantInvert obj)
      fun out => out.1 = 0 ∨ out.1 = exSoftware := by
    rw [mainRunInvert]
    split_ifs
    · refine (Ensures.any _).bind fun out _ => ?_
      split_ifs
      · exact .pure (Or.inr rfl)
      · refine (Ensures.any _).bind fun out _ => ?_
        split_ifs
        · exact .pure (Or.inr rfl)
        · exact .pure (Or.inl rfl)
    · exact .pure (Or.inl rfl)
  have printing (obj : IpTreeBuildData P.fast32) (purges : Option (IpTreeBuildData P.fast32)) :
      Ensures (do
        let printed ← mainRunPrintDynarray blocks sys g obj
        pure (⟨printed.1, [], printed.2, obj, purges⟩ : MainOut P.fast32))
        fun out => RunCode out.ret out.outstream :=
    (mainRunPrintDynarray_code blocks sys g obj).bind fun _ code => .pure code
  rw [mainRunDynarray]
  -- the exits of the run, in the order of the source
  refine (Ensures.any _).bind fun parsed _ => ?_
  by_cases failed : (mainInterpretParseRet parsed.ret).1 ≠ 0
  · rw [if_pos failed]
    exact .pure (mainInterpretParseRet_code parsed.ret)
  · rw [if_neg failed]
    refine (inverting _).bind fun inverted code => ?_
    split_ifs with bad
    · refine .pure ?_
      rw [code.resolve_left bad]
      exact runCode_software _
    · exact printing _ _
    · refine (Ensures.any _).bind fun stdin _ => (Ensures.any _).bind fun purge _ => ?_
      rw [mainRunPurgeParsedDynarray]
      by_cases unread : (mainInterpretParseRet purge.1).1 ≠ 0
      · rw [if_pos unread]
        exact .pure (mainInterpretParseRet_code purge.1)
      · rw [if_neg unread]
        refine (Ensures.any _).bind fun builder _ => (Ensures.any _).bind fun purged _ => ?_
        split_ifs
        · exact .pure (runCode_software _)
        · exact printing _ _

theorem DataName.refusal_code {name : DataName} {code : Int}
    (refused : name.refusal start = some code) : code ∈ stopExitCodes := by
  rw [refusal] at refused
  split_ifs at refused <;> obtain rfl := Option.some.inj refused <;> decide

theorem stopCode_code {datadir : Option (List Char)} {o : Opt} {code : Int} (other : o.opt ≠ 'L')
    (stops : stopCode start datadir o = some code) : code ∈ stopExitCodes := by
  rw [stopCode, if_neg other] at stops
  split_ifs at stops
  all_goals first
    | exact DataName.refusal_code stops
    | obtain rfl := Option.some.inj stops
      decide

theorem cmdStop_code {cmd : List Opt × List (List Char)} {code : Int}
    (noList : asked 'L' cmd.1 = false) (stops : cmdStop start cmd = some code) :
    code ∈ stopExitCodes := by
  obtain ⟨opts, args⟩ := cmd
  rw [cmdStop] at stops
  rcases Option.or_eq_some_iff.mp stops with first | ⟨-, second⟩
  · -- an option ends the program
    clear stops
    -- `-D` changes the directory for the options behind it
    dsimp only at first noList
    generalize start.datadir = datadir at first
    induction opts generalizing datadir with
    | nil => cases first
    | cons o opts ih =>
      rw [asked, List.any_cons, Bool.or_eq_false_iff, decide_eq_false_iff_not] at noList
      rw [firstStop] at first
      rcases Option.or_eq_some_iff.mp first with own | ⟨-, others⟩
      · exact stopCode_code noList.1 own
      · exact ih noList.2 _ others
  · -- so does an operand
    clear stops noList
    dsimp only at second
    generalize datadirAfter start.datadir opts = datadir at second
    induction args with
    | nil => cases second
    | cons arg args ih =>
      rw [firstRefusal] at second
      split_ifs at second
      · obtain rfl := Option.some.inj second
        decide
      · rcases Option.or_eq_some_iff.mp second with own | ⟨-, others⟩
        · exact DataName.refusal_code own
        · exact ih others

theorem mainExitCode_of_nonneg {ret : Int} (nonneg : 0 ≤ ret) : mainExitCode ret = ret := by
  rw [mainExitCode]
  split_ifs with zero negative
  · exact zero.symm
  · exact absurd negative (not_lt.mpr nonneg)
  · rfl

/-- Whatever the input, the options and the allocations that fail, a program that is not asked to
list files ends with one of the exit codes in its help. `EX_OSERR` means that there was no run:
a run with too little memory is a software error. A failed run prints nothing unless it is one. -/
theorem main_exitCode (block : Dynarray NamePtr) (blocks : Blocks P.fast32) (mem : Mallocs)
    (few : argv.length < 2 ^ 60) (noList : asked 'L' (cmdLine start argv).1 = false)
    {out : ProgramOut P.fast32} {mem' : Mallocs}
    (run : main P start block blocks sys bufs argv mem = some (out, mem')) :
    (out.run = none ∧ out.ret ∈ stopExitCodes) ∨
      ∃ ran, out.run = some ran ∧ out.ret = ran.ret ∧ out.ret ∈ runExitCodes ∧
        (out.ret ≠ 0 → out.ret ≠ exSoftware → ran.outstream = []) := by
  obtain ⟨stdout, stderr, paths, mem₁, -, -, ⟨ret, cause, own⟩ | ⟨-, own⟩⟩ :=
    main_cases start block blocks sys bufs few mem
  · obtain rfl := congrArg Prod.fst (Option.some.inj (run.symm.trans own))
    have code : ret ∈ stopExitCodes := by
      rcases cause with stops | ⟨rfl, -⟩
      · exact cmdStop_code noList stops
      · decide
    have nonneg : ∀ ret ∈ stopExitCodes, 0 ≤ ret := by decide
    refine Or.inl ⟨rfl, ?_⟩
    rwa [mainExitCode_of_nonneg (nonneg ret code)]
  · obtain ⟨⟨ran, mem₂⟩, ranOn, same⟩ := Option.map_eq_some_iff.mp (own.symm.trans run)
    obtain rfl := congrArg Prod.fst same
    have code := mainRunDynarray_code blocks sys _ bufs mem₁ ran mem₂ ranOn
    have nonneg : ∀ ret ∈ runExitCodes, 0 ≤ ret := by decide
    have same : mainExitCode ran.ret = ran.ret := mainExitCode_of_nonneg (nonneg _ code.mem)
    refine Or.inr ⟨ran, rfl, same, ?_, ?_⟩ <;> dsimp only <;> rw [same]
    · exact code.mem
    · exact code.silent

/-- An option with an empty argument. -/
theorem main_exitCode_usage :
    let P : Platform := ⟨.bits64, fun x _ => x, fun x _ => x⟩
    let start : Startup :=
      ⟨none, true, fun _ => false, false, fun _ => false, (0, ""), "Cannot allocate memory"⟩
    let sys : System := ⟨fun _ => none, ⟨[], false⟩, fun _ => true⟩
    let block : Dynarray NamePtr := ⟨none, 0, 0, none⟩
    let blocks : Blocks P.fast32 := ⟨⟨none, 0, 0, none⟩, ⟨none, 0, 0, none⟩⟩
    let argv := [['i', 'p'], ['-', 'k'], ['-', 'o'], []]
    ∃ out mem', main P start block blocks sys .zero argv Mallocs.all = some (out, mem') ∧
      ((out.run = none ∧ out.ret ∈ stopExitCodes) ∨
        ∃ ran, out.run = some ran ∧ out.ret = ran.ret ∧ out.ret ∈ runExitCodes ∧
          (out.ret ≠ 0 → out.ret ≠ exSoftware → ran.outstream = [])) := by
  intro P start sys block blocks argv
  have stops : cmdStop start (cmdLine start argv) = some exUsage := by decide
  obtain ⟨stdout, stderr, paths, mem', -, -, ⟨ret, -, run⟩ | ⟨goesOn, -⟩⟩ :=
    main_cases start block blocks sys .zero (by decide : argv.length < 2 ^ 60) Mallocs.all
  · exact ⟨_, mem', run, main_exitCode block blocks _ (by decide) (by decide) run⟩
  · cases stops.symm.trans goesOn

end Codes

end IpDedup
