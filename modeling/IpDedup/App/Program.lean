import IpDedup.App.LowMemory
import IpDedup.App.Settings

/-!
# The program

What `main` does with a command line: it ends with the exit code of the first
option or name that is not accepted, or it does what `main_run` does with the
variables that the command line asks for.

## Main definitions

* `cmdStop`: the exit code of the first option or name that ends the program
* `cmdGlobals`: what the run is asked to do otherwise

## Main results

* `main_cases`: what the program does whatever allocations fail
-/

set_option autoImplicit false

namespace IpDedup

open Dynarray Getopt

/-! ### Options and operands -/

/-- The exit code of the first option that ends the program. -/
def firstStop (start : Startup) (datadir : Option (List Char)) : List Opt → Option Int
  | [] => none
  | o :: opts => (stopCode start datadir o).or (firstStop start ((datadirOf o).getD datadir) opts)

/-- The exit code of the first name that ends the program. -/
def firstRefusal (start : Startup) (datadir : Option (List Char)) : List (List Char) → Option Int
  | [] => none
  | arg :: args =>
    if arg = [] then some exUsage
    else (DataName.refusal ⟨datadir, arg⟩ start).or (firstRefusal start datadir args)

section Stages

/-- A stage goes on with the next one. -/
theorem Stage.next {first second : Option Int} {read : MainState → Prop} {mem mem' : Mallocs}
    {ret : Option Int} {s : MainState} (goesOn : first = none)
    (all : mem = Mallocs.all → mem' = Mallocs.all) (stage : Stage second read mem' ret s) :
    Stage (first.or second) read mem ret s := by
  obtain rfl := goesOn
  cases stage with
  | goesOn goesOn settled => exact .goesOn goesOn settled
  | stops stops balanced => exact .stops stops balanced
  | noMemory short balanced => exact .noMemory (fun enough => short (all enough)) balanced

variable {start : Startup} {block : Dynarray NamePtr} {s : MainState} {opts before : List Opt}
  {names : List DataName}

variable (block) in
/-- What the options come to, whatever allocations fail. -/
theorem mainInnerLoop_run (declared : ∀ o ∈ opts, Declared progOptions o)
    (settled : Settled start before s)
    (few : (purgeNames start.datadir (before ++ opts)).length < 2 ^ 60) (mem : Mallocs) :
    ∃ ret s' mem', mainInnerLoop start block opts s mem = some ((ret, s'), mem') ∧
      (mem = Mallocs.all → mem' = Mallocs.all) ∧ s'.g.progName = s.g.progName ∧
      Stage (firstStop start (datadirAfter start.datadir before) opts)
        (Settled start (before ++ opts)) mem ret s' := by
  induction opts generalizing before s mem with
  | nil =>
    refine ⟨none, s, mem, rfl, id, rfl, .goesOn rfl ?_⟩
    rwa [List.append_nil]
  | cons o opts ih =>
    obtain ⟨own, others⟩ := List.forall_mem_cons.mp declared
    have fewBefore : (purgeNames start.datadir before).length < 2 ^ 60 := by
      rw [purgeNames_append, List.length_append] at few
      omega
    obtain ⟨ret, s₁, mem₁, run, all, progName, stage⟩ :=
      mainInnerOpt_run block own settled fewBefore mem
    rw [mainInnerLoop, Run.bind_apply, run, Option.bind_some]
    cases stage with
    | goesOn goesOn settled' =>
      -- the other options see the directory that this one leaves
      have datadir : datadirAfter start.datadir (before ++ [o]) =
          (datadirOf o).getD (datadirAfter start.datadir before) := by
        rw [datadirAfter, lastOf_concat, Option.getD_or, datadirAfter]
      rw [List.append_cons] at few ⊢
      obtain ⟨ret, s₂, mem₂, run', all', progName', stage⟩ := ih others settled' few mem₁
      rw [datadir] at stage
      exact ⟨ret, s₂, mem₂, run', fun enough => all' (all enough), progName'.trans progName,
        stage.next goesOn all⟩
    | stops stops balanced =>
      exact ⟨_, s₁, mem₁, rfl, all, progName, .stops (by rw [firstStop, stops]; rfl) balanced⟩
    | noMemory short balanced =>
      exact ⟨_, s₁, mem₁, rfl, all, progName, .noMemory short balanced⟩

/-- Lists of names are not among the variables. -/
theorem SetBy.withLists {g : CmdGlobals} (vars : SetBy start opts g)
    (pile infiles : Option (Dynarray NamePtr)) :
    SetBy start opts { g with pileOfShame := pile, infiles := infiles } :=
  ⟨vars.treeMode, vars.collapsePrefixlenV4, vars.collapsePrefixlenV6, vars.datadir, vars.outfile,
    vars.wantInvert, vars.wantKeepGoing, vars.wantStrict, vars.wantLongOutput,
    vars.wantReduxOutput, vars.wantJsonOutput⟩

variable (block) in
/-- What the operands come to, whatever allocations fail. -/
theorem mainInnerArgs_run (named : Named start opts names s) (args : List (List Char))
    (few : (purgeNames start.datadir opts ++ names).length + args.length < 2 ^ 60)
    (mem : Mallocs) :
    ∃ ret s' mem', mainInnerArgs start block args s mem = some ((ret, s'), mem') ∧
      (mem = Mallocs.all → mem' = Mallocs.all) ∧ s'.g.progName = s.g.progName ∧
      Stage (firstRefusal start (datadirAfter start.datadir opts) args)
        (Named start opts
          (names ++ args.map fun arg => ⟨datadirAfter start.datadir opts, arg⟩)) mem ret s' := by
  induction args generalizing names s mem with
  | nil =>
    refine ⟨none, s, mem, rfl, id, rfl, .goesOn rfl ?_⟩
    rwa [List.map_nil, List.append_nil]
  | cons arg args ih =>
    rw [List.length_cons] at few
    rw [mainInnerArgs, firstRefusal]
    by_cases empty : arg = []
    · rw [if_pos empty, if_pos empty]
      refine ⟨_, _, mem, rfl, id, rfl, .stops rfl ⟨?_, ?_, ?_⟩⟩
      · exact named.listed.paths
      · exact .live named.listed.infiles
      · exact .live named.purgeInfiles
    · rw [if_neg empty, if_neg empty]
      obtain ⟨ret, s₁, infiles, mem₁, run, all, ⟨pile, frame⟩, outcome⟩ :=
        mainPushInfile_run start block named.listed (by omega)
          ⟨datadirAfter start.datadir opts, arg⟩ named.vars.datadir mem
      rw [Run.bind_apply, run, Option.bind_some]
      dsimp only
      -- a name only changes its own list and the list of paths
      have globals : { s₁.g with infiles := infiles } =
          { s.g with pileOfShame := pile, infiles := infiles } := by rw [frame]
      rcases outcome with ⟨rfl, accepted, listed⟩ | ⟨failed, cause, loan, balance⟩
      · rw [if_neg (not_not_intro rfl)]
        have named' : Named start opts (names ++ [⟨datadirAfter start.datadir opts, arg⟩])
            { s₁ with g.infiles := infiles } := by
          refine ⟨?_, ?_, ⟨listed.infiles, listed.owned⟩⟩
          · rw [globals]
            exact named.vars.withLists pile infiles
          · rw [globals]
            exact named.purgeInfiles
        -- this name is one of the names in front of the others now
        obtain ⟨ret, s₂, mem₂, run', all', progName, stage⟩ := ih named' (by
          simp only [List.length_append, List.length_singleton] at few ⊢
          omega) mem₁
        rw [List.append_assoc, List.singleton_append, ← List.map_cons] at stage
        refine ⟨ret, s₂, mem₂, run', fun enough => all' (all enough), ?_, stage.next accepted all⟩
        rw [progName, globals]
      · rw [if_pos failed]
        have balanced : Balanced { s₁ with g.infiles := infiles } := by
          refine ⟨balance, loan, ?_⟩
          rw [globals]
          exact .live named.purgeInfiles
        refine ⟨some ret, _, mem₁, rfl, all, by rw [globals], ?_⟩
        rcases cause with refused | ⟨rfl, short⟩
        · exact .stops (by rw [refused]; rfl) balanced
        · exact .noMemory short balanced

end Stages

/-! ### What the run is asked to do -/

section Command

variable (start : Startup) (name : List Char) (cmd : List Opt × List (List Char))

/-- The exit code of the first option or name that ends the program. -/
def cmdStop : Option Int :=
  (firstStop start start.datadir cmd.1).or
    (firstRefusal start (datadirAfter start.datadir cmd.1) cmd.2)

/-- The mode that is asked for last, or the one that the name of the program suggests. -/
def cmdMode : ParseIpType := (lastOf modeOf cmd.1).getD (guessTreeMode name)

/-- The input files, if any are named. -/
def cmdInfiles : Option (List (Option (List Char))) :=
  if cmd.2 = [] then none
  else some (cmd.2.map fun arg => some (DataName.path ⟨datadirAfter start.datadir cmd.1, arg⟩))

/-- The files to be purged. -/
def cmdPurgeInfiles : List (Option (List Char)) :=
  (purgeNames start.datadir cmd.1).map fun name => some name.path

/-- What the run is asked to do. -/
def cmdGlobals (w : UintFast32) : IpdedupGlobals w where
  treeMode := cmdMode name cmd
  treeBuilder := .empty (cmdMode name cmd)
  collapsePrefixlenV4 := (lastOf prefixlenV4Of cmd.1).getD 0
  collapsePrefixlenV6 := (lastOf prefixlenV6Of cmd.1).getD 0
  outfile := (lastOf outfileOf cmd.1).getD none
  infiles := cmdInfiles start cmd
  purgeInfiles := cmdPurgeInfiles start cmd
  wantInvert := asked 'i' cmd.1
  wantKeepGoing := asked 'k' cmd.1
  wantStrict := asked 's' cmd.1
  wantLongOutput := asked 'l' cmd.1
  wantReduxOutput := asked 'r' cmd.1
  wantJsonOutput := asked 'J' cmd.1

/-- A value that is asked for comes from an option. -/
theorem exists_of_lastOf {β : Type} {value : Opt → Option β} {opts : List Opt} {b : β}
    (last : lastOf value opts = some b) : ∃ o ∈ opts, value o = some b :=
  List.mem_filterMap.mp (List.mem_of_getLast? last)

theorem modeOf_valid {o : Opt} {mode : ParseIpType} (given : modeOf o = some mode) :
    parseIpCheckTypeValid mode = true := by
  rw [modeOf] at given
  split_ifs at given <;> obtain rfl := Option.some.inj given <;> rfl

theorem guessTreeMode_valid : parseIpCheckTypeValid (guessTreeMode name) = true := by
  unfold guessTreeMode
  split
  · dsimp only
    split_ifs <;> rfl
  · rfl

theorem cmdMode_valid : parseIpCheckTypeValid (cmdMode name cmd) = true := by
  rw [cmdMode]
  cases last : lastOf modeOf cmd.1 with
  | none => exact guessTreeMode_valid name
  | some mode =>
    obtain ⟨o, -, given⟩ := exists_of_lastOf last
    exact modeOf_valid given

/-- The name of the program counts if no mode is asked for. -/
theorem cmdMode_eq {mode : ParseIpType} (set : mode = (lastOf modeOf cmd.1).getD .none) :
    (if mode = .none then guessTreeMode name else mode) = cmdMode name cmd := by
  obtain rfl := set
  rw [cmdMode]
  cases last : lastOf modeOf cmd.1 with
  | none => exact if_pos rfl
  | some mode =>
    obtain ⟨o, -, given⟩ := exists_of_lastOf last
    apply if_neg
    rintro rfl
    exact Bool.false_ne_true (modeOf_valid given)

end Command

/-! ### The run -/

section Run

variable {P : Platform} {start : Startup} {block : Dynarray NamePtr}
  {blocks : Blocks P.fast32} {sys : System} {bufs : ParseBufs P.fast32} {s : MainState}
  {cmd : List Opt × List (List Char)}

/-- The command line was read, and the run may start. -/
structure Ready (start : Startup) (cmd : List Opt × List (List Char)) (s : MainState) : Prop where
  vars : SetBy start cmd.1 s.g
  infiles : listedInfiles s.g.infiles = some (cmdInfiles start cmd)
  purgeInfiles : s.g.purgeInfiles.bind dynarrayNames = some (cmdPurgeInfiles start cmd)
  balanced : Balanced s

theorem Settled.ready (settled : Settled start cmd.1 s) (none : cmd.2 = []) :
    Ready start cmd s := by
  refine ⟨settled.vars, ?_, ?_, settled.balanced⟩
  · rw [settled.infiles, cmdInfiles, if_pos none]
    rfl
  · rw [settled.listed.infiles.names, List.map_map]
    rfl

theorem Named.ready (named : Named start cmd.1
      (cmd.2.map fun arg => ⟨datadirAfter start.datadir cmd.1, arg⟩) s) (given : cmd.2 ≠ []) :
    Ready start cmd s := by
  refine ⟨named.vars, ?_, ?_,
    ⟨named.listed.paths, .live named.listed.infiles, .live named.purgeInfiles⟩⟩
  · have names := named.listed.infiles.names
    rw [cmdInfiles, if_neg given]
    cases array : s.g.infiles with
    | none => rw [array] at names; cases names
    | some darr =>
      rw [array, Option.bind_some] at names
      rw [listedInfiles, names, List.map_map, List.map_map]
      rfl
  · rw [named.purgeInfiles.names, List.map_map]
    rfl

variable (blocks sys bufs) in
/-- What `main_inner` comes to from some point on: it returns without a run, or does what the run
does. -/
def Concludes (stop : Option Int) (g : IpdedupGlobals P.fast32)
    (rest : Run (MainInnerOut P.fast32)) (mem : Mallocs) : Prop :=
  ∃ s mem', (mem = Mallocs.all → mem' = Mallocs.all) ∧ Balanced s ∧
    ((∃ ret, (stop = some ret ∨ ret = exOserr ∧ mem ≠ Mallocs.all) ∧
        rest mem = some (⟨ret, s, none⟩, mem')) ∨
      stop = none ∧ rest mem = (mainRunDynarray P blocks sys g bufs mem').map fun out =>
        (⟨out.1.ret, s, some out.1⟩, out.2))

section Concludes

variable {stop first : Option Int} {g : IpdedupGlobals P.fast32}
  {rest rest' : Run (MainInnerOut P.fast32)} {mem mem' : Mallocs}

/-- What comes before does not end the program. -/
theorem Concludes.after (concludes : Concludes blocks sys bufs stop g rest' mem')
    (goesOn : first = none) (all : mem = Mallocs.all → mem' = Mallocs.all)
    (same : rest mem = rest' mem') : Concludes blocks sys bufs (first.or stop) g rest mem := by
  obtain rfl := goesOn
  obtain ⟨s, mem'', all', balanced, outcome⟩ := concludes
  refine ⟨s, mem'', fun enough => all' (all enough), balanced, ?_⟩
  rw [same]
  refine outcome.imp_left ?_
  rintro ⟨ret, cause, run⟩
  exact ⟨ret, cause.imp_right (And.imp_right fun short enough => short (all enough)), run⟩

/-- It ends the program. -/
theorem Concludes.stops {ret : Int} (balanced : Balanced s)
    (all : mem = Mallocs.all → mem' = Mallocs.all)
    (cause : stop = some ret ∨ ret = exOserr ∧ mem ≠ Mallocs.all)
    (run : rest mem = some (⟨ret, s, none⟩, mem')) :
    Concludes blocks sys bufs stop g rest mem :=
  ⟨s, mem', all, balanced, Or.inl ⟨ret, cause, run⟩⟩

end Concludes

/-- The run starts, unless there is no memory for the builder. -/
theorem mainInnerRun_concludes (ready : Ready start cmd s) (mem : Mallocs) :
    Concludes blocks sys bufs none (cmdGlobals start s.g.progName cmd P.fast32)
      (mainInnerRun P start blocks sys bufs s) mem := by
  have mode : (if s.g.treeMode = .none then
      { s with g.treeMode := guessTreeMode s.g.progName } else s) =
      { s with g.treeMode := cmdMode s.g.progName cmd } := by
    rw [← cmdMode_eq s.g.progName cmd ready.vars.treeMode]
    split_ifs <;> rfl
  have balanced : Balanced { s with g.treeMode := cmdMode s.g.progName cmd } :=
    ⟨ready.balanced.paths, ready.balanced.infiles, ready.balanced.purgeInfiles⟩
  have globals : { s.g with treeMode := cmdMode s.g.progName cmd }.withBuilder
      (.empty (w := P.fast32) (cmdMode s.g.progName cmd)) (cmdInfiles start cmd)
      (cmdPurgeInfiles start cmd) = cmdGlobals start s.g.progName cmd P.fast32 := by
    have vars := ready.vars
    rw [CmdGlobals.withBuilder, cmdGlobals, ← vars.collapsePrefixlenV4, ← vars.collapsePrefixlenV6,
      ← vars.outfile, ← vars.wantInvert, ← vars.wantKeepGoing, ← vars.wantStrict,
      ← vars.wantLongOutput, ← vars.wantReduxOutput, ← vars.wantJsonOutput]
  -- the mode is valid, so that only memory may be missing for the builder
  have tries := ipTreeBuilderNew_tries (w := P.fast32) (cmdMode_valid s.g.progName cmd)
  obtain ⟨new, mem', made, outcome⟩ := tries.2 mem
  have all : mem = Mallocs.all → new ≠ none ∧ mem' = Mallocs.all := by
    rintro rfl
    obtain ⟨rfl, rfl⟩ := Prod.mk.inj (Option.some.inj (made.symm.trans tries.1))
    exact ⟨nofun, rfl⟩
  rcases outcome with rfl | rfl
  · refine ⟨_, mem', fun enough => (all enough).2, balanced, Or.inr ⟨rfl, ?_⟩⟩
    rw [mainInnerRun]
    dsimp only
    rw [mode, Run.bind_apply, made, Option.bind_some]
    dsimp only
    rw [ready.infiles, ready.purgeInfiles, Run.lift_some_bind, Run.lift_some_bind, globals,
      Run.bind_apply]
    exact (Option.map_eq_bind ..).symm
  · -- there is no builder
    refine .stops (s := { s with
      g.treeMode := cmdMode s.g.progName cmd
      stderr := s.stderr ++
        ["Failed to initialize ip tree data structures: " ++ start.enomem ++ "\n"] })
      ⟨balanced.paths, balanced.infiles, balanced.purgeInfiles⟩ (fun enough => (all enough).2)
      (Or.inr ⟨rfl, fun enough => (all enough).1 rfl⟩) ?_
    rw [mainInnerRun]
    dsimp only
    rw [mode, Run.bind_apply, made]
    rfl

variable (block) in
/-- What `main_inner` does with the operands. -/
theorem mainInnerOperands_concludes (settled : Settled start cmd.1 s)
    (few : (purgeNames start.datadir cmd.1).length + cmd.2.length < 2 ^ 60) (mem : Mallocs) :
    Concludes blocks sys bufs (firstRefusal start (datadirAfter start.datadir cmd.1) cmd.2)
      (cmdGlobals start s.g.progName cmd P.fast32)
      (mainInnerOperands P start block blocks sys bufs cmd.2 s) mem := by
  by_cases none : cmd.2 = []
  · -- without operands, the list stays a null pointer
    have same : mainInnerOperands P start block blocks sys bufs cmd.2 s mem =
        mainInnerRun P start blocks sys bufs s mem := by rw [mainInnerOperands, if_pos none]
    have accepted : firstRefusal start (datadirAfter start.datadir cmd.1) cmd.2 = .none := by
      rw [none]
      rfl
    rw [accepted]
    exact (mainInnerRun_concludes (settled.ready none) mem).after rfl id same
  · obtain ⟨new, mem₁, made, all, ⟨rfl, short⟩ | ⟨unused, rfl, positive⟩⟩ :=
      newDynarray_ends block (show cmd.2.length < 2 ^ 60 by omega) mem
    · -- there is no memory for the list of input files
      refine .stops settled.balanced all (Or.inr ⟨rfl, short⟩) ?_
      rw [mainInnerOperands, if_neg none, Run.bind_apply, made]
      rfl
    · have start' : Named start cmd.1 []
          { s with g.infiles := some (live [] unused readonly) } := by
        refine ⟨settled.vars.withLists _ _, settled.listed.infiles, ⟨?_, ?_⟩⟩
        · exact @Lends.live _ [] unused rfl (by simpa using positive)
        · rw [List.append_nil]
          exact settled.listed.owned
      obtain ⟨ret, s', mem₂, run, all', progName, stage⟩ :=
        mainInnerArgs_run block start' cmd.2 (by simpa using few) mem₁
      have enough : mem = Mallocs.all → mem₂ = Mallocs.all := fun h => all' (all h)
      have same : mainInnerOperands P start block blocks sys bufs cmd.2 s mem =
          ret.elim (mainInnerRun P start blocks sys bufs s') (fun ret => pure ⟨ret, s', .none⟩)
            mem₂ := by
        rw [mainInnerOperands, if_neg none, Run.bind_apply, made, Option.bind_some]
        dsimp only
        rw [Run.bind_apply, dynarraySetDataReadonly_live, run, Option.bind_some]
        cases ret <;> rfl
      cases stage with
      | goesOn goesOn named =>
        have concludes :=
          (mainInnerRun_concludes (named.ready none) mem₂).after goesOn enough same
        rwa [Option.or_none, progName] at concludes
      | stops stops balanced => exact .stops balanced enough (Or.inl stops) same
      | noMemory short balanced =>
        exact .stops balanced enough (Or.inr ⟨rfl, fun h => short (all h)⟩) same

/-- The options and operands of a command line. -/
def cmdLine (start : Startup) (argv : List (List Char)) : List Opt × List (List Char) :=
  getopt progOptions start.permutes argv.tail

/-- Every name of a file to be purged is the argument of an option. -/
theorem length_purgeNames_le {opts : List Opt} (declared : ∀ o ∈ opts, Declared progOptions o)
    (datadir : Option (List Char)) : (purgeNames datadir opts).length ≤ (withArg opts).length := by
  induction opts generalizing datadir with
  | nil => exact le_rfl
  | cons o opts ih =>
    obtain ⟨own, others⟩ := List.forall_mem_cons.mp declared
    have rest := ih others ((datadirOf o).getD datadir)
    rw [purgeNames, withArg, List.filter_cons, List.length_append]
    by_cases purge : o.opt = 'p'
    · obtain ⟨optarg, given⟩ := exists_optarg own (by rw [purge]; decide)
      rw [if_pos purge, given]
      simp only [Option.isSome_some, reduceIte, List.length_cons, List.length_nil]
      rw [withArg] at rest
      omega
    · rw [if_neg purge]
      rw [withArg] at rest
      split_ifs <;> simp only [List.length_nil, List.length_cons] <;> omega

/-- No options were read yet. -/
theorem ipdedupGlobalsInit_setBy (start : Startup) :
    SetBy start [] (ipdedupGlobalsInit start.ipdedupDatadir) := by
  unfold ipdedupGlobalsInit
  cases built : start.ipdedupDatadir with
  | none =>
    refine ⟨rfl, rfl, rfl, ?_, rfl, rfl, rfl, rfl, rfl, rfl, rfl⟩
    rw [Startup.datadir, built]
    rfl
  | some datadir =>
    refine ⟨rfl, rfl, rfl, ?_, rfl, rfl, rfl, rfl, rfl, rfl, rfl⟩
    rw [Startup.datadir, built]
    rfl

theorem ipdedupGlobalsInit_lists (ipdedupDatadir : Option (List Char)) :
    (ipdedupGlobalsInit ipdedupDatadir).pileOfShame = none ∧
      (ipdedupGlobalsInit ipdedupDatadir).infiles = none ∧
      (ipdedupGlobalsInit ipdedupDatadir).purgeInfiles = none := by
  unfold ipdedupGlobalsInit
  cases ipdedupDatadir <;> exact ⟨rfl, rfl, rfl⟩

variable (start block blocks sys bufs) in
/-- What `main_inner` comes to. -/
theorem mainInner_concludes {argv : List (List Char)} (few : argv.length < 2 ^ 60)
    (mem : Mallocs) :
    Concludes blocks sys bufs (cmdStop start (cmdLine start argv))
      (cmdGlobals start (progName argv) (cmdLine start argv) P.fast32)
      (mainInner P start block blocks sys bufs argv
        ⟨ipdedupGlobalsInit start.ipdedupDatadir, [], [], []⟩) mem := by
  have declared : ∀ o ∈ (cmdLine start argv).1, Declared progOptions o :=
    declared_getopt start.permutes argv.tail
  have count : (withArg (cmdLine start argv).1).length + (cmdLine start argv).2.length ≤
      argv.tail.length := length_getopt start.permutes argv.tail
  have fewNames := length_purgeNames_le declared start.datadir
  rw [List.length_tail] at count
  have vars := ipdedupGlobalsInit_setBy start
  obtain ⟨pile, infiles, purgeInfiles⟩ := ipdedupGlobalsInit_lists start.ipdedupDatadir
  generalize ipdedupGlobalsInit start.ipdedupDatadir = g at vars pile infiles purgeInfiles ⊢
  obtain ⟨new, mem₁, made, all, ⟨rfl, short⟩ | ⟨unused, rfl, positive⟩⟩ :=
    newDynarray_ends block (show 1 < 2 ^ 60 by decide) mem
  · -- there is no memory for the list of files to be purged
    refine .stops (s := ⟨{ g with progName := progName argv }, [], [], []⟩) ⟨⟨[], rfl, Or.inl ?_⟩,
      ?_, ?_⟩ all (Or.inr ⟨rfl, short⟩) ?_
    · rw [pile]
      exact .null
    · rw [infiles]
      exact .null
    · rw [purgeInfiles]
      exact .null
    · rw [mainInner, Run.bind_apply, made]
      rfl
  · have settled : Settled start [] ⟨{ g with
        progName := progName argv
        purgeInfiles := some (live [] unused readonly) }, [], [], []⟩ := by
      refine ⟨?_, infiles, ⟨?_, [], Nat.zero_le _, rfl, ?_⟩⟩
      · exact ⟨vars.treeMode, vars.collapsePrefixlenV4, vars.collapsePrefixlenV6, vars.datadir,
          vars.outfile, vars.wantInvert, vars.wantKeepGoing, vars.wantStrict, vars.wantLongOutput,
          vars.wantReduxOutput, vars.wantJsonOutput⟩
      · exact @Lends.live _ [] unused rfl (by simpa using positive)
      · dsimp only
        rw [pile]
        exact .null
    obtain ⟨ret, s, mem₂, run, all', name, stage⟩ :=
      mainInnerLoop_run block declared settled (by rw [List.nil_append]; omega) mem₁
    have enough : mem = Mallocs.all → mem₂ = Mallocs.all := fun h => all' (all h)
    -- what is left to do once the options are read
    have same : mainInner P start block blocks sys bufs argv ⟨g, [], [], []⟩ mem =
        ret.elim (mainInnerOperands P start block blocks sys bufs (cmdLine start argv).2 s)
          (fun ret => pure ⟨ret, s, none⟩) mem₂ := by
      rw [cmdLine] at run ⊢
      rw [mainInner, Run.bind_apply, made, Option.bind_some]
      dsimp only
      rw [Run.bind_apply, dynarraySetDataReadonly_live, run, Option.bind_some]
      cases ret <;> rfl
    rw [List.nil_append] at stage
    cases stage with
    | goesOn goesOn settled' =>
      have concludes :=
        (mainInnerOperands_concludes block settled' (by omega) mem₂).after goesOn enough same
      rw [name] at concludes
      exact concludes
    | stops stops balanced =>
      refine .stops balanced enough (Or.inl ?_) same
      rw [cmdStop]
      exact Option.or_eq_some_iff.mpr (Or.inl stops)
    | noMemory short balanced =>
      exact .stops balanced enough (Or.inr ⟨rfl, fun h => short (all h)⟩) same

variable (start block blocks sys bufs) in
/-- The program ends without a run, or does what the run does. In either case, all paths that it
built are freed. -/
theorem main_cases {argv : List (List Char)} (few : argv.length < 2 ^ 60) (mem : Mallocs) :
    ∃ stdout stderr paths mem', (mem = Mallocs.all → mem' = Mallocs.all) ∧
      held paths 0 0 = some 0 ∧
      ((∃ ret, (cmdStop start (cmdLine start argv) = some ret ∨
            ret = exOserr ∧ mem ≠ Mallocs.all) ∧
          main P start block blocks sys bufs argv mem =
            some (⟨mainExitCode ret, stdout, stderr, paths, none⟩, mem')) ∨
        cmdStop start (cmdLine start argv) = none ∧
          main P start block blocks sys bufs argv mem =
            (mainRunDynarray P blocks sys
              (cmdGlobals start (progName argv) (cmdLine start argv) P.fast32) bufs mem').map
              fun out => (⟨mainExitCode out.1.ret, stdout, stderr, paths, some out.1⟩, out.2)) := by
  obtain ⟨s, mem', all, balanced, outcome⟩ :=
    mainInner_concludes start block blocks sys bufs few mem
  obtain ⟨used, inUse, left⟩ := balanced.paths
  obtain ⟨events, freed, frees⟩ :=
    ipdedupGlobalsFree_left left balanced.infiles balanced.purgeInfiles
  refine ⟨s.stdout, s.stderr, s.paths ++ events, mem', all, ?_, ?_⟩
  · -- the globals own what is in use, and free it
    rw [held_append, inUse, Option.bind_some, ← Multiset.add_zero (used : Multiset Nat)]
    exact frees.held _
  · rcases outcome with ⟨ret, cause, run⟩ | ⟨goesOn, run⟩
    · refine Or.inl ⟨ret, cause, ?_⟩
      rw [main, Run.bind_apply, run, Option.bind_some, freed]
      rfl
    · refine Or.inr ⟨goesOn, ?_⟩
      rw [main, Run.bind_apply, run]
      cases mainRunDynarray P blocks sys
          (cmdGlobals start (progName argv) (cmdLine start argv) P.fast32) bufs mem' with
      | none => rfl
      | some out =>
        simp only [Option.map_some, Option.bind_some, freed]
        rfl

end Run

end IpDedup
