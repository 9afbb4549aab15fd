import IpDedup.App.Decomposition

/-!
# Exit codes

The exit code of a run tells the first thing that went wrong: the first file
that could not be read, input files before files to be purged, and then the
output. A run that fails prints nothing.

## Main definitions

* `filesRet`: the return code for a list of files
* `IpdedupGlobals.exitCode`

## Main results

* `mainRun_exitCode`: the exit code of every run that writes no JSON
-/

set_option autoImplicit false

namespace IpDedup

open ParseIpAddrFunc

variable {P : Platform}

/-! ### Lists of files -/

section Files

/-- The return code for files that are read in turn: that of the first one that is not read. -/
def filesRet {w : UintFast32} (f : ParseIpAddrFunc w) (keepGoing : Bool)
    (fopen : List Char → Option InputStream) (stdin : InputStream) :
    Bool → List (Option (List Char)) → ParseIpRet
  | _, [] => .success
  | didReadStdin, name :: names =>
    if name = stdinName ∧ didReadStdin = true then .badInfileDup
    else if fileRet f keepGoing fopen stdin name = .success then
      filesRet f keepGoing fopen stdin (didReadStdin || decide (name = stdinName)) names
    else fileRet f keepGoing fopen stdin name

variable {f : ParseIpAddrFunc P.fast32} {mode : ParseIpType} {keepGoing strictNetaddr : Bool}
  {fopen : List Char → Option InputStream} {stdin stdin' : InputStream} {didReadStdin : Bool}
  {obj : IpTreeBuildData P.fast32} {stream : InputStream} {name : Option (List Char)}
  {names : List (Option (List Char))} (bufs : ParseBufs P.fast32)

/-- Other files do not depend on `stdin`. -/
theorem fileRet_other (other : name ≠ stdinName) :
    fileRet f keepGoing fopen stdin' name = fileRet f keepGoing fopen stdin name := by
  cases name with
  | none => rfl
  | some name =>
    have notDash : name ≠ ['-'] := fun same => other (congrArg some same)
    rw [fileRet, fileRet, openInput, openInput, if_neg notDash, if_neg notDash]

/-- Once `stdin` was read, what is left of it does not matter. -/
theorem filesRet_didRead :
    filesRet f keepGoing fopen stdin' true names = filesRet f keepGoing fopen stdin true names := by
  induction names with
  | nil => rfl
  | cons name names ih =>
    rw [filesRet, filesRet, Bool.true_or, ih]
    by_cases dash : name = stdinName
    · rw [if_pos ⟨dash, rfl⟩, if_pos ⟨dash, rfl⟩]
    · rw [fileRet_other dash]

theorem filesRet_eq_success :
    filesRet f keepGoing fopen stdin didReadStdin names = .success ↔
      (∀ name ∈ names, FileRead f keepGoing fopen stdin name) ∧
        ¬ AsksStdinAgain (FileRead f keepGoing fopen stdin) didReadStdin names := by
  induction names generalizing didReadStdin with
  | nil => simp [filesRet, asksStdinAgain_nil]
  | cons name names ih =>
    rw [filesRet, asksStdinAgain_cons, List.forall_mem_cons, FileRead]
    split_ifs with again good
    · simp [again]
    · rw [ih]
      simp [again, good]
    · simp [good]

/-- The rounds of a run over files return that code. -/
theorem ipTreeBuilderParseFilesDoLoop_ret
    (parser : parseIpFileParser P obj.treeMode strictNetaddr = some f) (usable : obj.Usable) :
    ∃ out, ipTreeBuilderParseFilesDoLoop P ipTreeBuilderProcessParsedInsert fopen keepGoing
        strictNetaddr names ⟨ParseIpRet.success.code, obj, some stdin, bufs⟩ Mallocs.all =
        some (out, Mallocs.all) ∧
      out.ret = (filesRet f keepGoing fopen stdin obj.didReadStdin names).code := by
  -- a round changes the builder, `stdin` and the buffers, so the induction is over all of them
  induction names generalizing obj stdin bufs with
  | nil => exact ⟨_, rfl, rfl⟩
  | cons name names ih =>
    rw [ipTreeBuilderParseFilesDoLoop, if_neg (not_not_intro rfl), Run.bind_apply, filesRet]
    by_cases again : name = stdinName ∧ obj.didReadStdin = true
    · rw [if_pos again]
      obtain ⟨rfl, didRead⟩ := again
      rw [ipTreeBuilderParseFile_refused _ didRead, Run.pure_apply, Option.bind_some,
        ipTreeBuilderParseFilesDoLoop_stop _ _ (by simp)]
      exact ⟨_, rfl, rfl⟩
    · rw [if_neg again]
      by_cases good : fileRet f keepGoing fopen stdin name = .success
      · rw [if_pos good]
        obtain ⟨out, round, ret, didRead, left, usable', inserted⟩ := ipTreeBuilderParseFile_read
          ⟨ParseIpRet.success.code, obj, some stdin, bufs⟩ rfl parser usable again good
        obtain ⟨out', run, code⟩ := @ih (stdinAfter [name] stdin) out.obj out.bufs
          (by rw [inserted.treeMode]; exact parser) usable'
        rw [round, Option.bind_some]
        rw [← ret, ← left] at run
        refine ⟨out', run, ?_⟩
        rw [code, didRead]
        -- the round has either spent `stdin` or left it alone
        by_cases dash : name = stdinName
        · rw [decide_eq_true dash, Bool.or_true, filesRet_didRead]
        · rw [stdinAfter, if_neg (by simpa using Ne.symm dash)]
      · -- the list ends here
        rw [if_neg good]
        obtain ⟨out, round, ret, -, -⟩ := ipTreeBuilderParseFile_run keepGoing fopen
          ⟨ParseIpRet.success.code, obj, some stdin, bufs⟩ rfl parser usable again
        have bad : out.ret ≠ ParseIpRet.success.code := by
          rw [ret]
          exact fun same => good (ParseIpRet.code_inj.mp same)
        rw [round, Option.bind_some, ipTreeBuilderParseFilesDoLoop_stop _ _ bad]
        exact ⟨out, rfl, ret⟩

theorem ipTreeBuilderParseFilesDoInsert_ret
    (parser : parseIpFileParser P obj.treeMode strictNetaddr = some f) (usable : obj.Usable)
    (keepGoing : Bool) (fopen : List Char → Option InputStream) (stdin : InputStream)
    (names : List (Option (List Char))) :
    ∃ out, ipTreeBuilderParseFilesDoInsert P obj fopen stdin (some names) keepGoing strictNetaddr
        bufs Mallocs.all = some (out, Mallocs.all) ∧
      out.ret = (filesRet f keepGoing fopen stdin obj.didReadStdin names).code :=
  ipTreeBuilderParseFilesDoLoop_ret bufs parser usable

end Files

/-! ### The run -/

section Run

variable (sys : System) (g : IpdedupGlobals P.fast32) (f : ParseIpAddrFunc P.fast32)

/-- The return code for the input files, and for the files to be purged if these are read. -/
def IpdedupGlobals.filesRet : ParseIpRet :=
  let inputs := IpDedup.filesRet f g.wantKeepGoing sys.fopen sys.stdin false g.inputNames
  if inputs ≠ .success then inputs
  else
    IpDedup.filesRet f g.wantKeepGoing sys.fopen (stdinAfter g.inputNames sys.stdin) false
      g.purgeInfiles

/-- The exit code of a run that writes no JSON. -/
def IpdedupGlobals.exitCode : Int :=
  if g.filesRet sys f ≠ .success then (mainInterpretParseRet (g.filesRet sys f).code).1
  else if g.outfile.any fun outfile => !sys.openOutfile outfile then exCantcreat
  else 0

variable {sys g f} {mode : ParseIpType}

theorem filesRet_eq_success_iff : g.filesRet sys f = .success ↔ g.Reads sys f := by
  rw [IpdedupGlobals.filesRet]
  constructor
  · intro success
    split_ifs at success with inputs
    · exact absurd success inputs
    · rw [not_not, filesRet_eq_success] at inputs
      rw [filesRet_eq_success, fileRead_after inputs.1] at success
      exact ⟨inputs.1, success.1, inputs.2, success.2⟩
  · intro reads
    have inputs := filesRet_eq_success.mpr ⟨reads.inputs, reads.inputsOnce⟩
    rw [if_neg (not_not_intro inputs), filesRet_eq_success, fileRead_after reads.inputs]
    exact ⟨reads.purges, reads.purgesOnce⟩

/-- The code of a list of files is success, a refusal or the code of a file. -/
theorem filesRet_cases (f : ParseIpAddrFunc P.fast32) (keepGoing : Bool)
    (fopen : List Char → Option InputStream) (stdin : InputStream) (didReadStdin : Bool)
    (names : List (Option (List Char))) :
    filesRet f keepGoing fopen stdin didReadStdin names = .success ∨
      filesRet f keepGoing fopen stdin didReadStdin names = .badInfileDup ∨
      ∃ name ∈ names, filesRet f keepGoing fopen stdin didReadStdin names =
        fileRet f keepGoing fopen stdin name := by
  induction names generalizing didReadStdin with
  | nil => exact Or.inl rfl
  | cons name names ih =>
    rw [filesRet]
    split_ifs with again good
    · exact Or.inr (Or.inl rfl)
    · rcases ih (didReadStdin || decide (name = stdinName)) with ret | ret | ⟨other, mem, ret⟩
      · exact Or.inl ret
      · exact Or.inr (Or.inl ret)
      · exact Or.inr (Or.inr ⟨other, List.mem_cons_of_mem _ mem, ret⟩)
    · exact Or.inr (Or.inr ⟨name, List.mem_cons_self, rfl⟩)

section Codes

variable {keepGoing didReadStdin : Bool} {fopen : List Char → Option InputStream}
  {stdin : InputStream} {names : List (Option (List Char))} {name : Option (List Char)}

/-- The exit code for a file that is not read; it is a software error only for a line in
hexadecimal notation. -/
theorem fileRet_exitCode (sound : f.Sound mode) :
    (mainInterpretParseRet (fileRet f keepGoing fopen stdin name).code).1 ≠ exSoftware ∨
      ∃ line ∈ fileLines fopen stdin name, HexNotation line := by
  unfold fileRet fileLines
  cases openInput fopen stdin name with
  | none =>
    apply Or.inl
    dsimp only
    split_ifs <;> decide
  | some input =>
    rcases passes_or_stops f keepGoing input.stream.effectiveLines with
      pass | ⟨before, line, after, cut, pass, stops⟩
    · apply Or.inl
      dsimp only
      rw [streamRet_of_passes pass]
      rcases keepGoingRet_cases f input.stream.effectiveLines with code | code <;> rw [code] <;>
        split_ifs <;> decide
    · dsimp only
      rw [streamRet_of_stops cut pass stops]
      -- the line that stops the parser is in hexadecimal notation or bad
      rcases sound.outcome line with ⟨hex, -⟩ | ⟨-, valid | bad⟩
      · exact Or.inr ⟨line, by simp [cut], hex⟩
      · exact absurd (Or.inl valid) stops
      · apply Or.inl
        rcases bad with bad | bad <;> rw [bad] <;> decide

theorem filesRet_exitCode (sound : f.Sound mode) :
    (mainInterpretParseRet (filesRet f keepGoing fopen stdin didReadStdin names).code).1 ≠
        exSoftware ∨ ∃ line ∈ inputLines fopen stdin names, HexNotation line := by
  rcases filesRet_cases f keepGoing fopen stdin didReadStdin names with
    ret | ret | ⟨name, mem, ret⟩
  · exact Or.inl (by rw [ret]; decide)
  · exact Or.inl (by rw [ret]; decide)
  · rw [ret]
    refine (fileRet_exitCode sound).imp_right ?_
    rintro ⟨line, own, hex⟩
    exact ⟨line, List.mem_flatMap.mpr ⟨name, mem, own⟩, hex⟩

end Codes

theorem exitCode_eq_zero : g.exitCode sys f = 0 ↔ g.Reads sys f ∧ g.Opens sys := by
  rw [IpdedupGlobals.exitCode, ← filesRet_eq_success_iff, opens_iff]
  split_ifs with read closed
  · rw [mainInterpretParseRet_eq_zero, ParseIpRet.code_inj]
    simp [read]
  · simp [exCantcreat, closed]
  · rw [not_not] at read
    simp [read, closed]

/-- Only lines in hexadecimal notation are a software error. -/
theorem exitCode_exSoftware (sound : f.Sound mode) (software : g.exitCode sys f = exSoftware) :
    ∃ line ∈ g.inputLines sys ++ g.purgeLines sys, HexNotation line := by
  rw [IpdedupGlobals.exitCode] at software
  split_ifs at software with read closed
  · rw [IpdedupGlobals.filesRet] at software
    split_ifs at software with inputs
    · obtain ⟨line, mem, hex⟩ := (filesRet_exitCode sound).resolve_left (not_not_intro software)
      exact ⟨line, List.mem_append_left _ mem, hex⟩
    · obtain ⟨line, mem, hex⟩ := (filesRet_exitCode sound).resolve_left (not_not_intro software)
      exact ⟨line, List.mem_append_right _ mem, hex⟩
  · exact absurd software (by decide)
  · exact absurd software (by decide)

/-- A run that cannot read all its files ends with the first failure and prints nothing. -/
theorem mainRun_unread (made : g.treeBuilder = .empty g.treeMode)
    (parser : parseIpFileParser P g.treeMode g.wantStrict = some f)
    (unread : g.filesRet sys f ≠ .success) (bufs : ParseBufs P.fast32) :
    ∃ out, mainRun P sys g bufs Mallocs.all = some (out, Mallocs.all) ∧
      out.ret = (mainInterpretParseRet (g.filesRet sys f).code).1 ∧ out.outstream = [] := by
  have failed : (mainInterpretParseRet (g.filesRet sys f).code).1 ≠ 0 := by
    rwa [ne_eq, mainInterpretParseRet_eq_zero, ParseIpRet.code_inj]
  rw [IpdedupGlobals.filesRet] at failed ⊢
  -- either an input file is not read, or all are and a file to be purged is not
  split_ifs at failed ⊢ with inputs
  · have start := mainRunSetAutoCollapse_new made
    have fresh : (mainRunSetAutoCollapse g).didReadStdin = false := by rw [start]
    obtain ⟨parsed, run, ret⟩ := ipTreeBuilderParseFilesDoInsert_ret bufs
      (by rw [start]; exact parser) (mainRunSetAutoCollapse_usable made) g.wantKeepGoing sys.fopen
      sys.stdin g.inputNames
    rw [fresh] at ret
    rw [mainRun, Run.bind_apply, mainInnerParseInput_eq, run, Option.bind_some, ret, if_pos failed]
    exact ⟨_, rfl, rfl, rfl⟩
  · rw [not_not, filesRet_eq_success] at inputs
    obtain ⟨kept, bufs', -, goOn⟩ := mainRun_kept made parser inputs.1 inputs.2 bufs
    have nonempty : ¬ g.purgeInfiles.length < 1 := by
      intro none
      rw [List.length_eq_zero_iff.mp (Nat.lt_one_iff.mp none)] at failed
      exact failed rfl
    obtain ⟨purge, run, ret⟩ := ipTreeBuilderParseFilesDoInsert_ret bufs' parser
      (IpTreeBuildData.empty_usable g.treeMode) g.wantKeepGoing sys.fopen
      (stdinAfter g.inputNames sys.stdin) g.purgeInfiles
    have new := ipTreeBuilderNew_all (w := P.fast32) (parseIpFileParser_valid parser)
    have fresh : (IpTreeBuildData.empty (w := P.fast32) g.treeMode).didReadStdin = false := rfl
    rw [fresh] at ret
    rw [goOn, mainRunKept, if_neg nonempty]
    simp only [mainParseDedupToTree, Run.bind_apply, new, Option.bind_some, run, Run.pure_apply,
      mainRunPurgeParsed, ret]
    rw [if_pos failed]
    exact ⟨_, rfl, rfl, rfl⟩

/-- A run that writes no JSON comes to an end, and prints nothing if it fails. -/
theorem mainRun_ends
    (made : ipTreeBuilderNew g.treeMode Mallocs.all = some (some g.treeBuilder, Mallocs.all))
    (parser : parseIpFileParser P g.treeMode g.wantStrict = some f)
    (plain : g.wantJsonOutput = false) (bufs : ParseBufs P.fast32) :
    ∃ out, mainRun P sys g bufs Mallocs.all = some (out, Mallocs.all) ∧
      out.ret = g.exitCode sys f ∧ (out.ret ≠ 0 → out.outstream = []) := by
  have new := treeBuilder_eq_empty made parser
  by_cases read : g.filesRet sys f = .success
  · have reads := filesRet_eq_success_iff.mp read
    by_cases opens : g.Opens sys
    · obtain ⟨out, run, ret, -, -⟩ := mainRun_prints ⟨made, parser, reads, opens, plain⟩ bufs
      refine ⟨out, run, ?_, fun failed => absurd ret failed⟩
      rw [ret, exitCode_eq_zero.mpr ⟨reads, opens⟩]
    · -- the output cannot be opened, and the trees are not printed
      have closed := not_not.mp (opens_iff.not.mp opens)
      obtain ⟨obj, purgeBuilder, -, -, run⟩ := mainRun_staged new parser reads bufs
      rw [mainRunPrint, if_pos closed] at run
      refine ⟨_, run, ?_, fun _ => rfl⟩
      rw [IpdedupGlobals.exitCode, if_neg (not_not_intro read), if_pos closed]
  · obtain ⟨out, run, ret, silent⟩ := mainRun_unread new parser read bufs
    refine ⟨out, run, ?_, fun _ => silent⟩
    rw [ret, IpdedupGlobals.exitCode, if_pos read]

/-- While allocation succeeds, a run that writes no JSON comes to an end, whatever its input. Its
exit code is that of the first failure: it is zero exactly if all files can be read and the output
can be opened, a run with another code prints nothing, and only a line in hexadecimal notation is a
software error. -/
theorem mainRun_exitCode
    (made : ipTreeBuilderNew g.treeMode Mallocs.all = some (some g.treeBuilder, Mallocs.all))
    (parser : parseIpFileParser P g.treeMode g.wantStrict = some f)
    (plain : g.wantJsonOutput = false) (bufs : ParseBufs P.fast32) :
    ∃ out, mainRun P sys g bufs Mallocs.all = some (out, Mallocs.all) ∧
      out.ret = g.exitCode sys f ∧ (out.ret = 0 ↔ g.Reads sys f ∧ g.Opens sys) ∧
      (out.ret ≠ 0 → out.outstream = []) ∧
      (out.ret = exSoftware →
        ∃ line ∈ g.inputLines sys ++ g.purgeLines sys, HexNotation line) := by
  obtain ⟨out, run, ret, silent⟩ := mainRun_ends made parser plain bufs
  refine ⟨out, run, ret, ?_, silent, fun software => ?_⟩
  · rw [ret, exitCode_eq_zero]
  · exact exitCode_exSoftware (parseIpFileParser_sound parser) (ret ▸ software)

/-- In strict mode, an address with host bits ends the run, and the valid line before it is not
printed. -/
theorem mainRun_exitCode_hostBits :
    let P : Platform := ⟨.bits64, fun x _ => x, fun x _ => x⟩
    let f : ParseIpAddrFunc P.fast32 := parseIp4NetAddrCombined P
    let sys : System := ⟨fun _ => none,
      ⟨["10.0.0.0/8\n".toList, "10.0.0.1/24\n".toList], false⟩, fun _ => true⟩
    let g : IpdedupGlobals P.fast32 := ⟨.onlyIpv4, .empty .onlyIpv4, 0, 0, none, none, [],
      false, false, true, false, false, false⟩
    g.exitCode sys f = exDataerr ∧
      ∃ out, mainRun P sys g .zero Mallocs.all = some (out, Mallocs.all) ∧
        out.ret = g.exitCode sys f ∧ (out.ret = 0 ↔ g.Reads sys f ∧ g.Opens sys) ∧
        (out.ret ≠ 0 → out.outstream = []) ∧
        (out.ret = exSoftware →
          ∃ line ∈ g.inputLines sys ++ g.purgeLines sys, HexNotation line) := by
  intro P f sys g
  exact ⟨by decide +kernel, mainRun_exitCode (ipTreeBuilderNew_all rfl) rfl rfl .zero⟩

end Run

end IpDedup
