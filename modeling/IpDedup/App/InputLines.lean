import IpDedup.App.FilesRun

/-!
# The lines of the input

A run over files that can all be read inserts the networks of their lines, file
by file and line by line.

## Main definitions

* `fileLines`, `inputLines`: the effective lines of a file, and of a list of files

## Main results

* `ipTreeBuilderParseFilesDoInsert_read`: which networks such a run inserts
-/

set_option autoImplicit false

namespace IpDedup

open ParseIpAddrFunc

section Lines

variable (fopen : List Char → Option InputStream) (stdin : InputStream)

/-- The effective lines of a file. A file that cannot be opened has none. -/
def fileLines (name : Option (List Char)) : List (List Char) :=
  match openInput fopen stdin name with
  | some input => input.stream.effectiveLines
  | none => []

/-- The effective lines of some files, in the order in which they are read. -/
def inputLines (names : List (Option (List Char))) : List (List Char) :=
  names.flatMap (fileLines fopen stdin)

variable {fopen stdin}

/-- Other files do not depend on `stdin`. -/
theorem fileLines_other {name : Option (List Char)} (other : name ≠ stdinName)
    (stdin' : InputStream) : fileLines fopen stdin' name = fileLines fopen stdin name := by
  cases name with
  | none => rfl
  | some name =>
    have notDash : name ≠ ['-'] := fun same => other (congrArg some same)
    rw [fileLines, fileLines, openInput, openInput, if_neg notDash, if_neg notDash]

theorem inputLines_other {names : List (Option (List Char))} (other : stdinName ∉ names)
    (stdin' : InputStream) : inputLines fopen stdin' names = inputLines fopen stdin names := by
  apply List.flatMap_congr
  intro name mem
  exact fileLines_other (fun dash => other (dash ▸ mem)) stdin'

end Lines

section Read

variable {P : Platform} {f : ParseIpAddrFunc P.fast32} {keepGoing strictNetaddr : Bool}
  {obj : IpTreeBuildData P.fast32} {stdin : InputStream}
  {fopen : List Char → Option InputStream} {name : Option (List Char)}
  {names : List (Option (List Char))} (bufs : ParseBufs P.fast32)

/-- The round for a file that is read inserts the networks of its lines. -/
theorem ipTreeBuilderParseFile_read (out : BuilderOut P.fast32) (same : out.stream = some stdin)
    (parser : parseIpFileParser P out.obj.treeMode strictNetaddr = some f)
    (usable : out.obj.Usable) (once : ¬ (name = stdinName ∧ out.obj.didReadStdin = true))
    (good : FileRead f keepGoing fopen stdin name) :
    ∃ out', ipTreeBuilderParseFile P ipTreeBuilderProcessParsedInsert fopen keepGoing strictNetaddr
        name out Mallocs.all = some (out', Mallocs.all) ∧
      out'.ret = ParseIpRet.success.code ∧
      out'.obj.didReadStdin = (out.obj.didReadStdin || decide (name = stdinName)) ∧
      out'.stream = some (stdinAfter [name] stdin) ∧ out'.obj.Usable ∧
      Inserted ((fileLines fopen stdin name).flatMap f.netsV4)
        ((fileLines fopen stdin name).flatMap f.netsV6) out.obj out'.obj := by
  obtain ⟨out', run, ret, didRead, next⟩ :=
    ipTreeBuilderParseFile_run keepGoing fopen out same parser usable once
  obtain ⟨left, built⟩ := next good
  refine ⟨out', run, ret.trans (congrArg _ good), ?_, left, built.usable, ?_⟩
  · rw [Bool.eq_iff_iff, didRead]
    simp
  · cases opened : openInput fopen stdin name with
    | none =>
      rw [FileRead, fileRet, opened] at good
      split_ifs at good
    | some input =>
      -- the same run, as a run over a stream
      have fresh : input.isStdin = true → out.obj.didReadStdin = false := by
        intro std
        rw [openInput_isStdin opened, decide_eq_true_eq] at std
        exact Bool.eq_false_iff.mpr fun again => once ⟨std, again⟩
      obtain ⟨file, streamRun, after⟩ := ipTreeBuilderParseStreamDoInsert_run out.bufs parser usable
        keepGoing fresh input.stream
      rw [ipTreeBuilderParseStreamDoInsert] at streamRun
      rw [ipTreeBuilderParseFile_opened opened _ _ same, streamRun] at run
      have obj : file.obj = out'.obj := congrArg (fun out => out.1.obj) (Option.some.inj run)
      rw [FileRead, fileRet, opened] at good
      rw [fileLines, opened, ← obj]
      exact after.inserted (passes_of_streamRet good).2

/-- A run over files that are read inserts the networks of their lines. -/
theorem ipTreeBuilderParseFilesDoLoop_read
    (parser : parseIpFileParser P obj.treeMode strictNetaddr = some f) (usable : obj.Usable)
    (read : ∀ name ∈ names, FileRead f keepGoing fopen stdin name)
    (once : ¬ AsksStdinAgain (FileRead f keepGoing fopen stdin) obj.didReadStdin names) :
    ∃ out, ipTreeBuilderParseFilesDoLoop P ipTreeBuilderProcessParsedInsert fopen keepGoing
        strictNetaddr names ⟨ParseIpRet.success.code, obj, some stdin, bufs⟩ Mallocs.all =
        some (out, Mallocs.all) ∧
      Inserted ((inputLines fopen stdin names).flatMap f.netsV4)
        ((inputLines fopen stdin names).flatMap f.netsV6) obj out.obj := by
  induction names generalizing obj stdin bufs with
  | nil => exact ⟨_, rfl, inserted_nil obj⟩
  | cons name names ih =>
    obtain ⟨good, others⟩ := List.forall_mem_cons.mp read
    rw [asksStdinAgain_cons, not_or] at once
    obtain ⟨out, round, ret, didRead, left, usable', inserted⟩ := ipTreeBuilderParseFile_read
      ⟨ParseIpRet.success.code, obj, some stdin, bufs⟩ rfl parser usable once.1 good
    have after : FileRead f keepGoing fopen (stdinAfter [name] stdin) =
        FileRead f keepGoing fopen stdin := fileRead_after (by simpa using good)
    have onceMore : ¬ AsksStdinAgain (FileRead f keepGoing fopen (stdinAfter [name] stdin))
        out.obj.didReadStdin names := by
      rw [after, didRead]
      exact fun again => once.2 ⟨good, again⟩
    obtain ⟨out', run, rest⟩ := @ih out.obj (stdinAfter [name] stdin) out.bufs
      (by rw [inserted.treeMode]; exact parser) usable' (by rw [after]; exact others) onceMore
    rw [← ret, ← left] at run
    rw [ipTreeBuilderParseFilesDoLoop, if_neg (not_not_intro rfl), Run.bind_apply, round,
      Option.bind_some]
    -- the other files are the same before and after this one
    have lines : inputLines fopen (stdinAfter [name] stdin) names =
        inputLines fopen stdin names := by
      by_cases dash : name = stdinName
      · subst dash
        apply inputLines_other
        intro again
        apply onceMore
        obtain ⟨before, behind, rfl⟩ := List.append_of_mem again
        rw [didRead]
        refine ⟨before, behind, rfl, fun name mem => ?_, Or.inl (by simp)⟩
        rw [after]
        exact others name (List.mem_append_left _ mem)
      · rw [stdinAfter, if_neg (by simpa using Ne.symm dash)]
    rw [lines] at rest
    refine ⟨out', run, ?_⟩
    rw [inputLines, List.flatMap_cons, List.flatMap_append, List.flatMap_append]
    exact inserted.append rest

/-- A run that reads all files succeeds, and inserts the networks of their lines. -/
theorem ipTreeBuilderParseFilesDoInsert_read
    (parser : parseIpFileParser P obj.treeMode strictNetaddr = some f) (usable : obj.Usable)
    (read : ∀ name ∈ names, FileRead f keepGoing fopen stdin name)
    (once : ¬ AsksStdinAgain (FileRead f keepGoing fopen stdin) obj.didReadStdin names) :
    ∃ out, ipTreeBuilderParseFilesDoInsert P obj fopen stdin (some names) keepGoing strictNetaddr
        bufs Mallocs.all = some (out, Mallocs.all) ∧
      out.ret = ParseIpRet.success.code ∧ out.stream = some (stdinAfter names stdin) ∧
      out.obj.Usable ∧
      Inserted ((inputLines fopen stdin names).flatMap f.netsV4)
        ((inputLines fopen stdin names).flatMap f.netsV6) obj out.obj := by
  obtain ⟨out, run, after⟩ := ipTreeBuilderParseFilesDoInsert_run bufs parser usable keepGoing
    fopen stdin names
  obtain ⟨out', run', inserted⟩ := ipTreeBuilderParseFilesDoLoop_read bufs parser usable read once
  obtain rfl : out' = out := congrArg Prod.fst (Option.some.inj (run'.symm.trans run))
  have success := after.success.mpr ⟨read, once⟩
  exact ⟨out', run, success, after.left success, (after.built success).usable, inserted⟩

end Read

end IpDedup
