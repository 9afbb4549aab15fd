import IpDedup.App.KeepGoing

/-!
# Reading a list of files

`ip_tree_builder_parse_files_do` stops at the first file that fails. A builder
reads `stdin` once: the next request is refused, and nothing else is.

## Main definitions

* `fileRet`, `FileRead`: the return code for a file, and the files that are read without an error
* `AsksStdin`, `AsksStdinAgain`, `AsksStdinTwice`: `stdin` is asked for, and no file before fails

## Main results

* `ipTreeBuilderParseFilesDoInsert_run`: what a run over a list of files returns and leaves
-/

set_option autoImplicit false

namespace IpDedup

open ParseIpAddrFunc

/-! ### Requests for `stdin` -/

/-- The name that stands for `stdin`. -/
def stdinName : Option (List Char) := some ['-']

section Requests

variable (read : Option (List Char) → Prop) (didReadStdin : Bool)
  (names : List (Option (List Char)))

/-- `stdin` is asked for after files that are read. -/
def AsksStdin : Prop :=
  ∃ before after, names = before ++ stdinName :: after ∧ ∀ name ∈ before, read name

/-- The same, but by a builder that may have read it, or for a second time. -/
def AsksStdinAgain : Prop :=
  ∃ before after, names = before ++ stdinName :: after ∧ (∀ name ∈ before, read name) ∧
    (didReadStdin = true ∨ stdinName ∈ before)

/-- `stdin` is asked for at least a second time, after files that are read. -/
def AsksStdinTwice : Prop := AsksStdinAgain read false names

variable {read didReadStdin names} {name : Option (List Char)}

theorem asksStdin_nil : ¬ AsksStdin read [] := by
  rintro ⟨before, after, cut, -⟩
  simp at cut

theorem asksStdinAgain_nil : ¬ AsksStdinAgain read didReadStdin [] := by
  rintro ⟨before, after, cut, -⟩
  simp at cut

theorem asksStdin_cons :
    AsksStdin read (name :: names) ↔ name = stdinName ∨ read name ∧ AsksStdin read names := by
  constructor
  · rintro ⟨before, after, cut, all⟩
    cases before with
    | nil => exact Or.inl (List.cons.inj cut).1
    | cons first before =>
      obtain ⟨rfl, rfl⟩ := List.cons.inj cut
      obtain ⟨good, others⟩ := List.forall_mem_cons.mp all
      exact Or.inr ⟨good, before, after, rfl, others⟩
  · rintro (rfl | ⟨good, before, after, rfl, others⟩)
    · exact ⟨[], names, rfl, by simp⟩
    · exact ⟨name :: before, after, rfl, List.forall_mem_cons.mpr ⟨good, others⟩⟩

theorem asksStdinAgain_cons :
    AsksStdinAgain read didReadStdin (name :: names) ↔
      (name = stdinName ∧ didReadStdin = true) ∨
        read name ∧ AsksStdinAgain read (didReadStdin || decide (name = stdinName)) names := by
  constructor
  · rintro ⟨before, after, cut, all, again⟩
    cases before with
    | nil => exact Or.inl ⟨(List.cons.inj cut).1, by simpa using again⟩
    | cons first before =>
      obtain ⟨rfl, rfl⟩ := List.cons.inj cut
      obtain ⟨good, others⟩ := List.forall_mem_cons.mp all
      refine Or.inr ⟨good, before, after, rfl, others, ?_⟩
      rw [List.mem_cons, ← or_assoc, @eq_comm _ stdinName] at again
      simpa using again
  · rintro (⟨rfl, own⟩ | ⟨good, before, after, rfl, others, again⟩)
    · exact ⟨[], names, rfl, by simp, Or.inl own⟩
    · refine ⟨name :: before, after, rfl, List.forall_mem_cons.mpr ⟨good, others⟩, ?_⟩
      rw [List.mem_cons, ← or_assoc, @eq_comm _ stdinName]
      simpa using again

/-- A second request is a request. -/
theorem AsksStdinAgain.asksStdin (again : AsksStdinAgain read didReadStdin names) :
    AsksStdin read names := by
  obtain ⟨before, after, cut, all, -⟩ := again
  exact ⟨before, after, cut, all⟩

/-- A second request in one of two lists, or one in each of them. -/
theorem asksStdinTwice_append {names' : List (Option (List Char))} :
    AsksStdinTwice read (names ++ names') ↔
      AsksStdinTwice read names ∨
        (∀ name ∈ names, read name) ∧ AsksStdinAgain read (decide (stdinName ∈ names)) names' := by
  constructor
  · rintro ⟨before, after, cut, all, again⟩
    replace again : stdinName ∈ before := by simpa using again
    rcases List.append_eq_append_iff.mp cut with ⟨rest, rfl, rfl⟩ | ⟨rest, rfl, tail⟩
    · -- the second request is one of the other list
      obtain ⟨first, second⟩ := List.forall_mem_append.mp all
      refine Or.inr ⟨first, rest, after, rfl, second, ?_⟩
      simpa using again
    · cases rest with
      | nil =>
        -- the other list begins with the second request
        rw [List.append_nil, ← List.nil_append names'] at *
        refine Or.inr ⟨all, [], after, tail.symm, by simp, Or.inl (by simpa using again)⟩
      | cons name rest =>
        obtain ⟨rfl, -⟩ := List.cons.inj tail
        exact Or.inl ⟨before, rest, rfl, all, Or.inr again⟩
  · rintro (⟨before, after, rfl, all, again⟩ | ⟨first, before, after, rfl, second, again⟩)
    · exact ⟨before, after ++ names', by simp, all, again⟩
    · refine ⟨names ++ before, after, by simp, List.forall_mem_append.mpr ⟨first, second⟩, ?_⟩
      simpa using again

end Requests

/-! ### Reading a file -/

variable {P : Platform}

section FileRet

variable {w : UintFast32} (f : ParseIpAddrFunc w) (keepGoing : Bool)
  (fopen : List Char → Option InputStream) (stdin : InputStream) (name : Option (List Char))

/-- The return code for a file, if it is not refused. -/
def fileRet : ParseIpRet :=
  match openInput fopen stdin name with
  | some input => streamRet f keepGoing input.stream
  | none => if name.getD [] = [] then .badInfile else .readErr

/-- A file that is read without an error. -/
def FileRead : Prop := fileRet f keepGoing fopen stdin name = .success

end FileRet

section Files

variable {f : ParseIpAddrFunc P.fast32} {mode : ParseIpType} {keepGoing strictNetaddr : Bool}
  {obj : IpTreeBuildData P.fast32} (bufs : ParseBufs P.fast32) {out : BuilderOut P.fast32}
  {stream stdin : InputStream} {fopen : List Char → Option InputStream}
  {name : Option (List Char)} {names : List (Option (List Char))} {input : Input}

/-- A stream that is read without an error is not broken, and all its lines pass. -/
theorem passes_of_streamRet (good : streamRet f keepGoing stream = .success) :
    stream.broken = false ∧ ∀ line ∈ stream.effectiveLines, f.Passes keepGoing line := by
  rcases passes_or_stops f keepGoing stream.effectiveLines with
    pass | ⟨before, line, after, cut, pass, stops⟩
  · rw [streamRet_of_passes pass] at good
    refine ⟨?_, pass⟩
    cases broken : stream.broken with
    | false => rfl
    | true =>
      rw [broken] at good
      cases good
  · rw [streamRet_of_stops cut pass stops] at good
    exact absurd (Or.inl good) stops

/-- No stream has the return code for a second request. -/
theorem streamRet_ne_badInfileDup (sound : f.Sound mode) :
    streamRet f keepGoing stream ≠ .badInfileDup := by
  rcases passes_or_stops f keepGoing stream.effectiveLines with
    pass | ⟨before, line, after, cut, pass, stops⟩
  · rw [streamRet_of_passes pass]
    rcases keepGoingRet_cases f stream.effectiveLines with ret | ret <;> rw [ret] <;>
      cases stream.broken <;> decide
  · rw [streamRet_of_stops cut pass stops]
    rcases sound.ret_of_stops stops with ret | ⟨-, ret | ret⟩ <;> rw [ret] <;> decide

theorem fileRet_ne_badInfileDup (sound : f.Sound mode) :
    fileRet f keepGoing fopen stdin name ≠ .badInfileDup := by
  unfold fileRet
  split
  · exact streamRet_ne_badInfileDup sound
  · split_ifs <;> decide

/-- Only `-` is `stdin`. -/
theorem openInput_isStdin (opened : openInput fopen stdin name = some input) :
    input.isStdin = decide (name = stdinName) := by
  cases name with
  | none => cases opened
  | some name =>
    rw [openInput] at opened
    split_ifs at opened with empty dash
    · obtain rfl := Option.some.inj opened
      simp [dash, stdinName]
    · obtain ⟨stream, -, rfl⟩ := Option.map_eq_some_iff.mp opened
      simp [dash, stdinName]

/-- Once `stdin` was read without an error, nothing can be said of it but that it ends. -/
theorem fileRead_drained (good : FileRead f keepGoing fopen stdin stdinName) :
    FileRead f keepGoing fopen stdin.drained = FileRead f keepGoing fopen stdin := by
  have unbroken : stdin.broken = false := (passes_of_streamRet good).1
  funext name
  by_cases dash : name = stdinName
  · subst dash
    refine propext (iff_of_true ?_ good)
    change streamRet f keepGoing stdin.drained = .success
    simp [streamRet, InputStream.drained, InputStream.effectiveLines, unbroken, keepGoingRet]
  · -- other files do not depend on `stdin`
    have other : openInput fopen stdin.drained name = openInput fopen stdin name := by
      cases name with
      | none => rfl
      | some name =>
        have notDash : name ≠ ['-'] := fun same => dash (congrArg some same)
        rw [openInput, openInput, if_neg notDash, if_neg notDash]
    rw [FileRead, FileRead, fileRet, fileRet, other]

/-- What is left of `stdin` after files were read without an error. -/
def stdinAfter (names : List (Option (List Char))) (stdin : InputStream) : InputStream :=
  if stdinName ∈ names then stdin.drained else stdin

/-- Reading files does not change which files are read without an error. -/
theorem fileRead_after (good : ∀ name ∈ names, FileRead f keepGoing fopen stdin name) :
    FileRead f keepGoing fopen (stdinAfter names stdin) = FileRead f keepGoing fopen stdin := by
  unfold stdinAfter
  split_ifs with asked
  · exact fileRead_drained (good stdinName asked)
  · rfl

/-- A file that cannot be opened is not read. -/
theorem ipTreeBuilderParseFile_unopened (fProcessParsed : IpTreeBuildProcessParsedFunc P.fast32)
    (unopened : openInput fopen stdin name = none) (out : BuilderOut P.fast32) :
    ipTreeBuilderParseFile P fProcessParsed fopen keepGoing strictNetaddr name out =
      pure { out with ret := (fileRet f keepGoing fopen stdin name).code } := by
  rw [fileRet, unopened]
  cases name with
  | none => rfl
  | some name =>
    rw [openInput] at unopened
    split_ifs at unopened with empty dash
    · simp [ipTreeBuilderParseFile, empty]
    · have missing : fopen name = none := Option.map_eq_none_iff.mp unopened
      simp [ipTreeBuilderParseFile, empty, dash, missing]

/-- A second request is refused. -/
theorem ipTreeBuilderParseFile_refused (fProcessParsed : IpTreeBuildProcessParsedFunc P.fast32)
    (didRead : out.obj.didReadStdin = true) :
    ipTreeBuilderParseFile P fProcessParsed fopen keepGoing strictNetaddr stdinName out =
      pure { out with ret := ParseIpRet.badInfileDup.code } := by
  simp [ipTreeBuilderParseFile, stdinName, ipTreeBuilderParseStreamDo, didRead]

/-- The builder that is left after files were read without an error. -/
structure BuiltFrom (f : ParseIpAddrFunc P.fast32) (obj obj' : IpTreeBuildData P.fast32) :
    Prop where
  inserted : ∃ lines : List (List Char),
    Inserted (lines.flatMap f.netsV4) (lines.flatMap f.netsV6) obj obj'
  usable : obj'.Usable

theorem BuiltFrom.trans {obj₁ obj₂ obj₃ : IpTreeBuildData P.fast32} (first : BuiltFrom f obj₁ obj₂)
    (second : BuiltFrom f obj₂ obj₃) : BuiltFrom f obj₁ obj₃ := by
  obtain ⟨lines, inserted⟩ := first.inserted
  obtain ⟨lines', inserted'⟩ := second.inserted
  refine ⟨⟨lines ++ lines', ?_⟩, second.usable⟩
  rw [List.flatMap_append, List.flatMap_append]
  exact inserted.append inserted'

theorem BuiltFrom.treeMode {obj' : IpTreeBuildData P.fast32} (built : BuiltFrom f obj obj') :
    obj'.treeMode = obj.treeMode := by
  obtain ⟨lines, inserted⟩ := built.inserted
  exact inserted.treeMode

/-- The round for a file that is not refused. -/
theorem ipTreeBuilderParseFile_run (keepGoing : Bool) (fopen : List Char → Option InputStream)
    (out : BuilderOut P.fast32) (same : out.stream = some stdin)
    (parser : parseIpFileParser P out.obj.treeMode strictNetaddr = some f)
    (usable : out.obj.Usable) (once : ¬ (name = stdinName ∧ out.obj.didReadStdin = true)) :
    ∃ out', ipTreeBuilderParseFile P ipTreeBuilderProcessParsedInsert fopen keepGoing strictNetaddr
        name out Mallocs.all = some (out', Mallocs.all) ∧
      out'.ret = (fileRet f keepGoing fopen stdin name).code ∧
      (out'.obj.didReadStdin = true ↔ out.obj.didReadStdin = true ∨ name = stdinName) ∧
      (FileRead f keepGoing fopen stdin name →
        out'.stream = some (stdinAfter [name] stdin) ∧ BuiltFrom f out.obj out'.obj) := by
  cases opened : openInput fopen stdin name with
  | none =>
    -- there is no line to read, and `stdin` can always be opened
    refine ⟨_, congrFun (ipTreeBuilderParseFile_unopened _ opened out) _, rfl, ?_, ?_⟩
    · have other : name ≠ stdinName := by
        rintro rfl
        cases opened
      simp [other]
    · intro good
      rw [FileRead, fileRet, opened] at good
      split_ifs at good
  | some input =>
    have isStdin := openInput_isStdin opened
    have fresh : input.isStdin = true → out.obj.didReadStdin = false := fun std =>
      Bool.eq_false_iff.mpr fun again => once ⟨of_decide_eq_true (isStdin ▸ std), again⟩
    obtain ⟨file, run, after⟩ := ipTreeBuilderParseStreamDoInsert_run out.bufs parser usable
      keepGoing fresh input.stream
    rw [ipTreeBuilderParseStreamDoInsert] at run
    refine ⟨_, by rw [ipTreeBuilderParseFile_opened opened _ _ same, run]; rfl, ?_, ?_, ?_⟩
    · rw [fileRet, opened]
      exact after.ret
    · rw [after.didReadStdin, isStdin]
      simp
    · intro good
      -- a file that was read well has passed all of its lines
      rw [FileRead, fileRet, opened] at good
      have pass := (passes_of_streamRet good).2
      refine ⟨?_, ⟨_, after.inserted pass⟩, after.usable pass⟩
      rw [after.left pass, isStdin, stdinAfter]
      by_cases dash : name = stdinName
      · subst dash
        obtain rfl := Option.some.inj opened
        simp
      · simp [dash, eq_comm]

/-- What a run over a list of files leaves. -/
structure FilesRun (f : ParseIpAddrFunc P.fast32) (read : Option (List Char) → Prop)
    (stdin : InputStream) (names : List (Option (List Char))) (obj : IpTreeBuildData P.fast32)
    (out : BuilderOut P.fast32) : Prop where
  refused : out.ret = ParseIpRet.badInfileDup.code ↔ AsksStdinAgain read obj.didReadStdin names
  success : out.ret = ParseIpRet.success.code ↔
    (∀ name ∈ names, read name) ∧ ¬ AsksStdinAgain read obj.didReadStdin names
  didReadStdin : out.obj.didReadStdin = true ↔ obj.didReadStdin = true ∨ AsksStdin read names
  left : out.ret = ParseIpRet.success.code → out.stream = some (stdinAfter names stdin)
  built : out.ret = ParseIpRet.success.code → BuiltFrom f obj out.obj

theorem stdinAfter_cons (name : Option (List Char)) (names : List (Option (List Char)))
    (stdin : InputStream) :
    stdinAfter (name :: names) stdin = stdinAfter names (stdinAfter [name] stdin) := by
  unfold stdinAfter
  by_cases own : stdinName = name <;> by_cases rest : stdinName ∈ names <;>
    simp [own, rest, InputStream.drained]

/-- A run over files ends with a refusal, with the first error or at the end of the list. -/
theorem ipTreeBuilderParseFilesDoLoop_run
    (parser : parseIpFileParser P obj.treeMode strictNetaddr = some f) (usable : obj.Usable) :
    ∃ out, ipTreeBuilderParseFilesDoLoop P ipTreeBuilderProcessParsedInsert fopen keepGoing
        strictNetaddr names ⟨ParseIpRet.success.code, obj, some stdin, bufs⟩ Mallocs.all =
        some (out, Mallocs.all) ∧
      FilesRun f (FileRead f keepGoing fopen stdin) stdin names obj out := by
  induction names generalizing obj stdin bufs with
  | nil =>
    refine ⟨_, rfl, ?_, ?_, ?_, fun _ => by simp [stdinAfter], fun _ => ⟨⟨[], inserted_nil obj⟩,
      usable⟩⟩
    · simp [asksStdinAgain_nil]
    · simp [asksStdinAgain_nil]
    · simp [asksStdin_nil]
  | cons name names ih =>
    rw [ipTreeBuilderParseFilesDoLoop, if_neg (not_not_intro rfl), Run.bind_apply]
    by_cases again : name = stdinName ∧ obj.didReadStdin = true
    · -- the request is refused, and the list ends here
      obtain ⟨rfl, didRead⟩ := again
      have asks : AsksStdinAgain (FileRead f keepGoing fopen stdin) obj.didReadStdin
          (stdinName :: names) := asksStdinAgain_cons.mpr (Or.inl ⟨rfl, didRead⟩)
      rw [ipTreeBuilderParseFile_refused _ didRead, Run.pure_apply, Option.bind_some,
        ipTreeBuilderParseFilesDoLoop_stop _ _ (by simp)]
      refine ⟨_, rfl, by simp [asks], by simp [asks], by simp [didRead], ?_, ?_⟩
      all_goals simp
    · obtain ⟨out, round, ret, didRead, next⟩ :=
        ipTreeBuilderParseFile_run keepGoing fopen
          ⟨ParseIpRet.success.code, obj, some stdin, bufs⟩ rfl parser usable again
      rw [round, Option.bind_some]
      have sound := parseIpFileParser_sound parser
      have flag : out.obj.didReadStdin = (obj.didReadStdin || decide (name = stdinName)) := by
        rw [Bool.eq_iff_iff, didRead]
        simp
      by_cases good : FileRead f keepGoing fopen stdin name
      · -- the flag and the rest of `stdin` tell the other files what was asked for
        obtain ⟨left, built⟩ := next good
        have success : out.ret = ParseIpRet.success.code := ret.trans (congrArg _ good)
        obtain ⟨out', run, rest⟩ := @ih out.obj out.bufs (stdinAfter [name] stdin)
          (by rw [built.treeMode]; exact parser) built.usable
        rw [← success, ← left] at run
        rw [fileRead_after (by simpa using good)] at rest
        refine ⟨out', run, ?_, ?_, ?_, ?_, fun success => built.trans (rest.built success)⟩
        · rw [rest.refused, asksStdinAgain_cons, flag]
          simp [again, good]
        · rw [rest.success, asksStdinAgain_cons, flag]
          simp [again, good]
        · rw [rest.didReadStdin, asksStdin_cons, didRead]
          simp [good, or_assoc]
        · rw [stdinAfter_cons]
          exact rest.left
      · -- the list ends here, and not with a refusal
        have bad : out.ret ≠ ParseIpRet.success.code := by
          rw [ret]
          exact fun same => good (ParseIpRet.code_inj.mp same)
        have other : out.ret ≠ ParseIpRet.badInfileDup.code := by
          rw [ret]
          exact fun same => fileRet_ne_badInfileDup sound (ParseIpRet.code_inj.mp same)
        rw [ipTreeBuilderParseFilesDoLoop_stop _ _ bad]
        refine ⟨out, rfl, ?_, ?_, ?_, fun success => absurd success bad,
          fun success => absurd success bad⟩
        · rw [asksStdinAgain_cons]
          simp [again, good, other]
        · simp [good, bad]
        · rw [didRead, asksStdin_cons]
          simp [good]

theorem ipTreeBuilderParseFilesDoInsert_run
    (parser : parseIpFileParser P obj.treeMode strictNetaddr = some f) (usable : obj.Usable)
    (keepGoing : Bool) (fopen : List Char → Option InputStream) (stdin : InputStream)
    (names : List (Option (List Char))) :
    ∃ out, ipTreeBuilderParseFilesDoInsert P obj fopen stdin (some names) keepGoing strictNetaddr
        bufs Mallocs.all = some (out, Mallocs.all) ∧
      FilesRun f (FileRead f keepGoing fopen stdin) stdin names obj out :=
  ipTreeBuilderParseFilesDoLoop_run bufs parser usable

end Files

end IpDedup
