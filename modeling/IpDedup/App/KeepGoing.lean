import IpDedup.App.StreamRet

/-!
# Keep-going mode

With `-k`, invalid lines are skipped. What `ip_tree_io/builder.c` makes of a
stream is told by its effective lines alone, each parsed as if it were the
first; a file fails if it has lines, but no valid one, and the first file that
fails is the last one that is read.

## Main definitions

* `keepGoingFilesRet`: the return code for a list of files
* `inputsRead`: the inputs up to the first that fails
* `KeepsGoing`: what a run is to do

## Main results

* `ipTreeBuilderParseDoInsert_iff`: a run does that if and only if no line that it is to read is in
  hexadecimal notation, which the parsers refuse as not implemented
-/

set_option autoImplicit false

namespace IpDedup

open ParseIpAddrFunc

variable {w : UintFast32}

/-! ### Reading a stream -/

variable {P : Platform}

section Streams

variable {f : ParseIpAddrFunc P.fast32} {mode : ParseIpType} {strictNetaddr isStdin : Bool}
  {obj : IpTreeBuildData P.fast32} (bufs : ParseBufs P.fast32) {line : List Char}
  {stream : InputStream}

/-- In keep-going mode, the lines that pass are those that are not in hexadecimal notation. -/
theorem passes_iff_not_hexNotation (sound : f.Sound mode) :
    f.Passes true line ↔ ¬ HexNotation line := by
  rcases sound.outcome line with ⟨hex, ret⟩ | ⟨plain, valid | invalid⟩
  · simp [Passes, Valid, hex, ret]
  · simp [Passes, plain, valid]
  · simp [Passes, plain, invalid]

/-- What keep-going mode is to do with lines: the networks of the valid ones are inserted. Then
`ret` is returned, and `left` is left of the stream. -/
def KeepsGoing (f : ParseIpAddrFunc P.fast32) (lines : List (List Char)) (ret : ParseIpRet)
    (left : InputStream) (obj : IpTreeBuildData P.fast32)
    (run : Option (BuilderOut P.fast32 × Mallocs)) : Prop :=
  ∃ obj' bufs', run = some (⟨ret.code, obj', some left, bufs'⟩, Mallocs.all) ∧
    Inserted (lines.flatMap f.netsV4) (lines.flatMap f.netsV6) obj obj'

/-- A run over lines none of which is in hexadecimal notation. -/
theorem ipTreeBuilderParseStreamDoInsert_plain
    (parser : parseIpFileParser P obj.treeMode strictNetaddr = some f) (usable : obj.Usable)
    (once : isStdin = true → obj.didReadStdin = false) (unbroken : stream.broken = false)
    (plain : ∀ line ∈ stream.effectiveLines, ¬ HexNotation line) :
    ∃ obj' bufs',
      ipTreeBuilderParseStreamDoInsert P obj (some stream) isStdin true strictNetaddr bufs
          Mallocs.all =
        some (⟨(keepGoingRet f stream.effectiveLines).code, obj', some stream.drained, bufs'⟩,
          Mallocs.all) ∧
      Inserted (stream.effectiveLines.flatMap f.netsV4) (stream.effectiveLines.flatMap f.netsV6)
        obj obj' ∧
      obj'.Usable ∧ obj'.didReadStdin = (obj.didReadStdin || isStdin) := by
  have pass : ∀ line ∈ stream.effectiveLines, f.Passes true line := fun line mem =>
    (passes_iff_not_hexNotation (parseIpFileParser_sound parser)).mpr (plain line mem)
  obtain ⟨⟨ret, obj', left, bufs'⟩, run, after⟩ :=
    ipTreeBuilderParseStreamDoInsert_run bufs parser usable true once stream
  refine ⟨obj', bufs', ?_, after.inserted pass, after.usable pass, after.didReadStdin⟩
  obtain rfl : left = some stream.drained := after.left pass
  obtain rfl : ret = (keepGoingRet f stream.effectiveLines).code := by
    refine after.ret.trans ?_
    rw [streamRet_of_passes pass, unbroken]
    rfl
  exact run

/-- A run ends at a line in hexadecimal notation. -/
theorem ipTreeBuilderParseStreamDoInsert_hex
    (parser : parseIpFileParser P obj.treeMode strictNetaddr = some f) (usable : obj.Usable)
    (once : isStdin = true → obj.didReadStdin = false)
    (hex : ∃ line ∈ stream.effectiveLines, HexNotation line) :
    ∃ out,
      ipTreeBuilderParseStreamDoInsert P obj (some stream) isStdin true strictNetaddr bufs
          Mallocs.all = some (out, Mallocs.all) ∧
        out.ret = ParseIpRet.notImplemented.code := by
  have sound := parseIpFileParser_sound parser
  obtain ⟨out, run, after⟩ :=
    ipTreeBuilderParseStreamDoInsert_run bufs parser usable true once stream
  refine ⟨out, run, ?_⟩
  rcases passes_or_stops f true stream.effectiveLines with
    pass | ⟨before, line, rest, cut, pass, stops⟩
  · -- a line in hexadecimal notation does not pass
    obtain ⟨line, mem, hexLine⟩ := hex
    exact absurd hexLine ((passes_iff_not_hexNotation sound).mp (pass line mem))
  · rw [after.ret, streamRet_of_stops cut pass stops]
    rcases sound.ret_of_stops stops with ret | ⟨strict, -⟩
    · rw [ret]
    · cases strict

end Streams

/-! ### Reading files -/

/-- An input that was opened. -/
structure Input where
  isStdin : Bool
  stream : InputStream

/-- The input that a file name stands for. -/
def openInput (fopen : List Char → Option InputStream) (stdin : InputStream) :
    Option (List Char) → Option Input
  | none => none
  | some name =>
    if name = [] then none
    else if name = ['-'] then some ⟨true, stdin⟩
    else (fopen name).map fun stream => ⟨false, stream⟩

/-- The inputs up to the first that fails. -/
def inputsRead {w : UintFast32} (f : ParseIpAddrFunc w) : List Input → List Input
  | [] => []
  | input :: inputs =>
    if keepGoingRet f input.stream.effectiveLines = .success then input :: inputsRead f inputs
    else [input]

/-- The return code for a list of files. -/
def keepGoingFilesRet {w : UintFast32} (f : ParseIpAddrFunc w) (inputs : List Input) : ParseIpRet :=
  if ∀ input ∈ inputs, keepGoingRet f input.stream.effectiveLines = .success then .success
  else .invalid

/-- What is left of `stdin`. -/
def stdinLeft (inputs : List Input) (stdin : InputStream) : InputStream :=
  if inputs.any Input.isStdin then stdin.drained else stdin

section Files

variable {f : ParseIpAddrFunc P.fast32} {strictNetaddr : Bool}
  {obj : IpTreeBuildData P.fast32} (bufs : ParseBufs P.fast32) {out : BuilderOut P.fast32}
  {stdin : InputStream} {fopen : List Char → Option InputStream} {name : Option (List Char)}
  {names : List (Option (List Char))} {input : Input} {inputs : List Input}

/-- Only `-` depends on `stdin`. -/
theorem openInput_other (opened : openInput fopen stdin name = some input)
    (other : input.isStdin = false) (stdin' : InputStream) :
    openInput fopen stdin' name = some input := by
  cases name with
  | none => cases opened
  | some name =>
    rw [openInput] at opened ⊢
    split_ifs at opened ⊢ with empty dash
    · obtain rfl := Option.some.inj opened
      cases other
    · exact opened

theorem openInput_stdin (opened : openInput fopen stdin name = some input)
    (isStdin : input.isStdin = true) : input.stream = stdin := by
  cases name with
  | none => cases opened
  | some name =>
    rw [openInput] at opened
    split_ifs at opened with empty dash
    · obtain rfl := Option.some.inj opened
      rfl
    · obtain ⟨stream, -, rfl⟩ := Option.map_eq_some_iff.mp opened
      cases isStdin

/-- A file that can be opened is run as a stream. -/
theorem ipTreeBuilderParseFile_opened (opened : openInput fopen stdin name = some input)
    (fProcessParsed : IpTreeBuildProcessParsedFunc P.fast32) (keepGoing : Bool)
    (same : out.stream = some stdin) (mem : Mallocs) :
    ipTreeBuilderParseFile P fProcessParsed fopen keepGoing strictNetaddr name out mem =
      (ipTreeBuilderParseStreamDo P fProcessParsed out.obj (some input.stream) input.isStdin
          keepGoing strictNetaddr out.bufs mem).map fun file =>
        ({ file.1 with stream := if input.isStdin then file.1.stream else some stdin },
          file.2) := by
  cases name with
  | none => cases opened
  | some name =>
    rw [openInput] at opened
    split_ifs at opened with empty dash
    · obtain rfl := Option.some.inj opened
      rw [ipTreeBuilderParseFile, if_neg empty, if_pos dash, same]
      exact (congrFun Option.map_id _).symm
    · obtain ⟨stream, fopened, rfl⟩ := Option.map_eq_some_iff.mp opened
      simp only [ipTreeBuilderParseFile, if_neg empty, if_neg dash, fopened, same]
      rw [Run.bind_apply, Option.map_eq_bind]
      rfl

theorem ipTreeBuilderParseFilesDoLoop_stop
    (fProcessParsed : IpTreeBuildProcessParsedFunc P.fast32) (keepGoing : Bool)
    (bad : out.ret ≠ ParseIpRet.success.code) :
    ipTreeBuilderParseFilesDoLoop P fProcessParsed fopen keepGoing strictNetaddr names out =
      pure out := by
  cases names with
  | nil => rfl
  | cons name names => exact if_pos bad

/-- The round for a file in keep-going mode. -/
theorem ipTreeBuilderParseFile_plain (out : BuilderOut P.fast32)
    (opened : openInput fopen stdin name = some input)
    (same : out.stream = some stdin)
    (parser : parseIpFileParser P out.obj.treeMode strictNetaddr = some f)
    (usable : out.obj.Usable) (once : input.isStdin = true → out.obj.didReadStdin = false)
    (unbroken : input.stream.broken = false)
    (plain : ∀ line ∈ input.stream.effectiveLines, ¬ HexNotation line) :
    ∃ obj' bufs',
      ipTreeBuilderParseFile P ipTreeBuilderProcessParsedInsert fopen true strictNetaddr name out
          Mallocs.all =
        some (⟨(keepGoingRet f input.stream.effectiveLines).code, obj',
          some (stdinLeft [input] stdin), bufs'⟩, Mallocs.all) ∧
      Inserted (input.stream.effectiveLines.flatMap f.netsV4)
        (input.stream.effectiveLines.flatMap f.netsV6) out.obj obj' ∧
      obj'.Usable ∧ obj'.didReadStdin = (out.obj.didReadStdin || input.isStdin) := by
  obtain ⟨obj', bufs', run, after⟩ := ipTreeBuilderParseStreamDoInsert_plain out.bufs
    parser usable once unbroken plain
  refine ⟨obj', bufs', ?_, after⟩
  rw [ipTreeBuilderParseFile_opened opened _ _ same]
  rw [ipTreeBuilderParseStreamDoInsert] at run
  rw [run]
  cases isStdin : input.isStdin with
  | false => simp [stdinLeft, isStdin]
  | true => simp [stdinLeft, isStdin, openInput_stdin opened isStdin]

theorem ipTreeBuilderParseFile_hex (out : BuilderOut P.fast32)
    (opened : openInput fopen stdin name = some input)
    (same : out.stream = some stdin)
    (parser : parseIpFileParser P out.obj.treeMode strictNetaddr = some f)
    (usable : out.obj.Usable) (once : input.isStdin = true → out.obj.didReadStdin = false)
    (hex : ∃ line ∈ input.stream.effectiveLines, HexNotation line) :
    ∃ out',
      ipTreeBuilderParseFile P ipTreeBuilderProcessParsedInsert fopen true strictNetaddr name out
          Mallocs.all = some (out', Mallocs.all) ∧
        out'.ret = ParseIpRet.notImplemented.code := by
  obtain ⟨file, run, ret⟩ := ipTreeBuilderParseStreamDoInsert_hex out.bufs
    parser usable once hex
  rw [ipTreeBuilderParseStreamDoInsert] at run
  rw [ipTreeBuilderParseFile_opened opened _ _ same, run]
  exact ⟨_, rfl, ret⟩

theorem stdinLeft_cons (input : Input) (inputs : List Input) (stdin : InputStream) :
    stdinLeft (input :: inputs) stdin = stdinLeft inputs (stdinLeft [input] stdin) := by
  cases isStdin : input.isStdin <;> simp [stdinLeft, isStdin, InputStream.drained]

/-- If `stdin` is read at most once, then neither again after a file nor before it. -/
theorem stdinOnce_cons {didReadStdin : Bool}
    (once : (input :: inputs).countP Input.isStdin + didReadStdin.toNat ≤ 1) :
    (input.isStdin = true → didReadStdin = false) ∧
      inputs.countP Input.isStdin + (didReadStdin || input.isStdin).toNat ≤ 1 := by
  cases isStdin : input.isStdin with
  | false => simpa [List.countP_cons, isStdin] using once
  | true =>
    rw [List.countP_cons_of_pos isStdin] at once
    cases didReadStdin with
    | false => simpa using once
    | true => simp at once

/-- Once `stdin` was read, the other files are still what they were. -/
theorem openInput_rest
    (opened : List.Forall₂ (fun name input => openInput fopen stdin name = some input) names inputs)
    (once : (input :: inputs).countP Input.isStdin ≤ 1) :
    List.Forall₂ (fun name input' => openInput fopen (stdinLeft [input] stdin) name = some input')
      names inputs := by
  cases isStdin : input.isStdin with
  | false => simpa [stdinLeft, isStdin] using opened
  | true =>
    -- none of the other files is `stdin`, and these do not depend on what is left of it
    have others : inputs.countP Input.isStdin = 0 := by
      rw [List.countP_cons_of_pos isStdin] at once
      omega
    rw [List.countP_eq_zero] at others
    refine List.forall₂_iff_get.mpr ⟨opened.length_eq, fun i hi hi' => ?_⟩
    exact openInput_other (opened.get hi hi') (by simpa using others _ (List.get_mem _ ⟨i, hi'⟩)) _

theorem inputsRead_good (good : keepGoingRet f input.stream.effectiveLines = .success)
    (inputs : List Input) :
    inputsRead f (input :: inputs) = input :: inputsRead f inputs ∧
      keepGoingFilesRet f (input :: inputs) = keepGoingFilesRet f inputs := by
  refine ⟨if_pos good, ?_⟩
  simp [keepGoingFilesRet, good]

theorem inputsRead_bad (bad : keepGoingRet f input.stream.effectiveLines = .invalid)
    (inputs : List Input) :
    inputsRead f (input :: inputs) = [input] ∧
      keepGoingFilesRet f (input :: inputs) = .invalid := by
  constructor
  · rw [inputsRead, bad, if_neg (by decide)]
  · simp [keepGoingFilesRet, bad]

theorem mem_inputsRead_cons (f : ParseIpAddrFunc P.fast32) (input : Input) (inputs : List Input) :
    input ∈ inputsRead f (input :: inputs) := by
  rw [inputsRead]
  split_ifs <;> exact List.mem_cons_self

/-- What keep-going mode is to do with files, if no line of them is in hexadecimal notation. -/
theorem ipTreeBuilderParseFilesDoLoop_plain
    (opened : List.Forall₂ (fun name input => openInput fopen stdin name = some input) names inputs)
    (parser : parseIpFileParser P obj.treeMode strictNetaddr = some f) (usable : obj.Usable)
    (once : inputs.countP Input.isStdin + obj.didReadStdin.toNat ≤ 1)
    (unbroken : ∀ input ∈ inputs, input.stream.broken = false)
    (plain : ∀ input ∈ inputsRead f inputs, ∀ line ∈ input.stream.effectiveLines,
      ¬ HexNotation line) :
    KeepsGoing f ((inputsRead f inputs).flatMap fun input => input.stream.effectiveLines)
      (keepGoingFilesRet f inputs) (stdinLeft (inputsRead f inputs) stdin) obj
      (ipTreeBuilderParseFilesDoLoop P ipTreeBuilderProcessParsedInsert fopen true strictNetaddr
        names ⟨ParseIpRet.success.code, obj, some stdin, bufs⟩ Mallocs.all) := by
  induction inputs generalizing names stdin obj bufs with
  | nil =>
    cases opened
    exact ⟨obj, bufs, rfl, inserted_nil obj⟩
  | cons input inputs ih =>
    cases opened with
    | cons first rest =>
      obtain ⟨fresh, onceRest⟩ := stdinOnce_cons once
      obtain ⟨obj₁, bufs₁, round, inserted₁, usable₁, stdin₁⟩ :=
        ipTreeBuilderParseFile_plain ⟨ParseIpRet.success.code, obj, some stdin, bufs⟩
          first rfl parser usable fresh (unbroken input List.mem_cons_self)
          (plain input (mem_inputsRead_cons f input inputs))
      rw [ipTreeBuilderParseFilesDoLoop, if_neg (not_not_intro rfl), Run.bind_apply, round,
        Option.bind_some]
      rcases keepGoingRet_cases f input.stream.effectiveLines with good | bad
      · -- the next file is read with what is left of `stdin`
        obtain ⟨read, ret⟩ := inputsRead_good good inputs
        rw [read] at plain ⊢
        obtain ⟨obj', bufs', run, inserted⟩ := ih bufs₁
          (openInput_rest rest ((Nat.le_add_right _ _).trans once))
          (by rw [inserted₁.treeMode]; exact parser) usable₁ (by rwa [stdin₁])
          (fun input mem => unbroken input (List.mem_cons_of_mem _ mem))
          (fun input mem => plain input (List.mem_cons_of_mem _ mem))
        refine ⟨obj', bufs', ?_, ?_⟩
        · rw [good, ret, stdinLeft_cons input (inputsRead f inputs)]
          exact run
        · rw [List.flatMap_cons, List.flatMap_append, List.flatMap_append]
          exact inserted₁.append inserted
      · -- the file fails, and the others are not opened
        obtain ⟨read, ret⟩ := inputsRead_bad bad inputs
        rw [read, ret, bad, ipTreeBuilderParseFilesDoLoop_stop _ _ (by simp)]
        refine ⟨obj₁, bufs₁, rfl, ?_⟩
        rw [List.flatMap_singleton]
        exact inserted₁

/-- The files that are read contain a line in hexadecimal notation: the run ends there. -/
theorem ipTreeBuilderParseFilesDoLoop_hex
    (opened : List.Forall₂ (fun name input => openInput fopen stdin name = some input) names inputs)
    (parser : parseIpFileParser P obj.treeMode strictNetaddr = some f) (usable : obj.Usable)
    (once : inputs.countP Input.isStdin + obj.didReadStdin.toNat ≤ 1)
    (unbroken : ∀ input ∈ inputs, input.stream.broken = false)
    (hex : ∃ input ∈ inputsRead f inputs, ∃ line ∈ input.stream.effectiveLines,
      HexNotation line) :
    ∃ out,
      ipTreeBuilderParseFilesDoLoop P ipTreeBuilderProcessParsedInsert fopen true strictNetaddr
          names ⟨ParseIpRet.success.code, obj, some stdin, bufs⟩ Mallocs.all =
        some (out, Mallocs.all) ∧ out.ret = ParseIpRet.notImplemented.code := by
  induction inputs generalizing names stdin obj bufs with
  | nil => simp [inputsRead] at hex
  | cons input inputs ih =>
    cases opened with
    | cons first rest =>
      obtain ⟨fresh, onceRest⟩ := stdinOnce_cons once
      rw [ipTreeBuilderParseFilesDoLoop, if_neg (not_not_intro rfl), Run.bind_apply]
      by_cases own : ∃ line ∈ input.stream.effectiveLines, HexNotation line
      · obtain ⟨out, round, ret⟩ :=
          ipTreeBuilderParseFile_hex ⟨ParseIpRet.success.code, obj, some stdin, bufs⟩
            first rfl parser usable fresh own
        rw [round, Option.bind_some, ipTreeBuilderParseFilesDoLoop_stop _ _ (by simp [ret])]
        exact ⟨out, rfl, ret⟩
      · -- the line is in a later file, so this one does not fail
        have plain : ∀ line ∈ input.stream.effectiveLines, ¬ HexNotation line :=
          fun line mem hexLine => own ⟨line, mem, hexLine⟩
        obtain ⟨obj₁, bufs₁, round, inserted₁, usable₁, stdin₁⟩ :=
          ipTreeBuilderParseFile_plain ⟨ParseIpRet.success.code, obj, some stdin, bufs⟩
            first rfl parser usable fresh (unbroken input List.mem_cons_self) plain
        rw [round, Option.bind_some]
        rcases keepGoingRet_cases f input.stream.effectiveLines with good | bad
        · rw [(inputsRead_good good inputs).1] at hex
          rw [good]
          exact ih bufs₁ (openInput_rest rest ((Nat.le_add_right _ _).trans once))
            (by rw [inserted₁.treeMode]; exact parser) usable₁ (by rwa [stdin₁])
            (fun input mem => unbroken input (List.mem_cons_of_mem _ mem))
            (by simpa [own] using hex)
        · rw [(inputsRead_bad bad inputs).1] at hex
          exact absurd hex (by simpa using own)

end Files

/-! ### Keep-going mode -/

/-- A run that returned `PARSE_IP_RET_NOT_IMPLEMENTED` did not keep going. -/
theorem not_keepsGoing {f : ParseIpAddrFunc P.fast32} {lines : List (List Char)}
    {ret : ParseIpRet} {left : InputStream} {obj : IpTreeBuildData P.fast32}
    {out : BuilderOut P.fast32} (other : ret ≠ .notImplemented)
    (stopped : out.ret = ParseIpRet.notImplemented.code) :
    ¬ KeepsGoing f lines ret left obj (some (out, Mallocs.all)) := by
  rintro ⟨obj', bufs', run, -⟩
  obtain rfl := congrArg Prod.fst (Option.some.inj run)
  exact other (ParseIpRet.code_inj.mp stopped)

/-- Exactly the lines in hexadecimal notation keep keep-going mode from doing what it is to do: for
a stream, and for a list of files, of which those up to the first that fails are read. -/
theorem ipTreeBuilderParseDoInsert_iff (P : Platform) {obj : IpTreeBuildData P.fast32}
    (usable : obj.Usable) {strictNetaddr : Bool} {f : ParseIpAddrFunc P.fast32}
    (parser : parseIpFileParser P obj.treeMode strictNetaddr = some f)
    (bufs : ParseBufs P.fast32) :
    (∀ (stream : InputStream) (isStdin : Bool), stream.broken = false →
      (isStdin = true → obj.didReadStdin = false) →
      (KeepsGoing f stream.effectiveLines (keepGoingRet f stream.effectiveLines) stream.drained obj
          (ipTreeBuilderParseStreamDoInsert P obj (some stream) isStdin true strictNetaddr bufs
            Mallocs.all) ↔
        ∀ line ∈ stream.effectiveLines, ¬ HexNotation line)) ∧
    (∀ (fopen : List Char → Option InputStream) (stdin : InputStream)
      (names : List (Option (List Char))) (inputs : List Input),
      List.Forall₂ (fun name input => openInput fopen stdin name = some input) names inputs →
      inputs.countP Input.isStdin + obj.didReadStdin.toNat ≤ 1 →
      (∀ input ∈ inputs, input.stream.broken = false) →
      (KeepsGoing f ((inputsRead f inputs).flatMap fun input => input.stream.effectiveLines)
          (keepGoingFilesRet f inputs) (stdinLeft (inputsRead f inputs) stdin) obj
          (ipTreeBuilderParseFilesDoInsert P obj fopen stdin (some names) true strictNetaddr bufs
            Mallocs.all) ↔
        ∀ input ∈ inputsRead f inputs, ∀ line ∈ input.stream.effectiveLines,
          ¬ HexNotation line)) := by
  constructor
  · intro stream isStdin unbroken once
    constructor
    · -- a hexadecimal line ends the run with a code that going on never has
      intro goesOn line mem hex
      obtain ⟨out, run, stopped⟩ := ipTreeBuilderParseStreamDoInsert_hex bufs parser
        usable once ⟨line, mem, hex⟩
      rw [run] at goesOn
      refine not_keepsGoing ?_ stopped goesOn
      rcases keepGoingRet_cases f stream.effectiveLines with ret | ret <;> simp [ret]
    · intro plain
      obtain ⟨obj', bufs', run, inserted, -⟩ := ipTreeBuilderParseStreamDoInsert_plain
        bufs parser usable once unbroken plain
      exact ⟨obj', bufs', run, inserted⟩
  · intro fopen stdin names inputs opened once unbroken
    constructor
    · intro goesOn input read line mem hex
      obtain ⟨out, run, stopped⟩ := ipTreeBuilderParseFilesDoLoop_hex bufs opened parser
        usable once unbroken ⟨input, read, line, mem, hex⟩
      rw [ipTreeBuilderParseFilesDoInsert, ipTreeBuilderParseFilesDo, run] at goesOn
      -- the same holds of a list of files
      refine not_keepsGoing ?_ stopped goesOn
      unfold keepGoingFilesRet
      split_ifs <;> simp
    · intro plain
      exact ipTreeBuilderParseFilesDoLoop_plain bufs opened parser usable once unbroken plain

/-- What is no address does no harm: neither in a stream, nor in a file that is read after
another. -/
theorem ipTreeBuilderParseDoInsert_private :
    let P : Platform := ⟨.bits64, fun x _ => x, fun x _ => x⟩
    let f : ParseIpAddrFunc P.fast32 := parseIp4AddrCombined
    let stream : InputStream :=
      ⟨["10.0.0.0/8\n".toList, "# private\n".toList, "ten\n".toList], false⟩
    let lines := ["10.0.0.0/8".toList, "ten".toList]
    let bad : InputStream := ⟨["ten\n".toList], false⟩
    KeepsGoing f lines .success ⟨[], false⟩ (.empty .onlyIpv4)
        (ipTreeBuilderParseStreamDoInsert P (.empty .onlyIpv4) (some stream) false true false .zero
          Mallocs.all) ∧
      KeepsGoing f (lines ++ ["ten".toList]) .invalid ⟨[], false⟩ (.empty .onlyIpv4)
        (ipTreeBuilderParseFilesDoInsert P (.empty .onlyIpv4) (fun _ => some bad) stream
          (some [some ['-'], some ['a'], some ['b']]) true false .zero Mallocs.all) := by
  intro P f stream lines bad
  have parser : parseIpFileParser P .onlyIpv4 false = some f := rfl
  obtain ⟨ofStream, ofFiles⟩ := ipTreeBuilderParseDoInsert_iff P
    (IpTreeBuildData.empty_usable .onlyIpv4) parser .zero
  have goodLines : stream.effectiveLines = lines := by decide +kernel
  have badLines : bad.effectiveLines = ["ten".toList] := by decide +kernel
  have first : keepGoingRet f (Input.mk true stream).stream.effectiveLines = .success := by
    decide +kernel
  have second : keepGoingRet f (Input.mk false bad).stream.effectiveLines = .invalid := by
    decide +kernel
  -- none of the lines that are read is hexadecimal
  have front : ∀ line ∈ lines ++ ["ten".toList], ¬ ['0', 'x'] <+: line := by decide +kernel
  constructor
  · have goesOn := (ofStream stream false rfl nofun).mpr (by
      intro line mem hex
      rw [goodLines] at mem
      exact front line (List.mem_append_left _ mem) hex.1)
    rwa [first, goodLines] at goesOn
  · -- the run ends behind the first file without a good line
    have read : inputsRead f [⟨true, stream⟩, ⟨false, bad⟩, ⟨false, bad⟩] =
        [⟨true, stream⟩, ⟨false, bad⟩] := by
      rw [(inputsRead_good first _).1, (inputsRead_bad second _).1]
    have ret : keepGoingFilesRet f [⟨true, stream⟩, ⟨false, bad⟩, ⟨false, bad⟩] = .invalid := by
      rw [(inputsRead_good first _).2, (inputsRead_bad second _).2]
    have goesOn := (ofFiles (fun _ => some bad) stream [some ['-'], some ['a'], some ['b']]
      [⟨true, stream⟩, ⟨false, bad⟩, ⟨false, bad⟩] (.cons rfl (.cons rfl (.cons rfl .nil)))
      (by decide) (by simp [stream, bad])).mpr (by
        intro input mem line mem' hex
        refine front line ?_ hex.1
        rw [read] at mem
        rcases List.mem_pair.mp mem with rfl | rfl
        · rw [goodLines] at mem'
          exact List.mem_append_left _ mem'
        · rw [badLines] at mem'
          exact List.mem_append_right _ mem')
    rw [read, ret] at goesOn
    simp only [List.flatMap_cons, List.flatMap_nil, List.append_nil, goodLines, badLines] at goesOn
    exact goesOn

/-- A line in hexadecimal notation ends a run before the network that follows is inserted. -/
theorem ipTreeBuilderParseStreamDoInsert_hex_first :
    let P : Platform := ⟨.bits64, fun x _ => x, fun x _ => x⟩
    let f : ParseIpAddrFunc P.fast32 := parseIp4AddrCombined
    let stream : InputStream := ⟨["0x1\n".toList, "10.0.0.0/8\n".toList], false⟩
    let run := ipTreeBuilderParseStreamDoInsert P (.empty .onlyIpv4) (some stream) false true false
      .zero Mallocs.all
    parseIpFileParser P .onlyIpv4 false = some f ∧
      stream.effectiveLines = ["0x1".toList, "10.0.0.0/8".toList] ∧
      f.netsV4 "10.0.0.0/8".toList = [⟨8, 0x0a000000⟩] ∧
      keepGoingRet f stream.effectiveLines = .success ∧
      run.map (fun out => out.1.ret) = some ParseIpRet.notImplemented.code ∧
      ¬ KeepsGoing f stream.effectiveLines (keepGoingRet f stream.effectiveLines) stream.drained
        (.empty .onlyIpv4) run := by
  intro P f stream run
  have parser : parseIpFileParser P .onlyIpv4 false = some f := rfl
  have lines : stream.effectiveLines = ["0x1".toList, "10.0.0.0/8".toList] := by decide +kernel
  have ret : keepGoingRet f stream.effectiveLines = .success := by decide +kernel
  have hex : HexNotation "0x1".toList := by
    -- there is no prefixlen to cut off
    refine ⟨by decide +kernel, fun a p cut => ?_⟩
    have slash : '/' ∈ "0x1".toList := by rw [cut]; simp
    exact absurd slash (by decide +kernel)
  obtain ⟨out, stop, code⟩ : ∃ out, run = some (out, Mallocs.all) ∧
      out.ret = ParseIpRet.notImplemented.code :=
    ipTreeBuilderParseStreamDoInsert_hex .zero parser (IpTreeBuildData.empty_usable .onlyIpv4)
      nofun ⟨_, by rw [lines]; exact List.mem_cons_self, hex⟩
  refine ⟨parser, lines, by decide +kernel, ret, ?_, ?_⟩
  · rw [stop, Option.map_some, code]
  · rw [stop]
    exact not_keepsGoing (by rw [ret]; decide) code

end IpDedup
