import IpDedup.App.Builder

/-!
# The return code of a stream

The lines of a stream are parsed one after the other, each as if it were the
first, up to one that is neither valid nor skipped. So the effective lines tell
what `ip_tree_builder_parse_stream_do` returns and which networks it inserts.

## Main definitions

* `ParseIpAddrFunc.Passes`: the lines after which reading goes on
* `streamRet`: the return code

## Main results

* `ipTreeBuilderParseStreamDoInsert_run`: what a run returns and leaves
-/

set_option autoImplicit false

namespace IpDedup

open ParseIpAddrFunc

variable {w : UintFast32}

/-! ### Return codes -/

/-- What was seen after some more lines. -/
def KeepGoingStatus.after (status : KeepGoingStatus) (f : ParseIpAddrFunc w)
    (lines : List (List Char)) : KeepGoingStatus :=
  ⟨status.seenAddr || lines.any fun line => f.Valid line,
    status.seenInvalid || lines.any fun line => ¬ f.Valid line⟩

/-- The return code for a file of the given effective lines: it is an error if there are some, but
no valid one. -/
def keepGoingRet (f : ParseIpAddrFunc w) (lines : List (List Char)) : ParseIpRet :=
  if lines = [] ∨ ∃ line ∈ lines, f.Valid line then .success else .invalid

/-- The lines after which reading goes on: the valid ones, and in keep-going mode the invalid
ones. -/
def ParseIpAddrFunc.Passes (f : ParseIpAddrFunc w) (keepGoing : Bool) (line : List Char) : Prop :=
  f.Valid line ∨
    keepGoing = true ∧ ((f.fresh line).ret = .invalid ∨ (f.fresh line).ret = .invalidNet)

instance (f : ParseIpAddrFunc w) (keepGoing : Bool) : DecidablePred (f.Passes keepGoing) :=
  fun line => inferInstanceAs (Decidable (f.Valid line ∨ keepGoing = true ∧
    ((f.fresh line).ret = .invalid ∨ (f.fresh line).ret = .invalidNet)))

/-- The return code for a stream: that of the first line that does not pass, if there is one. -/
def streamRet (f : ParseIpAddrFunc w) (keepGoing : Bool) (stream : InputStream) : ParseIpRet :=
  match stream.effectiveLines.find? fun line => ¬ f.Passes keepGoing line with
  | some line => (f.fresh line).ret
  | none => if stream.broken then .readErr else keepGoingRet f stream.effectiveLines

section Codes

variable {f : ParseIpAddrFunc w} {mode : ParseIpType} {keepGoing : Bool} {line : List Char}
  {lines : List (List Char)} {status : KeepGoingStatus} {stream : InputStream}

theorem KeepGoingStatus.after_nil : status.after f [] = status := by
  simp [KeepGoingStatus.after]

theorem KeepGoingStatus.after_valid (valid : f.Valid line) :
    status.after f (line :: lines) = { status with seenAddr := true }.after f lines := by
  simp [KeepGoingStatus.after, valid]

theorem KeepGoingStatus.after_invalid (invalid : ¬ f.Valid line) :
    status.after f (line :: lines) = { status with seenInvalid := true }.after f lines := by
  simp [KeepGoingStatus.after, invalid]

theorem parseIpFileEofEvalKeepGoingStatus_after {pfileState : ParseIpFileState w}
    (seen : pfileState.keepGoingStatus = KeepGoingStatus.seenNone.after f lines) :
    parseIpFileEofEvalKeepGoingStatus pfileState = keepGoingRet f lines := by
  rw [parseIpFileEofEvalKeepGoingStatus, seen, keepGoingRet]
  by_cases valid : ∃ line ∈ lines, f.Valid line
  · have addr : (lines.any fun line => f.Valid line) = true := by simpa using valid
    rw [if_pos (Or.inr valid)]
    simp [KeepGoingStatus.after, KeepGoingStatus.seenNone, addr]
  · have addr : (lines.any fun line => f.Valid line) = false := by simpa using valid
    cases lines with
    | nil => rfl
    | cons line lines =>
      -- none of the lines is valid, so each of them was seen as an invalid one
      have invalid : ((line :: lines).any fun line => ¬ f.Valid line) = true := by
        have first : ¬ f.Valid line := fun good => valid ⟨line, List.mem_cons_self, good⟩
        simp [first]
      have after : KeepGoingStatus.seenNone.after f (line :: lines) = ⟨false, true⟩ := by
        rw [KeepGoingStatus.after, addr, invalid]
        rfl
      rw [after]
      exact (if_neg (by rintro (none | some); exacts [List.cons_ne_nil _ _ none, valid some])).symm

/-- The two codes that a file may get whose lines all pass. -/
theorem keepGoingRet_cases (f : ParseIpAddrFunc w) (lines : List (List Char)) :
    keepGoingRet f lines = .success ∨ keepGoingRet f lines = .invalid := by
  unfold keepGoingRet
  split_ifs
  · exact Or.inl rfl
  · exact Or.inr rfl

/-- The stream is read to its end if every line passes. -/
theorem streamRet_of_passes (pass : ∀ line ∈ stream.effectiveLines, f.Passes keepGoing line) :
    streamRet f keepGoing stream =
      if stream.broken then .readErr else keepGoingRet f stream.effectiveLines := by
  have none : stream.effectiveLines.find? (fun line => ¬ f.Passes keepGoing line) = none := by
    simpa [List.find?_eq_none] using pass
  rw [streamRet, none]

/-- The first line that does not pass. -/
theorem streamRet_of_stops {before after : List (List Char)}
    (cut : stream.effectiveLines = before ++ line :: after)
    (pass : ∀ line ∈ before, f.Passes keepGoing line) (stops : ¬ f.Passes keepGoing line) :
    streamRet f keepGoing stream = (f.fresh line).ret := by
  have first : stream.effectiveLines.find? (fun line => ¬ f.Passes keepGoing line) = some line := by
    rw [List.find?_eq_some_iff_append]
    exact ⟨by simpa using stops, before, after, cut, by simpa using pass⟩
  rw [streamRet, first]

/-- Reading goes on to the end, or up to the first line that does not pass. -/
theorem passes_or_stops (f : ParseIpAddrFunc w) (keepGoing : Bool) (lines : List (List Char)) :
    (∀ line ∈ lines, f.Passes keepGoing line) ∨
      ∃ before line after, lines = before ++ line :: after ∧
        (∀ line ∈ before, f.Passes keepGoing line) ∧ ¬ f.Passes keepGoing line := by
  cases first : lines.find? (fun line => ¬ f.Passes keepGoing line) with
  | none => exact Or.inl (by simpa [List.find?_eq_none] using first)
  | some line =>
    obtain ⟨stops, before, after, cut, pass⟩ := List.find?_eq_some_iff_append.mp first
    exact Or.inr ⟨before, line, after, cut, by simpa using pass, by simpa using stops⟩

/-- A line that does not pass is invalid or in hexadecimal notation. -/
theorem ParseIpAddrFunc.Sound.ret_of_stops (sound : f.Sound mode)
    (stops : ¬ f.Passes keepGoing line) :
    (f.fresh line).ret = .notImplemented ∨
      keepGoing = false ∧ ((f.fresh line).ret = .invalid ∨ (f.fresh line).ret = .invalidNet) := by
  rw [Passes, not_or, not_and] at stops
  rcases sound.outcome line with ⟨-, ret⟩ | ⟨-, valid | invalid⟩
  · exact Or.inl ret
  · exact absurd valid stops.1
  · exact Or.inr ⟨Bool.eq_false_iff.mpr fun skips => stops.2 skips invalid, invalid⟩

end Codes

/-! ### Reading a stream -/

section Stream

variable {f : ParseIpAddrFunc w} {mode : ParseIpType} {keepGoing : Bool} {obj : IpTreeBuildData w}
  {pfileState : ParseIpFileState w} (bufs : ParseBufs w) {line : List Char}
  {lines rest : List (List Char)} {status : KeepGoingStatus} {left : InputStream}

theorem ipTreeBuilderParseStreamDoLoop_congr
    (fProcessParsed : IpTreeBuildProcessParsedFunc w) (obj : IpTreeBuildData w)
    {pfileState' : ParseIpFileState w} {bufs bufs' : ParseBufs w}
    (same : parseIpFileNext pfileState bufs = parseIpFileNext pfileState' bufs') :
    ipTreeBuilderParseStreamDoLoop fProcessParsed obj pfileState bufs =
      ipTreeBuilderParseStreamDoLoop fProcessParsed obj pfileState' bufs' := by
  conv_lhs => rw [ipTreeBuilderParseStreamDoLoop]
  conv_rhs => rw [ipTreeBuilderParseStreamDoLoop]
  rw [same]

/-- The round for a valid line inserts its networks. -/
theorem ipTreeBuilderParseStreamDoLoop_valid (sound : f.Sound mode)
    (reads : pfileState.Reads keepGoing f (line :: lines) status left) (usable : obj.Usable)
    (same : obj.treeMode = mode) (valid : f.Valid line) :
    ∃ obj' pfileState' bufs',
      ipTreeBuilderParseStreamDoLoop ipTreeBuilderProcessParsedInsert obj pfileState bufs
          Mallocs.all =
        ipTreeBuilderParseStreamDoLoop ipTreeBuilderProcessParsedInsert obj' pfileState' bufs'
          Mallocs.all ∧
      pfileState'.Reads keepGoing f lines { status with seenAddr := true } left ∧
      Inserted (f.netsV4 line) (f.netsV6 line) obj obj' ∧ obj'.Usable ∧
      obj'.didReadStdin = obj.didReadStdin := by
  obtain ⟨ret, next, netsV4, netsV6⟩ := parseIpFileNext_valid bufs sound reads valid
  obtain ⟨obj', run, inserted, usable', stdin⟩ := ipTreeBuilderProcessParsedInsert_usable usable
    (parseIpFileNext pfileState bufs).2.1.addr
    (by rw [netsV4, same]; exact sound.shortV4 line)
    (by rw [netsV6, same]; exact sound.shortV6 line)
  rw [netsV4, netsV6] at inserted
  refine ⟨obj', (parseIpFileNext pfileState bufs).2.1, (parseIpFileNext pfileState bufs).2.2, ?_,
    next, inserted, usable', stdin⟩
  -- one round of the loop inserts the line
  conv_lhs => rw [ipTreeBuilderParseStreamDoLoop]
  rw [dif_pos ret, Run.bind_apply, run]
  rfl

/-- The rounds for lines that pass insert their networks. -/
theorem ipTreeBuilderParseStreamDoLoop_passes (sound : f.Sound mode)
    (pass : ∀ line ∈ lines, f.Passes keepGoing line)
    (reads : pfileState.Reads keepGoing f (lines ++ rest) status left) (usable : obj.Usable)
    (same : obj.treeMode = mode) :
    ∃ obj' pfileState' bufs',
      ipTreeBuilderParseStreamDoLoop ipTreeBuilderProcessParsedInsert obj pfileState bufs
          Mallocs.all =
        ipTreeBuilderParseStreamDoLoop ipTreeBuilderProcessParsedInsert obj' pfileState' bufs'
          Mallocs.all ∧
      pfileState'.Reads keepGoing f rest (status.after f lines) left ∧
      Inserted (lines.flatMap f.netsV4) (lines.flatMap f.netsV6) obj obj' ∧ obj'.Usable ∧
      obj'.didReadStdin = obj.didReadStdin := by
  induction lines generalizing obj pfileState bufs status with
  | nil =>
    rw [KeepGoingStatus.after_nil]
    exact ⟨obj, pfileState, bufs, rfl, reads, inserted_nil obj, usable, rfl⟩
  | cons line lines ih =>
    obtain ⟨first, others⟩ := List.forall_mem_cons.mp pass
    by_cases valid : f.Valid line
    · obtain ⟨obj₁, next, bufs₁, round, reads₁, inserted₁, usable₁, stdin₁⟩ :=
        ipTreeBuilderParseStreamDoLoop_valid bufs sound reads usable same valid
      obtain ⟨obj', pfileState', bufs', run, reads', inserted, usable', stdin⟩ :=
        ih bufs₁ others reads₁ usable₁ (inserted₁.treeMode.trans same)
      rw [KeepGoingStatus.after_valid valid]
      exact ⟨obj', pfileState', bufs', round.trans run, reads', inserted₁.append inserted, usable',
        stdin.trans stdin₁⟩
    · -- the line is skipped, and none of its networks counts
      obtain ⟨rfl, invalid⟩ := first.resolve_left valid
      obtain ⟨next, bufs₁, round, reads₁⟩ := parseIpFileNext_skip bufs sound reads invalid
      obtain ⟨obj', pfileState', bufs', run, reads', inserted, usable', stdin⟩ :=
        ih bufs₁ others reads₁ usable same
      rw [KeepGoingStatus.after_invalid valid, List.flatMap_cons, List.flatMap_cons, netsV4, netsV6,
        if_neg valid, if_neg valid]
      exact ⟨obj', pfileState', bufs',
        (congrFun (ipTreeBuilderParseStreamDoLoop_congr _ obj round) _).trans run, reads', inserted,
        usable', stdin⟩

/-- The round for a line that does not pass is the last one. -/
theorem ipTreeBuilderParseStreamDoLoop_stops (sound : f.Sound mode)
    (reads : pfileState.Reads keepGoing f (line :: lines) status left)
    (stops : ¬ f.Passes keepGoing line) (obj : IpTreeBuildData w) :
    ∃ out, ipTreeBuilderParseStreamDoLoop ipTreeBuilderProcessParsedInsert obj pfileState bufs
        Mallocs.all = some (out, Mallocs.all) ∧
      out.ret = (f.fresh line).ret.code ∧ out.obj = obj := by
  have bad : ¬ f.Valid line := fun valid => stops (Or.inl valid)
  have ret : (parseIpFileNext pfileState bufs).1 = (f.fresh line).ret :=
    parseIpFileNext_stop bufs sound reads bad fun skips invalid => stops (Or.inr ⟨skips, invalid⟩)
  have notEof : (f.fresh line).ret ≠ .eof := by
    rcases sound.ret_of_stops stops with ret | ⟨-, ret | ret⟩ <;> rw [ret] <;> decide
  rw [ipTreeBuilderParseStreamDoLoop, dif_neg (by rwa [ret]), if_neg (by rwa [ret]), ret]
  exact ⟨_, rfl, rfl, rfl⟩

/-- The round at the end of the lines. -/
theorem ipTreeBuilderParseStreamDoLoop_end
    (reads : pfileState.Reads keepGoing f [] (KeepGoingStatus.seenNone.after f lines) left)
    (obj : IpTreeBuildData w) :
    ipTreeBuilderParseStreamDoLoop ipTreeBuilderProcessParsedInsert obj pfileState bufs
        Mallocs.all =
      some (⟨(if left.broken then .readErr else keepGoingRet f lines : ParseIpRet).code, obj,
        some left, bufs⟩, Mallocs.all) := by
  obtain ⟨last, next, file, seen⟩ := parseIpFileNext_end bufs reads
  rw [ipTreeBuilderParseStreamDoLoop, next, file]
  cases left.broken with
  | true => rfl
  | false =>
    rw [← parseIpFileEofEvalKeepGoingStatus_after seen]
    rfl

end Stream

variable {P : Platform}

/-- The parser that the lines of a file are given to. -/
def parseIpFileParser (P : Platform) (parseMode : ParseIpType) (strictNetaddr : Bool) :
    Option (ParseIpAddrFunc P.fast32) :=
  (parseIpFileInitParseMode P parseMode).map fun parsers =>
    if strictNetaddr then parsers.2 else parsers.1

section Streams

variable {f : ParseIpAddrFunc P.fast32} {mode : ParseIpType}
  {keepGoing strictNetaddr isStdin : Bool} {obj : IpTreeBuildData P.fast32}
  (bufs : ParseBufs P.fast32) {stream : InputStream}

theorem parseIpFileParser_sound (parser : parseIpFileParser P mode strictNetaddr = some f) :
    f.Sound mode := by
  obtain ⟨parsers, init, rfl⟩ := Option.map_eq_some_iff.mp parser
  rw [parseIpFileInitParseMode] at init
  split_ifs at init with ipv4 ipv6 both
  · subst ipv4
    obtain rfl := Option.some.inj init
    cases strictNetaddr with
    | false => exact parseIp4AddrCombined_sound
    | true => exact parseIp4NetAddrCombined_sound P
  · subst ipv6
    obtain rfl := Option.some.inj init
    cases strictNetaddr with
    | false => exact parseIp6AddrCombined_sound
    | true => exact parseIp6NetAddrCombined_sound P
  · subst both
    obtain rfl := Option.some.inj init
    cases strictNetaddr with
    | false => exact parseIpAddrCombined_sound
    | true => exact parseIpNetAddrCombined_sound P

/-- A stream is read with that parser, from its first line on. -/
theorem parseIpFileInitStream_reads
    (parser : parseIpFileParser P mode strictNetaddr = some f) (keepGoing : Bool)
    (stream : InputStream) :
    ∃ pfileState, parseIpFileInitStream P (some stream) mode = some pfileState ∧
      ParseIpFileState.Reads { pfileState with cfg := ⟨keepGoing, strictNetaddr⟩ } keepGoing f
        stream.effectiveLines .seenNone stream.drained := by
  obtain ⟨parsers, init, rfl⟩ := Option.map_eq_some_iff.mp parser
  refine ⟨_, by rw [parseIpFileInitStream, init]; rfl, ?_⟩
  exact ⟨rfl, rfl, rfl, rfl, rfl⟩

/-- Running a stream is running the rounds of its lines. -/
theorem ipTreeBuilderParseStreamDoInsert_rounds
    (parser : parseIpFileParser P obj.treeMode strictNetaddr = some f) (keepGoing : Bool)
    (once : isStdin = true → obj.didReadStdin = false) (stream : InputStream) :
    ∃ pfileState, ParseIpFileState.Reads pfileState keepGoing f stream.effectiveLines .seenNone
        stream.drained ∧
      ipTreeBuilderParseStreamDoInsert P obj (some stream) isStdin keepGoing strictNetaddr bufs =
        ipTreeBuilderParseStreamDoLoop ipTreeBuilderProcessParsedInsert
          { obj with didReadStdin := obj.didReadStdin || isStdin } pfileState bufs := by
  obtain ⟨pfileState, init, reads⟩ := parseIpFileInitStream_reads parser keepGoing stream
  refine ⟨_, reads, ?_⟩
  rw [ipTreeBuilderParseStreamDoInsert, ipTreeBuilderParseStreamDo,
    if_neg fun both => Bool.false_ne_true ((once both.1).symm.trans both.2), init]
  cases isStdin <;> simp

/-- What a run over a stream leaves: its return code, whether it was `stdin`, and the networks of
the lines if it came to the end. -/
structure StreamRun (f : ParseIpAddrFunc P.fast32) (keepGoing isStdin : Bool)
    (stream : InputStream) (obj : IpTreeBuildData P.fast32) (out : BuilderOut P.fast32) :
    Prop where
  ret : out.ret = (streamRet f keepGoing stream).code
  didReadStdin : out.obj.didReadStdin = (obj.didReadStdin || isStdin)
  left : (∀ line ∈ stream.effectiveLines, f.Passes keepGoing line) →
    out.stream = some stream.drained
  inserted : (∀ line ∈ stream.effectiveLines, f.Passes keepGoing line) →
    Inserted (stream.effectiveLines.flatMap f.netsV4) (stream.effectiveLines.flatMap f.netsV6)
      obj out.obj
  usable : (∀ line ∈ stream.effectiveLines, f.Passes keepGoing line) → out.obj.Usable

/-- While allocation succeeds, a run over a stream that may be read comes to an end. -/
theorem ipTreeBuilderParseStreamDoInsert_run
    (parser : parseIpFileParser P obj.treeMode strictNetaddr = some f) (usable : obj.Usable)
    (keepGoing : Bool) (once : isStdin = true → obj.didReadStdin = false) (stream : InputStream) :
    ∃ out,
      ipTreeBuilderParseStreamDoInsert P obj (some stream) isStdin keepGoing strictNetaddr bufs
          Mallocs.all = some (out, Mallocs.all) ∧
        StreamRun f keepGoing isStdin stream obj out := by
  obtain ⟨pfileState, reads, rounds⟩ :=
    ipTreeBuilderParseStreamDoInsert_rounds bufs parser keepGoing once stream
  have sound := parseIpFileParser_sound parser
  have reading : IpTreeBuildData.Usable
      { obj with didReadStdin := obj.didReadStdin || isStdin } := ⟨usable.v4, usable.v6⟩
  rw [rounds]
  rcases passes_or_stops f keepGoing stream.effectiveLines with
    pass | ⟨before, line, after, cut, pass, stops⟩
  · -- the rounds of all lines, and then the round at the end
    rw [← List.append_nil stream.effectiveLines] at reads
    obtain ⟨obj', last, bufs', run, reads', inserted, usable', stdin⟩ :=
      ipTreeBuilderParseStreamDoLoop_passes bufs sound pass reads reading rfl
    rw [run, ipTreeBuilderParseStreamDoLoop_end bufs' reads' obj']
    refine ⟨_, rfl, ?_, stdin, fun _ => rfl, fun _ => ?_, fun _ => usable'⟩
    · rw [streamRet_of_passes pass]
      rfl
    · exact ⟨inserted.v4, inserted.v6, inserted.treeMode⟩
  · -- the rounds of the lines before, and then the round that fails
    rw [cut] at reads
    obtain ⟨obj', last, bufs', run, reads', -, -, stdin⟩ :=
      ipTreeBuilderParseStreamDoLoop_passes bufs sound pass reads reading rfl
    obtain ⟨out, stop, ret, rfl⟩ :=
      ipTreeBuilderParseStreamDoLoop_stops bufs' sound reads' stops obj'
    -- nothing is said about what is left, as a line does not pass
    have stopped : ¬ ∀ line ∈ stream.effectiveLines, f.Passes keepGoing line :=
      fun pass => stops (pass line (by simp [cut]))
    refine ⟨out, run.trans stop, ?_, stdin, ?_, ?_, ?_⟩
    · rw [ret, streamRet_of_stops cut pass stops]
    all_goals exact fun pass => absurd pass stopped

end Streams

end IpDedup
