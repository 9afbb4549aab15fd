import IpDedup.Lib.Trim
import IpDedup.Parse.Common

/-!
# Reading lines

`util/strutil.c` and `util/readfile.c`: lines are stripped of white space, and
empty lines and comments are skipped.

## Main definitions

* `strStrip`, `strStripInPlace`: the line that is left, and how it is cut out of the buffer
* `InputStream`: what `getline` is going to read
* `readfileNext`, `readfileNextEffective`
* `InputStream.effectiveLines`: the lines that are not skipped

## Main results

* `readfileNextEffective_line`, `readfileNextEffective_drained`: reading a stream yields its
  effective lines, one by one
* `strStripInPlace_eq`: the two loops leave the stripped line behind
* `readfileNext_padded_iff`: when white space around a line does not matter
-/

set_option autoImplicit false

open Trim

namespace IpDedup

/-- `is_whitespace`; carriage return is not one. -/
def isWhitespace (c : Char) : Bool :=
  c ∈ [' ', '\t', '\n', '\x0b', '\x0c']

/-- `str_strip`, as the line of the new length. -/
def strStrip (str : List Char) : List Char :=
  (str.dropWhile isWhitespace).rdropWhile isWhitespace

/-- `READFILE_RET_*` -/
inductive ReadfileRet where
  | line
  | emptyLine
  | commentLine
  | eof
  | error
deriving DecidableEq, Repr

/-- A stream: the lines that `getline` still returns, each with its newline, and whether reading
fails after them instead of coming to the end of the file. -/
structure InputStream where
  lines : List (List Char)
  broken : Bool
deriving DecidableEq, Repr

/-- What a stripped line is. -/
def readfileClassify (line : List Char) : ReadfileRet :=
  if line.head?.getD nul = nul then .emptyLine
  else if line.head? = some '#' then .commentLine
  else .line

/-- Read one line; it comes out stripped. -/
def readfileNext (stream : InputStream) : ReadfileRet × List Char × InputStream :=
  match stream.lines with
  | [] => (if stream.broken then .error else .eof, [], stream)
  | lineBuf :: rest =>
    let line := strStrip lineBuf
    (readfileClassify line, line, { stream with lines := rest })

theorem readfileNext_lines {stream rest : InputStream} {ret : ReadfileRet} {line : List Char}
    (next : readfileNext stream = (ret, line, rest)) (eof : ret ≠ .eof) (error : ret ≠ .error) :
    rest.lines.length < stream.lines.length := by
  unfold readfileNext at next
  split at next
  · split_ifs at next <;> cases next <;> contradiction
  · next lines =>
    cases next
    simp [lines]

/-- Read the next line that is neither empty nor a comment. -/
def readfileNextEffective (stream : InputStream) : ReadfileRet × List Char × InputStream :=
  match _next : readfileNext stream with
  | (.emptyLine, _, rest) => readfileNextEffective rest
  | (.commentLine, _, rest) => readfileNextEffective rest
  | (ret, line, rest) => (ret, line, rest)
termination_by stream.lines.length
decreasing_by all_goals exact readfileNext_lines ‹_› (by decide) (by decide)

/-! ### Effective lines -/

section Effective

variable {stream : InputStream}

/-- The stripped lines of a stream that are neither empty nor comments. -/
def InputStream.effectiveLines (stream : InputStream) : List (List Char) :=
  (stream.lines.map strStrip).filter fun line => readfileClassify line = .line

/-- Every line is empty, a comment or effective. -/
theorem readfileClassify_cases (line : List Char) :
    readfileClassify line = .line ∨ readfileClassify line = .emptyLine ∨
      readfileClassify line = .commentLine := by
  unfold readfileClassify
  split_ifs <;> simp

/-- What is left of a stream once it was read to its end. -/
def InputStream.drained (stream : InputStream) : InputStream := { stream with lines := [] }

variable {lineBuf : List Char} {rest : List (List Char)} {broken : Bool}

theorem readfileNextEffective_skip (skip : readfileClassify (strStrip lineBuf) ≠ .line) :
    readfileNextEffective ⟨lineBuf :: rest, broken⟩ = readfileNextEffective ⟨rest, broken⟩ := by
  have next : readfileNext ⟨lineBuf :: rest, broken⟩ =
      (readfileClassify (strStrip lineBuf), strStrip lineBuf, ⟨rest, broken⟩) := rfl
  conv_lhs => rw [readfileNextEffective]
  rcases readfileClassify_cases (strStrip lineBuf) with line | kind | kind
  · exact absurd line skip
  · rw [kind] at next
    split <;> simp_all
  · rw [kind] at next
    split <;> simp_all

theorem readfileNextEffective_stop (stop : readfileClassify (strStrip lineBuf) = .line) :
    readfileNextEffective ⟨lineBuf :: rest, broken⟩ =
      (.line, strStrip lineBuf, ⟨rest, broken⟩) := by
  have next : readfileNext ⟨lineBuf :: rest, broken⟩ =
      (readfileClassify (strStrip lineBuf), strStrip lineBuf, ⟨rest, broken⟩) := rfl
  rw [stop] at next
  rw [readfileNextEffective]
  split <;> simp_all

theorem effectiveLines_cons :
    InputStream.effectiveLines ⟨lineBuf :: rest, broken⟩ =
      if readfileClassify (strStrip lineBuf) = .line
        then strStrip lineBuf :: InputStream.effectiveLines ⟨rest, broken⟩
        else InputStream.effectiveLines ⟨rest, broken⟩ := by
  simp [InputStream.effectiveLines, List.filter_cons]

/-- The lines are read to the end if none is effective. -/
theorem readfileNextEffective_drained (none : stream.effectiveLines = []) :
    readfileNextEffective stream =
      (if stream.broken then .error else .eof, [], stream.drained) := by
  obtain ⟨lines, broken⟩ := stream
  induction lines with
  | nil =>
    rw [readfileNextEffective]
    cases broken <;> rfl
  | cons lineBuf rest ih =>
    rw [effectiveLines_cons] at none
    split_ifs at none with effective
    rw [readfileNextEffective_skip effective, ih none]
    rfl

/-- The next effective line is read. -/
theorem readfileNextEffective_line {line : List Char} {lines : List (List Char)}
    (next : stream.effectiveLines = line :: lines) :
    ∃ rest, readfileNextEffective stream = (.line, line, rest) ∧
      rest.effectiveLines = lines ∧ rest.drained = stream.drained := by
  obtain ⟨all, broken⟩ := stream
  induction all with
  | nil => cases next
  | cons lineBuf rest ih =>
    rw [effectiveLines_cons] at next
    split_ifs at next with effective
    · obtain ⟨rfl, rfl⟩ := List.cons.inj next
      exact ⟨_, readfileNextEffective_stop effective, rfl, rfl⟩
    · obtain ⟨left, read, effectiveLeft, drained⟩ := ih next
      exact ⟨left, (readfileNextEffective_skip effective).trans read, effectiveLeft, drained⟩

/-- Reading consumes a line, unless it is at the end. -/
theorem readfileNextEffective_lines (found : (readfileNextEffective stream).1 = .line) :
    (readfileNextEffective stream).2.2.lines.length < stream.lines.length := by
  obtain ⟨lines, broken⟩ := stream
  induction lines with
  | nil =>
    rw [readfileNextEffective_drained rfl] at found
    cases broken <;> cases found
  | cons lineBuf rest ih =>
    by_cases effective : readfileClassify (strStrip lineBuf) = .line
    · rw [readfileNextEffective_stop effective]
      exact Nat.lt_succ_self _
    · rw [readfileNextEffective_skip effective] at found ⊢
      exact (ih found).trans (Nat.lt_succ_self _)

end Effective

/-! ### Stripping

The buffer that `getline` fills holds the line and a null char. The front of the line is skipped,
and its end is overwritten. -/

/-- The first loop, as the values of `str` and `*len` after it. -/
def strStripFront (buf : List Char) : Nat → Nat → Option (Nat × Nat)
  | str, 0 => some (str, 0)
  | str, len + 1 => do
    let c ← buf[str]?
    if isWhitespace c then strStripFront buf (str + 1) len else some (str, len + 1)

/-- The second loop, as the buffer and the value of `*len` after it. -/
def strStripBack (str : Nat) : List Char → Nat → Option (List Char × Nat)
  | buf, 0 => some (buf, 0)
  | buf, len + 1 => do
    let c ← buf[str + len]?
    if isWhitespace c then strStripBack str (buf.set (str + len) nul) len else some (buf, len + 1)

/-- `str_strip` on a buffer: what the buffer holds afterwards, and where the line is in it. Reading
outside the buffer is undefined. -/
def strStripInPlace (buf : List Char) (len : Nat) : Option (List Char × Nat × Nat) := do
  let (str, len) ← strStripFront buf 0 len
  let (buf, len) ← strStripBack str buf len
  pure (buf, str, len)

theorem strStripFront_eq (skipped line rest : List Char) :
    strStripFront (skipped ++ (line ++ rest)) skipped.length line.length =
      some ((skipped ++ line.takeWhile isWhitespace).length,
        (line.dropWhile isWhitespace).length) := by
  induction line generalizing skipped with
  | nil => simp [strStripFront]
  | cons c line ih =>
    have here : (skipped ++ (c :: line ++ rest))[skipped.length]? = some c := by simp
    rw [List.length_cons, strStripFront, here, Option.bind_eq_bind, Option.bind_some]
    by_cases space : isWhitespace c = true
    · have next := ih (skipped ++ [c])
      rw [List.append_assoc, List.singleton_append, List.length_append,
        List.length_singleton] at next
      rw [if_pos space, List.cons_append, next]
      simp [space]
    · simp [space]

theorem strStripBack_eq (skipped line rest : List Char) :
    ∃ cut, strStripBack skipped.length (skipped ++ (line ++ nul :: rest)) line.length =
      some (skipped ++ (line.rdropWhile isWhitespace ++ nul :: cut),
        (line.rdropWhile isWhitespace).length) := by
  induction line using List.reverseRecOn generalizing rest with
  | nil => exact ⟨rest, by simp [strStripBack]⟩
  | append_singleton line c ih =>
    have here : (skipped ++ (line ++ [c] ++ nul :: rest))[skipped.length + line.length]? =
        some c := by simp
    rw [List.length_append, List.length_singleton, strStripBack, here, Option.bind_eq_bind,
      Option.bind_some, List.rdropWhile_concat]
    by_cases space : isWhitespace c = true
    · -- the char becomes the new end of the line
      have write : (skipped ++ (line ++ [c] ++ nul :: rest)).set (skipped.length + line.length)
          nul = skipped ++ (line ++ nul :: (nul :: rest)) := by simp
      obtain ⟨cut, next⟩ := ih (nul :: rest)
      exact ⟨cut, by rw [if_pos space, if_pos space, write, next]⟩
    · exact ⟨rest, by simp [space]⟩

/-- The line lies in the buffer with a null char behind it, and has the new length. -/
theorem strStripInPlace_eq (line rest : List Char) :
    ∃ skipped cut, strStripInPlace (line ++ nul :: rest) line.length =
      some (skipped ++ (strStrip line ++ nul :: cut), skipped.length, (strStrip line).length) := by
  have front := strStripFront_eq [] line (nul :: rest)
  rw [List.nil_append, List.length_nil, List.nil_append] at front
  obtain ⟨cut, back⟩ :=
    strStripBack_eq (line.takeWhile isWhitespace) (line.dropWhile isWhitespace) rest
  have split : line ++ nul :: rest = line.takeWhile isWhitespace ++
      (line.dropWhile isWhitespace ++ nul :: rest) := by
    rw [← List.append_assoc, List.takeWhile_append_dropWhile]
  refine ⟨line.takeWhile isWhitespace, cut, ?_⟩
  rw [strStripInPlace, front, Option.bind_eq_bind, Option.bind_some]
  simp only [split, back, strStrip]
  rfl

theorem strStrip_newline {s : List Char} (solid : ∀ c ∈ s, isWhitespace c = false) :
    strStrip (s ++ ['\n']) = s := by
  have whole : Solid isWhitespace s :=
    ⟨fun c mem => solid c (List.mem_of_mem_head? mem),
      fun c mem => solid c (List.mem_of_mem_getLast? mem)⟩
  by_cases none : s = []
  · subst none
    decide
  · have trimmed := trim_append (u := []) (v := ['\n']) whole none
    rw [List.nil_append] at trimmed
    rw [strStrip, ← trim, trimmed]
    simp [List.rdropWhile_singleton, isWhitespace]

/-! ### White space around a line -/

section Padded

variable {s u v : List Char}

/-- The line with white space on both sides is classified as the line itself, and where it has
content, the line that the parser gets is the line itself. -/
def ReadAsUnpadded (u s v : List Char) : Prop :=
  ∀ (rest : List (List Char)) (broken : Bool),
    (readfileNext ⟨(u ++ s ++ v) :: rest, broken⟩).1 = (readfileNext ⟨s :: rest, broken⟩).1 ∧
      ((readfileNext ⟨(u ++ s ++ v) :: rest, broken⟩).1 = .line →
        (readfileNext ⟨(u ++ s ++ v) :: rest, broken⟩).2.1 = s)

/-- White space is stripped, except for the carriage return. -/
theorem isWhitespace_of_isspace {c : Char} (space : isspace c = true) :
    isWhitespace c = false ↔ c = '\r' := by
  simp only [isspace, decide_eq_true_eq, List.mem_cons, List.not_mem_nil, or_false] at space
  rcases space with rfl | rfl | rfl | rfl | rfl | rfl <;> decide

theorem not_isWhitespace_of_not_isspace {c : Char} (solid : isspace c = false) :
    isWhitespace c = false := by
  simp only [isspace, isWhitespace, decide_eq_false_iff_not, List.mem_cons, List.not_mem_nil,
    or_false, not_or] at solid ⊢
  exact ⟨solid.1, solid.2.1, solid.2.2.1, solid.2.2.2.1, solid.2.2.2.2.1⟩

theorem forall_isWhitespace_iff (spaces : ∀ c ∈ u, isspace c = true) :
    (∀ c ∈ u, isWhitespace c = true) ↔ '\r' ∉ u := by
  constructor
  · intro all mem
    exact absurd (all _ mem) (by decide)
  · intro none c mem
    by_contra solid
    have returned := (isWhitespace_of_isspace (spaces c mem)).mp (by simpa using solid)
    exact none (returned ▸ mem)

theorem solid_isWhitespace (solid : Solid isspace s) : Solid isWhitespace s where
  front c mem := not_isWhitespace_of_not_isspace (solid.front c mem)
  back c mem := not_isWhitespace_of_not_isspace (solid.back c mem)

/-- A line that begins with white space has content. -/
theorem readfileClassify_of_isspace {c : Char} (space : isspace c = true) (rest : List Char) :
    readfileClassify (c :: rest) = .line := by
  have notNul : c ≠ nul := by
    rintro rfl
    exact absurd space (by decide)
  have notComment : c ≠ '#' := by
    rintro rfl
    exact absurd space (by decide)
  simp [readfileClassify, notNul, notComment]

/-- What a line is depends on its first char. -/
theorem readfileClassify_append (nonempty : s ≠ []) (v : List Char) :
    readfileClassify (s ++ v) = readfileClassify s := by
  obtain ⟨c, s, rfl⟩ := List.exists_cons_of_ne_nil nonempty
  rfl

theorem readfileClassify_ne_line_iff (nonempty : s ≠ []) :
    readfileClassify s ≠ .line ↔ s.head? = some '#' ∨ s.head? = some nul := by
  obtain ⟨c, s, rfl⟩ := List.exists_cons_of_ne_nil nonempty
  simp only [readfileClassify, List.head?_cons, Option.getD_some, Option.some.injEq]
  split_ifs <;> simp_all

/-- Only a carriage return makes a difference: in front of the line, or behind a line that is not
skipped for its first char. -/
theorem readfileNext_padded_iff (s u v : List Char) (solid : Solid isspace s)
    (front : ∀ c ∈ u, isspace c = true) (back : ∀ c ∈ v, isspace c = true) :
    ReadAsUnpadded u s v ↔
      '\r' ∉ u ∧ ('\r' ∈ v → s.head? = some '#' ∨ s.head? = some nul) := by
  have stripped : strStrip s = s := trim_of_solid (solid_isWhitespace solid)
  have unfolded : ReadAsUnpadded u s v ↔
      readfileClassify (strStrip (u ++ s ++ v)) = readfileClassify s ∧
        (readfileClassify (strStrip (u ++ s ++ v)) = .line → strStrip (u ++ s ++ v) = s) := by
    simp only [ReadAsUnpadded, readfileNext, stripped, forall_const]
  rw [unfolded]
  by_cases none : s = []
  · -- nothing but white space: the line is empty if all of it is stripped
    subst none
    have spaces : ∀ c ∈ u ++ [] ++ v, isspace c = true := by
      intro c mem
      rw [List.append_nil, List.mem_append] at mem
      exact mem.elim (front c) (back c)
    have blank : strStrip (u ++ [] ++ v) = [] ↔ _ :=
      trim_eq_nil_iff.trans (forall_isWhitespace_iff spaces)
    have condition : '\r' ∉ u ++ [] ++ v ↔
        '\r' ∉ u ∧ ('\r' ∈ v → ([] : List Char).head? = some '#' ∨ [].head? = some nul) := by
      simp
    rw [← condition, ← blank]
    constructor
    · rintro ⟨same, -⟩
      by_contra some
      obtain ⟨c, rest, cut⟩ := List.exists_cons_of_ne_nil some
      have first : c ∈ strStrip (u ++ [] ++ v) := by
        rw [cut]
        exact List.mem_cons_self
      have mem : c ∈ u ++ [] ++ v := mem_of_mem_trim first
      rw [cut, readfileClassify_of_isspace (spaces c mem)] at same
      cases same
    · intro empty
      rw [empty]
      exact ⟨rfl, fun _ => rfl⟩
  · have trimmed := trim_append (u := u) (v := v) (solid_isWhitespace solid) none
    change strStrip _ = _ at trimmed
    rw [trimmed, ← readfileClassify_ne_line_iff none]
    have clearFront := (List.dropWhile_eq_nil_iff (p := isWhitespace)).trans
      (forall_isWhitespace_iff front)
    have clearBack := (List.rdropWhile_eq_nil_iff (p := isWhitespace)).trans
      (forall_isWhitespace_iff back)
    have condition : ('\r' ∈ v → readfileClassify s ≠ .line) ↔
        (readfileClassify s = .line → v.rdropWhile isWhitespace = []) := by
      rw [clearBack]
      exact ⟨fun skip line mem => skip mem line, fun clear mem line => clear line mem⟩
    rw [← clearFront, condition]
    by_cases left : u.dropWhile isWhitespace = []
    · rw [left, List.nil_append, readfileClassify_append none]
      simp
    · -- what is left in front counts as content, and is not part of the line
      obtain ⟨c, rest, cut⟩ := List.exists_cons_of_ne_nil left
      have mem : c ∈ u := (List.dropWhile_sublist isWhitespace).subset
        (cut ▸ List.mem_cons_self)
      refine iff_of_false ?_ (fun clear => left clear.1)
      rw [cut, List.cons_append, List.cons_append, readfileClassify_of_isspace (front c mem)]
      rintro ⟨-, same⟩
      have length := congrArg List.length (same rfl)
      simp only [List.length_cons, List.length_append] at length
      omega

/-- A line with a carriage return in front of its newline. -/
theorem readfileNext_padded_dos : ∃ s u v : List Char, Solid isspace s ∧
    (∀ c ∈ u, isspace c = true) ∧ (∀ c ∈ v, isspace c = true) ∧ ¬ ReadAsUnpadded u s v := by
  refine ⟨"10.0.0.1".toList, [], ['\r', '\n'], ⟨by simp [isspace], by simp [isspace]⟩, by simp,
    by simp [isspace], ?_⟩
  intro same
  have line := (same [] false).2 (by decide)
  exact absurd line (by decide)

/-- A line with blanks on both sides. -/
theorem readfileNext_padded_iff_blanks :
    ReadAsUnpadded [' '] "10.0.0.1".toList ['\t', '\n'] ↔
      '\r' ∉ [' '] ∧ ('\r' ∈ ['\t', '\n'] →
        "10.0.0.1".toList.head? = some '#' ∨ "10.0.0.1".toList.head? = some nul) :=
  readfileNext_padded_iff _ _ _ ⟨by simp [isspace], by simp [isspace]⟩ (by simp [isspace])
    (by simp [isspace])

end Padded

end IpDedup
