import IpDedup.Parse.Combined
import IpDedup.Parse.Readfile

/-!
# Parsing files

`util/parse_ip/parsefile.c`: the next address of a stream, and in keep-going
mode the next one after any number of invalid lines.

## Main definitions

* `ParseIpFileState`
* `parseIpFileNext`, `parseIpFileEofEvalKeepGoingStatus`
* `ParseIpFileState.Reads`: what the state is like between two calls

## Main results

* `parseIpFileNext_valid`, `parseIpFileNext_skip`, `parseIpFileNext_stop`, `parseIpFileNext_end`:
  the next call, by what the next line is
-/

set_option autoImplicit false

namespace IpDedup

/-- `struct parse_ip_file_config` -/
structure ParseIpFileConfig where
  keepGoing : Bool
  strictNetaddr : Bool

def parseIpFileConfigInitNull : ParseIpFileConfig := ⟨false, false⟩

/-- `PARSE_IP_KEEP_GOING_SEEN_*`, a mask. -/
structure KeepGoingStatus where
  seenAddr : Bool
  seenInvalid : Bool
deriving DecidableEq, Repr

/-- `PARSE_IP_KEEP_GOING_SEEN_NONE` -/
def KeepGoingStatus.seenNone : KeepGoingStatus := ⟨false, false⟩

variable {w : UintFast32}

/-- `struct parse_ip_file_state` -/
structure ParseIpFileState (w : UintFast32) where
  cfg : ParseIpFileConfig
  file : InputStream
  addr : ParseIpAddrData w
  fParseAddr : ParseIpAddrFunc w
  fParseNetAddr : ParseIpAddrFunc w
  readRet : ReadfileRet
  keepGoingStatus : KeepGoingStatus

/-- The parsers for addresses and for networks. -/
def parseIpFileInitParseMode (P : Platform) (parseMode : ParseIpType) :
    Option (ParseIpAddrFunc P.fast32 × ParseIpAddrFunc P.fast32) :=
  if parseMode = .onlyIpv4 then some (parseIp4AddrCombined, parseIp4NetAddrCombined P)
  else if parseMode = .onlyIpv6 then some (parseIp6AddrCombined, parseIp6NetAddrCombined P)
  else if parseMode = .both then some (parseIpAddrCombined, parseIpNetAddrCombined P)
  else none

/-- It fails on other modes, and on a stream that is `NULL`. -/
def parseIpFileInitStream (P : Platform) (inputStream : Option InputStream)
    (parseMode : ParseIpType) : Option (ParseIpFileState P.fast32) := do
  let parsers ← parseIpFileInitParseMode P parseMode
  let stream ← inputStream
  pure ⟨parseIpFileConfigInitNull, stream, parseIpAddrDataInitNull, parsers.1, parsers.2, .line,
    .seenNone⟩

/-- The parser that the configuration asks for. -/
def ParseIpFileState.fParse (pfileState : ParseIpFileState w) : ParseIpAddrFunc w :=
  if pfileState.cfg.strictNetaddr then pfileState.fParseNetAddr else pfileState.fParseAddr

/-- `_parse_ip_file_next`: read and parse one line. -/
def parseIpFileNextLine (pfileState : ParseIpFileState w) (bufs : ParseBufs w) :
    ParseIpRet × ParseIpFileState w × ParseBufs w :=
  let read := readfileNextEffective pfileState.file
  let pfileState := { pfileState with readRet := read.1, file := read.2.2,
                                      addr := { pfileState.addr with addrType := .none } }
  if read.1 = .line then
    let out := pfileState.fParse bufs read.2.1 pfileState.addr
    (out.ret, { pfileState with addr := out.pstate }, out.bufs)
  else if read.1 = .eof then (.eof, pfileState, bufs)
  else (.readErr, pfileState, bufs)

theorem parseIpFileNextLine_lines {pfileState : ParseIpFileState w} {bufs : ParseBufs w}
    (eof : (parseIpFileNextLine pfileState bufs).1 ≠ .eof)
    (readErr : (parseIpFileNextLine pfileState bufs).1 ≠ .readErr) :
    (parseIpFileNextLine pfileState bufs).2.1.file.lines.length <
      pfileState.file.lines.length := by
  unfold parseIpFileNextLine at *
  dsimp only at *
  split_ifs at * with line
  · exact readfileNextEffective_lines line
  · exact absurd rfl eof
  · exact absurd rfl readErr

def parseIpFileNext (pfileState : ParseIpFileState w) (bufs : ParseBufs w) :
    ParseIpRet × ParseIpFileState w × ParseBufs w :=
  let next := parseIpFileNextLine pfileState bufs
  let status := next.2.1.keepGoingStatus
  if next.1 = .success then
    (.success, { next.2.1 with keepGoingStatus := { status with seenAddr := true } }, next.2.2)
  else if _invalid : next.1 = .invalid ∨ next.1 = .invalidNet then
    let pfileState := { next.2.1 with keepGoingStatus := { status with seenInvalid := true } }
    -- in keep-going mode the line is skipped
    if pfileState.cfg.keepGoing then parseIpFileNext pfileState next.2.2
    else (next.1, pfileState, next.2.2)
  else next
termination_by pfileState.file.lines.length
decreasing_by
  refine parseIpFileNextLine_lines ?_ ?_ <;>
    rcases _invalid with ret | ret <;> rw [ret] <;> decide

/-- Finding an address consumes a line. -/
theorem parseIpFileNext_lines {pfileState : ParseIpFileState w} {bufs : ParseBufs w}
    (found : (parseIpFileNext pfileState bufs).1 = .success) :
    (parseIpFileNext pfileState bufs).2.1.file.lines.length < pfileState.file.lines.length := by
  fun_induction parseIpFileNext pfileState bufs with
  | case1 pfileState bufs next status good =>
    exact parseIpFileNextLine_lines (by rw [good]; decide) (by rw [good]; decide)
  | case2 pfileState bufs next status bad invalid pfileState' keepGoing ih =>
    -- the lines that were skipped are consumed as well
    refine (ih found).trans (parseIpFileNextLine_lines ?_ ?_) <;>
      rcases invalid with ret | ret <;> rw [ret] <;> decide
  | case3 pfileState bufs next status bad invalid pfileState' stop =>
    exact absurd found bad
  | case4 pfileState bufs next bad other =>
    exact absurd found bad

/-- The return code at the end of the file: without a valid address, an invalid one is an error. -/
def parseIpFileEofEvalKeepGoingStatus (pfileState : ParseIpFileState w) : ParseIpRet :=
  let k := pfileState.keepGoingStatus
  if k = .seenNone then .success
  else if k.seenAddr then .success
  else if k.seenInvalid then .invalid
  else .fail

/-! ### The next line -/

section Next

open ParseIpAddrFunc

/-- The state between two calls: the parser, whether invalid lines are skipped, the lines that are
still to come, what was seen and what will be left of the stream. -/
structure ParseIpFileState.Reads (pfileState : ParseIpFileState w) (keepGoing : Bool)
    (f : ParseIpAddrFunc w) (lines : List (List Char)) (status : KeepGoingStatus)
    (left : InputStream) : Prop where
  parser : pfileState.fParse = f
  keepGoing : pfileState.cfg.keepGoing = keepGoing
  lines : pfileState.file.effectiveLines = lines
  status : pfileState.keepGoingStatus = status
  left : pfileState.file.drained = left

variable {pfileState : ParseIpFileState w} (bufs : ParseBufs w) {keepGoing : Bool}
  {f : ParseIpAddrFunc w} {mode : ParseIpType} {line : List Char} {lines : List (List Char)}
  {status : KeepGoingStatus} {left : InputStream}

/-- A line is parsed as if nothing had been parsed before. -/
theorem parseIpFileNextLine_line (sound : f.Sound mode)
    (reads : pfileState.Reads keepGoing f (line :: lines) status left) :
    (parseIpFileNextLine pfileState bufs).1 = (f.fresh line).ret ∧
      (parseIpFileNextLine pfileState bufs).2.1.Reads keepGoing f lines status left ∧
      (f.Valid line →
        (parseIpFileNextLine pfileState bufs).2.1.addr.netsV4 = f.netsV4 line ∧
          (parseIpFileNextLine pfileState bufs).2.1.addr.netsV6 = f.netsV6 line) := by
  obtain ⟨rest, read, later, drained⟩ := readfileNextEffective_line reads.lines
  have out : parseIpFileNextLine pfileState bufs =
      let out := f bufs line { pfileState.addr with addrType := .none }
      (out.ret, { pfileState with readRet := .line, file := rest, addr := out.pstate },
        out.bufs) := by
    rw [parseIpFileNextLine, read, ← reads.parser]
    rfl
  rw [out]
  refine ⟨sound.ret _ _ _, ?_, fun valid => ?_⟩
  · exact ⟨reads.parser, reads.keepGoing, later, reads.status, drained.trans reads.left⟩
  · exact ⟨sound.netsV4 _ _ _ valid, sound.netsV6 _ _ _ valid⟩

/-- At the end of the lines nothing else happens. -/
theorem parseIpFileNext_end (reads : pfileState.Reads keepGoing f [] status left) :
    ∃ pfileState', parseIpFileNext pfileState bufs =
        (if left.broken then .readErr else .eof, pfileState', bufs) ∧
      pfileState'.file = left ∧ pfileState'.keepGoingStatus = status := by
  have read := readfileNextEffective_drained reads.lines
  have same : pfileState.file.broken = left.broken := by rw [← reads.left]; rfl
  rw [same] at read
  refine ⟨(parseIpFileNextLine pfileState bufs).2.1, ?_, ?_, ?_⟩
  · cases broken : left.broken <;>
      simp [parseIpFileNext, parseIpFileNextLine, read, broken]
  · rw [← reads.left]
    cases broken : left.broken <;> simp [parseIpFileNextLine, read, broken]
  · rw [← reads.status]
    cases broken : left.broken <;> simp [parseIpFileNextLine, read, broken]

/-- A valid line is the next address. -/
theorem parseIpFileNext_valid (sound : f.Sound mode)
    (reads : pfileState.Reads keepGoing f (line :: lines) status left) (valid : f.Valid line) :
    (parseIpFileNext pfileState bufs).1 = .success ∧
      (parseIpFileNext pfileState bufs).2.1.Reads keepGoing f lines
        { status with seenAddr := true } left ∧
      (parseIpFileNext pfileState bufs).2.1.addr.netsV4 = f.netsV4 line ∧
      (parseIpFileNext pfileState bufs).2.1.addr.netsV6 = f.netsV6 line := by
  obtain ⟨ret, next, nets⟩ := parseIpFileNextLine_line bufs sound reads
  have found := nets valid
  have good := ret.trans valid
  rw [parseIpFileNext, if_pos good]
  refine ⟨rfl, ⟨next.parser, next.keepGoing, next.lines, ?_, next.left⟩, found⟩
  rw [← next.status]

/-- An invalid line is skipped in keep-going mode. -/
theorem parseIpFileNext_skip (sound : f.Sound mode)
    (reads : pfileState.Reads true f (line :: lines) status left)
    (invalid : (f.fresh line).ret = .invalid ∨ (f.fresh line).ret = .invalidNet) :
    ∃ pfileState' bufs', parseIpFileNext pfileState bufs = parseIpFileNext pfileState' bufs' ∧
      pfileState'.Reads true f lines { status with seenInvalid := true } left := by
  obtain ⟨ret, next, -⟩ := parseIpFileNextLine_line bufs sound reads
  rw [← ret] at invalid
  have bad : (parseIpFileNextLine pfileState bufs).1 ≠ .success := by
    rcases invalid with ret | ret <;> rw [ret] <;> decide
  refine ⟨{ (parseIpFileNextLine pfileState bufs).2.1 with
      keepGoingStatus := { status with seenInvalid := true } },
    (parseIpFileNextLine pfileState bufs).2.2, ?_,
    next.parser, next.keepGoing, next.lines, rfl, next.left⟩
  conv_lhs => rw [parseIpFileNext]
  rw [if_neg bad, dif_pos invalid, next.status]
  exact if_pos next.keepGoing

/-- Parsing stops at every other line. -/
theorem parseIpFileNext_stop (sound : f.Sound mode)
    (reads : pfileState.Reads keepGoing f (line :: lines) status left) (bad : ¬ f.Valid line)
    (stops : keepGoing = true →
      ¬ ((f.fresh line).ret = .invalid ∨ (f.fresh line).ret = .invalidNet)) :
    (parseIpFileNext pfileState bufs).1 = (f.fresh line).ret := by
  obtain ⟨ret, next, -⟩ := parseIpFileNextLine_line bufs sound reads
  rw [parseIpFileNext, if_neg (by rwa [ret])]
  by_cases invalid : (f.fresh line).ret = .invalid ∨ (f.fresh line).ret = .invalidNet
  · have strict : ¬ keepGoing = true := fun skips => stops skips invalid
    rw [dif_pos (by rwa [ret]), if_neg (by rwa [← next.keepGoing] at strict)]
    exact ret
  · rw [dif_neg (by rwa [ret])]
    exact ret

end Next

end IpDedup
