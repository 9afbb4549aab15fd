import IpDedup.Parse.Combined
import IpDedup.Print.Ip4
import IpDedup.Print.Ip6ReadBack

/-!
# Reading printed text

The text that one run prints is the input of another: it is cut into lines, and
each line is read by the parser of the other run.

## Main definitions

* `getlines`: the lines of a text
* `PlainLine`: a line that is made of the characters of addresses

## Main results

* `effectiveLines_printed`: the lines of a printed text are the lines that were printed
* `plainLine_ip4`, `plainLine_ip6`: what the parsers for one family make of a printed line
-/

set_option autoImplicit false

open Numeral

namespace IpDedup

/-! ### Lines -/

/-- The lines of a text as `getline` returns them, each with its newline, if it has one. -/
def getlines : List Char → List (List Char)
  | [] => []
  | c :: text =>
    if c = '\n' then [c] :: getlines text
    else
      match getlines text with
      | [] => [[c]]
      | line :: lines => (c :: line) :: lines

/-- A file that is read as this text. -/
def InputStream.ofText (text : List Char) : InputStream := ⟨getlines text, false⟩

/-- The first line ends with the first newline. -/
theorem getlines_line {body : List Char} (solid : '\n' ∉ body) (text : List Char) :
    getlines (body ++ '\n' :: text) = (body ++ ['\n']) :: getlines text := by
  induction body with
  | nil => rfl
  | cons c body ih =>
    rw [List.mem_cons, not_or] at solid
    rw [List.cons_append, getlines, if_neg (Ne.symm solid.1), ih solid.2]
    rfl

theorem getlines_flatMap {bodies : List (List Char)} (solid : ∀ body ∈ bodies, '\n' ∉ body) :
    getlines (bodies.flatMap fun body => body ++ ['\n']) =
      bodies.map fun body => body ++ ['\n'] := by
  induction bodies with
  | nil => rfl
  | cons body bodies ih =>
    obtain ⟨first, others⟩ := List.forall_mem_cons.mp solid
    rw [List.flatMap_cons, List.append_assoc, List.singleton_append, getlines_line first,
      ih others, List.map_cons]

/-- A line that is made of the characters of addresses. -/
structure PlainLine (body : List Char) : Prop where
  nonempty : body ≠ []
  charset : ∀ c ∈ body, AddrChar c

theorem PlainLine.solid {body : List Char} (plain : PlainLine body) : '\n' ∉ body := fun mem =>
  absurd (not_isWhitespace_of_addrChar (plain.charset '\n' mem)) (by decide)

/-- Such a line is neither empty nor a comment, and nothing is stripped but the newline. -/
theorem PlainLine.effective {body : List Char} (plain : PlainLine body) :
    strStrip (body ++ ['\n']) = body ∧ readfileClassify body = .line := by
  refine ⟨strStrip_newline fun c mem => not_isWhitespace_of_addrChar (plain.charset c mem), ?_⟩
  obtain ⟨c, rest, rfl⟩ := List.exists_cons_of_ne_nil plain.nonempty
  have known : AddrChar c := plain.charset c List.mem_cons_self
  -- `readfile` skips a line that is empty once it is stripped, and one behind a `#`
  have visible : c ≠ nul := by
    rintro rfl
    exact not_addrChar_nul known
  have other : c ≠ '#' := by
    rintro rfl
    revert known
    unfold AddrChar
    decide
  rw [readfileClassify, if_neg (by simpa using visible), if_neg (by simpa using other)]

/-- The lines of a printed text are the lines that were printed. -/
theorem effectiveLines_printed {bodies : List (List Char)}
    (plain : ∀ body ∈ bodies, PlainLine body) :
    (InputStream.ofText (bodies.flatMap fun body => body ++ ['\n'])).effectiveLines = bodies := by
  rw [InputStream.effectiveLines, InputStream.ofText,
    getlines_flatMap fun body mem => (plain body mem).solid, List.map_map]
  have stripped : bodies.map (strStrip ∘ fun body => body ++ ['\n']) = bodies :=
    (List.map_congr_left fun body mem => (plain body mem).effective.1).trans (List.map_id _)
  rw [stripped, List.filter_eq_self]
  exact fun body mem => decide_eq_true (plain body mem).effective.2

/-! ### Printed networks -/

variable {w : UintFast32}

/-- The line that is printed for an IPv4 network, without its newline. -/
def ip4Line (addr : Ip4Addr w) : List Char := ip4NetFmt (ip4AddrFmtArgs addr.addr) addr.prefixlen

/-- The line that is printed for an IPv6 network by default, without its newline. -/
def ip6Line (addr : Ip6Addr) : List Char :=
  (ip6AddrDataIntoStr addr.addr).getD [] ++ '/' :: fmtDecimal addr.prefixlen

theorem flatMap_fprintIp4Net (nets : List (Ip4Addr w)) :
    nets.flatMap fprintIp4Net = (nets.map ip4Line).flatMap fun body => body ++ ['\n'] := by
  rw [List.flatMap_map]
  rfl

theorem fprintIp6TreeCompactLoop_lines (nets : List Ip6Addr) :
    (fprintIp6TreeCompactLoop false nets).2 =
      (nets.map ip6Line).flatMap fun body => body ++ ['\n'] := by
  induction nets with
  | nil => rfl
  | cons addr nets ih =>
    obtain ⟨start, len, text, out, -, read⟩ := exists_compactRead addr.addr
    have printed := fprintIp6Compact_eq (p := addr.prefixlen) read false
    rw [if_neg (by simp)] at printed
    rw [fprintIp6TreeCompactLoop, printed, List.map_cons, List.flatMap_cons, ← ih, ip6Line,
      read.printed]
    rfl

/-- An address that holds no more than 32 bits. -/
def Ip4Addr.Clean (addr : Ip4Addr w) : Prop := ∃ x : BitVec 32, addr.addr = x.setWidth w.width

/-- Addresses whose first block alone is zero are printed in a form that is not read. -/
def Ip6AddrData.Readable (bits : Ip6AddrData) : Prop :=
  bits.block 0 ≠ 0 ∨ ∃ i < 7, bits.block i = 0 ∧ bits.block (i + 1) = 0

theorem plainLine_ip4 (addr : Ip4Addr w) : PlainLine (ip4Line addr) where
  nonempty := by simp [ip4Line, ip4NetFmt]
  charset := addrChar_of_mem_net fun c => addrChar_of_mem_ip4AddrFmt

/-- The IPv4 parser reads a printed IPv4 network, and the IPv6 parser does not. -/
theorem ip4Line_read {addr : Ip4Addr w} (clean : addr.Clean)
    (short : addr.prefixlen ≤ ip4MaxPrefixlen) (buf4 : ParseIp4Data) (buf6 : ParseIp6Data)
    (addrV4 : Ip4Addr w) (addrV6 : Ip6Addr) :
    (parseIp4Addr buf4 (ip4Line addr) addrV4).ret = .success ∧
      (parseIp4Addr buf4 (ip4Line addr) addrV4).addr = addr ∧
      (parseIp6Addr buf6 (ip4Line addr) addrV6).ret = .invalid := by
  obtain ⟨p, data⟩ := addr
  obtain ⟨x, rfl⟩ : ∃ x : BitVec 32, data = x.setWidth w.width := clean
  have split : parseIpSplitPrefixlen (ip4Line ⟨p, x.setWidth w.width⟩) = some _ :=
    parseIpSplitPrefixlen_net (p := p) fun c => addrChar_of_mem_ip4AddrFmt
  have read := parseIp4AddrSplit_fmtArgs (w := w) x buf4 fun buf _ =>
    parseIp4AddrSplitReadPrefixlen_fmtDecimal (show p ≤ 32 from short) buf
  rw [parseIp4Addr, parseIp6Addr, split]
  exact ⟨read.1, read.2, parseIp6AddrSplit_fmtArgs _ buf6 _⟩

theorem exists_ip6Line (addr : Ip6Addr) :
    ∃ start len text out, CompactRead addr.addr start len text out ∧
      ip6Line addr = text ++ '/' :: fmtDecimal addr.prefixlen ∧
      (¬ (start = 0 ∧ len = 1) ↔ addr.addr.Readable) := by
  obtain ⟨start, len, text, out, longest, read⟩ := exists_compactRead addr.addr
  refine ⟨start, len, text, out, read, by rw [ip6Line, read.printed]; rfl, ?_⟩
  rw [first_alone_iff longest, not_not, Ip6AddrData.Readable]

theorem plainLine_ip6 (addr : Ip6Addr) : PlainLine (ip6Line addr) := by
  obtain ⟨start, len, text, out, read, line, -⟩ := exists_ip6Line addr
  rw [line]
  exact ⟨by simp, addrChar_of_mem_net read.shape.addrChar⟩

/-- The IPv6 parser reads a printed IPv6 network if it is readable, and the IPv4 parser does
not. -/
theorem ip6Line_read {addr : Ip6Addr} (short : addr.prefixlen ≤ ip6MaxPrefixlen)
    (buf4 : ParseIp4Data) (buf6 : ParseIp6Data) (addrV4 : Ip4Addr w) (addrV6 : Ip6Addr) :
    (parseIp4Addr buf4 (ip6Line addr) addrV4).ret = .invalid ∧
      ((parseIp6Addr buf6 (ip6Line addr) addrV6).ret = .success ↔ addr.addr.Readable) ∧
      (addr.addr.Readable → (parseIp6Addr buf6 (ip6Line addr) addrV6).addr = addr) := by
  obtain ⟨start, len, text, out, read, line, readable⟩ := exists_ip6Line addr
  have split := parseIpSplitPrefixlen_net (p := addr.prefixlen) read.shape.addrChar
  have plain := plainAddr_of_addrChar read.shape.addrChar
  rw [line, parseIp4Addr, parseIp6Addr, split, ← readable]
  refine ⟨?_, ?_⟩
  · -- the first separator is a colon
    obtain ⟨a, b, rfl, -⟩ := List.eq_append_cons_of_mem read.shape.colon
    have noDot : '.' ∉ a := fun mem =>
      read.shape.not_mem (c := '.') (by decide) (by decide) (by simp [mem])
    exact parseIp4AddrSplit_foreign plain noDot (by decide) (by unfold ForeignChar; decide)
  · have blocks := read.blocks
    -- a single zero block in front is printed as a double colon, which is rejected
    by_cases bad : start = 0 ∧ len = 1
    · rw [if_pos bad] at blocks
      dsimp only
      rw [parseIp6AddrSplit_plain read.shape.ne_nil plain, blocks]
      simp [bad]
    · have whole := (read.split_iff (p := addr.prefixlen)
        (parseIp6AddrSplitReadPrefixlen_fmtDecimal (show addr.prefixlen ≤ 128 from short) out)).mpr
        ⟨bad, rfl⟩
      exact ⟨iff_of_true (whole buf6).1 bad, fun _ => (whole buf6).2⟩

end IpDedup
