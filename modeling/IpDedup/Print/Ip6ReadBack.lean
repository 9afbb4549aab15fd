import IpDedup.Print.Ip6

/-!
# Reading printed IPv6 addresses

What the IPv6 parser makes of the lines that are printed: of the compact form,
with and without a suffix, and of the long form.
-/

set_option autoImplicit false

open BitString Numeral LongestRun

namespace IpDedup

/-! ### Putting blocks together -/

theorem parseIp6AddrSplitMakeAddrConsume_append (bits : Ip6AddrData) (remaining : Nat)
    (xs ys : List Nat) :
    parseIp6AddrSplitMakeAddrConsume bits remaining (xs ++ ys) =
      parseIp6AddrSplitMakeAddrConsume (parseIp6AddrSplitMakeAddrConsume bits remaining xs)
        (remaining - xs.length) ys := by
  induction xs generalizing bits remaining with
  | nil => rfl
  | cons block xs ih =>
    have index : remaining - (block :: xs).length = remaining - 1 - xs.length := by
      rw [List.length_cons]
      omega
    rw [List.cons_append, index]
    exact ih _ _

theorem parseIp6AddrSplitMakeAddrConsume_zeros (bits : Ip6AddrData) (remaining len : Nat) :
    parseIp6AddrSplitMakeAddrConsume bits remaining (List.replicate len 0) = bits := by
  induction len generalizing remaining with
  | zero => rfl
  | succ len ih =>
    rw [List.replicate_succ, parseIp6AddrSplitMakeAddrConsume]
    simp only [BitVec.zero_shiftLeft, BitVec.or_zero, ite_self]
    exact ih _

/-- Eight blocks make two chunks. -/
theorem parseIp6AddrSplitMakeAddrConsume_eight (a b c d e f g h : BitVec 64) :
    parseIp6AddrSplitMakeAddrConsume ⟨0, 0⟩ 8
        [a.toNat, b.toNat, c.toNat, d.toNat, e.toNat, f.toNat, g.toNat, h.toNat] =
      ⟨a <<< 48 ||| b <<< 32 ||| c <<< 16 ||| d <<< 0,
        e <<< 48 ||| f <<< 32 ||| g <<< 16 ||| h <<< 0⟩ := by
  simp [parseIp6AddrSplitMakeAddrConsume, parseIp6BlockBase]

/-- The four fields of a chunk make up the chunk. -/
theorem chunk_fields (x : BitVec 64) :
    ((x >>> 48) &&& 0xffff) <<< 48 ||| ((x >>> 32) &&& 0xffff) <<< 32 |||
      ((x >>> 16) &&& 0xffff) <<< 16 ||| ((x >>> 0) &&& 0xffff) <<< 0 = x := by
  apply BitVec.eq_of_getLsbD_eq
  intro i inside
  have field (k : Nat) : (((x >>> k) &&& 0xffff) <<< k).getLsbD i =
      (decide (k ≤ i ∧ i < k + 16) && x.getLsbD i) := getLsbD_field x k 16 i
  rw [BitVec.getLsbD_or, BitVec.getLsbD_or, BitVec.getLsbD_or, field, field, field, field]
  grind

/-- The blocks of an address make up the address. -/
theorem parseIp6AddrSplitMakeAddrConsume_blocks (bits : Ip6AddrData) :
    parseIp6AddrSplitMakeAddrConsume ⟨0, 0⟩ 8 (ip6AddrDataCopyToBlocks bits) = bits := by
  obtain ⟨high, low⟩ := bits
  have blocks : ip6AddrDataCopyToBlocks ⟨high, low⟩ =
      [((high >>> 48) &&& 0xffff).toNat, ((high >>> 32) &&& 0xffff).toNat,
        ((high >>> 16) &&& 0xffff).toNat, ((high >>> 0) &&& 0xffff).toNat,
        ((low >>> 48) &&& 0xffff).toNat, ((low >>> 32) &&& 0xffff).toNat,
        ((low >>> 16) &&& 0xffff).toNat, ((low >>> 0) &&& 0xffff).toNat] := rfl
  rw [blocks, parseIp6AddrSplitMakeAddrConsume_eight, chunk_fields, chunk_fields]

/-! ### Blocks around a double colon -/

section Compact

variable {ls rs : List Nat}

theorem isDigit_of_mem_hexBlock {block : Nat} {c : Char} (mem : c ∈ hexBlock block) :
    isDigit 16 c = true :=
  isDigit_of_mem_toDigits (by decide) (by decide) mem

theorem not_mem_hexBlock {block : Nat} {c : Char} (other : isDigit 16 c = false) :
    c ∉ hexBlock block := by
  intro mem
  simp [isDigit_of_mem_hexBlock mem] at other

theorem hexBlock_ne_nil (block : Nat) : hexBlock block ≠ [] := Nat.toDigits_ne_nil

/-- A text of hexadecimal digits is a block that the parser reads. -/
theorem ip6Block_of_digits {s : List Char} (nonempty : s ≠ [])
    (digits : ∀ c ∈ s, isDigit 16 c = true) (short : value 16 s < 65536) :
    Ip6Block s (value 16 s) where
  fresh := fun mem => by simpa [isDigit, digit?] using digits ':' mem
  read := by
    rw [parseIp6AddrSplitReadBlock, if_neg nonempty]
    exact parseIpReadDoubleOctet_numeral (by decide) nonempty digits short

theorem ip6Block_hexBlock {block : Nat} (short : block < 65536) :
    Ip6Block (hexBlock block) block := by
  have value : value 16 (hexBlock block) = block := value_toDigits (by decide) (by decide)
  have read := ip6Block_of_digits (hexBlock_ne_nil block) (fun c => isDigit_of_mem_hexBlock)
    (by rwa [value])
  rwa [value] at read

theorem ip6Block_map_hexBlock {blocks : List Nat} (bound : ∀ block ∈ blocks, block < 65536) :
    List.Forall₂ Ip6Block (blocks.map hexBlock) blocks := by
  rw [List.forall₂_map_left_iff, List.forall₂_same]
  exact fun block mem => ip6Block_hexBlock (bound block mem)

theorem ne_nil_of_mem_map_hexBlock {blocks : List Nat} {g : List Char}
    (mem : g ∈ blocks.map hexBlock) : g ≠ [] := by
  obtain ⟨block, -, rfl⟩ := List.mem_map.mp mem
  exact hexBlock_ne_nil block

/-- The loop reads the blocks behind the double colon, if there are any. -/
theorem parseIp6AddrSplitReadBlocks_rest {buf : ParseIp6Data}
    (bound : ∀ block ∈ rs, block < 65536) (room : buf.blocks.length + rs.length ≤ 8) :
    parseIp6AddrSplitReadBlocks buf ([':'].intercalate (rs.map hexBlock)) =
      (parseIp6AddrSplitCheckBlocks (buf.appendAll rs), buf.appendAll rs) := by
  by_cases none : rs = []
  · subst none
    rw [List.map_nil, List.intercalate_nil, parseIp6AddrSplitReadBlocks, if_pos rfl]
    rfl
  · refine parseIp6AddrSplitReadBlocks_blocks (ip6Block_map_hexBlock bound) (by simpa using none)
      (fun g => ne_nil_of_mem_map_hexBlock) (by simpa using room)

/-- The loop reads eight blocks. -/
theorem parseIp6AddrSplitReadBlocks_eight {groups : List (List Char)} {values : List Nat}
    (valid : List.Forall₂ Ip6Block groups values) (filled : ∀ g ∈ groups, g ≠ [])
    (size : values.length = 8) :
    parseIp6AddrSplitReadBlocks ⟨0, 0, false, [], 0⟩ ([':'].intercalate groups) =
      (.success, ⟨8, 0, false, values, 0⟩) := by
  have length : groups.length = 8 := valid.length_eq.trans size
  have nonempty : groups ≠ [] := List.ne_nil_of_length_pos (by omega)
  have read : parseIp6AddrSplitReadBlocks ⟨0, 0, false, [], 0⟩ ([':'].intercalate groups) = _ :=
    parseIp6AddrSplitReadBlocks_blocks valid nonempty filled (by simp [length])
  rw [ParseIp6Data.appendAll_left rfl] at read
  rw [read]
  simp [parseIp6AddrSplitCheckBlocks, ParseIp6Data.numBlocks, parseIp6DataHasDoubleColon, size]

/-- The blocks that the parser writes down for those in front of a double colon. -/
def leftBlocks (ls : List Nat) : List Nat := if ls = [] then [0] else ls

/-- The loop reads blocks around a double colon; an empty left side counts as a block. -/
theorem parseIp6AddrSplitReadBlocks_compact (boundL : ∀ block ∈ ls, block < 65536)
    (boundR : ∀ block ∈ rs, block < 65536) (room : (leftBlocks ls).length + rs.length ≤ 8) :
    parseIp6AddrSplitReadBlocks ⟨0, 0, false, [], 0⟩
        ([':'].intercalate (ls.map hexBlock) ++
          ':' :: ':' :: [':'].intercalate (rs.map hexBlock)) =
      (if (leftBlocks ls).length + rs.length < 8 then .success else .invalid,
        ⟨(leftBlocks ls).length, rs.length, true, leftBlocks ls ++ rs, 0⟩) := by
  have single : ([':'].intercalate (rs.map hexBlock)).head? ≠ some ':' := by
    cases rs with
    | nil => simp
    | cons block rs =>
      rw [List.map_cons, head?_intercalate (hexBlock_ne_nil block)]
      exact fun colon => not_mem_hexBlock (by decide) (List.mem_of_head? colon)
  obtain ⟨groups, valid, nonempty, filled, text⟩ : ∃ groups,
      List.Forall₂ Ip6Block groups (leftBlocks ls) ∧ groups ≠ [] ∧
      (∀ g ∈ groups.tail, g ≠ []) ∧
      [':'].intercalate groups = [':'].intercalate (ls.map hexBlock) := by
    cases ls with
    | nil =>
      -- the text begins with the double colon, and the empty block in front of it is read as zero
      refine ⟨[[]], .cons ⟨by simp, rfl⟩ .nil, by simp, by simp, by simp⟩
    | cons block ls =>
      exact ⟨(block :: ls).map hexBlock, ip6Block_map_hexBlock boundL, by simp,
        fun g mem => ne_nil_of_mem_map_hexBlock (List.mem_of_mem_tail mem), rfl⟩
  have size := valid.length_eq
  have left : parseIp6AddrSplitReadBlocks ⟨0, 0, false, [], 0⟩ ([':'].intercalate groups ++
      ':' :: ':' :: [':'].intercalate (rs.map hexBlock)) = _ :=
    parseIp6AddrSplitReadBlocks_doubleColon valid nonempty filled
      (by rw [size]; simp only [List.length_nil]; omega) rfl single
  have right : parseIp6AddrSplitReadBlocks ⟨(leftBlocks ls).length, 0, true, leftBlocks ls, 0⟩
      ([':'].intercalate (rs.map hexBlock)) = _ :=
    parseIp6AddrSplitReadBlocks_rest boundR room
  have pos : leftBlocks ls ≠ [] := by
    unfold leftBlocks
    split_ifs <;> simp [*]
  rw [← text, left, ParseIp6Data.appendAll_left rfl]
  simp only [List.nil_append, Nat.zero_add]
  rw [right, ParseIp6Data.appendAll_right rfl]
  simp [parseIp6AddrSplitCheckBlocks, ParseIp6Data.numBlocks, parseIp6DataHasDoubleColon,
    parseIp6BlockCount, pos]
  split_ifs <;> first | rfl | omega

/-- The blocks around a zero sequence make up the address. -/
theorem parseIp6AddrSplitMakeAddr_compact {bits : Ip6AddrData} {start len : Nat}
    (inside : start + len ≤ 8) (zeros : RunAt (ZeroAt (ip6AddrDataCopyToBlocks bits)) start len)
    (left : ls = (ip6AddrDataCopyToBlocks bits).take start)
    (right : rs = (ip6AddrDataCopyToBlocks bits).drop (start + len)) (prefixlen : Nat) :
    parseIp6AddrSplitMakeAddr
        ⟨(leftBlocks ls).length, rs.length, true, leftBlocks ls ++ rs, prefixlen⟩
        ip6AddrInitNull = ⟨prefixlen, bits⟩ := by
  have size := length_ip6AddrDataCopyToBlocks bits
  have cut : ip6AddrDataCopyToBlocks bits = ls ++ (List.replicate len 0 ++ rs) := by
    rw [left, right]
    exact eq_take_zeros_drop zeros
  have lengthL : ls.length = start := by simp [left, size]; omega
  have lengthR : rs.length = 8 - start - len := by simp [right, size]; omega
  have front : parseIp6AddrSplitMakeAddrConsume ⟨0, 0⟩ 8 (leftBlocks ls) =
      parseIp6AddrSplitMakeAddrConsume ⟨0, 0⟩ 8 ls := by
    unfold leftBlocks
    split_ifs with none
    · rw [none]
      exact parseIp6AddrSplitMakeAddrConsume_zeros ⟨0, 0⟩ 8 1
    · rfl
  -- all eight blocks make up the address, and those in the middle add nothing
  have whole := parseIp6AddrSplitMakeAddrConsume_blocks bits
  rw [cut, parseIp6AddrSplitMakeAddrConsume_append, parseIp6AddrSplitMakeAddrConsume_append,
    parseIp6AddrSplitMakeAddrConsume_zeros, List.length_replicate, lengthL, ← lengthR] at whole
  simp only [parseIp6AddrSplitMakeAddr, ip6AddrInitNull, List.take_left, List.drop_left,
    List.take_length]
  rw [← front] at whole
  exact congrArg (Ip6Addr.mk prefixlen) whole

/-- What a printed address is made of: hexadecimal digits and colons. -/
structure HexText (text : List Char) : Prop where
  charset : ∀ c ∈ text, isDigit 16 c = true ∨ c = ':'
  colon : ':' ∈ text

theorem isDigit_or_colon_of_mem {groups : List (List Char)}
    (digits : ∀ g ∈ groups, ∀ c ∈ g, isDigit 16 c = true) {c : Char}
    (mem : c ∈ [':'].intercalate groups) : isDigit 16 c = true ∨ c = ':' := by
  rcases mem_intercalate mem with colon | ⟨g, own, inside⟩
  · exact Or.inr colon
  · exact Or.inl (digits g own c inside)

theorem mem_intercalate_hexBlock {blocks : List Nat} {c : Char}
    (mem : c ∈ [':'].intercalate (blocks.map hexBlock)) : isDigit 16 c = true ∨ c = ':' := by
  refine isDigit_or_colon_of_mem (fun g own c inside => ?_) mem
  obtain ⟨block, -, rfl⟩ := List.mem_map.mp own
  exact isDigit_of_mem_hexBlock inside

/-- What the parser makes of an address in compact form: it reads all blocks unless the double
colon stands for the first block alone, and guesses 128 unless the double colon comes last. -/
structure CompactRead (bits : Ip6AddrData) (start len : Nat) (text : List Char)
    (out : ParseIp6Data) : Prop where
  printed : ip6AddrDataIntoStr bits = some text
  shape : HexText text
  blocks : parseIp6AddrSplitReadBlocks ⟨0, 0, false, [], 0⟩ text =
    (if start = 0 ∧ len = 1 then .invalid else .success, out)
  addr : ∀ prefixlen, parseIp6AddrSplitMakeAddr { out with prefixlen := prefixlen }
    ip6AddrInitNull = ⟨prefixlen, bits⟩
  guess : (parseIp6AddrSplitReadPrefixlen out none).2.prefixlen = 128 ↔
    ¬ (0 < len ∧ start + len = 8)

variable {bits : Ip6AddrData} {start len : Nat}

/-- Without a zero block, all eight blocks are written and read. -/
theorem compactRead_full
    (seq : ip6AddrDataFindLongestZeroSeq (ip6AddrDataCopyToBlocks bits) = (start, 0))
    (inside : start ≤ 8) : ∃ text out, CompactRead bits start 0 text out := by
  have bound : ∀ block ∈ ip6AddrDataCopyToBlocks bits, block < 65536 :=
    fun block => lt_of_mem_ip6AddrDataCopyToBlocks
  have printed := ip6AddrDataIntoStr_eq seq inside
  rw [if_pos rfl] at printed
  have read := parseIp6AddrSplitReadBlocks_eight (ip6Block_map_hexBlock bound)
    (fun g mem => ne_nil_of_mem_map_hexBlock mem) (length_ip6AddrDataCopyToBlocks bits)
  refine ⟨_, _, printed, ⟨fun c => mem_intercalate_hexBlock, ?_⟩, by simpa using read,
    fun prefixlen => ?_, ?_⟩
  · rw [ip6AddrDataCopyToBlocks_eq]
    simp [List.range_succ]
  · have whole := parseIp6AddrSplitMakeAddrConsume_blocks bits
    exact congrArg (Ip6Addr.mk prefixlen) whole
  · simp [parseIp6AddrSplitReadPrefixlen, ParseIp6Data.numBlocks, parseIp6BlockBase, uintFast8]

/-- The blocks around the zero sequence are written, and read if something is missing. -/
theorem compactRead_zeros
    (seq : ip6AddrDataFindLongestZeroSeq (ip6AddrDataCopyToBlocks bits) = (start, len))
    (pos : 0 < len) (inside : start + len ≤ 8)
    (zeros : RunAt (ZeroAt (ip6AddrDataCopyToBlocks bits)) start len) :
    ∃ text out, CompactRead bits start len text out := by
  have size := length_ip6AddrDataCopyToBlocks bits
  have bound : ∀ block ∈ ip6AddrDataCopyToBlocks bits, block < 65536 :=
    fun block => lt_of_mem_ip6AddrDataCopyToBlocks
  have printed := ip6AddrDataIntoStr_eq seq inside
  rw [if_neg (by omega)] at printed
  generalize left : (ip6AddrDataCopyToBlocks bits).take start = ls at printed
  generalize right : (ip6AddrDataCopyToBlocks bits).drop (start + len) = rs at printed
  have lengthL : ls.length = start := by
    rw [← left, List.length_take, size]
    omega
  have lengthR : rs.length = 8 - (start + len) := by rw [← right, List.length_drop, size]
  have lengthLeft : (leftBlocks ls).length = if start = 0 then 1 else start := by
    rw [← lengthL]
    cases ls <;> simp [leftBlocks]
  have boundL : ∀ block ∈ ls, block < 65536 := by
    rw [← left]
    exact fun block mem => bound block (List.mem_of_mem_take mem)
  have boundR : ∀ block ∈ rs, block < 65536 := by
    rw [← right]
    exact fun block mem => bound block (List.mem_of_mem_drop mem)
  have read := parseIp6AddrSplitReadBlocks_compact boundL boundR
    (by rw [lengthLeft, lengthR]; split_ifs <;> omega)
  have missing : (leftBlocks ls).length + rs.length < 8 ↔ ¬ (start = 0 ∧ len = 1) := by
    rw [lengthLeft, lengthR]
    split_ifs <;> omega
  refine ⟨_, ⟨(leftBlocks ls).length, rs.length, true, leftBlocks ls ++ rs, 0⟩, printed,
    ⟨fun c mem => ?_, by simp⟩, ?_, fun prefixlen => ?_, ?_⟩
  · rw [List.mem_append, List.mem_cons, List.mem_cons] at mem
    rcases mem with front | rfl | rfl | back
    · exact mem_intercalate_hexBlock front
    · exact Or.inr rfl
    · exact Or.inr rfl
    · exact mem_intercalate_hexBlock back
  · rw [read]
    by_cases bad : start = 0 ∧ len = 1
    · rw [if_pos bad, if_neg (missing.not.mpr (not_not.mpr bad))]
    · rw [if_neg bad, if_pos (missing.mpr bad)]
  · exact parseIp6AddrSplitMakeAddr_compact inside zeros left.symm right.symm prefixlen
  · -- the blocks on the right decide; those on the left make at most 112 bits
    simp only [parseIp6AddrSplitReadPrefixlen, ParseIp6Data.numBlocks, List.length_append,
      parseIp6BlockBase, ip6MaxPrefixlen, uintFast8]
    rw [lengthLeft, lengthR]
    split_ifs <;> omega

/-- Every address is printed, and read as far as the zero sequence allows. -/
theorem exists_compactRead (bits : Ip6AddrData) :
    ∃ start len text out, Longest (fun i => i < 8 ∧ bits.block i = 0) 8 start len ∧
      CompactRead bits start len text out := by
  have longest := ip6AddrDataFindLongestZeroSeq_longest (ip6AddrDataCopyToBlocks bits)
  generalize seq : ip6AddrDataFindLongestZeroSeq (ip6AddrDataCopyToBlocks bits) = found at longest
  obtain ⟨start, len⟩ := found
  rw [length_ip6AddrDataCopyToBlocks] at longest
  have zeros := longest.run
  rw [zeroAt_ip6AddrDataCopyToBlocks] at longest
  rcases Nat.eq_zero_or_pos len with rfl | pos
  · obtain ⟨text, out, read⟩ := compactRead_full seq longest.inside
    exact ⟨start, 0, text, out, longest, read⟩
  · obtain ⟨text, out, read⟩ := compactRead_zeros seq pos longest.inside zeros
    exact ⟨start, len, text, out, longest, read⟩

end Compact

/-! ### Reading lines back -/

section Lines

variable {bits : Ip6AddrData} {start len p : Nat} {text line : List Char} {out : ParseIp6Data}

/-- A line is read as the given network. -/
def ReadsAsIp6 (text : List Char) (addr : Ip6Addr) : Prop :=
  ∀ (buf : ParseIp6Data) (addrV6 : Ip6Addr),
    let ip6 := parseIp6Addr buf (strStrip text) addrV6
    ip6.ret = .success ∧ ip6.addr = addr

/-- The parser for both families takes a line for the given network, and for nothing else. -/
def MixedReadsAsIp6 (w : UintFast32) (text : List Char) (addr : Ip6Addr) : Prop :=
  ∀ (bufs : ParseBufs w) (addrV4 : Ip4Addr w) (addrV6 : Ip6Addr),
    let mixed := parseIpMixedAddr bufs (strStrip text) addrV4 addrV6
    mixed.ret = .success ∧ mixed.typeResult = .onlyIpv6 ∧ mixed.addrV6 = addr

theorem HexText.addrChar (shape : HexText text) : ∀ c ∈ text, AddrChar c := by
  intro c mem
  rcases shape.charset c mem with digit | rfl
  · exact Or.inl digit
  · exact Or.inr (by decide)

theorem HexText.ne_nil (shape : HexText text) : text ≠ [] :=
  List.ne_nil_of_mem shape.colon

theorem HexText.not_mem (shape : HexText text) {c : Char} (other : isDigit 16 c = false)
    (colon : c ≠ ':') : c ∉ text := by
  intro mem
  rcases shape.charset c mem with digit | rfl
  · simp [digit] at other
  · exact colon rfl

/-- A printed line is read as its parts are. -/
theorem readsAsIp6_iff {addrStr : List Char} {prefixlenStr : Option (List Char)} {addr : Ip6Addr}
    (charset : ∀ c ∈ line, AddrChar c)
    (split : parseIpSplitPrefixlen line = some (addrStr, prefixlenStr)) :
    ReadsAsIp6 (line ++ ['\n']) addr ↔
      ∀ buf, (parseIp6AddrSplit buf addrStr prefixlenStr).ret = .success ∧
        (parseIp6AddrSplit buf addrStr prefixlenStr).addr = addr := by
  have solid : ∀ c ∈ line, isWhitespace c = false := fun c mem =>
    not_isWhitespace_of_addrChar (charset c mem)
  simp only [ReadsAsIp6, strStrip_newline solid, parseIp6Addr, split]
  exact ⟨fun read buf => read buf ip6AddrInitNull, fun read buf _ => read buf⟩

/-- What the IPv6 parser reads is read by the parser for both families, if there is no dot. -/
theorem ReadsAsIp6.mixed {w : UintFast32} {prefixlenStr : Option (List Char)} {addr : Ip6Addr}
    (read : ReadsAsIp6 (line ++ ['\n']) addr) (charset : ∀ c ∈ line, AddrChar c)
    (split : parseIpSplitPrefixlen line = some (text, prefixlenStr)) (shape : HexText text) :
    MixedReadsAsIp6 w (line ++ ['\n']) addr := by
  intro bufs addrV4 addrV6
  have solid : ∀ c ∈ line, isWhitespace c = false := fun c mem =>
    not_isWhitespace_of_addrChar (charset c mem)
  have agrees := parseIpMixedAddr_agrees_lax bufs bufs.ip4 bufs.ip6 addrV4 addrV6 addrV4 addrV6
    charset
  have own := read bufs.ip6 addrV6
  simp only [strStrip_newline solid] at own ⊢
  -- a colon is foreign to the parser for IPv4
  have other : (parseIp4Addr bufs.ip4 line addrV4).ret = .invalid := by
    obtain ⟨a, b, rfl, -⟩ := List.eq_append_cons_of_mem shape.colon
    have noDot : '.' ∉ a := fun mem =>
      shape.not_mem (c := '.') (by decide) (by decide) (by simp [mem])
    rw [parseIp4Addr, split]
    exact parseIp4AddrSplit_foreign (plainAddr_of_addrChar shape.addrChar) noDot (by decide)
      (by unfold ForeignChar; decide)
  have ipv4 := agrees.ipv4.not.mpr (by rw [other]; decide)
  have ipv6 := agrees.ipv6.mpr own.1
  rw [Bool.not_eq_true] at ipv4
  refine ⟨agrees.ret.mpr (Or.inr own.1), ?_, (agrees.addrV6 own.1).trans own.2⟩
  show _ = ParseIpType.mk false true
  rw [← ipv4, ← ipv6]

theorem parseIp6AddrSplitReadPrefixlen_fmtDecimal (short : p ≤ 128) (buf : ParseIp6Data) :
    parseIp6AddrSplitReadPrefixlen buf (some (fmtDecimal p)) =
      (.success, { buf with prefixlen := p }) := by
  have small : ¬ p > ip6MaxPrefixlen := Nat.not_lt.mpr short
  simp [parseIp6AddrSplitReadPrefixlen, parseIpReadOctet_fmtDecimal (show p < 256 by omega), small]

theorem parseIp6AddrSplitReadPrefixlen_none (buf : ParseIp6Data) :
    parseIp6AddrSplitReadPrefixlen buf none = (.success,
      { buf with prefixlen := (parseIp6AddrSplitReadPrefixlen buf none).2.prefixlen }) := rfl

/-- An address in compact form is read back, with the prefixlen that is given or guessed, unless
the double colon stands for the first block alone. -/
theorem CompactRead.split_iff (read : CompactRead bits start len text out)
    {prefixlenStr : Option (List Char)} {prefixlen : Nat}
    (suffix : parseIp6AddrSplitReadPrefixlen out prefixlenStr =
      (.success, { out with prefixlen := prefixlen })) :
    (∀ buf, (parseIp6AddrSplit buf text prefixlenStr).ret = .success ∧
        (parseIp6AddrSplit buf text prefixlenStr).addr = ⟨p, bits⟩) ↔
      ¬ (start = 0 ∧ len = 1) ∧ prefixlen = p := by
  have plain := plainAddr_of_addrChar read.shape.addrChar
  have blocks := read.blocks
  by_cases bad : start = 0 ∧ len = 1
  · rw [if_pos bad] at blocks
    refine iff_of_false (fun reads => ?_) (fun good => good.1 bad)
    have ret := (reads out).1
    rw [parseIp6AddrSplit_plain read.shape.ne_nil plain, blocks] at ret
    simp at ret
  · rw [if_neg bad] at blocks
    have outcome (buf : ParseIp6Data) : parseIp6AddrSplit buf text prefixlenStr = _ :=
      parseIp6AddrSplit_blocks read.shape.ne_nil plain blocks suffix
    simp only [outcome, read.addr, true_and, bad, not_false_eq_true]
    exact ⟨fun same => congrArg Ip6Addr.prefixlen (same out), fun same _ => by rw [same]⟩

/-! ### Which addresses are read back -/

/-- The double colon stands for the first block alone exactly if that block is zero and no two
zero blocks are adjacent. -/
theorem first_alone_iff (longest : Longest (fun i => i < 8 ∧ bits.block i = 0) 8 start len) :
    (start = 0 ∧ len = 1) ↔
      ¬ (bits.block 0 ≠ 0 ∨ ∃ i < 7, bits.block i = 0 ∧ bits.block (i + 1) = 0) := by
  have inside := longest.inside
  rw [not_or, not_not, not_exists]
  constructor
  · -- two adjacent zero blocks would be a longer run
    rintro ⟨rfl, rfl⟩
    refine ⟨(longest.run.hit (Nat.le_refl 0) Nat.one_pos).2, fun i pair => ?_⟩
    obtain ⟨low, first, second⟩ := pair
    have run : RunAt (fun i => i < 8 ∧ bits.block i = 0) i 2 := by
      intro j hi hj
      obtain rfl | rfl : j = i ∨ j = i + 1 := by omega
      · exact ⟨by omega, first⟩
      · exact ⟨by omega, second⟩
    have short := longest.longest i 2 (by omega) run
    omega
  · -- all runs are single blocks, and the leftmost one is the first block
    rintro ⟨zero, apart⟩
    have run : RunAt (fun i => i < 8 ∧ bits.block i = 0) 0 1 := by
      intro j _ hj
      obtain rfl : j = 0 := by omega
      exact ⟨by omega, zero⟩
    have pos := longest.longest 0 1 (by omega) run
    have single : len = 1 := by
      refine le_antisymm (Nat.le_of_not_lt fun long => apart start ⟨by omega, ?_, ?_⟩) pos
      · exact (longest.run.hit (Nat.le_refl start) (by omega)).2
      · exact (longest.run.hit (Nat.le_succ start) (by omega)).2
    subst single
    exact ⟨Nat.le_zero.mp (longest.leftmost 0 pos (by omega) run), rfl⟩

theorem fprintIp6Compact_eq (read : CompactRead bits start len text out) (redux : Bool) :
    fprintIp6Compact ⟨p, bits⟩ redux =
      some ((if redux ∧ p = 128 then text else text ++ '/' :: fmtDecimal p) ++ ['\n']) := by
  simp only [fprintIp6Compact, read.printed, Option.bind_eq_bind, Option.bind_some,
    ip6MaxPrefixlen]
  split_ifs with host <;> simp [host]

/-- Every address is printed, each on a line of its own. -/
theorem fprintIp6TreeCompactLoop_all (redux : Bool) (darr : List Ip6Addr) :
    ∃ lines, List.Forall₂ (fun addr line => fprintIp6Compact addr redux = some line) darr lines ∧
      fprintIp6TreeCompactLoop redux darr = (0, lines.flatten) := by
  induction darr with
  | nil => exact ⟨[], .nil, rfl⟩
  | cons addr darr ih =>
    obtain ⟨start, len, text, out, -, read⟩ := exists_compactRead addr.addr
    obtain ⟨lines, printed, loop⟩ := ih
    have first := fprintIp6Compact_eq (p := addr.prefixlen) read redux
    refine ⟨_ :: lines, .cons first printed, ?_⟩
    rw [fprintIp6TreeCompactLoop, first, loop]
    rfl

/-- The line of the default output is read back, by either parser, exactly if the first block is
not zero or some adjacent blocks are both zero. -/
theorem fprintIp6Compact_readBack_iff (w : UintFast32) (bits : Ip6AddrData) {p : Nat}
    (short : p ≤ 128) :
    ∃ line, fprintIp6Compact ⟨p, bits⟩ false = some line ∧
      (ReadsAsIp6 line ⟨p, bits⟩ ∧ MixedReadsAsIp6 w line ⟨p, bits⟩ ↔
        bits.block 0 ≠ 0 ∨ ∃ i < 7, bits.block i = 0 ∧ bits.block (i + 1) = 0) := by
  obtain ⟨start, len, text, out, longest, read⟩ := exists_compactRead bits
  have charset := addrChar_of_mem_net (p := p) read.shape.addrChar
  have split := parseIpSplitPrefixlen_net (p := p) read.shape.addrChar
  have reads : ReadsAsIp6 _ ⟨p, bits⟩ ↔ _ := (readsAsIp6_iff charset split).trans
    (read.split_iff (parseIp6AddrSplitReadPrefixlen_fmtDecimal short out))
  refine ⟨_, fprintIp6Compact_eq read false, ?_⟩
  rw [if_neg (by simp), ← not_iff_not, ← first_alone_iff longest]
  constructor
  · intro unread
    by_contra good
    have whole := reads.mpr ⟨good, rfl⟩
    exact unread ⟨whole, whole.mixed charset split read.shape⟩
  · intro alone both
    exact (reads.mp both.1).1 alone

/-- A documentation network is printed and read back. -/
theorem fprintIp6Compact_readBack_doc :
    fprintIp6Compact ⟨32, ⟨0x20010db800000000, 0⟩⟩ false = some "2001:db8::/32\n".toList ∧
      ReadsAsIp6 "2001:db8::/32\n".toList ⟨32, ⟨0x20010db800000000, 0⟩⟩ ∧
      MixedReadsAsIp6 .bits64 "2001:db8::/32\n".toList ⟨32, ⟨0x20010db800000000, 0⟩⟩ := by
  obtain ⟨line, printed, reads⟩ :=
    fprintIp6Compact_readBack_iff .bits64 ⟨0x20010db800000000, 0⟩ (p := 32) (by decide)
  have text : fprintIp6Compact ⟨32, ⟨0x20010db800000000, 0⟩⟩ false =
      some "2001:db8::/32\n".toList := by decide +kernel
  obtain rfl : line = "2001:db8::/32\n".toList := Option.some.inj (printed.symm.trans text)
  exact ⟨text, reads.mpr (Or.inl (by decide))⟩

/-- Seven blocks behind a single zero block are printed behind a double colon, and rejected. -/
theorem fprintIp6Compact_first_alone :
    fprintIp6Compact ⟨128, ⟨0x0000000100020003, 0x0004000500060007⟩⟩ false =
        some "::1:2:3:4:5:6:7/128\n".toList ∧
      ¬ ReadsAsIp6 "::1:2:3:4:5:6:7/128\n".toList
        ⟨128, ⟨0x0000000100020003, 0x0004000500060007⟩⟩ ∧
      ¬ MixedReadsAsIp6 .bits64 "::1:2:3:4:5:6:7/128\n".toList
        ⟨128, ⟨0x0000000100020003, 0x0004000500060007⟩⟩ := by
  refine ⟨by decide +kernel, fun reads => ?_, fun reads => ?_⟩
  · have bad : (parseIp6Addr .zero (strStrip "::1:2:3:4:5:6:7/128\n".toList)
        ip6AddrInitNull).ret = .invalid := by decide +kernel
    exact absurd ((reads _ _).1.symm.trans bad) (by decide)
  · have bad : (parseIpMixedAddr (w := .bits64) .zero (strStrip "::1:2:3:4:5:6:7/128\n".toList)
        ⟨0, 0⟩ ip6AddrInitNull).ret = .invalid := by decide +kernel
    exact absurd ((reads _ _ _).1.symm.trans bad) (by decide)

/-- The zero blocks at the end of the address are the ones that the double colon stands for. -/
def EndsInZeroSeq (bits : Ip6AddrData) : Prop :=
  ∃ n, 0 < n ∧ n ≤ 8 ∧ (∀ i, 8 - n ≤ i → i < 8 → bits.block i = 0) ∧
    ∀ j < 8 - n, ∃ i, j ≤ i ∧ i < j + n ∧ bits.block i ≠ 0

theorem endsInZeroSeq_iff (longest : Longest (fun i => i < 8 ∧ bits.block i = 0) 8 start len) :
    (0 < len ∧ start + len = 8) ↔ EndsInZeroSeq bits := by
  rw [longest.reaches_end_iff, EndsInZeroSeq]
  refine exists_congr fun n => and_congr_right fun pos => and_congr_right fun le => ?_
  refine and_congr ?_ (forall_congr' fun j => forall_congr' fun early => ?_)
  · constructor
    · exact fun run i low high => (run i low (by omega)).2
    · exact fun zeros i low high => ⟨by omega, zeros i low (by omega)⟩
  · constructor
    · intro notRun
      by_contra full
      push Not at full
      exact notRun fun i low high => ⟨by omega, full i low high⟩
    · rintro ⟨i, low, high, nonzero⟩ run
      exact nonzero (run i low high).2

/-- The line of the reduced output is read back exactly if that of the default output is, and the
network is no single address whose last blocks are those that the double colon stands for. -/
theorem fprintIp6Compact_redux_readBack_iff (bits : Ip6AddrData) {p : Nat} (short : p ≤ 128) :
    ∃ line, fprintIp6Compact ⟨p, bits⟩ true = some line ∧
      (ReadsAsIp6 line ⟨p, bits⟩ ↔
        (bits.block 0 ≠ 0 ∨ ∃ i < 7, bits.block i = 0 ∧ bits.block (i + 1) = 0) ∧
          ¬ (p = 128 ∧ EndsInZeroSeq bits)) := by
  obtain ⟨start, len, text, out, longest, read⟩ := exists_compactRead bits
  refine ⟨_, fprintIp6Compact_eq read true, ?_⟩
  have alone := first_alone_iff longest
  by_cases host : p = 128
  · subst host
    have split := parseIpSplitPrefixlen_addr read.shape.ne_nil read.shape.addrChar
      (read.shape.not_mem (by decide) (by decide))
    rw [if_pos (by simp), readsAsIp6_iff read.shape.addrChar split,
      read.split_iff (parseIp6AddrSplitReadPrefixlen_none out), read.guess, alone, not_not,
      endsInZeroSeq_iff longest]
    simp
  · rw [if_neg (by simp [host]), readsAsIp6_iff (addrChar_of_mem_net read.shape.addrChar)
      (parseIpSplitPrefixlen_net read.shape.addrChar),
      read.split_iff (parseIp6AddrSplitReadPrefixlen_fmtDecimal short out), alone, not_not]
    simp only [host, false_and, not_false_eq_true, and_true]

/-- A single address that ends in a one is printed without a suffix and read back. -/
theorem fprintIp6Compact_redux_readBack_host :
    fprintIp6Compact ⟨128, ⟨0x20010db800000000, 1⟩⟩ true = some "2001:db8::1\n".toList ∧
      ReadsAsIp6 "2001:db8::1\n".toList ⟨128, ⟨0x20010db800000000, 1⟩⟩ := by
  obtain ⟨line, printed, reads⟩ :=
    fprintIp6Compact_redux_readBack_iff ⟨0x20010db800000000, 1⟩ (p := 128) (by decide)
  have text : fprintIp6Compact ⟨128, ⟨0x20010db800000000, 1⟩⟩ true =
      some "2001:db8::1\n".toList := by decide +kernel
  obtain rfl : line = "2001:db8::1\n".toList := Option.some.inj (printed.symm.trans text)
  refine ⟨text, reads.mpr ⟨Or.inl (by decide), fun ends => ?_⟩⟩
  obtain ⟨-, n, pos, -, zeros, -⟩ := ends
  exact absurd (zeros 7 (by omega) (by decide)) (by decide)

/-- A single address that ends in zero blocks is read back as a network. -/
theorem fprintIp6Compact_redux_widened :
    fprintIp6Compact ⟨128, ⟨0x20010db800000000, 0⟩⟩ true = some "2001:db8::\n".toList ∧
      (parseIp6Addr .zero (strStrip "2001:db8::\n".toList) ip6AddrInitNull).addr =
        ⟨32, ⟨0x20010db800000000, 0⟩⟩ ∧
      ¬ ReadsAsIp6 "2001:db8::\n".toList ⟨128, ⟨0x20010db800000000, 0⟩⟩ := by
  have wide : (parseIp6Addr .zero (strStrip "2001:db8::\n".toList)
      ip6AddrInitNull).addr = ⟨32, ⟨0x20010db800000000, 0⟩⟩ := by decide +kernel
  refine ⟨by decide +kernel, wide, fun reads => ?_⟩
  have same := congrArg Ip6Addr.prefixlen ((reads _ _).2.symm.trans wide)
  exact absurd same (by decide)

/-! ### The long form -/

theorem value_ip6BlockFmt (n : Nat) : value 16 (ip6BlockFmt n) = n :=
  value_padded (by decide) (by decide) 4

theorem isDigit_of_mem_ip6BlockFmt {n : Nat} {c : Char} (mem : c ∈ ip6BlockFmt n) :
    isDigit 16 c = true :=
  isDigit_of_mem_padded (by decide) (by decide) mem

theorem ip6BlockFmt_ne_nil (n : Nat) : ip6BlockFmt n ≠ [] := by
  rw [ip6BlockFmt, List.leftpad]
  exact List.append_ne_nil_of_right_ne_nil _ Nat.toDigits_ne_nil

theorem ip6Block_ip6BlockFmt {n : Nat} (short : n < 65536) : Ip6Block (ip6BlockFmt n) n := by
  have read := ip6Block_of_digits (ip6BlockFmt_ne_nil n)
    (fun c => isDigit_of_mem_ip6BlockFmt) (by rwa [value_ip6BlockFmt])
  rwa [value_ip6BlockFmt] at read

theorem toNat_and_0xffff_lt (x : Ip6AddrDataChunk) : (x &&& 0xffff).toNat < 65536 := by
  have le : (x &&& 0xffff).toNat ≤ 65535 := by
    rw [BitVec.toNat_and]
    exact Nat.and_le_right
  omega

/-- The printed groups are blocks that the parser reads. -/
theorem ip6Block_fmtArgs (bits : Ip6AddrData) :
    List.Forall₂ Ip6Block ((ip6AddrFmtArgs bits).map fun arg => ip6BlockFmt arg.toNat)
      ((ip6AddrFmtArgs bits).map BitVec.toNat) := by
  rw [List.forall₂_map_left_iff, List.forall₂_map_right_iff, List.forall₂_same]
  intro arg mem
  apply ip6Block_ip6BlockFmt
  simp only [ip6AddrFmtArgs, List.mem_cons, List.not_mem_nil, or_false] at mem
  rcases mem with rfl | rfl | rfl | rfl | rfl | rfl | rfl | rfl <;> exact toNat_and_0xffff_lt _

theorem hexText_fmtArgs (bits : Ip6AddrData) : HexText (ip6AddrFmt (ip6AddrFmtArgs bits)) where
  charset := by
    intro c mem
    refine isDigit_or_colon_of_mem (fun g own c inside => ?_) mem
    obtain ⟨arg, -, rfl⟩ := List.mem_map.mp own
    exact isDigit_of_mem_ip6BlockFmt inside
  colon := by simp [ip6AddrFmt, ip6AddrFmtArgs]

/-- Only the printed copy of block `e` can differ from the address: it is the block itself
exactly if the bits two places further up are the same. -/
theorem low_fields_iff (low : Ip6AddrDataChunk) :
    ((low >>> 46) &&& 0xffff) <<< 48 ||| ((low >>> 32) &&& 0xffff) <<< 32 |||
        ((low >>> 16) &&& 0xffff) <<< 16 ||| (low &&& 0xffff) <<< 0 = low ↔
      ∀ j, 46 ≤ j → j < 62 → low.getLsbD j = low.getLsbD (j + 2) := by
  have block (k j : Nat) : ((low >>> k) &&& (0xffff : BitVec 64)).getLsbD j =
      (decide (j < 16) && low.getLsbD (k + j)) := getLsbD_cut low k 16 j
  constructor
  · intro same j from46 below62
    -- what is printed of bit `j + 2` comes from bit `j`
    have bit := congrArg (BitVec.getLsbD · (j + 2)) same
    have zero : ((low >>> 0) &&& (0xffff : BitVec 64)).getLsbD (j + 2 - 0) = _ := block 0 _
    rw [BitVec.ushiftRight_zero] at zero
    simp only [BitVec.getLsbD_or, BitVec.getLsbD_shiftLeft, block, zero] at bit
    grind
  · intro same
    have first : (low >>> 46) &&& (0xffff : BitVec 64) = (low >>> 48) &&& (0xffff : BitVec 64) := by
      apply BitVec.eq_of_getLsbD_eq
      intro j _
      rw [block, block]
      by_cases inside : j < 16
      · rw [same (46 + j) (by omega) (by omega), show 46 + j + 2 = 48 + j by omega]
      · simp [inside]
    rw [first]
    simpa using chunk_fields low

/-- The line of the long output is read back exactly if bits 46 to 61 of the low chunk are those
two places further up. -/
theorem fprintIp6Net_readBack_iff (bits : Ip6AddrData) {p : Nat} (short : p ≤ 128) :
    ReadsAsIp6 (fprintIp6Net ⟨p, bits⟩) ⟨p, bits⟩ ↔
      ∀ j, 46 ≤ j → j < 62 → bits.low.getLsbD j = bits.low.getLsbD (j + 2) := by
  have shape := hexText_fmtArgs bits
  have filled : ∀ g ∈ (ip6AddrFmtArgs bits).map fun arg => ip6BlockFmt arg.toNat, g ≠ [] := by
    intro g mem
    obtain ⟨arg, -, rfl⟩ := List.mem_map.mp mem
    exact ip6BlockFmt_ne_nil _
  have blocks := parseIp6AddrSplitReadBlocks_eight (ip6Block_fmtArgs bits) filled rfl
  have plain := plainAddr_of_addrChar shape.addrChar
  -- the high chunk is always read back
  have addr : parseIp6AddrSplitMakeAddr
      ⟨8, 0, false, (ip6AddrFmtArgs bits).map BitVec.toNat, p⟩ ip6AddrInitNull = ⟨p, bits⟩ ↔
      ∀ j, 46 ≤ j → j < 62 → bits.low.getLsbD j = bits.low.getLsbD (j + 2) := by
    rw [← low_fields_iff]
    have high := chunk_fields bits.high
    rw [BitVec.ushiftRight_zero] at high
    have whole := parseIp6AddrSplitMakeAddrConsume_eight (ip6BlockA bits) (ip6BlockB bits)
      (ip6BlockC bits) (ip6BlockD bits) (ip6BlockE bits) (ip6BlockF bits) (ip6BlockG bits)
      (ip6BlockH bits)
    have made : parseIp6AddrSplitMakeAddr
        ⟨8, 0, false, (ip6AddrFmtArgs bits).map BitVec.toNat, p⟩ ip6AddrInitNull = _ :=
      congrArg (Ip6Addr.mk p) whole
    rw [made, Ip6Addr.mk.injEq, Ip6AddrData.mk.injEq]
    exact ⟨fun same => same.2.2, fun same => ⟨rfl, high, same⟩⟩
  rw [← addr, fprintIp6Net, ip6NetFmt, readsAsIp6_iff (addrChar_of_mem_net shape.addrChar)
    (parseIpSplitPrefixlen_net shape.addrChar)]
  have outcome (buf : ParseIp6Data) :
      parseIp6AddrSplit buf (ip6AddrFmt (ip6AddrFmtArgs bits)) (some (fmtDecimal p)) = _ :=
    parseIp6AddrSplit_blocks shape.ne_nil plain blocks
      (parseIp6AddrSplitReadPrefixlen_fmtDecimal short _)
  simp only [outcome, true_and]
  exact ⟨fun same => same ⟨0, 0, false, [], 0⟩, fun same _ => same⟩

/-- The loopback address is printed in full and read back. -/
theorem fprintIp6Net_readBack_loopback :
    fprintIp6Net ⟨128, ⟨0, 1⟩⟩ = "0000:0000:0000:0000:0000:0000:0000:0001/128\n".toList ∧
      ReadsAsIp6 (fprintIp6Net ⟨128, ⟨0, 1⟩⟩) ⟨128, ⟨0, 1⟩⟩ :=
  ⟨by decide, (fprintIp6Net_readBack_iff ⟨0, 1⟩ (by decide)).mpr (by decide)⟩

/-- In a link-local address, block `e` is printed with its bits shifted by two. -/
theorem fprintIp6Net_shifted :
    fprintIp6Net ⟨128, ⟨0xfe80000000000000, 0x021122fffe334455⟩⟩ =
        "fe80:0000:0000:0000:0844:22ff:fe33:4455/128\n".toList ∧
      ¬ ReadsAsIp6 (fprintIp6Net ⟨128, ⟨0xfe80000000000000, 0x021122fffe334455⟩⟩)
        ⟨128, ⟨0xfe80000000000000, 0x021122fffe334455⟩⟩ := by
  refine ⟨by decide, fun reads => ?_⟩
  have other : (parseIp6Addr .zero
      (strStrip (fprintIp6Net ⟨128, ⟨0xfe80000000000000, 0x021122fffe334455⟩⟩))
      ip6AddrInitNull).addr = ⟨128, ⟨0xfe80000000000000, 0x084422fffe334455⟩⟩ := by decide +kernel
  have same := congrArg (fun addr => addr.addr.low) ((reads _ _).2.symm.trans other)
  exact absurd same (by decide)

end Lines

end IpDedup
