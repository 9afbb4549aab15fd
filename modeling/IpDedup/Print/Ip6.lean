import IpDedup.Lib.LongestRun
import IpDedup.Ip.Ip6
import IpDedup.Print.Line

/-!
# Printing IPv6 addresses

`ip6_addr_data_into_str` of `ip/ip6/base.c`, and the IPv6 halves of
`util/print_ip.c` and `ip_tree_io/print.c`.
-/

set_option autoImplicit false

open BitString Numeral LongestRun

namespace IpDedup

/-! ### The compact form -/

/-- `ip6_addr_data_copy_to_blocks`; each block is a `uint16_t`. -/
def ip6AddrDataCopyToBlocks (bits : Ip6AddrData) : List Nat :=
  (List.range 4).map (fun k => ((bits.high >>> (16 * (4 - k - 1))) &&& 0xffff).toNat) ++
    (List.range' 4 4).map (fun k => ((bits.low >>> (16 * (8 - k - 1))) &&& 0xffff).toNat)

/-- The rounds from block `k` on. -/
def ip6AddrDataFindLongestZeroSeqLoop (k curZseqStart curZseqLen zseqStart zseqLen : Nat) :
    List Nat → Nat × Nat
  | [] =>
    if curZseqLen > zseqLen then (curZseqStart, curZseqLen) else (zseqStart, zseqLen)
  | block :: blocks =>
    if block ≠ 0 then
      if curZseqLen > zseqLen then
        ip6AddrDataFindLongestZeroSeqLoop (k + 1) (k + 1) 0 curZseqStart curZseqLen blocks
      else
        ip6AddrDataFindLongestZeroSeqLoop (k + 1) (k + 1) 0 zseqStart zseqLen blocks
    else if curZseqLen = 0 then
      ip6AddrDataFindLongestZeroSeqLoop (k + 1) k 1 zseqStart zseqLen blocks
    else
      ip6AddrDataFindLongestZeroSeqLoop (k + 1) curZseqStart (curZseqLen + 1) zseqStart zseqLen
        blocks

/-- Start and length of the zero sequence that `::` stands for. -/
def ip6AddrDataFindLongestZeroSeq (blocks : List Nat) : Nat × Nat :=
  ip6AddrDataFindLongestZeroSeqLoop 0 0 0 0 0 blocks

/-- `snprintf ( s, 5, "%x", block )`, which must write one to four chars. -/
def ip6FmtBlock (block : Nat) : Option (List Char) :=
  let out := Nat.toDigits 16 block
  if out.length ≤ 0 ∨ out.length ≥ 5 then none else some out

/-- The rounds from block `k` on. -/
def ip6AddrDataBuildAddrStrLoop (blocks : List Nat) (fillZeroStart fillZeroLen k : Nat) :
    Option (List Char) :=
  if k < 8 then
    if fillZeroLen > 0 ∧ k = fillZeroStart then do
      let s ← ip6AddrDataBuildAddrStrLoop blocks fillZeroStart fillZeroLen (k + fillZeroLen)
      pure ((if k = 0 then [':'] else []) ++ ':' :: s)
    else if blocks[k]?.getD 0 = 0 then do
      let s ← ip6AddrDataBuildAddrStrLoop blocks fillZeroStart fillZeroLen (k + 1)
      pure ('0' :: (if k < 7 then [':'] else []) ++ s)
    else do
      let block ← ip6FmtBlock (blocks[k]?.getD 0)
      let s ← ip6AddrDataBuildAddrStrLoop blocks fillZeroStart fillZeroLen (k + 1)
      pure (block ++ (if k < 7 then [':'] else []) ++ s)
  else some []
termination_by 8 - k

def ip6AddrDataBuildAddrStr (blocks : List Nat) (fillZeroStart fillZeroLen : Nat) :
    Option (List Char) :=
  ip6AddrDataBuildAddrStrLoop blocks fillZeroStart fillZeroLen 0

def ip6AddrDataIntoStr (bits : Ip6AddrData) : Option (List Char) :=
  let blocks := ip6AddrDataCopyToBlocks bits
  let (fillZeroStart, fillZeroLen) := ip6AddrDataFindLongestZeroSeq blocks
  ip6AddrDataBuildAddrStr blocks fillZeroStart fillZeroLen

/-- What one round of `fprint_ip6_tree_compact` writes. -/
def fprintIp6Compact (addr : Ip6Addr) (redux : Bool) : Option (List Char) := do
  let addrStr ← ip6AddrDataIntoStr addr.addr
  if redux ∧ addr.prefixlen = ip6MaxPrefixlen then pure (addrStr ++ ['\n'])
  else pure (addrStr ++ '/' :: fmtDecimal addr.prefixlen ++ ['\n'])

/-- The rounds of `fprint_ip6_tree_compact`, which end with the first error. -/
def fprintIp6TreeCompactLoop (redux : Bool) : List Ip6Addr → Int × List Char
  | [] => (0, [])
  | addr :: darr =>
    match fprintIp6Compact addr redux with
    | some line =>
      let (ret, text) := fprintIp6TreeCompactLoop redux darr
      (ret, line ++ text)
    | none => (-1, [])

/-! ### The long form -/

/-! `ip6_block_<POS>` for POS in a:b:c:d:e:f:g:h -/

def ip6BlockA (addr : Ip6AddrData) : Ip6AddrDataChunk := (addr.high >>> 48) &&& 0xffff

def ip6BlockB (addr : Ip6AddrData) : Ip6AddrDataChunk := (addr.high >>> 32) &&& 0xffff

def ip6BlockC (addr : Ip6AddrData) : Ip6AddrDataChunk := (addr.high >>> 16) &&& 0xffff

def ip6BlockD (addr : Ip6AddrData) : Ip6AddrDataChunk := addr.high &&& 0xffff

/-- The shift count is the source's. -/
def ip6BlockE (addr : Ip6AddrData) : Ip6AddrDataChunk := (addr.low >>> 46) &&& 0xffff

def ip6BlockF (addr : Ip6AddrData) : Ip6AddrDataChunk := (addr.low >>> 32) &&& 0xffff

def ip6BlockG (addr : Ip6AddrData) : Ip6AddrDataChunk := (addr.low >>> 16) &&& 0xffff

def ip6BlockH (addr : Ip6AddrData) : Ip6AddrDataChunk := addr.low &&& 0xffff

/-- `ip6_addr_fmt_args` -/
def ip6AddrFmtArgs (addr : Ip6AddrData) : List Ip6AddrDataChunk :=
  [ip6BlockA addr, ip6BlockB addr, ip6BlockC addr, ip6BlockD addr,
    ip6BlockE addr, ip6BlockF addr, ip6BlockG addr, ip6BlockH addr]

/-- `IP6_BLOCK_FMT`: a hexadecimal number of at least four digits. -/
def ip6BlockFmt (block : Nat) : List Char := (Nat.toDigits 16 block).leftpad 4 '0'

/-- `IP6_ADDR_FMT` -/
def ip6AddrFmt (args : List Ip6AddrDataChunk) : List Char :=
  [':'].intercalate (args.map fun arg => ip6BlockFmt arg.toNat)

/-- `IP6_NET_FMT` -/
def ip6NetFmt (args : List Ip6AddrDataChunk) (prefixlen : Nat) : List Char :=
  ip6AddrFmt args ++ '/' :: fmtDecimal prefixlen

def fprintIp6Addr (addr : Ip6Addr) : List Char := ip6AddrFmt (ip6AddrFmtArgs addr.addr) ++ ['\n']

def fprintIp6Net (addr : Ip6Addr) : List Char :=
  ip6NetFmt (ip6AddrFmtArgs addr.addr) addr.prefixlen ++ ['\n']

def fprintIp6AddrOrNet (addr : Ip6Addr) : List Char :=
  if addr.prefixlen = ip6MaxPrefixlen then fprintIp6Addr addr else fprintIp6Net addr

/-! ### The blocks of an address -/

/-- Block `i` of the eight blocks of 16 bits. -/
def Ip6AddrData.block (bits : Ip6AddrData) (i : Nat) : BitVec 16 :=
  bits.toBitVec.extractLsb' (16 * (7 - i)) 16

theorem toNat_and_0xffff (x : BitVec 64) (k : Nat) :
    ((x >>> k) &&& 0xffff).toNat = (x.extractLsb' k 16).toNat := by
  rw [BitVec.toNat_and, BitVec.extractLsb'_toNat]
  exact Nat.and_two_pow_sub_one_eq_mod _ 16

theorem Ip6AddrData.getLsbD_block (bits : Ip6AddrData) {i j : Nat} (inside : j < 16) :
    (bits.block i).getLsbD j =
      if 16 * (7 - i) + j < 64 then bits.low.getLsbD (16 * (7 - i) + j)
      else bits.high.getLsbD (16 * (7 - i) + j - 64) := by
  rw [block, BitVec.getLsbD_extractLsb', decide_eq_true inside, Bool.true_and, toBitVec]
  exact BitVec.getLsbD_append

theorem Ip6AddrData.block_high (bits : Ip6AddrData) {i : Nat} (h : i < 4) :
    bits.block i = bits.high.extractLsb' (16 * (3 - i)) 16 := by
  apply BitVec.eq_of_getLsbD_eq
  intro j inside
  have past : ¬ 16 * (7 - i) + j < 64 := by omega
  have index : 16 * (7 - i) + j - 64 = 16 * (3 - i) + j := by omega
  rw [bits.getLsbD_block inside, if_neg past, index, BitVec.getLsbD_extractLsb',
    decide_eq_true inside, Bool.true_and]

theorem Ip6AddrData.block_low (bits : Ip6AddrData) {i : Nat} (low : 4 ≤ i) :
    bits.block i = bits.low.extractLsb' (16 * (7 - i)) 16 := by
  apply BitVec.eq_of_getLsbD_eq
  intro j inside
  have front : 16 * (7 - i) + j < 64 := by omega
  rw [bits.getLsbD_block inside, if_pos front, BitVec.getLsbD_extractLsb', decide_eq_true inside,
    Bool.true_and]

theorem ip6AddrDataCopyToBlocks_eq (bits : Ip6AddrData) :
    ip6AddrDataCopyToBlocks bits = (List.range 8).map fun i => (bits.block i).toNat := by
  have split : List.range 8 = List.range 4 ++ List.range' 4 4 := by decide
  rw [ip6AddrDataCopyToBlocks, split, List.map_append]
  congr 1
  · refine List.map_congr_left fun k mem => ?_
    have inside : k < 4 := List.mem_range.mp mem
    have index : 4 - k - 1 = 3 - k := by omega
    rw [toNat_and_0xffff, bits.block_high inside, index]
  · refine List.map_congr_left fun k mem => ?_
    have inside := List.mem_range'_1.mp mem
    have index : 8 - k - 1 = 7 - k := by omega
    rw [toNat_and_0xffff, bits.block_low inside.1, index]

@[simp] theorem length_ip6AddrDataCopyToBlocks (bits : Ip6AddrData) :
    (ip6AddrDataCopyToBlocks bits).length = 8 := rfl

theorem getElem?_ip6AddrDataCopyToBlocks (bits : Ip6AddrData) {i : Nat} (h : i < 8) :
    (ip6AddrDataCopyToBlocks bits)[i]? = some (bits.block i).toNat := by
  simp [ip6AddrDataCopyToBlocks_eq, h]

theorem lt_of_mem_ip6AddrDataCopyToBlocks {bits : Ip6AddrData} {block : Nat}
    (mem : block ∈ ip6AddrDataCopyToBlocks bits) : block < 65536 := by
  rw [ip6AddrDataCopyToBlocks_eq, List.mem_map] at mem
  obtain ⟨i, -, rfl⟩ := mem
  exact (bits.block i).isLt

/-! ### The zero sequence -/

/-- The place of a zero block. -/
def ZeroAt (blocks : List Nat) (i : Nat) : Prop := blocks[i]? = some 0

theorem ip6AddrDataFindLongestZeroSeqLoop_longest {blocks rest : List Nat} (seen : List Nat)
    {k curStart curLen start len : Nat} (cut : blocks = seen ++ rest) (length : seen.length = k)
    (scan : Scanned (ZeroAt blocks) k curStart curLen start len) :
    Longest (ZeroAt blocks) blocks.length
      (ip6AddrDataFindLongestZeroSeqLoop k curStart curLen start len rest).1
      (ip6AddrDataFindLongestZeroSeqLoop k curStart curLen start len rest).2 := by
  induction rest generalizing seen k curStart curLen start len with
  | nil =>
    have size : blocks.length = k := by simp [cut, length]
    rw [size, ip6AddrDataFindLongestZeroSeqLoop]
    have best := scan.better
    split_ifs at best ⊢ <;> exact best
  | cons block rest ih =>
    have here : blocks[k]? = some block := by simp [cut, ← length]
    have next : blocks = (seen ++ [block]) ++ rest := by simp [cut]
    have length' : (seen ++ [block]).length = k + 1 := by simp [length]
    rw [ip6AddrDataFindLongestZeroSeqLoop]
    by_cases zero : block = 0
    · subst zero
      have hit := scan.hit here
      rw [if_neg (by simp)]
      split_ifs with first
      · obtain rfl : curStart = k := by simpa [first] using scan.position
        subst first
        exact ih _ next length' hit
      · exact ih _ next length' hit
    · -- the run of zeros ends here, and is compared with the best one so far
      have miss := scan.miss (by simpa [ZeroAt, here] using zero)
      rw [if_pos zero]
      split_ifs at miss ⊢ <;> exact ih _ next length' miss

/-- The zero sequence is the leftmost one of the longest. -/
theorem ip6AddrDataFindLongestZeroSeq_longest (blocks : List Nat) :
    Longest (ZeroAt blocks) blocks.length (ip6AddrDataFindLongestZeroSeq blocks).1
      (ip6AddrDataFindLongestZeroSeq blocks).2 :=
  ip6AddrDataFindLongestZeroSeqLoop_longest [] rfl rfl Scanned.init

/-- Blocks are those in front of a run of zeros, the zeros, and those behind it. -/
theorem eq_take_zeros_drop {blocks : List Nat} {start len : Nat}
    (zeros : RunAt (ZeroAt blocks) start len) :
    blocks = blocks.take start ++ (List.replicate len 0 ++ blocks.drop (start + len)) := by
  have middle : (blocks.drop start).take len = List.replicate len 0 := by
    apply List.ext_getElem?
    intro i
    by_cases here : i < len
    · have zero : blocks[start + i]? = some 0 := zeros (start + i) (by omega) (by omega)
      simp [here, zero]
    · simp [here]
  rw [← middle, ← List.drop_drop, List.take_append_drop, List.take_append_drop]

theorem zeroAt_ip6AddrDataCopyToBlocks (bits : Ip6AddrData) :
    ZeroAt (ip6AddrDataCopyToBlocks bits) = fun i => i < 8 ∧ bits.block i = 0 := by
  funext i
  rw [ZeroAt, eq_iff_iff]
  have zero : (bits.block i).toNat = 0 ↔ bits.block i = 0 :=
    ⟨fun none => BitVec.eq_of_toNat_eq none, fun none => congrArg BitVec.toNat none⟩
  by_cases inside : i < 8
  · rw [getElem?_ip6AddrDataCopyToBlocks bits inside, Option.some_inj, zero]
    simp [inside]
  · simp [inside]

/-! ### The text -/

section Text

variable {blocks : List Nat} {start len k : Nat}

/-- A block as the compact form writes it. -/
def hexBlock (block : Nat) : List Char := Nat.toDigits 16 block

theorem ip6FmtBlock_eq {block : Nat} (h : block < 65536) :
    ip6FmtBlock block = some (hexBlock block) := by
  have pos : 0 < (Nat.toDigits 16 block).length := Nat.length_toDigits_pos
  have short : (Nat.toDigits 16 block).length ≤ 4 :=
    (Nat.length_toDigits_le_iff (by decide) (by decide)).mpr (by omega)
  simp only [ip6FmtBlock]
  rw [if_neg (by omega), hexBlock]

/-- A round that writes a block. -/
theorem ip6AddrDataBuildAddrStrLoop_block (inside : k < blocks.length)
    (size : blocks.length = 8) (bound : ∀ block ∈ blocks, block < 65536)
    (outside : ¬ (len > 0 ∧ k = start)) :
    ip6AddrDataBuildAddrStrLoop blocks start len k =
      (ip6AddrDataBuildAddrStrLoop blocks start len (k + 1)).map fun s =>
        hexBlock blocks[k] ++ (if k < 7 then [':'] else []) ++ s := by
  rw [ip6AddrDataBuildAddrStrLoop, if_pos (by omega), if_neg outside]
  have block : blocks[k]?.getD 0 = blocks[k] := by simp [inside]
  rw [block, ip6FmtBlock_eq (bound _ (List.getElem_mem inside))]
  split_ifs with zero <;>
    cases ip6AddrDataBuildAddrStrLoop blocks start len (k + 1) <;> simp [hexBlock, zero]

/-- Behind the zero sequence, blocks are written to the end. -/
theorem ip6AddrDataBuildAddrStrLoop_tail (size : blocks.length = 8)
    (bound : ∀ block ∈ blocks, block < 65536) {k : Nat} (past : len > 0 → start < k) :
    ip6AddrDataBuildAddrStrLoop blocks start len k =
      some ([':'].intercalate ((blocks.drop k).map hexBlock)) := by
  by_cases inside : k < blocks.length
  · have rest := ip6AddrDataBuildAddrStrLoop_tail (k := k + 1) size bound
      fun pos => Nat.lt_succ_of_lt (past pos)
    rw [ip6AddrDataBuildAddrStrLoop_block inside size bound (by omega), rest,
      List.drop_eq_getElem_cons inside, Option.map_some, List.map_cons]
    by_cases last : k < 7
    · have more : (blocks.drop (k + 1)).map hexBlock ≠ [] := by simp; omega
      rw [if_pos last, List.intercalate_cons_of_ne_nil more]
    · have done : (blocks.drop (k + 1)).map hexBlock = [] := by simp; omega
      rw [if_neg last, done]
      simp
  · have done : blocks.drop k = [] := List.drop_eq_nil_of_le (by omega)
    rw [ip6AddrDataBuildAddrStrLoop, if_neg (by omega), done]
    rfl
termination_by blocks.length - k

/-- Up to the zero sequence, each block is written with a colon behind it. -/
theorem ip6AddrDataBuildAddrStrLoop_front (size : blocks.length = 8)
    (bound : ∀ block ∈ blocks, block < 65536) (inside : start < 8) {k : Nat} (before : k ≤ start) :
    ip6AddrDataBuildAddrStrLoop blocks start len k =
      (ip6AddrDataBuildAddrStrLoop blocks start len start).map fun s =>
        ((blocks.take start).drop k).flatMap (fun block => hexBlock block ++ [':']) ++ s := by
  rcases Nat.eq_or_lt_of_le before with rfl | earlier
  · cases ip6AddrDataBuildAddrStrLoop blocks k len k <;> simp
  · have rest := ip6AddrDataBuildAddrStrLoop_front size bound inside (Nat.succ_le_of_lt earlier)
    have here : k < (blocks.take start).length := by simp; omega
    rw [ip6AddrDataBuildAddrStrLoop_block (by omega) size bound (by omega), rest,
      if_pos (by omega), List.drop_eq_getElem_cons here]
    cases ip6AddrDataBuildAddrStrLoop blocks start len start <;> simp
termination_by start - k

theorem flatMap_append_colon {gs : List (List Char)} (nonempty : gs ≠ []) :
    gs.flatMap (fun g => g ++ [':']) = [':'].intercalate gs ++ [':'] := by
  induction gs with
  | nil => exact absurd rfl nonempty
  | cons g gs ih =>
    cases gs with
    | nil => simp
    | cons g' gs =>
      rw [List.flatMap_cons, ih (by simp), List.intercalate_cons_cons]
      simp

/-- The compact form: all blocks, or those around the zero sequence. -/
theorem ip6AddrDataBuildAddrStr_eq (size : blocks.length = 8)
    (bound : ∀ block ∈ blocks, block < 65536) (inside : start + len ≤ 8) :
    ip6AddrDataBuildAddrStr blocks start len =
      some (if len = 0 then [':'].intercalate (blocks.map hexBlock)
        else [':'].intercalate ((blocks.take start).map hexBlock) ++
          ':' :: ':' :: [':'].intercalate ((blocks.drop (start + len)).map hexBlock)) := by
  rw [ip6AddrDataBuildAddrStr]
  by_cases none : len = 0
  · rw [if_pos none, ip6AddrDataBuildAddrStrLoop_tail size bound (by omega), List.drop_zero]
  · -- the round that writes the colons instead of the zero sequence
    have fill : ip6AddrDataBuildAddrStrLoop blocks start len start =
        some ((if start = 0 then [':'] else []) ++
          ':' :: [':'].intercalate ((blocks.drop (start + len)).map hexBlock)) := by
      rw [ip6AddrDataBuildAddrStrLoop, if_pos (by omega), if_pos ⟨by omega, rfl⟩,
        ip6AddrDataBuildAddrStrLoop_tail size bound (by omega)]
      rfl
    rw [ip6AddrDataBuildAddrStrLoop_front size bound (by omega) (Nat.zero_le start), fill,
      if_neg none, Option.map_some, List.drop_zero]
    by_cases first : start = 0
    · simp [first]
    · have more : (blocks.take start).map hexBlock ≠ [] := by
        simp [first, ← List.length_eq_zero_iff, size]
      have colons := flatMap_append_colon more
      rw [List.flatMap_map] at colons
      rw [colons, if_neg first]
      simp

/-- The text of an address: all blocks, or those around its longest run of zero blocks. -/
theorem ip6AddrDataIntoStr_eq {bits : Ip6AddrData}
    (seq : ip6AddrDataFindLongestZeroSeq (ip6AddrDataCopyToBlocks bits) = (start, len))
    (inside : start + len ≤ 8) :
    ip6AddrDataIntoStr bits =
      some (if len = 0 then [':'].intercalate ((ip6AddrDataCopyToBlocks bits).map hexBlock)
        else [':'].intercalate (((ip6AddrDataCopyToBlocks bits).take start).map hexBlock) ++
          ':' :: ':' :: [':'].intercalate
            (((ip6AddrDataCopyToBlocks bits).drop (start + len)).map hexBlock)) := by
  rw [ip6AddrDataIntoStr, seq]
  exact ip6AddrDataBuildAddrStr_eq (length_ip6AddrDataCopyToBlocks bits)
    (fun block => lt_of_mem_ip6AddrDataCopyToBlocks) inside

end Text

end IpDedup
