import IpDedup.Lib.Buffer
import IpDedup.Lib.ColonHex
import IpDedup.Print.Ip6

/-!
# The text of an IPv6 address and the buffer it is written to

`ip6_addr_data_into_str` writes to a buffer that the caller supplies. Here the
stores are made one by one, and what is in the buffer in the end is the text
that the model without a buffer makes.

## Main definitions

* `ip6AddrDataIntoStrAt`: `ip6_addr_data_into_str` with its stores
* `Ip6Text`: what the text of an address is to a reader

## Main results

* `ip6AddrDataIntoStrAt_text`: a buffer of `IP6_ADDR_STR_BUF_SIZE` chars holds the text, and a
  reader takes it for the address
-/

set_option autoImplicit false

open Buffer ColonHex LongestRun

namespace IpDedup

/-- `IP6_ADDR_STR_BUF_SIZE` -/
def ip6AddrStrBufSize : Nat := 8 * 4 + 7 + 1

/-- `snprintf ( s, 5, "%x", block )` stores four chars at most, and a terminator behind them. It
returns the number of chars that there are. -/
def ip6SnprintfBlock (sbuf : List Char) (s block : Nat) : Option (Nat × List Char) := do
  let out := Nat.toDigits 16 block
  let sbuf ← storeAll? sbuf s (out.take 4 ++ [nul])
  pure (out.length, sbuf)

/-- The rounds from block `k` on, which store to `sbuf` from index `s` on. -/
def ip6AddrDataBuildAddrStrAtLoop (blocks : List Nat) (fillZeroStart fillZeroLen : Nat)
    (sbuf : List Char) (k s : Nat) : Option (Int × List Char) :=
  if k < 8 then
    if fillZeroLen > 0 ∧ k = fillZeroStart then do
      let out := if k = 0 then [':', ':'] else [':']
      let sbuf ← storeAll? sbuf s out
      ip6AddrDataBuildAddrStrAtLoop blocks fillZeroStart fillZeroLen sbuf (k + fillZeroLen)
        (s + out.length)
    else do
      let block ← blocks[k]?
      let colon := if k < 7 then [':'] else []
      if block = 0 then
        let sbuf ← storeAll? sbuf s ('0' :: colon)
        ip6AddrDataBuildAddrStrAtLoop blocks fillZeroStart fillZeroLen sbuf (k + 1)
          (s + (1 + colon.length))
      else
        let (ret, sbuf) ← ip6SnprintfBlock sbuf s block
        if ret ≤ 0 ∨ ret ≥ 5 then pure (-1, sbuf)
        else
          let sbuf ← storeAll? sbuf (s + ret) colon
          ip6AddrDataBuildAddrStrAtLoop blocks fillZeroStart fillZeroLen sbuf (k + 1)
            (s + ret + colon.length)
  else do
    let sbuf ← store? sbuf s nul
    pure (0, sbuf)
termination_by 8 - k

/-- The return code and the buffer. -/
def ip6AddrDataBuildAddrStrAt (blocks : List Nat) (sbuf : List Char)
    (fillZeroStart fillZeroLen : Nat) : Option (Int × List Char) := do
  let sbuf ← store? sbuf 0 nul
  ip6AddrDataBuildAddrStrAtLoop blocks fillZeroStart fillZeroLen sbuf 0 0

/-- The buffer that is returned. Both `dst` and the result may be `NULL`. -/
def ip6AddrDataIntoStrAt (bits : Ip6AddrData) : Option (List Char) → Option (Option (List Char))
  | none => some none
  | some dst => do
    let blocks := ip6AddrDataCopyToBlocks bits
    let (fillZeroStart, fillZeroLen) := ip6AddrDataFindLongestZeroSeq blocks
    let (ret, dst) ← ip6AddrDataBuildAddrStrAt blocks dst fillZeroStart fillZeroLen
    if ret ≠ 0 then some none else some (some dst)

/-! ### The stores -/

section Stores

variable {blocks : List Nat} {start len k s : Nat} {sbuf t : List Char}

/-- `snprintf` stores a block and a terminator. -/
theorem ip6SnprintfBlock_eq {block : Nat} (short : block < 65536)
    (room : s + (hexBlock block).length < sbuf.length) :
    ip6SnprintfBlock sbuf s block =
      some ((hexBlock block).length, overwrite sbuf s (hexBlock block ++ [nul])) := by
  have four : (hexBlock block).take 4 = hexBlock block :=
    List.take_of_length_le (length_toDigits_le short)
  have fits : s + (hexBlock block ++ [nul]).length ≤ sbuf.length := by
    rw [List.length_append, List.length_singleton]
    omega
  have stored := storeAll?_eq fits
  rw [← four] at stored
  rw [ip6SnprintfBlock]
  change (do let sbuf ← storeAll? sbuf s ((hexBlock block).take 4 ++ [nul]); pure _) = _
  rw [stored, four]
  rfl

/-- The round at block `k` stores `out`, perhaps with a terminator behind it. The next round is at
block `k'`, and stores behind `out`. -/
def StoresRound (blocks : List Nat) (start len : Nat) (sbuf : List Char) (k s : Nat)
    (out : List Char) (k' : Nat) : Prop :=
  ∃ xs : List Char, xs.length ≤ 1 ∧ s + (out ++ xs).length ≤ sbuf.length ∧
    ip6AddrDataBuildAddrStrAtLoop blocks start len sbuf k s =
      ip6AddrDataBuildAddrStrAtLoop blocks start len (overwrite sbuf s (out ++ xs)) k'
        (s + out.length)

/-- Colons stand for the zero sequence. -/
theorem storesRound_fill (inside : k < 8) (fill : len > 0 ∧ k = start)
    (fits : s + (if k = 0 then [':', ':'] else [':']).length ≤ sbuf.length) :
    StoresRound blocks start len sbuf k s (if k = 0 then [':', ':'] else [':']) (k + len) := by
  refine ⟨[], Nat.zero_le 1, by rwa [List.append_nil], ?_⟩
  rw [ip6AddrDataBuildAddrStrAtLoop, if_pos inside, if_pos fill, List.append_nil]
  simp only [storeAll?_eq fits, Option.bind_eq_bind, Option.bind_some]

section Block

variable (inside : k < 8) (size : blocks.length = 8) (fill : ¬ (len > 0 ∧ k = start))

include inside size fill

theorem storesRound_zero (zero : blocks[k] = 0)
    (fits : s + ('0' :: if k < 7 then [':'] else []).length ≤ sbuf.length) :
    StoresRound blocks start len sbuf k s ('0' :: if k < 7 then [':'] else []) (k + 1) := by
  have block : blocks[k]? = some blocks[k] := List.getElem?_eq_getElem _
  refine ⟨[], Nat.zero_le 1, by rwa [List.append_nil], ?_⟩
  rw [ip6AddrDataBuildAddrStrAtLoop, if_pos inside, if_neg fill, List.append_nil,
    List.length_cons, Nat.add_comm (List.length _)]
  simp only [block, zero, if_true, storeAll?_eq fits, Option.bind_eq_bind, Option.bind_some]

theorem storesRound_hex (short : blocks[k] < 65536) (positive : blocks[k] ≠ 0)
    (fits : s + (hexBlock blocks[k] ++ if k < 7 then [':'] else []).length < sbuf.length) :
    StoresRound blocks start len sbuf k s (hexBlock blocks[k] ++ if k < 7 then [':'] else [])
      (k + 1) := by
  have block : blocks[k]? = some blocks[k] := List.getElem?_eq_getElem _
  have single : (if k < 7 then [':'] else []).length ≤ 1 := by split_ifs <;> simp
  rw [StoresRound, ip6AddrDataBuildAddrStrAtLoop, if_pos inside, if_neg fill]
  generalize (if k < 7 then [':'] else []) = colon at fits single ⊢
  generalize blocks[k] = number at block short positive fits ⊢
  have some_digit : 0 < (hexBlock number).length := Nat.length_toDigits_pos
  have few_digits : (hexBlock number).length ≤ 4 := length_toDigits_le short
  have printed : ¬ ((hexBlock number).length ≤ 0 ∨ (hexBlock number).length ≥ 5) := by omega
  rw [List.length_append] at fits
  have digits : s + (hexBlock number).length < sbuf.length := by omega
  simp only [block, positive, if_false, ip6SnprintfBlock_eq short digits, Option.bind_eq_bind,
    Option.bind_some, printed]
  have room : s + (hexBlock number ++ [nul]).length ≤ sbuf.length := by
    rw [List.length_append, List.length_singleton]
    exact digits
  rcases colon with _ | ⟨c, _ | _⟩
  · -- behind the last block, the terminator stays
    refine ⟨[nul], le_rfl, by rwa [List.append_nil], ?_⟩
    rw [List.append_nil]
    rfl
  · -- the colon goes over the terminator
    have stays := overwrite_overwrite (hexBlock number) [nul] [c] room le_rfl
    have fits' : s + (hexBlock number).length + [c].length ≤
        (overwrite sbuf s (hexBlock number ++ [nul])).length := by
      rw [length_overwrite room, Nat.add_assoc]
      exact fits.le
    refine ⟨[], Nat.zero_le 1, ?_, ?_⟩
    · rw [List.append_nil, List.length_append]
      exact fits.le
    · rw [storeAll?_eq fits', stays, Option.bind_some, List.append_nil, List.length_append,
        Nat.add_assoc]
  · simp at single

end Block

/-- A round stores the chars that the text has for it. -/
theorem storesRound_of_text (inside : k < 8) (size : blocks.length = 8)
    (bound : ∀ block ∈ blocks, block < 65536)
    (rest : ip6AddrDataBuildAddrStrLoop blocks start len k = some t)
    (room : s + t.length < sbuf.length) :
    ∃ out t' k', k < k' ∧ t = out ++ t' ∧
      ip6AddrDataBuildAddrStrLoop blocks start len k' = some t' ∧
      StoresRound blocks start len sbuf k s out k' := by
  have here : k < blocks.length := by omega
  by_cases fill : len > 0 ∧ k = start
  · -- the zero sequence is skipped as a whole
    rw [ip6AddrDataBuildAddrStrLoop, if_pos inside, if_pos fill] at rest
    obtain ⟨t', rest', whole⟩ := Option.bind_eq_some_iff.mp rest
    have text : t = (if k = 0 then [':', ':'] else [':']) ++ t' := by
      rw [← Option.some_inj.mp whole]
      split_ifs <;> rfl
    have fits : s + (if k = 0 then [':', ':'] else [':']).length ≤ sbuf.length := by
      rw [text, List.length_append] at room
      omega
    exact ⟨_, t', k + len, Nat.lt_add_of_pos_right fill.1, text, rest',
      storesRound_fill inside fill fits⟩
  · rw [ip6AddrDataBuildAddrStrLoop_block here size bound fill, Option.map_eq_some_iff] at rest
    obtain ⟨t', rest', rfl⟩ := rest
    refine ⟨hexBlock blocks[k] ++ if k < 7 then [':'] else [], t', k + 1, Nat.lt_succ_self k, rfl,
      rest', ?_⟩
    have fits : s + (hexBlock blocks[k] ++ if k < 7 then [':'] else []).length < sbuf.length := by
      rw [List.length_append] at room
      omega
    -- a zero block is stored as a digit, another one by `snprintf`
    by_cases zero : blocks[k] = 0
    · have digit : hexBlock blocks[k] = ['0'] := by
        rw [zero]
        rfl
      rw [digit] at fits ⊢
      exact storesRound_zero inside size fill zero fits.le
    · exact storesRound_hex inside size fill (bound _ (List.getElem_mem here)) zero fits

/-- If the rest of the text fits with its terminator, that is what the rounds store. -/
theorem ip6AddrDataBuildAddrStrAtLoop_eq (size : blocks.length = 8)
    (bound : ∀ block ∈ blocks, block < 65536) {k s : Nat} {sbuf t : List Char}
    (rest : ip6AddrDataBuildAddrStrLoop blocks start len k = some t)
    (room : s + t.length < sbuf.length) :
    ip6AddrDataBuildAddrStrAtLoop blocks start len sbuf k s =
      some (0, overwrite sbuf s (t ++ [nul])) := by
  by_cases inside : k < 8
  · obtain ⟨out, t', k', later, rfl, rest', xs, few, fits, round⟩ :=
      storesRound_of_text inside size bound rest room
    rw [List.length_append] at room
    have room' : s + out.length + t'.length < (overwrite sbuf s (out ++ xs)).length := by
      rw [length_overwrite fits]
      omega
    -- the next store goes over the terminator of this one
    have reaches : xs.length ≤ (t' ++ [nul]).length := by
      rw [List.length_append, List.length_singleton]
      omega
    rw [round, ip6AddrDataBuildAddrStrAtLoop_eq size bound rest' room',
      overwrite_overwrite _ _ _ fits reaches, List.append_assoc]
  · rw [ip6AddrDataBuildAddrStrLoop, if_neg inside] at rest
    obtain rfl : [] = t := Option.some_inj.mp rest
    rw [ip6AddrDataBuildAddrStrAtLoop, if_neg inside, store?_eq (by simpa using room)]
    rfl
termination_by 8 - k

/-- A text that fits into the buffer with its terminator is stored there. -/
theorem ip6AddrDataIntoStrAt_eq {bits : Ip6AddrData} {dst : List Char}
    (text : ip6AddrDataIntoStr bits = some t) (room : t.length < dst.length) :
    ip6AddrDataIntoStrAt bits (some dst) = some (some (t ++ nul :: dst.drop (t.length + 1))) := by
  generalize seq : ip6AddrDataFindLongestZeroSeq (ip6AddrDataCopyToBlocks bits) = found
  obtain ⟨start, len⟩ := found
  rw [ip6AddrDataIntoStr, seq] at text
  have inside : 0 < dst.length := Nat.zero_lt_of_lt room
  have first : 0 + ([] ++ [nul]).length ≤ dst.length := by
    rw [Nat.zero_add]
    exact inside
  have room' : 0 + t.length < (overwrite dst 0 [nul]).length := by
    rw [← List.nil_append [nul], length_overwrite first, Nat.zero_add]
    exact room
  have stored := ip6AddrDataBuildAddrStrAtLoop_eq (length_ip6AddrDataCopyToBlocks bits)
    (fun block => lt_of_mem_ip6AddrDataCopyToBlocks) text room'
  -- the first terminator is gone as soon as anything is stored behind it
  have stays : overwrite (overwrite dst 0 [nul]) 0 (t ++ [nul]) = overwrite dst 0 (t ++ [nul]) :=
    overwrite_overwrite [] [nul] _ first (by simp)
  have whole : overwrite dst 0 (t ++ [nul]) = t ++ nul :: dst.drop (t.length + 1) := by
    rw [overwrite_zero, List.append_assoc, List.length_append, List.length_singleton]
    rfl
  rw [stays, whole] at stored
  simp only [ip6AddrDataIntoStrAt, seq, ip6AddrDataBuildAddrStrAt, store?_eq inside, stored,
    Option.bind_eq_bind, Option.bind_some]
  rfl

end Stores

/-! ### What a reader takes the text for -/

/-- Blocks `i` to `i + n - 1` of an address, as numbers. -/
def Ip6AddrData.numbers (bits : Ip6AddrData) (i n : Nat) : List Nat :=
  (List.range' i n).map fun j => (bits.block j).toNat

/-- The text of an address. It is short, its groups are lower-case and without leading zeros, and it
denotes the address. A double colon is there exactly if there is a zero block, and then it stands
for the leftmost one of the longest runs of zero blocks. -/
structure Ip6Text (bits : Ip6AddrData) (text : List Char) : Prop where
  short : text.length ≤ 39
  plain : ∀ g ∈ text.splitOn ':', Plain g
  denotes : decode? text = some bits.toBitVec
  double_iff : [':', ':'] <:+: text ↔ ∃ i < 8, bits.block i = 0
  double : ∀ front back, text = front ++ ':' :: ':' :: back →
    ∃ start len, 0 < len ∧ Longest (fun i => i < 8 ∧ bits.block i = 0) 8 start len ∧
      front? front = some (bits.numbers 0 start) ∧
      back? back = some (bits.numbers (start + len) (8 - (start + len)))

section Text

variable {bits : Ip6AddrData} {start len : Nat}

theorem toNat_block (bits : Ip6AddrData) (i : Nat) :
    (bits.block i).toNat = bits.toBitVec.toNat / 65536 ^ (7 - i) % 65536 := by
  rw [Ip6AddrData.block, BitVec.extractLsb'_toNat, Nat.shiftRight_eq_div_pow, Nat.pow_mul]

/-- The blocks of an address, put together. -/
theorem number_ip6AddrDataCopyToBlocks (bits : Ip6AddrData) :
    number (ip6AddrDataCopyToBlocks bits) = bits.toBitVec.toNat := by
  have blocks := number_blocks bits.toBitVec.toNat 8
  have short : bits.toBitVec.toNat < 65536 ^ 8 := bits.toBitVec.isLt
  rw [Nat.mod_eq_of_lt short] at blocks
  rw [ip6AddrDataCopyToBlocks_eq, ← blocks]
  congr 2
  funext i
  exact toNat_block bits i

theorem decode?_of_blocks? {text : List Char}
    (read : blocks? text = some (ip6AddrDataCopyToBlocks bits)) :
    decode? text = some bits.toBitVec := by
  rw [decode?, read, Option.map_some, number_ip6AddrDataCopyToBlocks, BitVec.ofNat_toNat,
    BitVec.setWidth_eq]

theorem infix_double_iff {text : List Char} :
    [':', ':'] <:+: text ↔ ∃ front back, text = front ++ ':' :: ':' :: back := by
  constructor
  · rintro ⟨front, back, eq⟩
    exact ⟨front, back, by rw [← eq, List.append_assoc]; rfl⟩
  · rintro ⟨front, back, rfl⟩
    exact ⟨front, back, by rw [List.append_assoc]; rfl⟩

/-- Without a zero block, all blocks are written. -/
theorem ip6Text_full (longest : Longest (fun i => i < 8 ∧ bits.block i = 0) 8 start 0) :
    Ip6Text bits (text (ip6AddrDataCopyToBlocks bits)) := by
  have bound : ∀ block ∈ ip6AddrDataCopyToBlocks bits, block < 65536 :=
    fun block => lt_of_mem_ip6AddrDataCopyToBlocks
  have size := length_ip6AddrDataCopyToBlocks bits
  have single : ∀ front back, text (ip6AddrDataCopyToBlocks bits) ≠ front ++ ':' :: ':' :: back :=
    fun front back => text_ne_append_double
  refine ⟨?_, fun g => plain_of_mem_splitOn_text, decode?_of_blocks? (blocks?_text bound size), ?_,
    fun front back eq => absurd eq (single front back)⟩
  · have length := length_text_le bound
    rwa [size] at length
  · rw [infix_double_iff]
    constructor
    · rintro ⟨front, back, eq⟩
      exact absurd eq (single front back)
    · rintro ⟨i, inside, zero⟩
      -- a zero block is a run of length one
      have run : RunAt (fun i => i < 8 ∧ bits.block i = 0) i 1 := by
        intro j low high
        obtain rfl : j = i := by omega
        exact ⟨inside, zero⟩
      have none := longest.longest i 1 (by omega) run
      omega

/-- With a zero block, the blocks around the longest run are written. -/
theorem ip6Text_double (longest : Longest (fun i => i < 8 ∧ bits.block i = 0) 8 start len)
    (pos : 0 < len) :
    Ip6Text bits (double ((ip6AddrDataCopyToBlocks bits).take start)
      ((ip6AddrDataCopyToBlocks bits).drop (start + len))) := by
  have inside := longest.inside
  have size := length_ip6AddrDataCopyToBlocks bits
  have cut := longest.run
  rw [← zeroAt_ip6AddrDataCopyToBlocks] at cut
  replace cut := eq_take_zeros_drop cut
  have left : (ip6AddrDataCopyToBlocks bits).take start = bits.numbers 0 start := by
    have le : start ≤ 8 := by omega
    rw [ip6AddrDataCopyToBlocks_eq, List.range_eq_range', ← List.map_take,
      List.take_range'_of_length_ge le, Ip6AddrData.numbers]
  have right : (ip6AddrDataCopyToBlocks bits).drop (start + len) =
      bits.numbers (start + len) (8 - (start + len)) := by
    rw [ip6AddrDataCopyToBlocks_eq, List.range_eq_range', ← List.map_drop, List.drop_range',
      Nat.zero_add, Nat.mul_one, Ip6AddrData.numbers]
  have boundL : ∀ block ∈ (ip6AddrDataCopyToBlocks bits).take start, block < 65536 :=
    fun block mem => lt_of_mem_ip6AddrDataCopyToBlocks (List.mem_of_mem_take mem)
  have boundR : ∀ block ∈ (ip6AddrDataCopyToBlocks bits).drop (start + len), block < 65536 :=
    fun block mem => lt_of_mem_ip6AddrDataCopyToBlocks (List.mem_of_mem_drop mem)
  have lengths : ((ip6AddrDataCopyToBlocks bits).take start).length +
      ((ip6AddrDataCopyToBlocks bits).drop (start + len)).length = 8 - len := by
    rw [List.length_take, List.length_drop, size]
    omega
  have room : ((ip6AddrDataCopyToBlocks bits).take start).length +
      ((ip6AddrDataCopyToBlocks bits).drop (start + len)).length < 8 := by
    omega
  -- the decoder fills in as many zero blocks as were cut out
  have read := blocks?_double boundL boundR room
  have zeros : 8 - (8 - len) = len := by omega
  rw [lengths, zeros, List.append_assoc, ← cut] at read
  refine ⟨length_double_le boundL boundR room, fun g => plain_of_mem_splitOn_double,
    decode?_of_blocks? read, ?_, fun front back eq => ?_⟩
  · rw [infix_double_iff]
    refine iff_of_true ⟨_, _, rfl⟩ ⟨start, by omega, ?_⟩
    exact (longest.run.hit le_rfl (by omega)).2
  · obtain ⟨rfl, rfl⟩ := eq_of_double eq
    exact ⟨start, len, pos, longest, by rw [front?_text boundL, left],
      by rw [back?_text boundR, right]⟩

end Text

/-- Every address is written to a buffer of the size that is set aside for it, and nothing is
stored outside of the buffer. A reader takes the text for the address. -/
theorem ip6AddrDataIntoStrAt_text (bits : Ip6AddrData) (dst : List Char)
    (room : ip6AddrStrBufSize ≤ dst.length) :
    ∃ text, ip6AddrDataIntoStr bits = some text ∧
      ip6AddrDataIntoStrAt bits (some dst) =
        some (some (text ++ nul :: dst.drop (text.length + 1))) ∧
      Ip6Text bits text := by
  have longest := ip6AddrDataFindLongestZeroSeq_longest (ip6AddrDataCopyToBlocks bits)
  generalize seq : ip6AddrDataFindLongestZeroSeq (ip6AddrDataCopyToBlocks bits) = found at longest
  obtain ⟨start, len⟩ := found
  rw [length_ip6AddrDataCopyToBlocks, zeroAt_ip6AddrDataCopyToBlocks] at longest
  have printed := ip6AddrDataIntoStr_eq seq longest.inside
  obtain ⟨text, eq, shape⟩ : ∃ text, ip6AddrDataIntoStr bits = some text ∧ Ip6Text bits text := by
    by_cases none : len = 0
    · subst none
      rw [if_pos rfl] at printed
      exact ⟨_, printed, ip6Text_full longest⟩
    · rw [if_neg none] at printed
      exact ⟨_, printed, ip6Text_double longest (Nat.pos_of_ne_zero none)⟩
  refine ⟨text, eq, ip6AddrDataIntoStrAt_eq eq ?_, shape⟩
  exact (Nat.lt_succ_of_le shape.short).trans_le room

/-- An address with two runs of two zero blocks, in a buffer of forty chars. -/
theorem ip6AddrDataIntoStrAt_text_tied :
    ∃ text, ip6AddrDataIntoStr ⟨0x20010db800000000, 0x0001000000000001⟩ = some text ∧
      ip6AddrDataIntoStrAt ⟨0x20010db800000000, 0x0001000000000001⟩
          (some (List.replicate 40 'x')) =
        some (some (text ++ nul :: (List.replicate 40 'x').drop (text.length + 1))) ∧
      Ip6Text ⟨0x20010db800000000, 0x0001000000000001⟩ text :=
  ip6AddrDataIntoStrAt_text _ (List.replicate 40 'x') (by decide)

end IpDedup
