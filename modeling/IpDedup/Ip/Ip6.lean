import IpDedup.Lib.BitString
import IpDedup.Machine

/-!
# IPv6 addresses

The bit helpers of `ip/ip6/base.c` and the address operations of
`ip/ip6/addr.c`. An address is held in two chunks of 64 bits.
-/

set_option autoImplicit false

open BitString

namespace IpDedup

/-- `IP6_MAX_PREFIXLEN` -/
def ip6MaxPrefixlen : Nat := 128

/-- `IP6_DATA_CHUNK_SIZE` -/
def ip6DataChunkSize : Nat := 64

/-- `ip6_addr_data_chunk_t` -/
abbrev Ip6AddrDataChunk := BitVec 64

/-- `struct ip6_addr_data` -/
structure Ip6AddrData where
  high : Ip6AddrDataChunk
  low : Ip6AddrDataChunk
deriving DecidableEq, Repr

/-- `struct ip6_addr_t` -/
structure Ip6Addr where
  prefixlen : Nat
  addr : Ip6AddrData
deriving DecidableEq, Repr

/-! ### Bit helpers -/

def ip6CalcBitpos (prefixpos : Nat) : Nat :=
  uintFast8 ((ip6MaxPrefixlen : Int) - prefixpos)

/-- The chunk that holds a prefix position, the bit position in it, and whether
it is the high chunk. -/
def ip6CalcRoBitposIn (src : Ip6AddrData) (prefixpos : Nat) : Ip6AddrDataChunk × Nat × Bool :=
  let bpos := ip6CalcBitpos prefixpos
  if bpos < 64 then (src.low, bpos, false) else (src.high, bpos - 64, true)

def ip6CalcBit (bpos : Nat) : Option Ip6AddrDataChunk :=
  shiftLeft? 1#64 bpos

def ip6CalcBitIsSetAtPrefixpos (bits : Ip6AddrData) (prefixpos : Nat) : Option Bool := do
  let (chunk, bpos, _) := ip6CalcRoBitposIn bits prefixpos
  let bit ← ip6CalcBit bpos
  pure (chunk &&& bit != 0)

def ip6CalcFlipBitAtPrefixpos (bits : Ip6AddrData) (prefixpos : Nat) : Option Ip6AddrData := do
  let (srcChunk, bpos, isHigh) := ip6CalcRoBitposIn bits prefixpos
  let flipped ← ip6CalcBit bpos
  let newChunk := srcChunk ^^^ flipped
  pure (if isHigh then ⟨newChunk, bits.low⟩ else ⟨bits.high, newChunk⟩)

def ip6CalcSetBitAtPrefixpos (bits : Ip6AddrData) (prefixpos : Nat) (bitSet : Bool) :
    Option Ip6AddrData := do
  let (srcChunk, bpos, isHigh) := ip6CalcRoBitposIn bits prefixpos
  let bitMask ← ip6CalcBit bpos
  let newChunk := if bitSet then srcChunk ||| bitMask else srcChunk &&& ~~~bitMask
  pure (if isHigh then ⟨newChunk, bits.low⟩ else ⟨bits.high, newChunk⟩)

/-! ### Address operations -/

def ip6AddrInitNull : Ip6Addr := ⟨0, 0, 0⟩

def ip6AddrInitChild (src : Ip6Addr) (subaddrBitIsSet : Bool) : Option Ip6Addr := do
  let prefixlen := uintFast8 (src.prefixlen + 1)
  let addr ← ip6CalcSetBitAtPrefixpos src.addr prefixlen subaddrBitIsSet
  pure ⟨prefixlen, addr⟩

def ip6AddrInitSibling (src : Ip6Addr) : Option Ip6Addr := do
  let addr ← ip6CalcFlipBitAtPrefixpos src.addr src.prefixlen
  pure ⟨src.prefixlen, addr⟩

def ip6AddrFlipInplace (obj : Ip6Addr) : Option Ip6Addr := do
  let addr ← ip6CalcFlipBitAtPrefixpos obj.addr obj.prefixlen
  pure { obj with addr := addr }

def ip6AddrBitIsSetAt (obj : Ip6Addr) (prefixpos : Nat) : Option Bool :=
  ip6CalcBitIsSetAtPrefixpos obj.addr prefixpos

/-- The mask of `count` low bits of a chunk. A count of 64 is out of range and
the platform decides what the operand holds. -/
def ip6AddrIsNetSetMask (P : Platform) (count : Nat) : Ip6AddrDataChunk :=
  (shiftLeft? 1#64 count).getD (P.overshift64 1 count) - 1

def ip6AddrIsNet (P : Platform) (obj : Ip6Addr) : Bool :=
  if obj.prefixlen > ip6MaxPrefixlen then
    false
  else if obj.prefixlen > ip6DataChunkSize then
    let mask := ip6AddrIsNetSetMask P (ip6MaxPrefixlen - obj.prefixlen)
    obj.addr.low &&& mask == 0
  else
    let mask := ip6AddrIsNetSetMask P (ip6DataChunkSize - obj.prefixlen)
    obj.addr.low == 0 && obj.addr.high &&& mask == 0

/-! ### What the helpers compute

Seen as one word of 128 bits, each helper acts on one bit, and on positions
`1..128` no shift reaches the operand width. -/

/-- The 128-bit word that two chunks hold. -/
def Ip6AddrData.toBitVec (bits : Ip6AddrData) : BitVec 128 := bits.high ++ bits.low

/-- The two chunks of a 128-bit word. -/
def Ip6AddrData.ofBitVec (x : BitVec 128) : Ip6AddrData :=
  ⟨x.extractLsb' 64 64, x.extractLsb' 0 64⟩

theorem Ip6AddrData.ofBitVec_append (high low : BitVec 64) :
    ofBitVec (high ++ low) = ⟨high, low⟩ := by
  simp only [ofBitVec, mk.injEq]
  constructor
  · apply BitVec.eq_of_getLsbD_eq
    intro i inside
    rw [BitVec.getLsbD_extractLsb', BitVec.getLsbD_append]
    simp [inside]
  · apply BitVec.eq_of_getLsbD_eq
    intro i inside
    rw [BitVec.getLsbD_extractLsb', BitVec.getLsbD_append]
    simp [inside]

@[simp] theorem Ip6AddrData.ofBitVec_toBitVec (bits : Ip6AddrData) :
    ofBitVec bits.toBitVec = bits :=
  ofBitVec_append bits.high bits.low

@[simp] theorem Ip6AddrData.toBitVec_ofBitVec (x : BitVec 128) : (ofBitVec x).toBitVec = x := by
  apply BitVec.eq_of_getLsbD_eq
  intro i inside
  rw [toBitVec, ofBitVec, BitVec.getLsbD_append]
  by_cases low : i < 64
  · simp [low]
  · simp [low, show i - 64 < 64 by omega, show 64 + (i - 64) = i by omega]

theorem twoPow_append_zero {i : Nat} (h : i < 64) :
    BitVec.twoPow 64 i ++ 0#64 = BitVec.twoPow 128 (i + 64) := by
  apply BitVec.eq_of_getLsbD_eq
  intro j inside
  simp only [BitVec.getLsbD_append, BitVec.getLsbD_twoPow, BitVec.getLsbD_zero]
  grind

theorem zero_append_twoPow {i : Nat} (h : i < 64) :
    0#64 ++ BitVec.twoPow 64 i = BitVec.twoPow 128 i := by
  apply BitVec.eq_of_getLsbD_eq
  intro j inside
  simp only [BitVec.getLsbD_append, BitVec.getLsbD_twoPow, BitVec.getLsbD_zero]
  grind

theorem ip6CalcBitpos_eq {prefixpos : Nat} (h : prefixpos ≤ 128) :
    ip6CalcBitpos prefixpos = 128 - prefixpos :=
  uintFast8_sub h (by decide)

theorem ip6CalcBit_eq {bpos : Nat} (h : bpos < 64) :
    ip6CalcBit bpos = some (BitVec.twoPow 64 bpos) := by
  rw [ip6CalcBit, shiftLeft?_of_lt _ h, BitVec.twoPow]

section Helpers

variable (bits : Ip6AddrData) {prefixpos : Nat}

/-- The chunk a position lies in, and its bit as a word of 128 bits. -/
theorem ip6CalcRoBitposIn_cases (low : 1 ≤ prefixpos) (high : prefixpos ≤ 128) :
    (∃ bpos < 64, ip6CalcRoBitposIn bits prefixpos = (bits.low, bpos, false) ∧
      bpos = 128 - prefixpos ∧
      BitVec.twoPow 128 (128 - prefixpos) = 0#64 ++ BitVec.twoPow 64 bpos) ∨
    (∃ bpos < 64, ip6CalcRoBitposIn bits prefixpos = (bits.high, bpos, true) ∧
      bpos + 64 = 128 - prefixpos ∧
      BitVec.twoPow 128 (128 - prefixpos) = BitVec.twoPow 64 bpos ++ 0#64) := by
  rw [ip6CalcRoBitposIn, ip6CalcBitpos_eq high]
  by_cases inLow : 128 - prefixpos < 64
  · left
    exact ⟨_, inLow, by simp [inLow], rfl, (zero_append_twoPow inLow).symm⟩
  · right
    obtain ⟨bpos, small, position⟩ : ∃ bpos, bpos < 64 ∧ 128 - prefixpos = bpos + 64 :=
      ⟨128 - prefixpos - 64, by omega, by omega⟩
    rw [position]
    exact ⟨bpos, small, by simp, rfl, (twoPow_append_zero small).symm⟩

theorem ip6CalcBitIsSetAtPrefixpos_eq (low : 1 ≤ prefixpos) (high : prefixpos ≤ 128) :
    ip6CalcBitIsSetAtPrefixpos bits prefixpos = some (bits.toBitVec.getLsbD (128 - prefixpos)) := by
  rw [ip6CalcBitIsSetAtPrefixpos, Ip6AddrData.toBitVec, BitVec.getLsbD_append]
  obtain ⟨bpos, small, place, position, -⟩ | ⟨bpos, small, place, position, -⟩ :=
    ip6CalcRoBitposIn_cases bits low high
  · have test := and_twoPow_bne_zero bits.low small
    simp only [place, ← position, small, ip6CalcBit_eq small, ← test]
    rfl
  · have test := and_twoPow_bne_zero bits.high small
    simp [place, ← position, ip6CalcBit_eq small, ← test]

theorem ip6CalcFlipBitAtPrefixpos_eq (low : 1 ≤ prefixpos) (high : prefixpos ≤ 128) :
    ip6CalcFlipBitAtPrefixpos bits prefixpos =
      some (.ofBitVec (bits.toBitVec ^^^ BitVec.twoPow 128 (128 - prefixpos))) := by
  rw [ip6CalcFlipBitAtPrefixpos, Ip6AddrData.toBitVec]
  obtain ⟨bpos, small, place, -, word⟩ | ⟨bpos, small, place, -, word⟩ :=
    ip6CalcRoBitposIn_cases bits low high
  · rw [place, word, BitVec.xor_append, Ip6AddrData.ofBitVec_append]
    simp [ip6CalcBit_eq small]
  · rw [place, word, BitVec.xor_append, Ip6AddrData.ofBitVec_append]
    simp [ip6CalcBit_eq small]

theorem ip6CalcSetBitAtPrefixpos_eq (low : 1 ≤ prefixpos) (high : prefixpos ≤ 128) (b : Bool) :
    ip6CalcSetBitAtPrefixpos bits prefixpos b = some (.ofBitVec
      (if b then bits.toBitVec ||| BitVec.twoPow 128 (128 - prefixpos)
        else bits.toBitVec &&& ~~~BitVec.twoPow 128 (128 - prefixpos))) := by
  have ones (chunk : BitVec 64) : chunk &&& 18446744073709551615#64 = chunk :=
    BitVec.and_allOnes
  rw [ip6CalcSetBitAtPrefixpos, Ip6AddrData.toBitVec]
  obtain ⟨bpos, small, place, -, word⟩ | ⟨bpos, small, place, -, word⟩ :=
    ip6CalcRoBitposIn_cases bits low high
  all_goals
    rw [place, word, BitVec.or_append, BitVec.not_append, BitVec.and_append]
    cases b <;> simp [ip6CalcBit_eq small, Ip6AddrData.ofBitVec_append, ones]

end Helpers

/-! ### Addresses as bit strings -/

/-- The 128 bits of an address. -/
def Ip6Addr.word (a : Ip6Addr) : BitVec 128 := a.addr.toBitVec

/-- The network that some leading bits stand for. -/
def ip6AddrAt (bits : List Bool) : Ip6Addr := ⟨bits.length, .ofBitVec (BitString.word 128 128 bits)⟩

section AddrAt

variable {bits : List Bool}

theorem word_ip6AddrAt : (ip6AddrAt bits).word = BitString.word 128 128 bits :=
  Ip6AddrData.toBitVec_ofBitVec _

theorem ip6AddrBitIsSetAt_eq (a : Ip6Addr) {prefixpos : Nat} (low : 1 ≤ prefixpos)
    (high : prefixpos ≤ 128) :
    ip6AddrBitIsSetAt a prefixpos = some (a.word.getMsbD (prefixpos - 1)) := by
  rw [ip6AddrBitIsSetAt, ip6CalcBitIsSetAtPrefixpos_eq _ low high, BitVec.getMsbD,
    decide_eq_true (by omega), Bool.true_and, Ip6Addr.word]
  congr 2
  omega

theorem ip6AddrInitChild_addrAt (h : bits.length < 128) (b : Bool) :
    ip6AddrInitChild (ip6AddrAt bits) b = some (ip6AddrAt (bits ++ [b])) := by
  have small : uintFast8 ((bits.length : Int) + 1) = bits.length + 1 :=
    uintFast8_of_lt (n := bits.length + 1) (by omega)
  simp only [ip6AddrInitChild, ip6AddrAt, small,
    ip6CalcSetBitAtPrefixpos_eq _ (show 1 ≤ bits.length + 1 by omega) h,
    Ip6AddrData.toBitVec_ofBitVec, word_or_twoPow h, word_and_not_twoPow h]
  cases b <;> simp

theorem ip6CalcFlipBitAtPrefixpos_word (h : bits.length < 128) (b : Bool) :
    ip6CalcFlipBitAtPrefixpos (.ofBitVec (BitString.word 128 128 (bits ++ [b]))) (bits.length + 1) =
      some (.ofBitVec (BitString.word 128 128 (bits ++ [!b]))) := by
  rw [ip6CalcFlipBitAtPrefixpos_eq _ (by omega) h, Ip6AddrData.toBitVec_ofBitVec,
    word_concat_xor_twoPow h]

theorem ip6AddrInitSibling_addrAt (h : bits.length < 128) (b : Bool) :
    ip6AddrInitSibling (ip6AddrAt (bits ++ [b])) = some (ip6AddrAt (bits ++ [!b])) := by
  simp [ip6AddrInitSibling, ip6AddrAt, ip6CalcFlipBitAtPrefixpos_word h]

theorem ip6AddrFlipInplace_addrAt (h : bits.length < 128) (b : Bool) :
    ip6AddrFlipInplace (ip6AddrAt (bits ++ [b])) = some (ip6AddrAt (bits ++ [!b])) := by
  simp [ip6AddrFlipInplace, ip6AddrAt, ip6CalcFlipBitAtPrefixpos_word h]

end AddrAt

end IpDedup
