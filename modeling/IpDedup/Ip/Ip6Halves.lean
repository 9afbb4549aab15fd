import IpDedup.Ip.Ip6
import Mathlib.Order.Interval.Set.Basic

/-!
# Halves of IPv6 networks

The bit helpers on two chunks are arithmetic on one word of 128 bits. So the
children of a network are its halves, and its sibling is the other half of its
supernet.

## Main definitions

* `Ip6Addr.IsNet`: there are no host bits
* `Ip6Addr.range`, `Ip6Addr.supernet`: the addresses in a network and in its supernet

## Main results

* `ip6Calc_word`: the helpers, and the networks that are made with them
-/

set_option autoImplicit false

open BitString

namespace IpDedup

/-! ### Bits of the word -/

section Bits

variable {bits out : Ip6AddrData} {i : Nat}

/-- The two addresses agree in all bits but one. -/
def Ip6AddrData.AgreeExcept (bits out : Ip6AddrData) (i : Nat) : Prop :=
  ∀ j < 128, j ≠ i → out.toBitVec.getLsbD j = bits.toBitVec.getLsbD j

variable {prefixpos : Nat} (low : 1 ≤ prefixpos) (high : prefixpos ≤ 128)
include low high

/-- The shift count is a position in a chunk. -/
theorem ip6CalcRoBitposIn_lt (bits : Ip6AddrData) :
    (ip6CalcRoBitposIn bits prefixpos).2.1 < 64 := by
  rcases ip6CalcRoBitposIn_cases bits low high with
    ⟨bpos, small, place, -⟩ | ⟨bpos, small, place, -⟩
  · rwa [place]
  · rwa [place]

theorem ip6CalcSetBitAtPrefixpos_bits (bits : Ip6AddrData) (b : Bool) :
    ∃ out, ip6CalcSetBitAtPrefixpos bits prefixpos b = some out ∧
      out.toBitVec.getLsbD (128 - prefixpos) = b ∧ bits.AgreeExcept out (128 - prefixpos) := by
  have inside : 128 - prefixpos < 128 := by omega
  refine ⟨_, ip6CalcSetBitAtPrefixpos_eq bits low high b, ?_, ?_⟩
  · rw [Ip6AddrData.toBitVec_ofBitVec]
    cases b
    · simp [inside]
    · simp [inside]
  · intro j small other
    rw [Ip6AddrData.toBitVec_ofBitVec]
    cases b
    · simp [small, other]
    · simp [Ne.symm other]

theorem ip6CalcFlipBitAtPrefixpos_bits (bits : Ip6AddrData) :
    ∃ out, ip6CalcFlipBitAtPrefixpos bits prefixpos = some out ∧
      out.toBitVec.getLsbD (128 - prefixpos) = !bits.toBitVec.getLsbD (128 - prefixpos) ∧
      bits.AgreeExcept out (128 - prefixpos) := by
  have inside : 128 - prefixpos < 128 := by omega
  refine ⟨_, ip6CalcFlipBitAtPrefixpos_eq bits low high, ?_, ?_⟩
  · rw [Ip6AddrData.toBitVec_ofBitVec]
    simp [inside]
  · intro j small other
    rw [Ip6AddrData.toBitVec_ofBitVec]
    simp [Ne.symm other]

end Bits

/-! ### Networks as ranges of numbers -/

/-- The address has no bits behind its prefix length. -/
def Ip6Addr.IsNet (a : Ip6Addr) : Prop :=
  a.prefixlen ≤ 128 ∧ 2 ^ (128 - a.prefixlen) ∣ a.word.toNat

/-- The numbers that agree with an address on its first `len` bits. -/
def Ip6Addr.agreeing (a : Ip6Addr) (len : Nat) : Set Nat :=
  {n | n / 2 ^ (128 - len) = a.word.toNat / 2 ^ (128 - len)}

/-- The addresses in a network. -/
def Ip6Addr.range (a : Ip6Addr) : Set Nat := a.agreeing a.prefixlen

/-- The addresses in the network that is one bit shorter. -/
def Ip6Addr.supernet (a : Ip6Addr) : Set Nat := a.agreeing (a.prefixlen - 1)

/-- The addresses in the lower half of a network. -/
def Ip6Addr.lowerHalf (a : Ip6Addr) : Set Nat :=
  {n ∈ a.range | n < a.word.toNat + 2 ^ (127 - a.prefixlen)}

/-- The addresses in the upper half of a network. -/
def Ip6Addr.upperHalf (a : Ip6Addr) : Set Nat :=
  {n ∈ a.range | a.word.toNat + 2 ^ (127 - a.prefixlen) ≤ n}

section Range

variable {bits : List Bool} {b : Bool}

@[simp] theorem prefixlen_ip6AddrAt : (ip6AddrAt bits).prefixlen = bits.length := rfl

theorem toNat_word_ip6AddrAt (short : bits.length ≤ 128) :
    (ip6AddrAt bits).word.toNat = pad 128 bits := by
  rw [word_ip6AddrAt, word, BitVec.toNat_ofNat, Nat.mod_eq_of_lt (pad_lt short)]

theorem isNet_ip6AddrAt (short : bits.length ≤ 128) : (ip6AddrAt bits).IsNet := by
  refine ⟨short, ?_⟩
  rw [toNat_word_ip6AddrAt short, pad, Nat.shiftLeft_eq]
  exact Nat.dvd_mul_left _ _

/-- A network is determined by its first bits. -/
theorem Ip6Addr.IsNet.exists_bits {a : Ip6Addr} (net : a.IsNet) :
    ∃ bits, bits.length = a.prefixlen ∧ a = ip6AddrAt bits := by
  obtain ⟨short, aligned⟩ := net
  obtain ⟨bits, length, same⟩ := exists_pad_eq short a.word.isLt aligned
  refine ⟨bits, length, ?_⟩
  have word : a.addr.toBitVec = BitString.word 128 128 bits := by
    apply BitVec.eq_of_toNat_eq
    rw [← word_ip6AddrAt, toNat_word_ip6AddrAt (length ▸ short), same]
    rfl
  rw [ip6AddrAt, length, ← word, Ip6AddrData.ofBitVec_toBitVec]

/-- The numbers that begin with some bits lie between the first word of their block and the next
block. -/
theorem agreeing_of_div {a : Ip6Addr} {len : Nat} (front : bits.length = len)
    (same : a.word.toNat / 2 ^ (128 - len) = value bits) :
    a.agreeing len = Set.Ico (pad 128 bits) (pad 128 bits + 2 ^ (128 - len)) := by
  ext n
  rw [Ip6Addr.agreeing, Set.mem_ofPred_eq, same, Set.mem_Ico, pad, front, Nat.shiftLeft_eq,
    Nat.div_eq_iff (by positivity)]
  have positive : 0 < 2 ^ (128 - len) := by positivity
  omega

theorem range_ip6AddrAt (short : bits.length ≤ 128) :
    (ip6AddrAt bits).range =
      Set.Ico (pad 128 bits) (pad 128 bits + 2 ^ (128 - bits.length)) := by
  refine agreeing_of_div rfl ?_
  rw [toNat_word_ip6AddrAt short]
  exact pad_div bits

/-- A child is a half of its parent. -/
theorem range_child (short : bits.length < 128) :
    (ip6AddrAt (bits ++ [b])).range =
      if b then (ip6AddrAt bits).upperHalf else (ip6AddrAt bits).lowerHalf := by
  have length : (bits ++ [b]).length ≤ 128 := by simp; omega
  have size : 2 ^ (128 - bits.length) = 2 * 2 ^ (127 - bits.length) := by
    rw [← pow_succ']
    congr 1
    omega
  have half : 128 - (bits.length + 1) = 127 - bits.length := by omega
  ext n
  rw [range_ip6AddrAt length, pad_concat short, List.length_append, List.length_singleton, half,
    Set.mem_Ico]
  cases b
  · -- the lower half begins where the network does
    rw [if_neg Bool.false_ne_true, Ip6Addr.lowerHalf, Set.mem_sep_iff, range_ip6AddrAt short.le,
      Set.mem_Ico, toNat_word_ip6AddrAt short.le, prefixlen_ip6AddrAt, size, Bool.toNat_false]
    omega
  · -- the upper half ends where the network does
    rw [if_pos rfl, Ip6Addr.upperHalf, Set.mem_sep_iff, range_ip6AddrAt short.le,
      Set.mem_Ico, toNat_word_ip6AddrAt short.le, prefixlen_ip6AddrAt, size, Bool.toNat_true]
    omega

/-- Both children have their parent as supernet. -/
theorem supernet_child (short : bits.length < 128) :
    (ip6AddrAt (bits ++ [b])).supernet = (ip6AddrAt bits).range := by
  have length : (bits ++ [b]).length ≤ 128 := by simp; omega
  have front : (ip6AddrAt (bits ++ [b])).prefixlen - 1 = bits.length := by simp [ip6AddrAt]
  rw [Ip6Addr.supernet, front, range_ip6AddrAt short.le]
  refine agreeing_of_div rfl ?_
  -- the last bit does not reach a whole block
  have size : 2 ^ (128 - bits.length) = 2 * 2 ^ (128 - (bits.length + 1)) := by
    rw [← pow_succ']
    congr 1
    omega
  have less : b.toNat * 2 ^ (128 - (bits.length + 1)) < 2 ^ (128 - bits.length) := by
    have bound := b.toNat_le
    have positive : 0 < 2 ^ (128 - (bits.length + 1)) := by positivity
    nlinarith
  rw [toNat_word_ip6AddrAt length, pad_concat short, pad, Nat.shiftLeft_eq, Nat.mul_comm,
    Nat.mul_add_div (by positivity), Nat.div_eq_of_lt less, Nat.add_zero]

/-- The sibling is what the supernet has besides. -/
theorem range_sibling (short : bits.length < 128) :
    (ip6AddrAt (bits ++ [!b])).range =
      (ip6AddrAt (bits ++ [b])).supernet \ (ip6AddrAt (bits ++ [b])).range := by
  rw [supernet_child short]
  cases b
  · rw [Bool.not_false, range_child short, range_child short, if_pos rfl,
      if_neg Bool.false_ne_true]
    ext n
    simp only [Ip6Addr.upperHalf, Ip6Addr.lowerHalf, Set.mem_sdiff, Set.mem_sep_iff, not_and,
      not_lt]
    exact and_congr_right fun inside => ⟨fun le _ => le, fun le => le inside⟩
  · rw [Bool.not_true, range_child short, range_child short, if_pos rfl,
      if_neg Bool.false_ne_true]
    ext n
    simp only [Ip6Addr.upperHalf, Ip6Addr.lowerHalf, Set.mem_sdiff, Set.mem_sep_iff, not_and,
      not_le]
    exact and_congr_right fun inside => ⟨fun lt _ => lt, fun lt => lt inside⟩

end Range

/-! ### The networks that are made -/

section Networks

variable {net : Ip6Addr}

theorem ip6AddrInitChild_half (isNet : net.IsNet) (short : net.prefixlen < 128) (b : Bool) :
    ∃ child, ip6AddrInitChild net b = some child ∧ child.IsNet ∧
      child.prefixlen = net.prefixlen + 1 ∧
      child.range = if b then net.upperHalf else net.lowerHalf := by
  obtain ⟨bits, length, rfl⟩ := isNet.exists_bits
  have room : bits.length < 128 := short
  have length' : (bits ++ [b]).length ≤ 128 := by simp; omega
  exact ⟨_, ip6AddrInitChild_addrAt room b, isNet_ip6AddrAt length', by simp [ip6AddrAt],
    range_child room⟩

theorem ip6AddrInitSibling_half (isNet : net.IsNet) (long : 1 ≤ net.prefixlen) :
    ∃ sibling, ip6AddrInitSibling net = some sibling ∧ ip6AddrFlipInplace net = some sibling ∧
      ip6AddrFlipInplace sibling = some net ∧ sibling.IsNet ∧
      sibling.prefixlen = net.prefixlen ∧ sibling.range = net.supernet \ net.range := by
  obtain ⟨bits, length, rfl⟩ := isNet.exists_bits
  rcases List.eq_nil_or_concat bits with rfl | ⟨front, b, rfl⟩
  · -- the network of all addresses has no sibling
    cases long
  · have room : front.length < 128 := by
      have short := isNet.1
      simp at short
      omega
    have length' : (front ++ [!b]).length ≤ 128 := by simp; omega
    have back := ip6AddrFlipInplace_addrAt room (!b)
    rw [Bool.not_not] at back
    rw [List.concat_eq_append]
    exact ⟨_, ip6AddrInitSibling_addrAt room b, ip6AddrFlipInplace_addrAt room b, back,
      isNet_ip6AddrAt length', by simp [ip6AddrAt], range_sibling room⟩

/-- On positions `1..128` the bit helpers are defined and act on one bit of the word; on networks
without host bits, a child is a half, and the sibling is the other half of the supernet. -/
theorem ip6Calc_word :
    (∀ (bits : Ip6AddrData) (prefixpos : Nat), 1 ≤ prefixpos → prefixpos ≤ 128 →
      (ip6CalcRoBitposIn bits prefixpos).2.1 < 64 ∧
      ip6CalcBitIsSetAtPrefixpos bits prefixpos =
        some (bits.toBitVec.getLsbD (128 - prefixpos)) ∧
      (∀ b, ∃ out, ip6CalcSetBitAtPrefixpos bits prefixpos b = some out ∧
        out.toBitVec.getLsbD (128 - prefixpos) = b ∧ bits.AgreeExcept out (128 - prefixpos)) ∧
      ∃ out, ip6CalcFlipBitAtPrefixpos bits prefixpos = some out ∧
        out.toBitVec.getLsbD (128 - prefixpos) = !bits.toBitVec.getLsbD (128 - prefixpos) ∧
        bits.AgreeExcept out (128 - prefixpos)) ∧
    ∀ net : Ip6Addr, net.IsNet →
      (net.prefixlen < 128 → ∀ b, ∃ child, ip6AddrInitChild net b = some child ∧ child.IsNet ∧
        child.prefixlen = net.prefixlen + 1 ∧
        child.range = if b then net.upperHalf else net.lowerHalf) ∧
      (1 ≤ net.prefixlen → ∃ sibling, ip6AddrInitSibling net = some sibling ∧
        ip6AddrFlipInplace net = some sibling ∧ ip6AddrFlipInplace sibling = some net ∧
        sibling.IsNet ∧ sibling.prefixlen = net.prefixlen ∧
        sibling.range = net.supernet \ net.range) := by
  constructor
  · intro bits prefixpos low high
    refine ⟨ip6CalcRoBitposIn_lt low high bits, ip6CalcBitIsSetAtPrefixpos_eq bits low high, ?_, ?_⟩
    · exact ip6CalcSetBitAtPrefixpos_bits low high bits
    · exact ip6CalcFlipBitAtPrefixpos_bits low high bits
  · intro net isNet
    constructor
    · exact ip6AddrInitChild_half isNet
    · exact ip6AddrInitSibling_half isNet

/-- `2001:db8::/64` has its halves on both sides of the chunk boundary. -/
example : ip6AddrInitChild ⟨64, 0x20010db800000000, 0⟩ true =
    some ⟨65, 0x20010db800000000, 0x8000000000000000⟩ := by decide

end Networks

end IpDedup
