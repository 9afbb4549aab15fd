import IpDedup.Lib.Subnets
import IpDedup.Tree.Refinement
import Mathlib.Data.Set.Lattice
import Mathlib.Order.CompletePartialOrder

/-!
# Networks as sets of addresses

A network is the block of addresses that agree with it up to its prefix length.
The trie of a subnet tree covers the union of the blocks that are collected
from the tree, so the set operations on tries are operations on these unions.

## Main definitions

* `IpFamily.block`, `IpFamily.covered`: the addresses in a network, and in a list of them
* `IpFamily.widened`: the block of a network under auto-collapse

## Main results

* `IpFamily.mem_blockAt_iff`: a block is what begins with some bits
* `IpFamily.mem_covered_iff`: what a tree covers is what its trie covers
-/

set_option autoImplicit false

open BitString BitTrie PrefixCover

namespace IpDedup

namespace IpFamily

variable (family : IpFamily)

/-- The number of bits of an address. -/
abbrev width : Nat := family.typedesc.maxPrefixlen

def prefixlen (addr : family.Addr) : Nat := family.typedesc.fGetAddrPrefixlen addr

/-- The bits of an address as one word. -/
def word : (family : IpFamily) → family.Addr → BitVec family.width
  | v4 _, addr => addr.word
  | v6, addr => addr.word

/-- The number that is stored as the address. -/
def number : (family : IpFamily) → family.Addr → Nat
  | v4 _, addr => addr.addr.toNat
  | v6, addr => addr.addr.toBitVec.toNat

/-- The addresses that agree with an address on its first `len` bits. -/
def blockAt (len : Nat) (addr : family.Addr) : Set (BitVec family.width) :=
  {x | x >>> (family.width - len) = family.word addr >>> (family.width - len)}

/-- The addresses in a network. -/
def block (addr : family.Addr) : Set (BitVec family.width) :=
  family.blockAt (family.prefixlen addr) addr

/-- The block of a network, widened to prefix length `n` if it is longer and `n` is not zero. -/
def widened (n : Nat) (addr : family.Addr) : Set (BitVec family.width) :=
  family.blockAt (if n > 0 ∧ family.prefixlen addr > n then n else family.prefixlen addr) addr

/-- The union of the blocks of some networks. -/
def covered (nets : List family.Addr) : Set (BitVec family.width) :=
  {x | ∃ addr ∈ nets, x ∈ family.block addr}

/-- The bits of an address, most significant bit first. -/
def bitsOf (x : BitVec family.width) : List Bool := ofNat family.width x.toNat

variable {family}

theorem word_eq (addr : family.Addr) : family.lawful.word addr = family.word addr := by
  cases family <;> rfl

@[simp] theorem length_bitsOf (x : BitVec family.width) :
    (family.bitsOf x).length = family.width :=
  length_ofNat _ _

/-- Every bit string of the right length is an address. -/
theorem exists_bitsOf {bits : List Bool} (length : bits.length = family.width) :
    ∃ x, family.bitsOf x = bits := by
  refine ⟨BitVec.ofNat _ (value bits), ?_⟩
  rw [bitsOf, BitVec.toNat_ofNat, ← length, Nat.mod_eq_of_lt (value_lt bits), ofNat_value]

theorem key_eq (addr : family.Addr) :
    family.lawful.key addr = (family.bitsOf (family.word addr)).take (family.prefixlen addr) := by
  rw [IpTreeTypedesc.Lawful.key, IpTreeTypedesc.Lawful.bits, word_eq]
  rfl

/-- The first bits of an address, as a number. -/
theorem shiftRight_lt (x : BitVec family.width) {len : Nat} (short : len ≤ family.width) :
    x.toNat >>> (family.width - len) < 2 ^ len := by
  rw [Nat.shiftRight_eq_div_pow, Nat.div_lt_iff_lt_mul (by positivity), ← pow_add]
  convert x.isLt using 2
  omega

/-- Agreeing on the first bits is beginning with them. -/
theorem mem_blockAt_iff {len : Nat} (short : len ≤ family.width) (addr : family.Addr)
    (x : BitVec family.width) :
    x ∈ family.blockAt len addr ↔
      (family.bitsOf (family.word addr)).take len <+: family.bitsOf x := by
  have length : ((family.bitsOf (family.word addr)).take len).length = len := by simpa using short
  rw [bitsOf, bitsOf, prefix_ofNat_iff (by rwa [← bitsOf, length]) x.isLt, ← bitsOf, length,
    bitsOf, take_ofNat short, value_ofNat, blockAt, Set.mem_ofPred_eq, ← BitVec.toNat_inj,
    BitVec.toNat_ushiftRight, BitVec.toNat_ushiftRight,
    Nat.mod_eq_of_lt (shiftRight_lt (family.word addr) short)]

/-- A network contains the addresses that begin with its key. -/
theorem mem_block_iff {addr : family.Addr} (short : family.prefixlen addr ≤ family.width)
    (x : BitVec family.width) :
    x ∈ family.block addr ↔ family.lawful.key addr <+: family.bitsOf x := by
  rw [block, mem_blockAt_iff short, key_eq]

theorem prefixlen_addrAt (path : NodePath) :
    family.prefixlen (family.lawful.addrAt path) = path.length :=
  family.lawful.prefixlen_addrAt path

theorem word_addrAt {path : NodePath} (short : path.length ≤ family.width) :
    (family.word (family.lawful.addrAt path)).toNat = pad family.width path := by
  rw [← word_eq, family.lawful.word_addrAt short, BitString.word, BitVec.toNat_ofNat]
  exact Nat.mod_eq_of_lt (pad_lt short)

/-- The stored number has no bits besides those of the path. -/
theorem number_addrAt : (family : IpFamily) → {path : NodePath} → path.length ≤ family.width →
    family.number (family.lawful.addrAt path) = pad family.width path
  | v4 w, path, short => by
    have small : pad 32 path < 2 ^ w.width :=
      (pad_lt short).trans_le (Nat.pow_le_pow_right (by decide) w.le_width)
    change (BitString.word w.width 32 path).toNat = pad 32 path
    rw [BitString.word, BitVec.toNat_ofNat, Nat.mod_eq_of_lt small]
  | v6, path, short => by
    change (Ip6AddrData.ofBitVec (BitString.word 128 128 path)).toBitVec.toNat = pad 128 path
    rw [Ip6AddrData.toBitVec_ofBitVec, BitString.word, BitVec.toNat_ofNat,
      Nat.mod_eq_of_lt (pad_lt (show path.length ≤ 128 from short))]

theorem key_addrAt {path : NodePath} (short : path.length ≤ family.width) :
    family.lawful.key (family.lawful.addrAt path) = path := by
  rw [key_eq, prefixlen_addrAt, bitsOf, word_addrAt short]
  exact (prefix_iff_take.mp (prefix_ofNat_pad short)).symm

theorem take_key {addr : family.Addr} (short : family.prefixlen addr ≤ family.width) :
    (family.lawful.key addr).take family.width = family.lawful.key addr :=
  List.take_of_length_le ((family.lawful.length_key short).trans_le short)

theorem keyFrom_nil (addr : family.Addr) :
    family.lawful.keyFrom [] addr = family.lawful.key addr := by
  rw [IpTreeTypedesc.Lawful.keyFrom, List.length_nil, List.drop_zero]

/-! ### Trees and sets of blocks -/

theorem width_pos : (family : IpFamily) → 0 < family.width
  | v4 _ => (by decide : 0 < 32)
  | v6 => (by decide : 0 < 128)

/-- The subnet tree of a set of blocks. -/
def tree (family : IpFamily) (n : Nat) {depth : Nat} (S : Subnets depth) : IpTree family.Addr :=
  family.lawful.tree [] n S.trie

variable {n m : Nat} {S T : Subnets family.width}

theorem ipTreeNew_all (family : IpFamily) :
    ipTreeNew family.typedesc Mallocs.all =
      some (some (family.tree 0 (.empty family.width_pos)), Mallocs.all) := by
  rw [ipTreeNew, family.lawful.newNull]
  rfl

/-- Collapsing a tree collapses its set of blocks. -/
theorem ipTreeCollapse_tree (n : Nat) {depth : Nat} (S : Subnets depth) :
    ipTreeCollapse (family.tree n S) = (0, family.tree n (S.collapse (collapseLimit n []))) :=
  ipTreeCollapse_label family.lawful n [] S.trie

theorem collect_tree (n : Nat) (S : Subnets family.width) :
    ipTreeCollectAddr (family.tree n S) = (hotPaths S.trie).map family.lawful.addrAt :=
  ipTreeCollectAddr_label family.lawful n S.trie

theorem length_le_width (S : Subnets family.width) {path : NodePath}
    (h : path ∈ hotPaths S.trie) : path.length ≤ family.width :=
  length_le_of_mem_hotPaths S.fits h

/-- The blocks of a tree are those that lead to its hot nodes. -/
theorem covered_iff_exists {nets : List family.Addr}
    (short : ∀ addr ∈ nets, family.prefixlen addr ≤ family.width) (x : BitVec family.width) :
    x ∈ family.covered nets ↔
      PrefixCover.Covers (nets.map family.lawful.key) (family.bitsOf x) := by
  rw [covered, Set.mem_ofPred_eq, covers_iff]
  constructor
  · rintro ⟨addr, mem, hx⟩
    exact ⟨_, List.mem_map_of_mem mem, (mem_block_iff (short addr mem) x).mp hx⟩
  · rintro ⟨_, mem, hx⟩
    obtain ⟨addr, hnets, rfl⟩ := List.mem_map.mp mem
    exact ⟨addr, hnets, (mem_block_iff (short addr hnets) x).mpr hx⟩

theorem prefixlen_collect (n : Nat) (S : Subnets family.width) :
    ∀ addr ∈ ipTreeCollectAddr (family.tree n S), family.prefixlen addr ≤ family.width := by
  rw [collect_tree]
  rintro _ mem
  obtain ⟨path, hpath, rfl⟩ := List.mem_map.mp mem
  rw [prefixlen_addrAt]
  exact length_le_width S hpath

theorem key_collect (n : Nat) (S : Subnets family.width) :
    (ipTreeCollectAddr (family.tree n S)).map family.lawful.key = hotPaths S.trie := by
  rw [collect_tree, List.map_map]
  exact (List.map_congr_left fun path h => key_addrAt (length_le_width S h)).trans (List.map_id _)

/-- What is collected from a tree covers what its blocks cover. -/
theorem mem_covered_tree (n : Nat) (S : Subnets family.width) (x : BitVec family.width) :
    x ∈ family.covered (ipTreeCollectAddr (family.tree n S)) ↔ S.Covers (family.bitsOf x) := by
  rw [covered_iff_exists (prefixlen_collect n S), key_collect, Subnets.Covers, covers_eq_true_iff]

/-- Some word is covered if and only if some address is. -/
theorem exists_covers_iff {depth : Nat} {S : Subnets depth} {addrs : Set (BitVec family.width)}
    (covers : ∀ x, S.Covers (family.bitsOf x) ↔ x ∈ addrs) (x : BitVec family.width) :
    (∃ other : List Bool, other.length = (family.bitsOf x).length ∧ S.Covers other) ↔
      addrs.Nonempty := by
  constructor
  · rintro ⟨other, length, covered⟩
    obtain ⟨y, rfl⟩ := exists_bitsOf (length.trans (length_bitsOf x))
    exact ⟨y, (covers y).mp covered⟩
  · rintro ⟨y, mem⟩
    exact ⟨family.bitsOf y, by simp, (covers y).mpr mem⟩

/-! ### Canonical decompositions -/

/-- The canonical decomposition of the set of addresses that the networks cover. -/
structure Canonical (family : IpFamily) (nets : List family.Addr) : Prop where
  valid : ∀ a ∈ nets, family.prefixlen a ≤ family.width
  ascending : nets.Pairwise fun a b => family.word a < family.word b
  disjoint : nets.Pairwise fun a b => Disjoint (family.block a) (family.block b)
  hostBits : ∀ a ∈ nets, ∀ i < family.width - family.prefixlen a, (family.word a).getLsbD i = false
  merged : ∀ a ∈ nets, ∀ b ∈ nets, 0 < family.prefixlen a →
    family.prefixlen a = family.prefixlen b → family.word a ≠ family.word b →
    family.blockAt (family.prefixlen a - 1) a ≠ family.blockAt (family.prefixlen a - 1) b
  minimal : ∀ others : List family.Addr,
    (∀ a ∈ others, family.prefixlen a ≤ family.width) →
    family.covered others = family.covered nets → nets.length ≤ others.length

theorem bitsOf_addrAt {path : NodePath} (short : path.length ≤ family.width) :
    (family.bitsOf (family.word (family.lawful.addrAt path))).take path.length = path := by
  have key := key_addrAt short
  rwa [key_eq, prefixlen_addrAt] at key

/-- The halves of one block differ in their last bit only. -/
theorem halves_of_blockAt_eq {p q : NodePath} (shortP : p.length ≤ family.width)
    (shortQ : q.length ≤ family.width) (nonempty : 0 < p.length) (length : p.length = q.length)
    (same : family.blockAt (p.length - 1) (family.lawful.addrAt p) =
      family.blockAt (p.length - 1) (family.lawful.addrAt q)) :
    p.dropLast = q.dropLast := by
  have inside : family.word (family.lawful.addrAt p) ∈
      family.blockAt (p.length - 1) (family.lawful.addrAt q) := same ▸ rfl
  rw [mem_blockAt_iff (by omega)] at inside
  have agree := List.prefix_iff_eq_take.mp inside
  rw [List.length_take, length_bitsOf, Nat.min_eq_left (by omega)] at agree
  have dropP := congrArg (List.take (p.length - 1)) (bitsOf_addrAt shortP)
  have dropQ := congrArg (List.take (q.length - 1)) (bitsOf_addrAt shortQ)
  rw [List.take_take, Nat.min_eq_left (Nat.sub_le _ _)] at dropP dropQ
  rw [List.dropLast_eq_take, List.dropLast_eq_take, ← dropP, ← dropQ, ← length, agree]

/-- Without hot siblings, a tree holds the canonical decomposition of what it covers. -/
theorem canonical_collect (n : Nat) (apart : NoHotSiblings S.trie) :
    family.Canonical (ipTreeCollectAddr (family.tree n S)) where
  valid := prefixlen_collect n S
  ascending := by
    rw [collect_tree, List.pairwise_map]
    refine (sorted_hotPaths S.trie).imp_of_mem fun hp hq before => ?_
    rw [BitVec.lt_def, word_addrAt (length_le_width S hp), word_addrAt (length_le_width S hq)]
    exact before.pad_lt (length_le_width S hp) (length_le_width S hq)
  disjoint := by
    rw [collect_tree, List.pairwise_map]
    refine (sorted_hotPaths S.trie).imp_of_mem fun hp hq before => Set.disjoint_left.mpr ?_
    intro x inP inQ
    rw [mem_block_iff (by rw [prefixlen_addrAt]; exact length_le_width S hp),
      key_addrAt (length_le_width S hp)] at inP
    rw [mem_block_iff (by rw [prefixlen_addrAt]; exact length_le_width S hq),
      key_addrAt (length_le_width S hq)] at inQ
    exact before.not_both inP inQ
  hostBits := by
    rw [collect_tree]
    intro a mem i low
    obtain ⟨path, hpath, rfl⟩ := List.mem_map.mp mem
    have short := length_le_width S hpath
    rw [prefixlen_addrAt] at low
    rw [BitVec.getLsbD, word_addrAt short, testBit_pad short,
      List.getD_eq_default _ _ (by omega), Bool.and_false]
  merged := by
    rw [collect_tree]
    intro a memA b memB nonempty length differ same
    obtain ⟨p, hp, rfl⟩ := List.mem_map.mp memA
    obtain ⟨q, hq, rfl⟩ := List.mem_map.mp memB
    rw [prefixlen_addrAt] at nonempty length same
    rw [prefixlen_addrAt] at length
    have front := halves_of_blockAt_eq (length_le_width S hp) (length_le_width S hq) nonempty
      length same
    have splitP := List.dropLast_append_getLast (List.length_pos_iff.mp nonempty)
    have splitQ := List.dropLast_append_getLast (List.length_pos_iff.mp (length ▸ nonempty))
    have merged := (canonical_hotPaths apart).merged p.dropLast
    cases lastP : p.getLast _ <;> cases lastQ : q.getLast _ <;>
      rw [lastP] at splitP <;> rw [lastQ, ← front] at splitQ
    · exact differ (by rw [← splitP, ← splitQ])
    · -- both halves of one block are hot
      exact merged ⟨by rwa [splitP], by rwa [splitQ]⟩
    · exact merged ⟨by rwa [splitQ], by rwa [splitP]⟩
    · exact differ (by rw [← splitP, ← splitQ])
  minimal := by
    intro others short cover
    have same (key : List Bool) (length : key.length = family.width) :
        PrefixCover.Covers (hotPaths S.trie) key ↔
          PrefixCover.Covers (others.map family.lawful.key) key := by
      obtain ⟨x, rfl⟩ := exists_bitsOf length
      rw [← covered_iff_exists short, cover, ← key_collect n,
        covered_iff_exists (prefixlen_collect n S)]
    have le := (canonical_hotPaths apart).length_le (fun p hp => length_le_width S hp) same
    rwa [collect_tree, List.length_map, ← List.length_map family.lawful.key]

/-- What a tree without hot siblings covers determines what is collected from it. -/
theorem collect_eq_of_covered_eq (apartS : NoHotSiblings S.trie) (apartT : NoHotSiblings T.trie)
    (cover : family.covered (ipTreeCollectAddr (family.tree n S)) =
      family.covered (ipTreeCollectAddr (family.tree m T))) :
    ipTreeCollectAddr (family.tree n S) = ipTreeCollectAddr (family.tree m T) := by
  have same (key : List Bool) (length : key.length = family.width) :
      PrefixCover.Covers (hotPaths S.trie) key ↔ PrefixCover.Covers (hotPaths T.trie) key := by
    obtain ⟨x, rfl⟩ := exists_bitsOf length
    rw [← covers_eq_true_iff, ← covers_eq_true_iff]
    change S.Covers _ ↔ T.Covers _
    rw [← mem_covered_tree n, cover, mem_covered_tree m]
  have paths := (canonical_hotPaths apartS).eq_of_covers_iff (fun p hp => length_le_width S hp)
    same (canonical_hotPaths apartT) (fun p hp => length_le_width T hp)
  rw [collect_tree, collect_tree, paths]

end IpFamily

end IpDedup
