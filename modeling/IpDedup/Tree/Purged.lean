import IpDedup.Lib.Carve
import IpDedup.Lib.TrieLevels
import IpDedup.Tree.Shape

/-!
# What purging a network does to the collected list

On any valid tree, collapsed or not, purging carves the network out of the
networks that are collected, and leaves the others in their places.

## Main definitions

* `IpFamily.CarvedOut`: what becomes of one network when another one is removed

## Main results

* `ipTreePurge_collect`: the list before and after
-/

set_option autoImplicit false

open BitString BitTrie

namespace IpDedup

namespace IpFamily

variable {family : IpFamily}

/-! ### Blocks within blocks -/

theorem word_mem_block (addr : family.Addr) : family.word addr ∈ family.block addr := rfl

/-- A network lies within another one if it begins with the other one's bits. -/
theorem block_subset_iff {x y : family.Addr} (shortX : family.prefixlen x ≤ family.width)
    (shortY : family.prefixlen y ≤ family.width) :
    family.block y ⊆ family.block x ↔ family.lawful.key x <+: family.lawful.key y := by
  constructor
  · intro subset
    have own := (mem_block_iff shortY _).mp (word_mem_block y)
    have inside := (mem_block_iff shortX _).mp (subset (word_mem_block y))
    rcases List.prefix_or_prefix_of_prefix inside own with within | ⟨rest, around⟩
    · exact within
    · cases rest with
      | nil =>
        rw [List.append_nil] at around
        exact around ▸ List.prefix_rfl
      | cons b rest =>
        -- an address of the larger network that parts from the smaller one
        have length := congrArg List.length around
        rw [List.length_append, List.length_cons, family.lawful.length_key shortX,
          family.lawful.length_key shortY] at length
        have fits : family.prefixlen y + (rest.length + 1) ≤ family.width :=
          length.trans_le shortX
        obtain ⟨w, other⟩ : ∃ w, family.bitsOf w = family.lawful.key y ++ (!b) ::
            List.replicate (family.width - family.prefixlen y - 1) false := by
          apply exists_bitsOf
          rw [List.length_append, List.length_cons, List.length_replicate,
            family.lawful.length_key shortY]
          change family.prefixlen y + _ = _
          omega
        have here := subset ((mem_block_iff shortY w).mpr ⟨_, other.symm⟩)
        rw [mem_block_iff shortX, other, ← around, List.prefix_append_right_inj,
          List.cons_prefix_cons] at here
        exact absurd here.1 (by cases b <;> decide)
  · intro within w inside
    rw [mem_block_iff shortX]
    exact within.trans ((mem_block_iff shortY w).mp inside)

/-- A network of a tree is that of its key. -/
theorem addrAt_key {s : BitTrie} {y : family.Addr} {n : Nat} (within : Within family.width s)
    (mem : y ∈ ipTreeCollectAddr (family.lawful.tree [] n s)) :
    family.lawful.addrAt (family.lawful.key y) = y ∧ family.prefixlen y ≤ family.width := by
  rw [ipTreeCollectAddr_label] at mem
  obtain ⟨p, hot, rfl⟩ := List.mem_map.mp mem
  have short := length_le_of_within within hot
  exact ⟨by rw [key_addrAt short], by rwa [prefixlen_addrAt]⟩

/-! ### Carving -/

/-- What becomes of a network when another one is removed: it stays if the two are disjoint, it
disappears if it lies within the other one, and around the other one it gives way to one network of
each length in between, which cover what is left. -/
structure CarvedOut (family : IpFamily) (x y : family.Addr) (left : List family.Addr) : Prop where
  disjoint : Disjoint (family.block y) (family.block x) → left = [y]
  within : family.block y ⊆ family.block x → left = []
  around : family.block x ⊂ family.block y →
    (left.map family.prefixlen).Perm
        (List.range' (family.prefixlen y + 1) (family.prefixlen x - family.prefixlen y)) ∧
      family.covered left = family.block y \ family.block x

theorem carvedOut_carve {x y : family.Addr} (shortX : family.prefixlen x ≤ family.width)
    (shortY : family.prefixlen y ≤ family.width)
    (same : family.lawful.addrAt (family.lawful.key y) = y) :
    family.CarvedOut x y
      ((carve (family.lawful.key x) (family.lawful.key y)).map family.lawful.addrAt) where
  disjoint := by
    intro apart
    -- two blocks are disjoint unless one key begins with the other
    have inside : ¬ family.lawful.key x <+: family.lawful.key y := fun within =>
      Set.disjoint_left.mp apart (word_mem_block y)
        ((block_subset_iff shortX shortY).mpr within (word_mem_block y))
    have around : ¬ family.lawful.key y <+: family.lawful.key x := fun within =>
      Set.disjoint_left.mp apart ((block_subset_iff shortY shortX).mpr within (word_mem_block x))
        (word_mem_block x)
    rw [carve_of_disjoint inside around, List.map_singleton, same]
  within := by
    intro subset
    rw [carve_of_begins ((block_subset_iff shortX shortY).mp subset), List.map_nil]
  around := by
    rintro ⟨subset, proper⟩
    rw [block_subset_iff shortX shortY] at proper
    obtain ⟨rest, key⟩ := (block_subset_iff shortY shortX).mp subset
    -- one network is left for each bit of the rest, the sibling of the node on the way
    have strict : rest ≠ [] := by
      rintro rfl
      rw [List.append_nil] at key
      exact proper (key ▸ List.prefix_rfl)
    have lengthY : (family.lawful.key y).length = family.prefixlen y :=
      family.lawful.length_key shortY
    have lengthX : (family.lawful.key x).length = family.prefixlen x :=
      family.lawful.length_key shortX
    have between : rest.length = family.prefixlen x - family.prefixlen y := by
      rw [← lengthX, ← lengthY, ← key, List.length_append, Nat.add_sub_cancel_left]
    have lengths := perm_length_carve (p := family.lawful.key y) strict
    rw [key, lengthY, between] at lengths
    have short : ∀ q ∈ carve (family.lawful.key x) (family.lawful.key y),
        q.length ≤ family.width := by
      intro q mem
      have one := (lengths.mem_iff (a := q.length)).mp (List.mem_map_of_mem mem)
      rw [List.mem_range'_1] at one
      omega
    constructor
    · rw [List.map_map]
      convert lengths using 2
      funext q
      exact prefixlen_addrAt q
    · ext w
      have keys : ((carve (family.lawful.key x) (family.lawful.key y)).map
          family.lawful.addrAt).map family.lawful.key =
            carve (family.lawful.key x) (family.lawful.key y) := by
        rw [List.map_map]
        exact (List.map_congr_left fun q mem => key_addrAt (short q mem)).trans (List.map_id _)
      have narrow : ∀ a ∈ (carve (family.lawful.key x) (family.lawful.key y)).map
          family.lawful.addrAt, family.prefixlen a ≤ family.width := by
        intro a mem
        obtain ⟨q, own, rfl⟩ := List.mem_map.mp mem
        rw [prefixlen_addrAt]
        exact short q own
      rw [covered_iff_exists narrow, keys, Set.mem_sdiff, mem_block_iff shortY,
        mem_block_iff shortX, ← key]
      exact covers_carve strict (by rw [key, lengthX, length_bitsOf]; exact shortX)

/-- The key of a network is determined by its prefix length and its block. -/
theorem key_eq_of_block_eq {x x' : family.Addr} (short : family.prefixlen x ≤ family.width)
    (length : family.prefixlen x' = family.prefixlen x)
    (same : family.block x' = family.block x) : family.lawful.key x' = family.lawful.key x := by
  have short' : family.prefixlen x' ≤ family.width := length ▸ short
  have within := (block_subset_iff short' short).mp same.ge
  exact within.eq_of_length
    ((family.lawful.length_key short').trans (length.trans (family.lawful.length_key short).symm))

end IpFamily

open IpFamily

/-- Purging a network carves it out of each network that is collected; host bits do not matter. -/
theorem ipTreePurge_collect (family : IpFamily) (tree : IpTree family.Addr) (x : family.Addr)
    (valid : tree.Valid family []) (short : family.prefixlen x ≤ family.width) :
    ∃ tree', ipTreePurge tree x Mallocs.all = some ((0, tree'), Mallocs.all) ∧
      (∃ left : family.Addr → List family.Addr,
        ipTreeCollectAddr tree' = (ipTreeCollectAddr tree).flatMap left ∧
        ∀ y ∈ ipTreeCollectAddr tree, family.CarvedOut x y (left y)) ∧
      ∀ x', family.prefixlen x' = family.prefixlen x → family.block x' = family.block x →
        ipTreePurge tree x' Mallocs.all = some ((0, tree'), Mallocs.all) := by
  have whole := valid.eq_tree
  have leafy := valid.hotLeaf
  have within := valid.within
  have root := valid.shape_ne_nil
  generalize tree.autoCollapsePrefixlen = n at whole
  generalize tree.root.shape = s at whole leafy within root
  subst whole
  -- purging only depends on the key, which is that of the block
  have purge (x' : family.Addr) (length : family.prefixlen x' = family.prefixlen x)
      (same : family.block x' = family.block x) :
      ipTreePurge (family.lawful.tree [] n s) x' Mallocs.all =
        some ((0, family.lawful.tree [] n (removeBelow (family.lawful.key x) s)), Mallocs.all) := by
    have short' : family.prefixlen x' ≤ family.width := length ▸ short
    have purged := ipTreePurge_label family.lawful [] n short' (Nat.zero_le _) root leafy
    rw [keyFrom_nil, key_eq_of_block_eq short length same] at purged
    exact purged.run_all trivial
  refine ⟨_, purge x rfl rfl, ⟨fun y =>
    (carve (family.lawful.key x) (family.lawful.key y)).map family.lawful.addrAt, ?_, ?_⟩, purge⟩
  · rw [ipTreeCollectAddr_label, ipTreeCollectAddr_label, hotPaths_removeBelow leafy,
      List.map_flatMap, List.flatMap_map]
    refine List.flatMap_congr fun p hot => ?_
    rw [key_addrAt (length_le_of_within within hot)]
  · intro y mem
    obtain ⟨same, shortY⟩ := addrAt_key within mem
    exact carvedOut_carve short shortY same

/-- A network of length 2 is purged from one of length 1. -/
theorem ipTreePurge_collect_quarter :
    ∃ tree', ipTreePurge ((IpFamily.v4 .bits64).lawful.tree [] 0 (node leaf nil false))
        (⟨2, 0x7f000001⟩ : Ip4Addr .bits64) Mallocs.all = some ((0, tree'), Mallocs.all) ∧
      ∃ left : Ip4Addr .bits64 → List (Ip4Addr .bits64),
        ipTreeCollectAddr tree' = [(⟨1, 0⟩ : Ip4Addr .bits64)].flatMap left ∧
        (IpFamily.v4 .bits64).CarvedOut (⟨2, 0x7f000001⟩ : Ip4Addr .bits64)
          (⟨1, 0⟩ : Ip4Addr .bits64) (left ⟨1, 0⟩) := by
  have valid : ((IpFamily.v4 .bits64).lawful.tree [] 0 (node leaf nil false)).Valid
      (.v4 .bits64) [] :=
    valid_tree (m := 32) (by simp) ⟨by simp, hotLeaf_leaf, trivial⟩ ⟨within_leaf 31, within_nil 31⟩
      (Nat.le_refl 32)
  obtain ⟨tree', run, ⟨left, collect, carved⟩, -⟩ := ipTreePurge_collect (.v4 .bits64) _
    (⟨2, 0x7f000001⟩ : Ip4Addr .bits64) valid (show 2 ≤ 32 by decide)
  have before : ipTreeCollectAddr ((IpFamily.v4 .bits64).lawful.tree [] 0 (node leaf nil false)) =
      [(⟨1, 0⟩ : Ip4Addr .bits64)] := by decide
  rw [before] at collect carved
  exact ⟨tree', run, left, collect, carved _ List.mem_cons_self⟩

end IpDedup
