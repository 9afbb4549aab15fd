import IpDedup.Lib.TrieLevels
import IpDedup.Tree.Find

/-!
# All or nothing

With auto-collapse disabled, inserting and purging either have their whole
effect or, whichever allocations fail, leave the collected networks as they
were. An insertion that stops on the way leaves nodes behind, but no hot ones.

## Main definitions

* `AllOrNothing`: what holds after a call, whether it succeeded or not

## Main results

* `ipTreeInsert_ipTreePurge_allOrNothing`: both calls, for every pattern of failures
-/

set_option autoImplicit false

open BitString BitTrie

namespace IpDedup

/-- What holds after a call on a tree, for its return code and the tree that it leaves. If it
succeeds, the tree is the one that the call makes with enough memory, and the tree covers
`after`, provided that the network lies within the one of the root. If it fails, the same
networks are collected as before. -/
structure AllOrNothing (family : IpFamily) (path : NodePath) (inside : Prop)
    (tree : IpTree family.Addr) (call : Run (Int × IpTree family.Addr))
    (after : Set (BitVec family.width)) (ret : Int) (tree' : IpTree family.Addr) : Prop where
  valid : tree'.Valid family path
  disabled : tree'.autoCollapsePrefixlen = 0
  failed : ret ≠ 0 → ipTreeCollectAddr tree' = ipTreeCollectAddr tree
  whole : ret = 0 → call Mallocs.all = some ((0, tree'), Mallocs.all)
  covered : ret = 0 → inside → family.covered (ipTreeCollectAddr tree') = after

section AllOrNothing

variable {family : IpFamily} {path : NodePath} {inside : Prop} {s : BitTrie}
  {call : Run (Int × IpTree family.Addr)} {after : Set (BitVec family.width)}

/-- What is collected from a tree is determined by the hot nodes. -/
theorem collect_eq_of_hotPaths_eq {t : BitTrie} (n : Nat) (same : hotPaths t = hotPaths s) :
    ipTreeCollectAddr (family.lawful.tree path n t) =
      ipTreeCollectAddr (family.lawful.tree path n s) := by
  simp only [ipTreeCollectAddr, family.lawful.tree_root, ipTreeCollectAddrInto_label, same]

/-- A call that does nothing but fail. -/
theorem AllOrNothing.error {tree : IpTree family.Addr} (valid : tree.Valid family path)
    (disabled : tree.autoCollapsePrefixlen = 0) :
    AllOrNothing family path inside tree call after (-1) tree where
  valid := valid
  disabled := disabled
  failed := fun _ => rfl
  whole := fun done => absurd done (by decide)
  covered := fun done => absurd done (by decide)

/-- A call is all or nothing if it makes one valid tree with the right networks, and the trees that
it leaves on failure are valid and have the same hot nodes as before. -/
theorem allOrNothing_of_ends {t : BitTrie} {bad : BitTrie → Prop}
    (ends : Ends call True (family.lawful.tree path 0 t) (family.lawful.Trees path 0 bad))
    (valid : (family.lawful.tree path 0 t).Valid family path)
    (stops : ∀ u, bad u → (family.lawful.tree path 0 u).Valid family path ∧
      hotPaths u = hotPaths s)
    (covered : inside → family.covered (ipTreeCollectAddr (family.lawful.tree path 0 t)) = after)
    (mem : Mallocs) :
    ∃ ret tree' mem', call mem = some ((ret, tree'), mem') ∧
      AllOrNothing family path inside (family.lawful.tree path 0 s) call after ret tree' := by
  obtain ⟨mem', -, ⟨-, run⟩ | ⟨_, ⟨u, stopped, rfl⟩, run, -⟩⟩ := ends mem
  · exact ⟨0, _, mem', run, valid, rfl, fun failed => absurd rfl failed,
      fun _ => ends.run_all trivial, fun _ => covered⟩
  · obtain ⟨validU, same⟩ := stops u stopped
    exact ⟨-1, _, mem', run, validU, rfl, fun _ => collect_eq_of_hotPaths_eq 0 same,
      fun done => absurd done (by decide), fun done => absurd done (by decide)⟩

end AllOrNothing

section Calls

variable {family : IpFamily} {path : NodePath} {x : family.Addr} {s : BitTrie}
  (short : family.prefixlen x ≤ family.width) (deep : path.length ≤ family.prefixlen x)

include short deep in
/-- Below the root, a word is in the network if it goes on as the way down to the network does. -/
theorem mem_block_iff_wayDown (inside : path <+: family.bitsOf (family.word x))
    {w : BitVec family.width} {rest : List Bool} (below : family.bitsOf w = path ++ rest) :
    w ∈ family.block x ↔ family.wayDown path x <+: rest := by
  have key : path ++ family.wayDown path x = family.lawful.key x := by
    rw [append_wayDown deep inside, IpFamily.key_eq]
  rw [IpFamily.mem_block_iff short, below, ← key, List.prefix_append_right_inj]

include deep in
/-- A word of the network lies below the root. -/
theorem exists_below_of_mem_block (short : family.prefixlen x ≤ family.width)
    (inside : path <+: family.bitsOf (family.word x)) {w : BitVec family.width}
    (mem : w ∈ family.block x) : ∃ rest, family.bitsOf w = path ++ rest := by
  have key : path <+: family.lawful.key x := by
    rw [IpFamily.key_eq, ← append_wayDown deep inside]
    exact List.prefix_append path _
  obtain ⟨rest, eq⟩ := key.trans ((IpFamily.mem_block_iff short w).mp mem)
  exact ⟨rest, eq.symm⟩

variable (within : Within (family.width - path.length) s) (room : path.length ≤ family.width)

include short deep within room in
/-- Inserting the way down to a network adds the network. -/
theorem covered_insert (root : s ≠ nil) (inside : path <+: family.bitsOf (family.word x)) :
    family.covered (ipTreeCollectAddr (family.lawful.tree path 0
        (BitTrie.insert (family.wayDown path x).length (family.wayDown path x) s))) =
      family.covered (ipTreeCollectAddr (family.lawful.tree path 0 s)) ∪ family.block x := by
  have fits : path.length + (family.width - path.length) ≤ family.width := by omega
  have after : Within (family.width - path.length)
      (BitTrie.insert (family.wayDown path x).length (family.wayDown path x) s) :=
    within_insert within (by rw [length_wayDown short]; omega)
  ext w
  rw [Set.mem_union, IpFamily.mem_covered_tree_at after fits,
    IpFamily.mem_covered_tree_at within fits]
  constructor
  · rintro ⟨rest, below, covered⟩
    rw [covers_insert root (Or.inl le_rfl), List.take_length, Bool.or_eq_true] at covered
    rcases covered with old | new
    · exact Or.inl ⟨rest, below, old⟩
    · right
      rw [mem_block_iff_wayDown short deep inside below]
      exact List.isPrefixOf_iff_prefix.mp new
  · intro mem
    -- whichever of the two the word is in, it lies below the root
    obtain ⟨rest, below⟩ : ∃ rest, family.bitsOf w = path ++ rest := by
      rcases mem with ⟨rest, below, -⟩ | mem
      · exact ⟨rest, below⟩
      · exact exists_below_of_mem_block deep short inside mem
    refine ⟨rest, below, ?_⟩
    rw [covers_insert root (Or.inl le_rfl), List.take_length, Bool.or_eq_true]
    rcases mem with ⟨rest', below', old⟩ | new
    · obtain rfl := List.append_cancel_left (below.symm.trans below')
      exact Or.inl old
    · exact Or.inr (List.isPrefixOf_iff_prefix.mpr
        ((mem_block_iff_wayDown short deep inside below).mp new))

include short deep within room in
/-- Removing the way down to a network removes the network. -/
theorem covered_removeBelow (inside : path <+: family.bitsOf (family.word x)) :
    family.covered (ipTreeCollectAddr (family.lawful.tree path 0
        (removeBelow (family.wayDown path x) s))) =
      family.covered (ipTreeCollectAddr (family.lawful.tree path 0 s)) \ family.block x := by
  have fits : path.length + (family.width - path.length) ≤ family.width := by omega
  have length : (family.wayDown path x).length = family.prefixlen x - path.length :=
    length_wayDown short
  have after : Within (family.width - path.length) (removeBelow (family.wayDown path x) s) :=
    within_removeBelow within (by omega)
  ext w
  rw [Set.mem_sdiff, IpFamily.mem_covered_tree_at after fits,
    IpFamily.mem_covered_tree_at within fits]
  -- below the root, an address is kept exactly if it is not in the block
  have removed {rest : List Bool} (below : family.bitsOf w = path ++ rest) :
      covers (removeBelow (family.wayDown path x) s) rest = true ↔
        covers s rest = true ∧ w ∉ family.block x := by
    have deeper : (family.wayDown path x).length ≤ rest.length := by
      have bits := congrArg List.length below
      rw [IpFamily.length_bitsOf, List.length_append] at bits
      omega
    rw [covers_removeBelow deeper, Bool.and_eq_true, Bool.not_eq_true',
      mem_block_iff_wayDown short deep inside below, ← List.isPrefixOf_iff_prefix,
      Bool.not_eq_true]
  constructor
  · rintro ⟨rest, below, covered⟩
    have ⟨old, apart⟩ := (removed below).mp covered
    exact ⟨⟨rest, below, old⟩, apart⟩
  · rintro ⟨⟨rest, below, old⟩, apart⟩
    exact ⟨rest, below, (removed below).mpr ⟨old, apart⟩⟩

end Calls

section Theorem

variable {family : IpFamily} {path : NodePath} {tree : IpTree family.Addr}
  (valid : tree.Valid family path) (disabled : tree.autoCollapsePrefixlen = 0)
  (x : family.Addr) (mem : Mallocs)

include valid disabled

omit x mem in
/-- Without auto-collapse, a valid tree is that of its shape. -/
theorem IpTree.Valid.exists_shape :
    ∃ s, tree = family.lawful.tree path 0 s ∧ s ≠ nil ∧ HotLeaf s ∧
      Within (family.width - path.length) s ∧ path.length ≤ family.width := by
  have whole := valid.eq_tree
  rw [disabled] at whole
  exact ⟨_, whole, valid.shape_ne_nil, valid.hotLeaf, valid.within, valid.length_le⟩

theorem ipTreeInsert_allOrNothing :
    ∃ ret tree' mem', ipTreeInsert tree x mem = some ((ret, tree'), mem') ∧
      AllOrNothing family path (path <+: family.bitsOf (family.word x)) tree (ipTreeInsert tree x)
        (family.covered (ipTreeCollectAddr tree) ∪ family.block x) ret tree' := by
  obtain ⟨s, rfl, root, leafy, within, room⟩ := valid.exists_shape disabled
  by_cases outside : family.prefixlen x < path.length ∨ family.width < family.prefixlen x
  · refine ⟨-1, _, mem, ?_, .error valid disabled⟩
    rw [ipTreeInsert_outside family.lawful outside root]
    rfl
  · rw [not_or, not_lt, not_lt] at outside
    obtain ⟨deep, short⟩ := outside
    have fits : path.length + (family.width - path.length) ≤ family.width := by omega
    have length : (family.wayDown path x).length = family.prefixlen x - path.length :=
      length_wayDown short
    have shallow : (family.wayDown path x).length ≤ family.width - path.length := by omega
    have levels : insertLevels 0 family.typedesc path x = (family.wayDown path x).length := by
      rw [length]
      simp [insertLevels, IpFamily.prefixlen]
    have added := ipTreeInsert_label family.lawful path 0 short deep root
    rw [levels] at added
    refine allOrNothing_of_ends added ?_ ?_ (covered_insert short deep within room root) mem
    · -- the whole way down fits
      exact valid_tree (insert_ne_nil root) (hotLeaf_insert leafy (Or.inl le_rfl))
        (within_insert within shallow) fits
    · -- the nodes that are created before the memory runs out are not hot
      intro u stalled
      have deepest : Within (family.width - path.length) u :=
        stalled.within within shallow
      exact ⟨valid_tree stalled.ne_nil (stalled.hotLeaf leafy) deepest fits, stalled.hotPaths_eq⟩

theorem ipTreePurge_allOrNothing :
    ∃ ret tree' mem', ipTreePurge tree x mem = some ((ret, tree'), mem') ∧
      AllOrNothing family path (path <+: family.bitsOf (family.word x)) tree (ipTreePurge tree x)
        (family.covered (ipTreeCollectAddr tree) \ family.block x) ret tree' := by
  obtain ⟨s, rfl, root, leafy, within, room⟩ := valid.exists_shape disabled
  by_cases outside : family.prefixlen x < path.length ∨ family.width < family.prefixlen x
  · refine ⟨-1, _, mem, ?_, .error valid disabled⟩
    rw [ipTreePurge_outside family.lawful outside root]
    rfl
  · rw [not_or, not_lt, not_lt] at outside
    obtain ⟨deep, short⟩ := outside
    have fits : path.length + (family.width - path.length) ≤ family.width := by omega
    have length : (family.wayDown path x).length = family.prefixlen x - path.length :=
      length_wayDown short
    have shallow : (family.wayDown path x).length ≤ family.width - path.length := by omega
    have purged := ipTreePurge_label family.lawful path 0 short deep root leafy
    refine allOrNothing_of_ends purged ?_ ?_ (covered_removeBelow short deep within room) mem
    · exact valid_tree (removeBelow_ne_nil root) (hotLeaf_removeBelow leafy)
        (within_removeBelow within shallow) fits
    · -- the tree that is built on the side is dropped, so nothing changes
      rintro _ rfl
      exact ⟨valid, rfl⟩

end Theorem

/-- Inserting and purging a network are all or nothing, on any tree without auto-collapse and
whichever allocations fail. -/
theorem ipTreeInsert_ipTreePurge_all_or_nothing (family : IpFamily) (path : NodePath)
    (tree : IpTree family.Addr) (x : family.Addr) (mem : Mallocs)
    (valid : tree.Valid family path) (disabled : tree.autoCollapsePrefixlen = 0) :
    (∃ ret tree' mem', ipTreeInsert tree x mem = some ((ret, tree'), mem') ∧
      AllOrNothing family path (path <+: family.bitsOf (family.word x)) tree (ipTreeInsert tree x)
        (family.covered (ipTreeCollectAddr tree) ∪ family.block x) ret tree') ∧
    ∃ ret tree' mem', ipTreePurge tree x mem = some ((ret, tree'), mem') ∧
      AllOrNothing family path (path <+: family.bitsOf (family.word x)) tree (ipTreePurge tree x)
        (family.covered (ipTreeCollectAddr tree) \ family.block x) ret tree' :=
  ⟨ipTreeInsert_allOrNothing valid disabled x mem, ipTreePurge_allOrNothing valid disabled x mem⟩

/-- Purging `64.0.0.0/2` from `0.0.0.0/1` fails at its third allocation. -/
theorem ipTreeInsert_ipTreePurge_all_or_nothing_quarter :
    ∃ ret tree' mem', ipTreePurge ((IpFamily.v4 .bits64).lawful.tree [] 0 (node leaf nil false))
        (⟨2, 0x40000000⟩ : Ip4Addr .bits64) (fun n => n < 2) = some ((ret, tree'), mem') ∧
      ret ≠ 0 ∧ tree'.Valid (.v4 .bits64) [] ∧ ipTreeCollectAddr tree' = [⟨1, 0⟩] := by
  have valid : ((IpFamily.v4 .bits64).lawful.tree [] 0 (node leaf nil false)).Valid
      (.v4 .bits64) [] :=
    valid_tree (m := 32) (by simp) ⟨by simp, hotLeaf_leaf, trivial⟩
      ⟨within_leaf 31, within_nil 31⟩ (Nat.le_refl 32)
  obtain ⟨-, ret, tree', mem', run, outcome⟩ := ipTreeInsert_ipTreePurge_all_or_nothing
    (.v4 .bits64) [] _ (⟨2, 0x40000000⟩ : Ip4Addr .bits64) (fun n => n < 2) valid rfl
  have code : ((ipTreePurge ((IpFamily.v4 .bits64).lawful.tree [] 0 (node leaf nil false))
      (⟨2, 0x40000000⟩ : Ip4Addr .bits64) (fun n => n < 2)).map fun out => out.1.1) =
      some (-1) := by
    decide
  have before : ipTreeCollectAddr ((IpFamily.v4 .bits64).lawful.tree [] 0 (node leaf nil false)) =
      [(⟨1, 0⟩ : Ip4Addr .bits64)] := by decide
  rw [run, Option.map_some, Option.some_inj] at code
  have failed : ret ≠ 0 := by
    rw [show ret = -1 from code]
    decide
  exact ⟨ret, tree', mem', run, failed, outcome.valid, (outcome.failed failed).trans before⟩

end IpDedup
