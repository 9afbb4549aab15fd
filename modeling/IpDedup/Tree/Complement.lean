import IpDedup.Tree.Shape

/-!
# Inverting collapsed trees

On collapsed trees with any root, inverting is the complement within the root's
network, and it undoes itself.

## Main definitions

* `IpTree.Collapsed`: valid trees without hot siblings and without dead ends

## Main results

* `ipTreeInvert_collapsed`: complement and involution
-/

set_option autoImplicit false

open BitString BitTrie

namespace IpDedup

open IpFamily

/-- No node has two hot children. -/
def IpTreeNode.Apart {α : Type} : IpTreeNode α → Prop
  | .null => True
  | .node left right _ _ =>
    ¬ (left.isHot = true ∧ right.isHot = true) ∧ left.Apart ∧ right.Apart

/-- A valid tree without hot siblings, where every node below the root that is not hot has a
child. -/
structure IpTree.Collapsed (family : IpFamily) (path : NodePath) (tree : IpTree family.Addr) :
    Prop extends tree.Valid family path where
  apart : tree.root.Apart
  leads : tree.root.LeadsBelow

section Label

variable {α : Type} {tdesc : IpTreeTypedesc α} (laws : tdesc.Lawful)

theorem apart_label (path : NodePath) (s : BitTrie) :
    (laws.label path s).Apart ↔ NoHotSiblings s := by
  induction s generalizing path with
  | nil => exact Iff.rfl
  | node l r hot left right =>
    simp only [laws.label_node, IpTreeNode.Apart, NoHotSiblings, left, right, laws.isHot_label]

end Label

variable {family : IpFamily} {path : NodePath} {tree : IpTree family.Addr} {s : BitTrie} {m n : Nat}

/-- The subnet tree of an invertible trie is collapsed. -/
theorem collapsed_tree (root : s ≠ nil) (leafy : HotLeaf s) (fits : Fits m s)
    (apart : NoHotSiblings s) (sprouts : SproutingBelow s)
    (room : path.length + m = family.width) :
    (family.lawful.tree path n s).Collapsed family path where
  toValid := valid_tree root leafy (fits.within leafy) room.le
  apart := (apart_label family.lawful path s).mpr apart
  leads := (leadsBelow_label family.lawful path s).mpr sprouts

/-- A collapsed tree is the subnet tree of an invertible trie. -/
theorem IpTree.Collapsed.shape (valid : tree.Collapsed family path) :
    NoHotSiblings tree.root.shape ∧ SproutingBelow tree.root.shape := by
  have node := eq_label_shape valid.placed valid.narrow
  constructor
  · rw [← apart_label family.lawful path, ← node]
    exact valid.apart
  · rw [← leadsBelow_label family.lawful path, ← node]
    exact valid.leads

/-- A tree that covers neither nothing nor everything has children that lead to blocks. -/
theorem IpTree.Collapsed.exists_children (valid : tree.Collapsed family path) {addr : family.Addr}
    (root : tree.root.addr? = some addr)
    (nonempty : (family.covered (ipTreeCollectAddr tree)).Nonempty)
    (partly : family.covered (ipTreeCollectAddr tree) ≠ family.block addr) :
    addr = family.lawful.addrAt path ∧
      ∃ l r, tree.root.shape = node l r false ∧ ¬ (l = nil ∧ r = nil) := by
  have short := valid.length_le
  have room : path.length + (family.width - path.length) ≤ family.width := by omega
  have cover (x : BitVec family.width) :=
    mem_covered_tree_at (n := tree.autoCollapsePrefixlen) valid.within room x
  rw [valid.eq_tree] at root nonempty partly
  cases shape : tree.root.shape with
  | nil => exact absurd shape valid.shape_ne_nil
  | node l r hot =>
    rw [shape] at cover root nonempty partly
    obtain rfl : family.lawful.addrAt path = addr := Option.some.inj root
    refine ⟨rfl, l, r, ?_⟩
    cases hot with
    | true =>
      -- a hot root covers everything
      refine absurd (Set.ext fun x => ?_) partly
      rw [cover, mem_block_iff (by rwa [prefixlen_addrAt]), key_addrAt short]
      constructor
      · rintro ⟨rest, eq, -⟩
        exact ⟨rest, eq.symm⟩
      · rintro ⟨rest, eq⟩
        exact ⟨rest, eq.symm, covers_hot l r rest⟩
    | false =>
      refine ⟨rfl, ?_⟩
      rintro ⟨rfl, rfl⟩
      obtain ⟨x, hx⟩ := nonempty
      obtain ⟨rest, -, covered⟩ := (cover x).mp hx
      cases rest with
      | nil => simp at covered
      | cons b rest => cases b <;> simp at covered

/-- Inverting a collapsed tree yields the collapsed tree of the complement, and inverting that one
restores the tree. -/
theorem ipTreeInvert_collapsed (family : IpFamily) (path : NodePath) (tree : IpTree family.Addr)
    (addr : family.Addr) (valid : tree.Collapsed family path) (root : tree.root.addr? = some addr)
    (nonempty : (family.covered (ipTreeCollectAddr tree)).Nonempty)
    (partly : family.covered (ipTreeCollectAddr tree) ≠ family.block addr) :
    ∃ tree', ipTreeInvert tree Mallocs.all = some ((0, tree'), Mallocs.all) ∧
      tree'.Collapsed family path ∧
      family.covered (ipTreeCollectAddr tree') =
        family.block addr \ family.covered (ipTreeCollectAddr tree) ∧
      ipTreeInvert tree' Mallocs.all = some ((0, tree), Mallocs.all) := by
  obtain ⟨rfl, l, r, shape, children⟩ := valid.exists_children root nonempty partly
  obtain ⟨apart, sprouts⟩ := valid.shape
  have short := valid.length_le
  have leafy := valid.hotLeaf
  have within := valid.within
  have whole := valid.eq_tree
  generalize tree.autoCollapsePrefixlen = n at whole
  rw [shape] at apart sprouts leafy within whole
  have invertible : Invertible (node l r false) :=
    (invertibleBelow_iff children).mp ⟨apart, sprouts⟩
  have fits := within.fits invertible.2
  have room : path.length + (family.width - path.length) = family.width := by omega
  -- a child is missing in the complement where a hot one was
  have children' : ¬ (invert l = nil ∧ invert r = nil) := by
    simpa [← isNil_iff, isNil_invert] using apart.1
  have inverted := ipTreeInvert_label family.lawful path n (by simp) leafy fits room.le
  have again := ipTreeInvert_label family.lawful path n (by simp [invert])
    (hotLeaf_invert (node l r false)) (fits_invert fits) room.le
  have apart' := noHotSiblings_invert invertible.2
  have sprouts' := (sprouting_invert apart).below
  have back : invertBelow (invert (node l r false)) = node l r false :=
    (invertBelow_of_child children').trans (invert_invert leafy)
  refine ⟨family.lawful.tree path n (invert (node l r false)), ?_, ?_, ?_, ?_⟩
  · rw [whole, inverted.run_all ⟨apart, sprouts⟩, invertBelow_of_child children]
  · exact collapsed_tree (by simp [invert]) (hotLeaf_invert _) (fits_invert fits) apart' sprouts'
      room
  · have fits' := (fits_invert fits).within (hotLeaf_invert (node l r false))
    ext x
    rw [Set.mem_sdiff, mem_covered_tree_at fits' room.le, whole,
      mem_covered_tree_at within room.le, mem_block_iff (by rwa [prefixlen_addrAt]),
      key_addrAt short]
    have complement {rest : List Bool} (eq : family.bitsOf x = path ++ rest) :
        covers (invert (node l r false)) rest = !covers (node l r false) rest := by
      have length := congrArg List.length eq
      rw [length_bitsOf, List.length_append] at length
      have same : rest.length = family.width - path.length := by omega
      exact covers_invert (same ▸ fits)
    constructor
    · rintro ⟨rest, eq, covered⟩
      refine ⟨⟨rest, eq.symm⟩, ?_⟩
      rintro ⟨rest', eq', covered'⟩
      obtain rfl : rest = rest' := List.append_cancel_left (eq.symm.trans eq')
      rw [complement eq, covered'] at covered
      cases covered
    · rintro ⟨⟨rest, eq⟩, uncovered⟩
      refine ⟨rest, eq.symm, ?_⟩
      rw [complement eq.symm, Bool.not_eq_true', ← Bool.not_eq_true]
      exact fun covered => uncovered ⟨rest, eq.symm, covered⟩
  · rw [again.run_all ⟨apart', sprouts'⟩, back, whole]

/-- The upper half of the IPv4 addresses as root, and its lower half in the tree. -/
theorem ipTreeInvert_collapsed_half :
    ∃ tree', ipTreeInvert ((IpFamily.v4 .bits64).lawful.tree [true] 0 (node leaf nil false))
        Mallocs.all = some ((0, tree'), Mallocs.all) ∧
      tree'.Collapsed (.v4 .bits64) [true] ∧
      (IpFamily.v4 .bits64).covered (ipTreeCollectAddr tree') =
        (IpFamily.v4 .bits64).block ⟨1, 0x80000000⟩ \ (IpFamily.v4 .bits64).covered
          (ipTreeCollectAddr
            ((IpFamily.v4 .bits64).lawful.tree [true] 0 (node leaf nil false))) ∧
      ipTreeInvert tree' Mallocs.all = some
        ((0, (IpFamily.v4 .bits64).lawful.tree [true] 0 (node leaf nil false)), Mallocs.all) := by
  have fits : Fits 31 (node leaf nil false) := ⟨fits_leaf 30, fits_nil 30⟩
  have leafy : HotLeaf (node leaf nil false) := ⟨by simp, hotLeaf_leaf, trivial⟩
  have valid : ((IpFamily.v4 .bits64).lawful.tree [true] 0 (node leaf nil false)).Collapsed
      (.v4 .bits64) [true] :=
    collapsed_tree (by simp) leafy fits (by simp [NoHotSiblings, leaf])
      (by simp [SproutingBelow]) rfl
  have room : ([true] : NodePath).length + 31 ≤ (IpFamily.v4 .bits64).width := Nat.le_refl 32
  have cover := mem_covered_tree_at (n := 0) (fits.within leafy) room
  -- the first address is covered and the first of the other half is not
  refine ipTreeInvert_collapsed (.v4 .bits64) [true] _ (⟨1, 0x80000000⟩ : Ip4Addr .bits64) valid
    rfl ?_ ?_
  · refine ⟨0x80000000#32, (cover _).mpr ⟨List.replicate 31 false, ?_, ?_⟩⟩ <;> decide +kernel
  · intro same
    have inside : 0xc0000000#32 ∈ (IpFamily.v4 .bits64).block ⟨1, 0x80000000⟩ := by
      change (0xc0000000#32 >>> 31 : BitVec 32) = 0x80000000#32 >>> 31
      decide
    rw [← same] at inside
    obtain ⟨rest, eq, covered⟩ := (cover _).mp inside
    obtain rfl : true :: List.replicate 30 false = rest := by
      have bits : (IpFamily.v4 .bits64).bitsOf 0xc0000000#32 =
          [true] ++ true :: List.replicate 30 false := by decide +kernel
      exact List.append_cancel_left (bits.symm.trans eq)
    simp at covered

end IpDedup
