import IpDedup.Tree.Guarded
import IpDedup.Tree.Networks

/-!
# Runs of tree operations

Any sequence of operations on a fresh tree, with any pattern of allocation
failures. Every node of every tree that is reached carries the address of its
path, and no bit helper is called with a position outside `1..W`.

## Main definitions

* `TreeOp`, `runTreeOps`, `runFresh`: sequences of operations
* `IpTreeNode.Placed`: every address is that of its path, and hot nodes have no children
* `IpTreeNode.LeadsBelow`: below the root, nodes that are not hot have children

## Main results

* `runFresh_placed`: the invariant of every run
* `collapse_invert_iff`: when a collapsed tree can be inverted
-/

set_option autoImplicit false

open BitString BitTrie

namespace IpDedup

open IpFamily

/-! ### Sequences of operations -/

section Code

variable {α : Type}

/-- A call of one of the tree operations. -/
inductive TreeOp (α : Type) where
  | insert (varAddr : α)
  | purge (varAddr : α)
  | collapse
  | invert
deriving DecidableEq, Repr

def TreeOp.run (tree : IpTree α) : TreeOp α → Run (Int × IpTree α)
  | insert varAddr => ipTreeInsert tree varAddr
  | purge varAddr => ipTreePurge tree varAddr
  | collapse => pure (ipTreeCollapse tree)
  | invert => ipTreeInvert tree

/-- The return codes of all calls, and the tree they leave behind. Calls that
fail do not end the sequence. -/
def runTreeOps (tree : IpTree α) : List (TreeOp α) → Run (List Int × IpTree α)
  | [] => pure ([], tree)
  | op :: ops => do
    let (ret, tree) ← op.run tree
    let (rets, tree) ← runTreeOps tree ops
    pure (ret :: rets, tree)

/-- A sequence of calls on a fresh tree, if there is memory for one. -/
def runFresh (tdesc : IpTreeTypedesc α) (ops : List (TreeOp α)) :
    Run (Option (List Int × IpTree α)) := do
  match ← ipTreeNew tdesc with
  | none => pure none
  | some tree => some <$> runTreeOps tree ops

end Code

/-! ### Every run ends in the tree of a set of blocks -/

section Label

variable {α : Type} {tdesc : IpTreeTypedesc α} (laws : tdesc.Lawful)

/-- The tree after an outcome is the tree of a set of blocks. -/
theorem Ends.exists_subnets {run : Run (Int × IpTree α)} {ok : Prop} {s : BitTrie}
    {shape : BitTrie → Prop} (h : Ends run ok (laws.tree [] 0 s) (laws.Trees [] 0 shape))
    (done : ∃ S : Subnets tdesc.maxPrefixlen, S.trie = s)
    (failed : ∀ t, shape t → ∃ S : Subnets tdesc.maxPrefixlen, S.trie = t) (mem : Mallocs) :
    ∃ ret, ∃ S : Subnets tdesc.maxPrefixlen, ∃ mem',
      run mem = some ((ret, laws.tree [] 0 S.trie), mem') ∧
        (mem = Mallocs.all → mem' = Mallocs.all) := by
  obtain ⟨mem', all, ⟨-, eq⟩ | ⟨_, ⟨t, ht, rfl⟩, eq, -⟩⟩ := h mem
  · obtain ⟨S, rfl⟩ := done
    exact ⟨0, S, mem', eq, all⟩
  · obtain ⟨S, rfl⟩ := failed t ht
    exact ⟨-1, S, mem', eq, all⟩

/-- One call, whatever it returns, leaves the tree of a set of blocks. -/
theorem TreeOp.run_label (S : Subnets tdesc.maxPrefixlen) (op : TreeOp α) (mem : Mallocs) :
    ∃ ret, ∃ S' : Subnets tdesc.maxPrefixlen, ∃ mem',
      op.run (laws.tree [] 0 S.trie) mem = some ((ret, laws.tree [] 0 S'.trie), mem') ∧
        (mem = Mallocs.all → mem' = Mallocs.all) := by
  cases op with
  | insert addr =>
    by_cases short : tdesc.fGetAddrPrefixlen addr ≤ tdesc.maxPrefixlen
    · have levels : insertLevels 0 tdesc [] addr = tdesc.fGetAddrPrefixlen addr := by
        simp [insertLevels]
      have key : laws.keyFrom [] addr = laws.key addr := by simp [IpTreeTypedesc.Lawful.keyFrom]
      have added := ipTreeInsert_label laws [] 0 short (Nat.zero_le _) S.root
      rw [levels, key] at added
      refine added.exists_subnets laws ⟨S.insert (laws.key addr), ?_⟩ ?_ mem
      · rw [Subnets.trie_insert, laws.length_key short, Nat.min_eq_left short]
      · intro t stalled
        exact ⟨⟨t, stalled.ne_nil, stalled.hotLeaf S.leafy, stalled.fits S.fits short, S.deep⟩, rfl⟩
    · -- a prefixlen that is too long is refused
      have long := Nat.lt_of_not_le short
      refine ⟨-1, S, mem, ?_, id⟩
      rw [TreeOp.run, ipTreeInsert_outside laws (Or.inr long) S.root]
      rfl
  | purge addr =>
    by_cases short : tdesc.fGetAddrPrefixlen addr ≤ tdesc.maxPrefixlen
    · have key : laws.keyFrom [] addr = (laws.key addr).take tdesc.maxPrefixlen := by
        rw [List.take_of_length_le ((laws.length_key short).trans_le short)]
        simp [IpTreeTypedesc.Lawful.keyFrom]
      have purged := ipTreePurge_label laws [] 0 short (Nat.zero_le _) S.root S.leafy
      rw [key] at purged
      exact purged.exists_subnets laws ⟨S.remove (laws.key addr), rfl⟩ (fun _ h => ⟨S, h.symm⟩) mem
    · have long := Nat.lt_of_not_le short
      refine ⟨-1, S, mem, ?_, id⟩
      rw [TreeOp.run, ipTreePurge_outside laws (Or.inr long) S.root]
      rfl
  | collapse =>
    refine ⟨0, S.collapse (collapseLimit 0 []), mem, ?_, id⟩
    rw [TreeOp.run, ipTreeCollapse_label]
    rfl
  | invert =>
    have inverted := ipTreeInvert_label laws [] 0 S.root S.leafy S.fits (by simp)
    refine inverted.exists_subnets laws ⟨S.invert, rfl⟩ ?_ mem
    rintro t ⟨root, leafy, fits⟩
    exact ⟨⟨t, root, leafy, fits, S.deep⟩, rfl⟩

theorem runTreeOps_label (S : Subnets tdesc.maxPrefixlen) (ops : List (TreeOp α))
    (mem : Mallocs) :
    ∃ rets, ∃ S' : Subnets tdesc.maxPrefixlen, ∃ mem',
      runTreeOps (laws.tree [] 0 S.trie) ops mem = some ((rets, laws.tree [] 0 S'.trie), mem') ∧
        (mem = Mallocs.all → mem' = Mallocs.all) := by
  induction ops generalizing S mem with
  | nil => exact ⟨[], S, mem, rfl, id⟩
  | cons op ops ih =>
    obtain ⟨ret, S₁, mem₁, first, all₁⟩ := op.run_label laws S mem
    obtain ⟨rets, S₂, mem₂, others, all₂⟩ := ih S₁ mem₁
    exact ⟨ret :: rets, S₂, mem₂, by simp [runTreeOps, first, others], all₂ ∘ all₁⟩

/-- There is no memory for a tree, or the new tree has no blocks. -/
theorem ipTreeNew_label (deep : 0 < tdesc.maxPrefixlen) (mem : Mallocs) :
    ∃ made mem', ipTreeNew tdesc mem = some (made, mem') ∧
      (made = none ∨ made = some (laws.tree [] 0 (Subnets.empty deep).trie)) := by
  cases first : mem 0 <;> cases second : mem 1 <;>
    simp [ipTreeNew, laws.newNull, newNode_apply, first, second, Subnets.empty,
      IpTreeTypedesc.Lawful.tree]

/-- There is no memory for a tree, or the run ends in the tree of a set of blocks. -/
theorem runFresh_label (deep : 0 < tdesc.maxPrefixlen) (ops : List (TreeOp α)) (mem : Mallocs) :
    ∃ out mem', runFresh tdesc ops mem = some (out, mem') ∧
      ∀ rets tree, out = some (rets, tree) →
        ∃ S : Subnets tdesc.maxPrefixlen, tree = laws.tree [] 0 S.trie := by
  obtain ⟨made, mem₁, new, rfl | rfl⟩ := ipTreeNew_label laws deep mem
  · exact ⟨none, mem₁, by simp [runFresh, new], by simp⟩
  · obtain ⟨rets, S, mem₂, run, -⟩ := runTreeOps_label laws (Subnets.empty deep) ops mem₁
    refine ⟨some (rets, laws.tree [] 0 S.trie), mem₂, by simp [runFresh, new, run], ?_⟩
    rintro _ _ ⟨⟩
    exact ⟨S, rfl⟩

end Label

/-! ### Guarded runs -/

section Guarded

variable {α : Type}

theorem TreeOp.run_guarded (tree : IpTree α) (op : TreeOp α) :
    Run.Le (op.run tree.guarded) (guardResult <$> op.run tree) := by
  cases op with
  | insert addr => exact ipTreeInsert_guarded tree addr
  | purge addr => exact ipTreePurge_guarded tree addr
  | collapse => exact .of_eq (by simp [TreeOp.run, ipTreeCollapse_guarded])
  | invert => exact ipTreeInvert_guarded tree

theorem runTreeOps_guarded (tree : IpTree α) (ops : List (TreeOp α)) :
    Run.Le (runTreeOps tree.guarded ops) (guardResult <$> runTreeOps tree ops) := by
  induction ops generalizing tree with
  | nil => exact .refl
  | cons op ops ih =>
    simp only [runTreeOps, map_bind]
    refine .bind_map (op.run_guarded tree) fun out => ?_
    refine .bind_map (ih out.2) fun rest => .refl

theorem runFresh_guarded (tdesc : IpTreeTypedesc α) (ops : List (TreeOp α)) :
    Run.Le (runFresh tdesc.guarded ops) (Option.map guardResult <$> runFresh tdesc ops) := by
  simp only [runFresh, map_bind]
  refine .bind_map (ipTreeNew_guarded tdesc) fun made => ?_
  cases made with
  | none => exact .refl
  | some tree =>
    have run := (runTreeOps_guarded tree ops).map some
    simpa [Functor.map_map] using run

end Guarded

/-! ### The invariant of every run -/

section Placed

variable {family : IpFamily}

/-- Every prefix length is the depth of its node, every address is the path of
its node followed by zeros, and hot nodes have no children. -/
def IpTreeNode.Placed (family : IpFamily) : NodePath → IpTreeNode family.Addr → Prop
  | _, .null => True
  | path, .node left right hot addr =>
    family.prefixlen addr = path.length ∧ family.number addr = pad family.width path ∧
      (hot = true → left = .null ∧ right = .null) ∧
      Placed family (path ++ [false]) left ∧ Placed family (path ++ [true]) right

theorem placed_label {path : NodePath} {s : BitTrie} {m : Nat} (leafy : HotLeaf s)
    (within : Within m s) (short : path.length + m ≤ family.width) :
    (family.lawful.label path s).Placed family path := by
  induction s generalizing path m with
  | nil => trivial
  | node l r hot left right =>
    have here : path.length ≤ family.width := by omega
    refine ⟨IpFamily.prefixlen_addrAt path, IpFamily.number_addrAt family here, ?_, ?_⟩
    · rintro rfl
      obtain ⟨rfl, rfl⟩ := leafy.1 rfl
      exact ⟨rfl, rfl⟩
    · cases m with
      | zero =>
        obtain ⟨rfl, rfl⟩ := within
        exact ⟨trivial, trivial⟩
      | succ m =>
        exact ⟨left leafy.2.1 within.1 (by simp; omega), right leafy.2.2 within.2 (by simp; omega)⟩

/-- Whatever is called on a fresh tree, and whichever allocations fail, every
bit helper is called with a position in `1..W`, and every node of the tree that
is left has the address of its path. -/
theorem runFresh_placed (family : IpFamily) (ops : List (TreeOp family.Addr)) (mem : Mallocs) :
    ∃ out mem',
      runFresh family.typedesc.guarded ops mem = some (out.map guardResult, mem') ∧
      runFresh family.typedesc ops mem = some (out, mem') ∧
      ∀ rets tree, out = some (rets, tree) → tree.root.Placed family [] := by
  have narrow : family.typedesc.maxPrefixlen < 256 := by
    cases family
    · exact (by decide : 32 < 256)
    · exact (by decide : 128 < 256)
  obtain ⟨guardedOut, mem', guarded, -⟩ :=
    runFresh_label (family.lawful.guarded narrow) family.width_pos ops mem
  obtain ⟨out, memPlain, plain, shape⟩ := runFresh_label family.lawful family.width_pos ops mem
  -- the guarded run ends, so no guard failed, and the run itself ends in the same way
  have same := runFresh_guarded family.typedesc ops mem _ guarded
  obtain ⟨rfl, rfl⟩ : out.map guardResult = guardedOut ∧ memPlain = mem' := by
    simpa [plain] using same
  refine ⟨out, memPlain, guarded, plain, fun rets tree eq => ?_⟩
  obtain ⟨S, rfl⟩ := shape rets tree eq
  exact placed_label S.leafy (S.fits.within S.leafy) (by simp [IpFamily.width])

end Placed

/-! ### Collapse and invert -/

section CollapseInvert

variable {α : Type} {family : IpFamily}

/-- Every node that is not hot has a child. -/
def IpTreeNode.Leads : IpTreeNode α → Prop
  | .null => True
  | .node left right hot _ =>
    (hot = false → ¬ (left = .null ∧ right = .null)) ∧ left.Leads ∧ right.Leads

/-- Every node below the root that is not hot has a child. -/
def IpTreeNode.LeadsBelow : IpTreeNode α → Prop
  | .null => True
  | .node left right _ _ => left.Leads ∧ right.Leads

theorem leads_label {tdesc : IpTreeTypedesc α} (laws : tdesc.Lawful) (path : NodePath)
    (s : BitTrie) : (laws.label path s).Leads ↔ Sprouting s := by
  induction s generalizing path with
  | nil => exact Iff.rfl
  | node l r hot left right =>
    simp only [laws.label_node, IpTreeNode.Leads, Sprouting, left, right, laws.label_eq_null_iff]

theorem leadsBelow_label {tdesc : IpTreeTypedesc α} (laws : tdesc.Lawful) (path : NodePath)
    (s : BitTrie) : (laws.label path s).LeadsBelow ↔ SproutingBelow s := by
  cases s with
  | nil => exact Iff.rfl
  | node l r hot => exact and_congr (leads_label laws _ l) (leads_label laws _ r)

theorem runFresh_all (family : IpFamily) (ops : List (TreeOp family.Addr)) :
    ∃ rets, ∃ S : Subnets family.width, runFresh family.typedesc ops Mallocs.all =
      some (some (rets, family.tree 0 S), Mallocs.all) := by
  obtain ⟨rets, S, mem', run, all⟩ :=
    runTreeOps_label family.lawful (.empty family.width_pos) ops Mallocs.all
  have run' : runTreeOps (family.tree 0 (.empty family.width_pos)) ops Mallocs.all =
      some ((rets, family.tree 0 S), Mallocs.all) := run.trans (by rw [all rfl]; rfl)
  exact ⟨rets, S, by simp [runFresh, family.ipTreeNew_all, run']⟩

/-- Collapsing does not change what a tree covers, nor its dead ends. -/
theorem collapse_invert_subnets (S : Subnets family.width) :
    (∃ tree', ipTreeInvert (ipTreeCollapse (family.tree 0 S)).2 Mallocs.all =
          some ((0, tree'), Mallocs.all) ∧
        family.covered (ipTreeCollectAddr tree') =
          {x | (family.covered (ipTreeCollectAddr (family.tree 0 S))).Nonempty ∧
            x ∉ family.covered (ipTreeCollectAddr (family.tree 0 S))}) ↔
      SproutingBelow S.trie := by
  have collapsed : ipTreeCollapse (family.tree 0 S) = (0, family.tree 0 (S.collapse none)) :=
    ipTreeCollapse_tree 0 S
  have inverted := ipTreeInvert_label family.lawful [] 0 (S.collapse none).root
    (S.collapse none).leafy (S.collapse none).fits (by simp)
  rw [collapsed]
  constructor
  · rintro ⟨tree', run, -⟩
    -- collapsing keeps dead ends, and inverting fails at the first one
    by_contra dead
    have bad : ¬ InvertibleBelow (S.collapse none).trie :=
      fun valid => dead (sproutingBelow_of_collapse S.leafy valid.2)
    obtain ⟨_, -, failed⟩ := inverted.run_all_of_not bad
    have ret : (0 : Int) = -1 := by simpa using run.symm.trans failed
    omega
  · intro sprouts
    have valid : InvertibleBelow (S.collapse none).trie :=
      ⟨noHotSiblings_collapse none S.trie, sproutingBelow_collapse sprouts⟩
    refine ⟨family.tree 0 (S.collapse none).invert, inverted.run_all valid, ?_⟩
    ext x
    have kept (y : BitVec family.width) :
        (S.collapse none).Covers (family.bitsOf y) ↔
          y ∈ family.covered (ipTreeCollectAddr (family.tree 0 S)) := by
      rw [mem_covered_tree, Subnets.covers_collapse (by simp) (by simp)]
    rw [mem_covered_tree, Subnets.covers_invert (by simp) valid.2, kept, exists_covers_iff kept,
      Set.mem_ofPred_eq]

/-- A collapsed tree can be inverted exactly when no node below its root is a
dead end. -/
theorem collapse_invert_iff (family : IpFamily) (ops : List (TreeOp family.Addr)) :
    ∃ rets tree, runFresh family.typedesc ops Mallocs.all = some (some (rets, tree), Mallocs.all) ∧
      ((∃ tree', ipTreeInvert (ipTreeCollapse tree).2 Mallocs.all =
            some ((0, tree'), Mallocs.all) ∧
          family.covered (ipTreeCollectAddr tree') =
            {x | (family.covered (ipTreeCollectAddr tree)).Nonempty ∧
              x ∉ family.covered (ipTreeCollectAddr tree)}) ↔
        tree.root.LeadsBelow) := by
  obtain ⟨rets, S, run⟩ := runFresh_all family ops
  exact ⟨rets, _, run, (collapse_invert_subnets S).trans (leadsBelow_label family.lawful [] _).symm⟩

/-- A network that is inserted and purged leaves its parent behind as a dead
end, and the collapsed tree cannot be inverted. -/
theorem collapse_invert_dead_end :
    ∃ rets tree, runFresh (ip4TreeNodeOps .bits64)
        [.insert ⟨8, 0x0a000000⟩, .purge ⟨8, 0x0a000000⟩] Mallocs.all =
        some (some (rets, tree), Mallocs.all) ∧
      rets = [0, 0] ∧ ¬ ∃ tree' mem, ipTreeInvert (ipTreeCollapse tree).2 Mallocs.all =
        some ((0, tree'), mem) := by
  refine ⟨_, _, rfl, rfl, ?_⟩
  rintro ⟨tree', mem, run⟩
  have ret : (ipTreeInvert _ Mallocs.all).map (·.1.1) = some 0 := congrArg (Option.map (·.1.1)) run
  exact absurd ret (by decide)

end CollapseInvert

end IpDedup
