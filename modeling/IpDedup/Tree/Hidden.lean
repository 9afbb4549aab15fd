import IpDedup.Lib.DepthLimit
import IpDedup.Tree.Refinement

/-!
# Children of hot nodes

A hot node may be left with children: an insertion marks the node at which its
search ends, whether it has a child or not. No operation looks at such
children, so a tree behaves like the one without them.

## Main definitions

* `IpTreeNode.prune`, `IpTree.prune`: without the children of hot nodes
* `IpTreeTypedesc.Local`: the helpers only look at a node, not at its children

## Main results

* `ipTreeFind_prune`, `ipTreeInsert_prune`, `ipTreeCollapse_prune`, `ipTreeInvert_prune`,
  `ipTreePurge_prune`, `ipTreeCollectAddr_prune`
-/

set_option autoImplicit false

namespace IpDedup

open BitTrie

variable {α : Type} {tdesc : IpTreeTypedesc α}

/-- The subtree without the children of its hot nodes. -/
def IpTreeNode.prune : IpTreeNode α → IpTreeNode α
  | .null => .null
  | .node left right hot addr =>
    if hot then .node .null .null true addr else .node left.prune right.prune false addr

def IpTree.prune (tree : IpTree α) : IpTree α := { tree with root := tree.root.prune }

/-- The helpers look at the address of a node, and at nothing else. -/
structure IpTreeTypedesc.Local (tdesc : IpTreeTypedesc α) where
  flip : α → Option α
  newChild : ∀ left right left' right' hot hot' addr bit newHot,
    tdesc.fNewChild (.node left right hot addr) bit newHot =
      tdesc.fNewChild (.node left' right' hot' addr) bit newHot
  newSibling : ∀ left right left' right' hot hot' addr newHot,
    tdesc.fNewSibling (.node left right hot addr) newHot =
      tdesc.fNewSibling (.node left' right' hot' addr) newHot
  flipAddrInplace : ∀ left right hot addr,
    tdesc.fFlipAddrInplace (.node left right hot addr) =
      (flip addr).map fun addr' => .node left right hot addr'
  destroy : ∀ node, tdesc.fDestroy node = .null

theorem ip4TreeNodeOps_destroy (w : UintFast32) (node : IpTreeNode (Ip4Addr w)) :
    (ip4TreeNodeOps w).fDestroy node = .null := rfl

theorem ip6TreeNodeOps_destroy (node : IpTreeNode Ip6Addr) :
    ip6TreeNodeOps.fDestroy node = .null := rfl

def ip4TreeNodeOps_local (w : UintFast32) : (ip4TreeNodeOps w).Local where
  flip := ip4AddrFlipInplace
  newChild _ _ _ _ _ _ _ _ _ := rfl
  newSibling _ _ _ _ _ _ _ _ := rfl
  flipAddrInplace _ _ _ _ := rfl
  destroy := ip4TreeNodeOps_destroy w

def ip6TreeNodeOps_local : ip6TreeNodeOps.Local where
  flip := ip6AddrFlipInplace
  newChild _ _ _ _ _ _ _ _ _ := rfl
  newSibling _ _ _ _ _ _ _ _ := rfl
  flipAddrInplace _ _ _ _ := rfl
  destroy := ip6TreeNodeOps_destroy

def IpFamily.locality : (family : IpFamily) → family.typedesc.Local
  | v4 w => ip4TreeNodeOps_local w
  | v6 => ip6TreeNodeOps_local

/-! ### Pruned nodes -/

section Prune

variable {node left right : IpTreeNode α} {addr : α}

@[simp] theorem IpTreeNode.prune_null : (.null : IpTreeNode α).prune = .null := rfl

@[simp] theorem IpTreeNode.prune_hot :
    (IpTreeNode.node left right true addr).prune = .node .null .null true addr := rfl

@[simp] theorem IpTreeNode.prune_node :
    (IpTreeNode.node left right false addr).prune = .node left.prune right.prune false addr := rfl

@[simp] theorem IpTreeNode.isNull_prune : node.prune.isNull = node.isNull := by
  cases node with
  | null => rfl
  | node left right hot addr => cases hot <;> rfl

@[simp] theorem IpTreeNode.isHot_prune : node.prune.isHot = node.isHot := by
  cases node with
  | null => rfl
  | node left right hot addr => cases hot <;> rfl

@[simp] theorem IpTreeNode.addr?_prune : node.prune.addr? = node.addr? := by
  cases node with
  | null => rfl
  | node left right hot addr => cases hot <;> rfl

@[simp] theorem IpTreeNode.prune_prune : node.prune.prune = node.prune := by
  induction node with
  | null => rfl
  | node left right hot addr ihLeft ihRight => cases hot <;> simp [ihLeft, ihRight]

theorem IpTreeNode.child_prune (bit : Bool) :
    IpTreeNode.child left.prune right.prune bit = (IpTreeNode.child left right bit).prune := by
  cases bit <;> rfl

theorem IpTreeNode.prune_setChild (bit : Bool) (sub : IpTreeNode α) :
    (IpTreeNode.setChild left right false addr bit sub).prune =
      IpTreeNode.setChild left.prune right.prune false addr bit sub.prune := by
  cases bit <;> rfl

theorem IpTreeNode.prune_setChild_hot (bit : Bool) (sub : IpTreeNode α) :
    (IpTreeNode.setChild left right true addr bit sub).prune = .node .null .null true addr := by
  cases bit <;> rfl

theorem prune_label (laws : tdesc.Lawful) (path : NodePath) (s : BitTrie) :
    (laws.label path s).prune = laws.label path (BitTrie.prune s) := by
  induction s generalizing path with
  | nil => rfl
  | node l r hot left right => cases hot with
    | true => rfl
    | false => simp [left, right]

end Prune

/-! ### Runs that differ in hidden children only -/

/-- The same result, without hidden children. -/
def pruneNode {β : Type} (out : β × IpTreeNode α) : β × IpTreeNode α := (out.1, out.2.prune)

/-- The same result, without hidden children. -/
def pruneTree {β : Type} (out : β × IpTree α) : β × IpTree α := (out.1, out.2.prune)

/-- What follows two such runs is the same if it only looks at what is visible. -/
theorem bind_eq_of_map_eq {β γ δ : Type} {x y : Run β} {p : β → γ} (same : p <$> x = p <$> y)
    {f g : β → Run δ} (next : γ → Run δ) (hf : ∀ b, f b = next (p b))
    (hg : ∀ b, g b = next (p b)) : x >>= f = y >>= g := by
  have left : x >>= f = (p <$> x) >>= next := by
    rw [bind_map_left]
    exact bind_congr hf
  have right : y >>= g = (p <$> y) >>= next := by
    rw [bind_map_left]
    exact bind_congr hg
  rw [left, right, same]

/-! ### Find and collect -/

theorem ipTreeFindNodeLoop_prune (varAddr : α) (count pos : Nat) (cur : Option NodePath)
    (sub : NodePath) (node : IpTreeNode α) :
    ipTreeFindNodeLoop tdesc varAddr count pos cur sub node.prune =
      ipTreeFindNodeLoop tdesc varAddr count pos cur sub node := by
  induction count generalizing pos cur sub node with
  | zero => rfl
  | succ count ih => cases node with
    | null => rfl
    | node left right hot addr => cases hot with
      | true => rfl
      | false =>
        simp only [IpTreeNode.prune_node, ipTreeFindNodeLoop, IpTreeNode.child_prune,
          IpTreeNode.isNull_prune, ih]

theorem ipTreeFind_prune (tree : IpTree α) (varAddr : α) :
    ipTreeFind tree.prune varAddr = ipTreeFind tree varAddr := by
  simp only [ipTreeFind, ipTreeFindNode, IpTree.prune, IpTreeNode.addr?_prune,
    ipTreeFindNodeLoop_prune]

/-- A search only goes through what is visible. -/
theorem ipTreeFind_of_prune (laws : tdesc.Lawful) {tree : IpTree α} {n : Nat} {s : BitTrie}
    (shape : tree.prune = laws.tree [] n s) (varAddr : α) :
    ipTreeFind tree varAddr = ipTreeFindNode tdesc (laws.label [] s) varAddr := by
  rw [← ipTreeFind_prune, shape]
  rfl

theorem ipTreeCollectAddrInto_prune (darr : List α) (node : IpTreeNode α) :
    ipTreeCollectAddrInto darr node.prune = ipTreeCollectAddrInto darr node := by
  induction node generalizing darr with
  | null => rfl
  | node left right hot addr ihLeft ihRight => cases hot with
    | true => rfl
    | false => simp [ipTreeCollectAddrInto, ihLeft, ihRight]

theorem ipTreeCollectAddr_prune (tree : IpTree α) :
    ipTreeCollectAddr tree.prune = ipTreeCollectAddr tree :=
  ipTreeCollectAddrInto_prune [] tree.root

/-! ### Collapse -/

theorem ipTreeCollapseNode_prune (destroy : ∀ node, tdesc.fDestroy node = .null)
    (autocolPrefixlen : Nat) (node : IpTreeNode α) :
    ipTreeCollapseNode tdesc autocolPrefixlen node.prune =
      ipTreeCollapseNode tdesc autocolPrefixlen node := by
  induction node with
  | null => rfl
  | node left right hot addr ihLeft ihRight => cases hot with
    | true => simp [ipTreeCollapseNode, destroy]
    | false => simp [ipTreeCollapseNode, destroy, ihLeft, ihRight]

/-- Collapsing frees all hidden children. -/
theorem ipTreeCollapse_prune (loc : tdesc.Local) {tree : IpTree α} (same : tree.tdesc = tdesc) :
    ipTreeCollapse tree.prune = ipTreeCollapse tree := by
  subst same
  simp only [ipTreeCollapse, IpTree.prune, ipTreeCollapseNode_prune loc.destroy]

/-! ### Writing through a pointer -/

section UpdateAt

variable (laws : tdesc.Lawful) {β : Type} {f : IpTreeNode α → Run (β × IpTreeNode α)}
  {path steps : NodePath} {node : IpTreeNode α} {s : BitTrie}

/-- No node before the end of a cold path is hot, so nothing is hidden on the way. -/
theorem updateAt_prune (same : ∀ sub, pruneNode <$> f sub.prune = pruneNode <$> f sub)
    (cold : ColdPath steps s) (shape : node.prune = laws.label path s) :
    pruneNode <$> node.prune.updateAt f steps = pruneNode <$> node.updateAt f steps := by
  induction steps generalizing path node s with
  | nil =>
    have here (node : IpTreeNode α) : node.updateAt f [] = f node := by cases node <;> rfl
    rw [here, here]
    exact same node
  | cons bit steps ih => cases s with
    | nil => exact cold.elim
    | node l r hot' =>
      obtain ⟨rfl, cold⟩ := cold
      cases node with
      | null => cases shape
      | node left right hot addr => cases hot with
        | true => simp at shape
        | false =>
          -- a cold node keeps its children, so the rest of the path is below the same child
          rw [IpTreeNode.prune_node, laws.label_node] at shape
          simp only [IpTreeNode.node.injEq, true_and] at shape
          have child : (IpTreeNode.child left right bit).prune =
              laws.label (path ++ [bit]) (child l r bit) := by
            rw [← IpTreeNode.child_prune, shape.1, shape.2.1, laws.child_label]
          have below := ih cold child
          simp only [IpTreeNode.prune_node, IpTreeNode.updateAt, IpTreeNode.child_prune, map_bind]
          refine bind_eq_of_map_eq below (fun out => pure (out.1,
            IpTreeNode.setChild left.prune right.prune false addr bit out.2)) ?_ ?_
          · intro out
            simp [pruneNode, IpTreeNode.prune_setChild]
          · intro out
            simp [pruneNode, IpTreeNode.prune_setChild]

theorem IpTree.updateAt_prune {tree : IpTree α}
    (same : ∀ sub, pruneNode <$> f sub.prune = pruneNode <$> f sub)
    (cold : ColdPath steps s) (shape : tree.root.prune = laws.label path s) :
    pruneTree <$> tree.prune.updateAt (some steps) f =
      pruneTree <$> tree.updateAt (some steps) f := by
  have below := IpDedup.updateAt_prune laws same cold shape
  simp only [IpTree.updateAt, IpTree.prune, Run.lift_some_bind, map_bind]
  refine bind_eq_of_map_eq below (fun out => pure (out.1, { tree with root := out.2 })) ?_ ?_
  · intro out
    rfl
  · intro out
    rfl

end UpdateAt

/-! ### Insert -/

section Insert

variable (laws : tdesc.Lawful) (loc : tdesc.Local) {addr : α} {path : NodePath} {s : BitTrie}
  {tree : IpTree α}

include loc

theorem ipTreeInsertMarkHot_prune (sub : IpTreeNode α) :
    pruneNode <$> ipTreeInsertMarkHot tdesc sub.prune =
      pruneNode <$> ipTreeInsertMarkHot tdesc sub := by
  cases sub with
  | null => rfl
  | node left right hot addr => cases hot with
    | true => rfl
    | false => simp [ipTreeInsertMarkHot, loc.destroy, pruneNode]

theorem ipTreeInsertWalkdownCreateLoop_prune (count pos : Nat) (sub : IpTreeNode α) :
    pruneNode <$> ipTreeInsertWalkdownCreateLoop tdesc addr count pos sub.prune =
      pruneNode <$> ipTreeInsertWalkdownCreateLoop tdesc addr count pos sub := by
  cases sub with
  | null => rfl
  | node left right hot a => cases count with
    | zero => cases hot <;> simp [ipTreeInsertWalkdownCreateLoop, pruneNode]
    | succ count =>
      -- the new node is the same, and so is what is created below it
      have created (bit : Bool) :=
        loc.newChild left.prune right.prune left right hot hot a bit false
      have created' (bit : Bool) := loc.newChild .null .null left right hot hot a bit false
      cases hot with
      | true =>
        simp only [IpTreeNode.prune_hot, ipTreeInsertWalkdownCreateLoop, created', map_bind]
        refine bind_congr fun bit => bind_congr fun sub => ?_
        split_ifs
        · rfl
        · simp [pruneNode, IpTreeNode.prune_setChild_hot]
      | false =>
        simp only [IpTreeNode.prune_node, ipTreeInsertWalkdownCreateLoop, created, map_bind]
        refine bind_congr fun bit => bind_congr fun sub => ?_
        split_ifs
        · simp [pruneNode]
        · simp [pruneNode, IpTreeNode.prune_setChild]

theorem ipTreeInsertWalkdownCreate_prune (same : tree.tdesc = tdesc) (sub : IpTreeNode α) :
    pruneNode <$> ipTreeInsertWalkdownCreate tree addr sub.prune =
      pruneNode <$> ipTreeInsertWalkdownCreate tree addr sub := by
  subst same
  simp only [ipTreeInsertWalkdownCreate, IpTreeNode.addr?_prune, map_bind]
  exact bind_congr fun parentAddr => ipTreeInsertWalkdownCreateLoop_prune loc _ _ sub

include laws in
/-- Inserting into a tree does to what is visible what it does without the rest. -/
theorem ipTreeInsert_prune {n : Nat} (short : tdesc.fGetAddrPrefixlen addr ≤ tdesc.maxPrefixlen)
    (root : s ≠ .nil) (shape : tree.prune = laws.tree [] n s) :
    pruneTree <$> ipTreeInsert tree.prune addr = pruneTree <$> ipTreeInsert tree addr := by
  have same : tree.tdesc = tdesc := congrArg IpTree.tdesc shape
  have node : tree.root.prune = laws.label [] s := congrArg IpTree.root shape
  have deep : ([] : NodePath).length ≤ tdesc.fGetAddrPrefixlen addr := Nat.zero_le _
  have found := ipTreeFindNode_label_cases laws short deep root
  have find := ipTreeFind_of_prune laws shape addr
  simp only [ipTreeInsert, ipTreeFind_prune, find, map_bind]
  have whole : ipTreeInsertWalkdownCreate tree.prune addr = ipTreeInsertWalkdownCreate tree addr :=
    rfl
  have tdesc' : tree.prune.tdesc = tdesc := same
  rcases found with ⟨find, cold⟩ | ⟨steps, bit, rest, -, find, -⟩ |
    ⟨steps, bit, rest, -, find, cold, -⟩
  · -- the node exists and is marked
    simp only [find, Run.lift_some_bind, same, tdesc']
    exact IpTree.updateAt_prune laws (ipTreeInsertMarkHot_prune loc) cold node
  · -- a hot node on the way, so the tree is left alone
    simp [find, pruneTree, IpTree.prune]
  · -- nodes are created below the last one of the search
    simp only [find, Run.lift_some_bind, whole]
    exact IpTree.updateAt_prune laws (ipTreeInsertWalkdownCreate_prune loc same) cold node

end Insert

/-! ### Invert -/

section Invert

variable (loc : tdesc.Local)

include loc

theorem fNewSibling_prune (node : IpTreeNode α) (hot : Bool) :
    tdesc.fNewSibling node.prune hot = tdesc.fNewSibling node hot := by
  cases node with
  | null => rfl
  | node left right hot' addr => cases hot' <;> exact loc.newSibling _ _ _ _ _ _ _ _

/-- A hot node is moved with what is hidden below it. -/
theorem fFlipAddrInplace_prune {node : IpTreeNode α} (hot : node.isHot = true) :
    tdesc.fFlipAddrInplace node.prune =
      (tdesc.fFlipAddrInplace node).map IpTreeNode.prune := by
  cases node with
  | null => cases hot
  | node left right hot' addr =>
    obtain rfl : hot' = true := hot
    rw [IpTreeNode.prune_hot, loc.flipAddrInplace, loc.flipAddrInplace, Option.map_map]
    rfl

omit loc in
/-- Two runs that leave the same behind, hidden children apart, can go on in step. -/
theorem bind_prune {x y : Run (Int × IpTreeNode α)} (same : pruneNode <$> x = pruneNode <$> y)
    {f g : Int × IpTreeNode α → Run (Int × IpTreeNode α)}
    (agree : ∀ ret sub sub', sub.prune = sub'.prune →
      pruneNode <$> f (ret, sub) = pruneNode <$> g (ret, sub')) :
    pruneNode <$> (x >>= f) = pruneNode <$> (y >>= g) := by
  simp only [map_bind]
  apply bind_eq_of_map_eq same fun out => pruneNode <$> g out
  · rintro ⟨ret, sub⟩
    exact agree ret sub sub.prune IpTreeNode.prune_prune.symm
  · rintro ⟨ret, sub⟩
    have here := agree ret sub sub rfl
    exact here.symm.trans (agree ret sub sub.prune IpTreeNode.prune_prune.symm)

omit loc in
/-- What a call leaves behind becomes part of a larger node. -/
theorem wrap_prune {x y : Run (Int × IpTreeNode α)} (same : pruneNode <$> x = pruneNode <$> y)
    (f g : IpTreeNode α → IpTreeNode α)
    (agree : ∀ sub sub', sub.prune = sub'.prune → (f sub).prune = (g sub').prune) :
    pruneNode <$> (x >>= fun out => pure ((if out.1 ≠ 0 then -1 else 0 : Int), f out.2)) =
      pruneNode <$> (y >>= fun out => pure ((if out.1 ≠ 0 then -1 else 0 : Int), g out.2)) := by
  apply bind_prune same
  intro ret sub sub' pruned
  rw [map_pure, map_pure, pruneNode, pruneNode, agree sub sub' pruned]

/-- A child that is missing is made from what is visible of its sibling. -/
theorem invertChild_prune {sibling sibling' child : IpTreeNode α}
    (pruned : sibling.prune = sibling'.prune) {x y : Run (Int × IpTreeNode α)}
    (walk : child.isNull = false → pruneNode <$> x = pruneNode <$> y) :
    pruneNode <$> (if child.isNull then do
        let made ← tdesc.fNewSibling sibling true
        pure ((if made.isNull then -1 else 0 : Int), made)
      else x) =
    pruneNode <$> (if child.isNull then do
        let made ← tdesc.fNewSibling sibling' true
        pure ((if made.isNull then -1 else 0 : Int), made)
      else y) := by
  split_ifs with missing
  · rw [← fNewSibling_prune loc sibling, pruned, fNewSibling_prune loc sibling']
  · exact walk (by simpa using missing)

theorem ipTreeInvertNode_prune_cold {left right : IpTreeNode α} {addr : α}
    (coldL : left.isHot = false) (coldR : right.isHot = false)
    (walkL : pruneNode <$> ipTreeInvertNode tdesc left.prune =
      pruneNode <$> ipTreeInvertNode tdesc left)
    (walkR : pruneNode <$> ipTreeInvertNode tdesc right.prune =
      pruneNode <$> ipTreeInvertNode tdesc right) :
    pruneNode <$> ipTreeInvertNode tdesc (IpTreeNode.node left right false addr).prune =
      pruneNode <$> ipTreeInvertNode tdesc (IpTreeNode.node left right false addr) := by
  -- (D)
  simp only [IpTreeNode.prune_node, ipTreeInvertNode, IpTreeNode.isHot_prune,
    IpTreeNode.isNull_prune, coldL, coldR, Bool.false_eq_true, reduceIte]
  apply bind_prune
  · split_ifs with nilL nilR
    · simp [pruneNode]
    · rw [fNewSibling_prune loc]
    · exact walkL
  · intro ret sub sub' pruned
    by_cases failed : ret = 0
    · simp only [failed, ne_eq, not_true_eq_false, reduceIte]
      apply wrap_prune (invertChild_prune loc pruned fun _ => walkR) (.node sub · false addr)
        (.node sub' · false addr)
      intro new new' visible
      simp [pruned, visible]
    · simp [failed, pruneNode, pruned]

/-- The recursion never visits a hot node. -/
theorem ipTreeInvertNode_prune {node : IpTreeNode α} (cold : node.isHot = false) :
    pruneNode <$> ipTreeInvertNode tdesc node.prune =
      pruneNode <$> ipTreeInvertNode tdesc node := by
  induction node with
  | null => rfl
  | node left right hot addr ihLeft ihRight =>
    obtain rfl : hot = false := cold
    cases hotL : left.isHot with
    | true =>
      simp only [IpTreeNode.prune_node, ipTreeInvertNode, IpTreeNode.isHot_prune,
        IpTreeNode.isNull_prune, loc.destroy, hotL, reduceIte]
      cases nilR : right.isNull with
      | true =>
        -- (B-1)
        simp only [Bool.not_true, Bool.false_eq_true, reduceIte, fFlipAddrInplace_prune loc hotL]
        cases tdesc.fFlipAddrInplace left <;> simp [pruneNode, Option.map]
      | false =>
        simp only [Bool.not_false, reduceIte]
        cases hotR : right.isHot with
        | true => simp [pruneNode]
        | false =>
          -- (B-2)
          simp only [Bool.false_eq_true, reduceIte]
          apply wrap_prune (ihRight hotR) (.node .null · false addr) (.node .null · false addr)
          intro sub sub' pruned
          rw [IpTreeNode.prune_node, IpTreeNode.prune_node, pruned]
    | false =>
      cases hotR : right.isHot with
      | true =>
        simp only [IpTreeNode.prune_node, ipTreeInvertNode, IpTreeNode.isHot_prune,
          IpTreeNode.isNull_prune, loc.destroy, hotL, hotR, Bool.false_eq_true, reduceIte]
        cases nilL : left.isNull with
        | true =>
          -- (C-1)
          simp only [Bool.not_true, Bool.false_eq_true, reduceIte, fFlipAddrInplace_prune loc hotR]
          cases tdesc.fFlipAddrInplace right <;> simp [pruneNode, Option.map]
        | false =>
          -- (C-2)
          simp only [Bool.not_false, reduceIte]
          apply wrap_prune (ihLeft hotL) (.node · .null false addr) (.node · .null false addr)
          intro sub sub' pruned
          rw [IpTreeNode.prune_node, IpTreeNode.prune_node, pruned]
      | false =>
        exact ipTreeInvertNode_prune_cold loc hotL hotR (ihLeft hotL) (ihRight hotR)

theorem ipTreeInvert_prune {tree : IpTree α} (same : tree.tdesc = tdesc) :
    pruneTree <$> ipTreeInvert tree.prune = pruneTree <$> ipTreeInvert tree := by
  obtain ⟨tdesc', root, n⟩ := tree
  obtain rfl : tdesc' = tdesc := same
  cases root with
  | null => rfl
  | node left right hot addr => cases hot with
    | true => simp [ipTreeInvert, IpTree.prune, pruneTree, loc.destroy]
    | false =>
      have walk := ipTreeInvertNode_prune loc
        (show (IpTreeNode.node left right false addr).isHot = false from rfl)
      simp only [ipTreeInvert, IpTree.prune, IpTreeNode.prune_node, IpTreeNode.isNull_prune,
        Bool.false_eq_true, if_false]
      split_ifs with childless
      · simp [pruneTree, IpTree.prune]
      · simp only [map_bind]
        refine bind_eq_of_map_eq walk (fun out => pure (out.1, ⟨tdesc', out.2, n⟩)) ?_ ?_
        · intro out
          rfl
        · intro out
          rfl

end Invert

/-! ### Purge -/

section Purge

variable (laws : tdesc.Lawful) (loc : tdesc.Local) {addr : α} {s : BitTrie} {tree : IpTree α}

include loc

theorem ipTreePurgeRoot_prune (sub : IpTreeNode α) :
    pruneNode <$> ipTreePurgeRoot tdesc sub.prune = pruneNode <$> ipTreePurgeRoot tdesc sub := by
  cases sub with
  | null => rfl
  | node left right hot addr => cases hot <;> simp [ipTreePurgeRoot, loc.destroy, pruneNode]

theorem ipTreePurgeDetach_prune (parent node : NodePath) (sub : IpTreeNode α) :
    pruneNode <$> ipTreePurgeDetach tdesc parent node sub.prune =
      pruneNode <$> ipTreePurgeDetach tdesc parent node sub := by
  cases sub with
  | null => rfl
  | node left right hot addr =>
    cases hot <;>
      · simp only [IpTreeNode.prune_hot, IpTreeNode.prune_node, ipTreePurgeDetach, loc.destroy]
        split_ifs <;> simp [pruneNode]

omit loc in
theorem ipTreePurgeReplaceParent_prune (tree : IpTree α) (sub : IpTreeNode α) :
    pruneNode <$> ipTreePurgeReplaceParent tree addr sub.prune =
      pruneNode <$> ipTreePurgeReplaceParent tree addr sub := by
  cases sub with
  | null => rfl
  | node left right hot addr' =>
    -- the node is only kept, or replaced below its address
    have kept : (IpTreeNode.node left right hot addr').prune.prune =
        (IpTreeNode.node left right hot addr').prune := IpTreeNode.prune_prune
    obtain ⟨left', right', shape⟩ : ∃ left' right',
        (IpTreeNode.node left right hot addr').prune = .node left' right' hot addr' := by
      cases hot
      · exact ⟨_, _, rfl⟩
      · exact ⟨_, _, rfl⟩
    rw [shape] at kept ⊢
    simp only [ipTreePurgeReplaceParent, map_bind]
    refine bind_congr fun made => ?_
    cases made with
    | none => simp [pruneNode, kept, shape]
    | some replTree =>
      obtain ⟨replTdesc, replRoot, n⟩ := replTree
      cases replRoot with
      | null => rfl
      | node _ _ _ _ =>
        simp only [map_bind]
        refine bind_congr fun inserted => ?_
        split_ifs
        · simp [pruneNode, kept, shape]
        · simp only [map_bind]
          refine bind_congr fun inverted => ?_
          split_ifs
          · simp [pruneNode, kept, shape]
          · rfl

include laws in
/-- Purging from a tree does to what is visible what it does without the rest. -/
theorem ipTreePurge_prune {n : Nat} (short : tdesc.fGetAddrPrefixlen addr ≤ tdesc.maxPrefixlen)
    (root : s ≠ .nil) (shape : tree.prune = laws.tree [] n s) :
    pruneTree <$> ipTreePurge tree.prune addr = pruneTree <$> ipTreePurge tree addr := by
  have same : tree.tdesc = tdesc := congrArg IpTree.tdesc shape
  have node : tree.root.prune = laws.label [] s := congrArg IpTree.root shape
  have deep : ([] : NodePath).length ≤ tdesc.fGetAddrPrefixlen addr := Nat.zero_le _
  have found := ipTreeFindNode_label_cases laws short deep root
  have find := ipTreeFind_of_prune laws shape addr
  have tdesc' : tree.prune.tdesc = tdesc := same
  simp only [ipTreePurge, ipTreeFind_prune, find, map_bind]
  rcases found with ⟨find, cold⟩ | ⟨steps, bit, rest, -, find, cold, -⟩ |
    ⟨steps, bit, rest, -, find, -⟩
  · -- the node exists: the root loses its children, any other node is detached
    simp only [find, Run.lift_some_bind]
    rcases List.eq_nil_or_concat (laws.keyFrom [] addr) with key | ⟨parent, bit, key⟩
    · simp only [key, ipTreePurgeReplaceNode, reduceIte, same, tdesc']
      exact IpTree.updateAt_prune laws (ipTreePurgeRoot_prune loc) root node
    · rw [List.concat_eq_append] at key
      rw [key] at cold ⊢
      simp only [ipTreePurgeReplaceNode, List.append_eq_nil_iff, List.cons_ne_self, and_false,
        reduceIte, List.dropLast_concat, Run.lift_some_bind, same, tdesc']
      exact IpTree.updateAt_prune laws (ipTreePurgeDetach_prune loc parent (parent ++ [bit]))
        cold.dropLast.1 node
  · -- the hot node on the way is replaced by the rest of its block
    have whole : ipTreePurgeReplaceParent tree.prune addr = ipTreePurgeReplaceParent tree addr := by
      funext sub
      cases sub <;> rfl
    simp only [find, Run.lift_some_bind, whole]
    exact IpTree.updateAt_prune laws (ipTreePurgeReplaceParent_prune tree) cold node
  · -- nothing to purge
    simp [find, pruneTree, IpTree.prune]

end Purge

end IpDedup
