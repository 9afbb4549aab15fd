import IpDedup.Tree.Operations
import IpDedup.Tree.Typedesc

/-!
# The operations with guarded bit positions

The operations on a guarded descriptor check every bit position before they
call a helper. Where the checks pass, they do what the operations do.
-/

set_option autoImplicit false

namespace IpDedup

variable {α : Type} {tdesc : IpTreeTypedesc α}

/-- The same tree, whose operations check their bit positions. -/
def IpTree.guarded (tree : IpTree α) : IpTree α := { tree with tdesc := tree.tdesc.guarded }

/-- The same result, with a guarded tree. -/
def guardResult {β : Type} (out : β × IpTree α) : β × IpTree α := (out.1, out.2.guarded)

/-! ### Helpers -/

theorem fCheckAddrBitSet_guarded {addr : α} {prefixpos : Nat} {bit : Bool}
    (h : tdesc.guarded.fCheckAddrBitSet addr prefixpos = some bit) :
    tdesc.fCheckAddrBitSet addr prefixpos = some bit := by
  obtain ⟨-, -, eq⟩ := Option.bind_eq_some_iff.mp h
  exact eq

theorem fNewChild_guarded (src : IpTreeNode α) (bitSet hot : Bool) :
    Run.Le (tdesc.guarded.fNewChild src bitSet hot) (tdesc.fNewChild src bitSet hot) :=
  .of_assert fun _ _ => .of_assert fun _ _ => .refl

theorem fNewSibling_guarded (src : IpTreeNode α) (hot : Bool) :
    Run.Le (tdesc.guarded.fNewSibling src hot) (tdesc.fNewSibling src hot) :=
  .of_assert fun _ _ => .of_assert fun _ _ => .refl

theorem fFlipAddrInplace_guarded {obj node : IpTreeNode α}
    (h : tdesc.guarded.fFlipAddrInplace obj = some node) :
    tdesc.fFlipAddrInplace obj = some node := by
  obtain ⟨_, _, pos⟩ := Option.bind_eq_some_iff.mp h
  obtain ⟨_, _, eq⟩ := Option.bind_eq_some_iff.mp pos
  exact eq

/-! ### Operations -/

theorem ipTreeFindNodeLoop_guarded {varAddr : α} {count pos : Nat} {cur : Option NodePath}
    {sub : NodePath} {node : IpTreeNode α} {result : IpTreeFindResult}
    (h : ipTreeFindNodeLoop tdesc.guarded varAddr count pos cur sub node = some result) :
    ipTreeFindNodeLoop tdesc varAddr count pos cur sub node = some result := by
  induction count generalizing pos cur sub node with
  | zero => exact h
  | succ count ih => cases node with
    | null => exact h
    | node left right hot addr =>
      rw [ipTreeFindNodeLoop] at h ⊢
      split_ifs at h ⊢ with isHot
      · exact h
      · obtain ⟨bit, hbit, eq⟩ := Option.bind_eq_some_iff.mp h
        refine Option.bind_eq_some_iff.mpr ⟨bit, fCheckAddrBitSet_guarded hbit, ?_⟩
        dsimp only at eq ⊢
        split_ifs at eq ⊢ with missing
        · exact eq
        · exact ih eq

theorem ipTreeFindNode_guarded {root : IpTreeNode α} {varAddr : α} {result : IpTreeFindResult}
    (h : ipTreeFindNode tdesc.guarded root varAddr = some result) :
    ipTreeFindNode tdesc root varAddr = some result := by
  obtain ⟨addr, hroot, eq⟩ := Option.bind_eq_some_iff.mp h
  refine Option.bind_eq_some_iff.mpr ⟨addr, hroot, ?_⟩
  dsimp only at eq ⊢
  by_cases invalid : tdesc.fGetAddrPrefixlen varAddr < tdesc.fGetAddrPrefixlen addr ∨
      tdesc.fGetAddrPrefixlen varAddr > tdesc.maxPrefixlen
  · rw [if_pos invalid]
    exact (if_pos invalid).symm.trans eq
  · rw [if_neg invalid]
    exact ipTreeFindNodeLoop_guarded ((if_neg invalid).symm.trans eq)

theorem ipTreeFind_guarded (tree : IpTree α) (varAddr : α) :
    Run.Le (liftM (ipTreeFind tree.guarded varAddr)) (liftM (ipTreeFind tree varAddr)) :=
  .lift fun _ => ipTreeFindNode_guarded

theorem ipTreeInsertWalkdownCreateLoop_guarded (varAddr : α) (count pos : Nat)
    (node : IpTreeNode α) :
    Run.Le (ipTreeInsertWalkdownCreateLoop tdesc.guarded varAddr count pos node)
      (ipTreeInsertWalkdownCreateLoop tdesc varAddr count pos node) := by
  induction count generalizing pos node with
  | zero => cases node <;> exact .refl
  | succ count ih => cases node with
    | null => exact .refl
    | node left right hot addr =>
      refine .bind (.lift fun _ => fCheckAddrBitSet_guarded) fun bit => ?_
      refine .bind (fNewChild_guarded _ _ _) fun sub => ?_
      split_ifs
      · exact .refl
      · exact .bind (ih _ _) fun _ => .refl

theorem updateAt_guarded {β : Type} {f g : IpTreeNode α → Run (β × IpTreeNode α)}
    (h : ∀ node, Run.Le (f node) (g node)) (path : NodePath) (node : IpTreeNode α) :
    Run.Le (node.updateAt f path) (node.updateAt g path) := by
  induction path generalizing node with
  | nil => cases node <;> exact h _
  | cons bit path ih => cases node with
    | null => exact .refl
    | node left right hot addr => exact .bind (ih _) fun _ => .refl

theorem IpTree.updateAt_guarded {β : Type} {tree : IpTree α} {ptr : Option NodePath}
    {f g : IpTreeNode α → Run (β × IpTreeNode α)} (h : ∀ node, Run.Le (f node) (g node)) :
    Run.Le (tree.guarded.updateAt ptr f) (guardResult <$> tree.updateAt ptr g) := by
  simp only [IpTree.updateAt, map_bind]
  exact .bind .refl fun path => .bind (IpDedup.updateAt_guarded h path _) fun _ => .refl

theorem ipTreeInsert_guarded (tree : IpTree α) (varAddr : α) :
    Run.Le (ipTreeInsert tree.guarded varAddr) (guardResult <$> ipTreeInsert tree varAddr) := by
  simp only [ipTreeInsert, map_bind]
  refine .bind (ipTreeFind_guarded tree varAddr) fun find => ?_
  cases find.ret with
  | hitHotParent => exact .refl
  | error => exact .refl
  | hit => exact IpTree.updateAt_guarded fun node => by cases node <;> exact .refl
  | miss =>
    refine IpTree.updateAt_guarded fun node => ?_
    exact .bind .refl fun _ => ipTreeInsertWalkdownCreateLoop_guarded _ _ _ _

theorem ipTreeCollapseNode_guarded (n : Nat) (node : IpTreeNode α) :
    ipTreeCollapseNode tdesc.guarded n node = ipTreeCollapseNode tdesc n node := by
  induction node with
  | null => rfl
  | node left right hot addr ihLeft ihRight => simp [ipTreeCollapseNode, ihLeft, ihRight]

theorem ipTreeCollapse_guarded (tree : IpTree α) :
    ipTreeCollapse tree.guarded = guardResult (ipTreeCollapse tree) := by
  simp only [ipTreeCollapse, IpTree.guarded, ipTreeCollapseNode_guarded]
  rfl

theorem ipTreeInvertNode_guarded (node : IpTreeNode α) :
    Run.Le (ipTreeInvertNode tdesc.guarded node) (ipTreeInvertNode tdesc node) := by
  induction node with
  | null => exact .refl
  | node left right hot addr ihLeft ihRight =>
    -- the cases are those of the source: which children are there, and which of them are hot
    simp only [ipTreeInvertNode, IpTreeTypedesc.guarded_fDestroy]
    split
    · split
      · split
        · exact .refl
        · exact .bind ihRight fun _ => .refl
      · exact .bind (.lift fun _ => fFlipAddrInplace_guarded) fun _ => .refl
    · split
      · split
        · exact .bind ihLeft fun _ => .refl
        · exact .bind (.lift fun _ => fFlipAddrInplace_guarded) fun _ => .refl
      · refine .bind ?_ fun out => ?_
        · split
          · split
            · exact .refl
            · exact .bind (fNewSibling_guarded _ _) fun _ => .refl
          · exact ihLeft
        · split
          · exact .refl
          · refine .bind ?_ fun _ => .refl
            split
            · exact .bind (fNewSibling_guarded _ _) fun _ => .refl
            · exact ihRight

theorem ipTreeInvert_guarded (tree : IpTree α) :
    Run.Le (ipTreeInvert tree.guarded) (guardResult <$> ipTreeInvert tree) := by
  obtain ⟨tdesc, root, n⟩ := tree
  cases root with
  | null => exact .refl
  | node left right hot addr =>
    simp only [ipTreeInvert, IpTree.guarded]
    split
    · exact .refl
    · split
      · exact .refl
      · rw [map_bind]
        exact .bind (ipTreeInvertNode_guarded _) fun _ => .refl

theorem ipTreeNew_guarded (tdesc : IpTreeTypedesc α) :
    Run.Le (ipTreeNew tdesc.guarded) (Option.map IpTree.guarded <$> ipTreeNew tdesc) := by
  simp only [ipTreeNew, map_bind]
  refine .bind .refl fun allocated => ?_
  cases allocated with
  | false => exact .refl
  | true =>
    simp only [reduceIte, map_bind]
    refine .bind .refl fun root => ?_
    cases root <;> exact .refl

theorem ipTreePurgeReplaceParent_guarded (tree : IpTree α) (varAddr : α) (node : IpTreeNode α) :
    Run.Le (ipTreePurgeReplaceParent tree.guarded varAddr node)
      (ipTreePurgeReplaceParent tree varAddr node) := by
  cases node with
  | null => exact .refl
  | node left right hot addr =>
    simp only [ipTreePurgeReplaceParent]
    refine .bind_map (ipTreeNew_guarded tree.tdesc) fun repl => ?_
    cases repl with
    | none => exact .refl
    | some repl =>
      obtain ⟨replDesc, replRoot, n⟩ := repl
      cases replRoot with
      | null => exact .refl
      | node replLeft replRight replHot replAddr =>
        let start : IpTree α := ⟨replDesc, .node replLeft replRight replHot addr, n⟩
        refine .bind_map (ipTreeInsert_guarded start varAddr) fun inserted => ?_
        dsimp only [guardResult]
        split
        · exact .refl
        · refine .bind_map (ipTreeInvert_guarded _) fun inverted => ?_
          dsimp only [guardResult]
          split
          · exact .refl
          · exact .refl

theorem ipTreePurge_guarded (tree : IpTree α) (varAddr : α) :
    Run.Le (ipTreePurge tree.guarded varAddr) (guardResult <$> ipTreePurge tree varAddr) := by
  simp only [ipTreePurge, map_bind]
  refine .bind (ipTreeFind_guarded tree varAddr) fun find => ?_
  cases find.ret with
  | miss => exact .refl
  | error => exact .refl
  | hitHotParent => exact IpTree.updateAt_guarded (ipTreePurgeReplaceParent_guarded tree varAddr)
  | hit =>
    simp only [map_bind]
    refine .bind .refl fun node => ?_
    simp only [ipTreePurgeReplaceNode]
    split
    · exact IpTree.updateAt_guarded fun node => by cases node <;> exact .refl
    · rw [map_bind]
      refine .bind .refl fun parent => ?_
      exact IpTree.updateAt_guarded fun node => by cases node <;> exact .refl

end IpDedup
