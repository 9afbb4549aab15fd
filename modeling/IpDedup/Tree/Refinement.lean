import IpDedup.Lib.PrefixCover
import IpDedup.Tree.Label

/-!
# The tree operations are trie operations

On the subnet tree of a trie, each operation ends in the subnet tree of the
corresponding operation on tries, for every pattern of allocation failures. In
particular addresses keep matching their paths, although they are never
computed from them.

## Main results

* `ipTreeInsert_label`, `ipTreeCollapseNode_label`, `ipTreeInvert_label`, `ipTreePurge_label`
* `ipTreeCollectAddr_label`: collecting lists the paths of the hot nodes
-/

set_option autoImplicit false

namespace IpDedup

open BitTrie

variable {α : Type} {tdesc : IpTreeTypedesc α} (laws : tdesc.Lawful)

/-- A tree with the given shape, whose root is at the end of `path`. -/
def IpTreeTypedesc.Lawful.tree (path : NodePath) (autoCollapse : Nat) (s : BitTrie) : IpTree α :=
  ⟨tdesc, laws.label path s, autoCollapse⟩

@[simp] theorem IpTreeTypedesc.Lawful.tree_tdesc (path : NodePath) (n : Nat) (s : BitTrie) :
    (laws.tree path n s).tdesc = tdesc := rfl

@[simp] theorem IpTreeTypedesc.Lawful.tree_root (path : NodePath) (n : Nat) (s : BitTrie) :
    (laws.tree path n s).root = laws.label path s := rfl

@[simp] theorem IpTreeTypedesc.Lawful.tree_autoCollapsePrefixlen (path : NodePath) (n : Nat)
    (s : BitTrie) : (laws.tree path n s).autoCollapsePrefixlen = n := rfl

namespace IpTreeTypedesc.Lawful

/-- A subtree that has one of the given shapes. -/
def Labels (path : NodePath) (shape : BitTrie → Prop) (node : IpTreeNode α) : Prop :=
  ∃ t, shape t ∧ node = laws.label path t

/-- A tree that has one of the given shapes. -/
def Trees (path : NodePath) (n : Nat) (shape : BitTrie → Prop) (tree : IpTree α) : Prop :=
  ∃ t, shape t ∧ tree = laws.tree path n t

end IpTreeTypedesc.Lawful

/-! ### Rules -/

section Rules

variable {γ : Type} {ok : Prop} {path steps : NodePath} {s t : BitTrie} {n : Nat}

/-- A new node is filled, or the call fails for want of memory. -/
theorem Ends.bind_newNode {node : IpTreeNode α} {next : IpTreeNode α → Run (Int × γ)} {done b : γ}
    {failed : γ → Prop} (filled : Ends (next node) ok done failed) (hb : failed b)
    (none : next .null = pure (-1, b)) : Ends (newNode node >>= next) ok done failed := by
  intro mem
  cases answer : mem 0 with
  | true =>
    obtain ⟨mem', all, last⟩ := filled fun n => mem (n + 1)
    have rest : mem = Mallocs.all → (fun n => mem (n + 1)) = Mallocs.all := by rintro rfl; rfl
    refine ⟨mem', fun same => all (rest same), ?_⟩
    rcases last with ⟨hok, eq⟩ | ⟨c, hc, eq, want⟩
    · exact Or.inl ⟨hok, by simp [newNode_apply, answer, eq]⟩
    · exact Or.inr ⟨c, hc, by simp [newNode_apply, answer, eq], fun same => want (rest same)⟩
  | false =>
    refine ⟨fun n => mem (n + 1), fun same => by subst same; rfl, Or.inr ⟨b, hb, ?_, ?_⟩⟩
    · simp [newNode_apply, answer, none]
    · rintro rfl
      cases answer

variable {f : IpTreeNode α → Run (Int × IpTreeNode α)} {bad : BitTrie → Prop}

/-- A call that writes through a pointer changes the trie at the end of its path. -/
theorem Ends.updateAt (cold : ColdPath steps s)
    (h : Ends (f (laws.label (path ++ steps) (focus steps s))) ok (laws.label (path ++ steps) t)
      (laws.Labels (path ++ steps) bad)) :
    Ends ((laws.tree path n s).updateAt (some steps) f) ok (laws.tree path n (graft steps t s))
      (laws.Trees path n fun t => ∃ sub, bad sub ∧ t = graft steps sub s) := by
  intro mem
  obtain ⟨mem', all, ⟨hok, eq⟩ | ⟨_, ⟨t', ht', rfl⟩, eq, want⟩⟩ := h mem
  · have write := updateAt_label laws cold eq
    refine ⟨mem', all, Or.inl ⟨hok, ?_⟩⟩
    simp [IpTree.updateAt, write, IpTreeTypedesc.Lawful.tree]
  · have write := updateAt_label laws cold eq
    refine ⟨mem', all, Or.inr ⟨_, ⟨_, ⟨t', ht', rfl⟩, rfl⟩, ?_, want⟩⟩
    simp [IpTree.updateAt, write, IpTreeTypedesc.Lawful.tree]

end Rules

/-! ### Addresses that no node of the tree can have -/

section Outside

variable {addr : α} {path : NodePath} {s : BitTrie} {n : Nat}
  (outside : tdesc.fGetAddrPrefixlen addr < path.length ∨
    tdesc.maxPrefixlen < tdesc.fGetAddrPrefixlen addr)
  (root : s ≠ .nil)

include outside root

theorem ipTreeFind_outside :
    ipTreeFind (laws.tree path n s) addr = some ⟨.error, none, none⟩ := by
  cases s with
  | nil => exact absurd rfl root
  | node l r hot =>
    simp only [ipTreeFind, ipTreeFindNode, laws.tree_tdesc, laws.tree_root, laws.label_node,
      IpTreeNode.addr?_node, Option.bind_eq_bind, Option.bind_some, laws.prefixlen_addrAt]
    rw [if_pos outside]

theorem ipTreeInsert_outside :
    ipTreeInsert (laws.tree path n s) addr = pure (-1, laws.tree path n s) := by
  rw [ipTreeInsert, ipTreeFind_outside laws outside root]
  rfl

theorem ipTreePurge_outside :
    ipTreePurge (laws.tree path n s) addr = pure (-1, laws.tree path n s) := by
  rw [ipTreePurge, ipTreeFind_outside laws outside root]
  rfl

end Outside

/-! ### Insert -/

section Insert

variable {addr : α} {path : NodePath} {s : BitTrie} {n : Nat}

/-- The loop turns a new node into a branch, or stops on the way. -/
theorem ipTreeInsertWalkdownCreateLoop_fresh {key : List Bool}
    (agree : key <+: (laws.bits addr).drop path.length) :
    Ends (ipTreeInsertWalkdownCreateLoop tdesc addr key.length path.length
        (laws.label path (.node .nil .nil false)))
      True (laws.label path (chain key))
      (laws.Labels path fun t => ∃ front, front <+: key ∧ front.length < key.length ∧
        t = sprout front .nil) := by
  induction key generalizing path with
  | nil => exact .pure_zero trivial
  | cons bit key ih =>
    have bitSet := laws.checkAddrBitSet_of_agree agree
    have short : path.length < tdesc.maxPrefixlen := by
      have := agree.length_le
      simp at this
      omega
    -- if this node is created but one below it is not, the branch stops there
    have below := ih (laws.agree_next agree)
    rw [List.length_append, List.length_singleton] at below
    simp only [laws.label_node, List.length_cons, ipTreeInsertWalkdownCreateLoop, bitSet,
      Run.lift_some_bind, laws.newChild _ _ _ bit false short]
    refine .bind_newNode ?_ ⟨_, ⟨[], List.nil_prefix, by simp, rfl⟩, rfl⟩ (by simp [sprout])
    refine below.bind (fun _ => trivial) (fun _ => ?_) ?_
    · rw [laws.setChild_label]
      exact .pure_zero trivial
    · rintro _ ⟨_, ⟨front, inside, shorter, rfl⟩, rfl⟩
      refine ⟨_, ⟨_, ⟨bit :: front, List.cons_prefix_cons.mpr ⟨rfl, inside⟩, by simpa using shorter,
        rfl⟩, rfl⟩, ?_⟩
      rw [laws.setChild_label, sprout_cons_nil]

theorem ipTreeInsertWalkdownCreate_label {tree : IpTree α} (same : tree.tdesc = tdesc)
    {l r : BitTrie} {bit : Bool} {rest : List Bool} (missing : child l r bit = .nil)
    (agree : bit :: rest <+: (laws.bits addr).drop path.length)
    (levels : ipTreeInsertPrefixlen tree addr - path.length ≤ rest.length + 1) :
    Ends (ipTreeInsertWalkdownCreate tree addr (laws.label path (.node l r false))) True
      (laws.label path (BitTrie.insert (ipTreeInsertPrefixlen tree addr - path.length)
        (bit :: rest) (.node l r false)))
      (laws.Labels path (Stalled (ipTreeInsertPrefixlen tree addr - path.length)
        (bit :: rest) (.node l r false))) := by
  subst same
  have short : path.length < tree.tdesc.maxPrefixlen := by
    have := agree.length_le
    simp at this
    omega
  have start (parent : IpTreeNode α) (h : parent = laws.label path (.node l r false)) :
      ipTreeInsertWalkdownCreate tree addr parent =
        ipTreeInsertWalkdownCreateLoop tree.tdesc addr
          (ipTreeInsertPrefixlen tree addr - path.length) path.length parent := by
    subst h
    simp [ipTreeInsertWalkdownCreate, laws.prefixlen_addrAt]
  rw [start _ rfl]
  generalize ipTreeInsertPrefixlen tree addr - path.length = m at levels
  cases m with
  | zero =>
    -- the parent is at the depth limit and becomes hot itself
    have whole : BitTrie.insert 0 (bit :: rest) (.node l r false) = .node l r true := by
      simp [BitTrie.insert, missing]
    rw [whole]
    exact .pure_zero trivial
  | succ m =>
    have bitSet := laws.checkAddrBitSet_of_agree agree
    have front := List.take_prefix m rest
    have below := ipTreeInsertWalkdownCreateLoop_fresh laws (front.trans (laws.agree_next agree))
    rw [List.length_append, List.length_singleton, List.length_take_of_le (by omega)] at below
    rw [insert_missing missing]
    simp only [laws.label_node, ipTreeInsertWalkdownCreateLoop, bitSet, Run.lift_some_bind,
      laws.newChild _ _ _ bit false short]
    refine .bind_newNode ?_ ⟨_, .refl m.succ_pos l r false, rfl⟩ (by simp)
    refine below.bind (fun _ => trivial) (fun _ => ?_) ?_
    · rw [laws.setChild_label]
      exact .pure_zero trivial
    · rintro _ ⟨_, ⟨made, inside, shorter, rfl⟩, rfl⟩
      refine ⟨_, ⟨_, ⟨bit :: made, List.cons_prefix_cons.mpr ⟨rfl, inside.trans front⟩,
        by simpa using shorter, rfl⟩, rfl⟩, ?_⟩
      rw [laws.setChild_label, sprout_cons_node, missing]

/-- The levels below the root that an insertion may create. -/
def insertLevels (n : Nat) (tdesc : IpTreeTypedesc α) (path : NodePath) (addr : α) : Nat :=
  (if n > 0 ∧ tdesc.fGetAddrPrefixlen addr > n then n else tdesc.fGetAddrPrefixlen addr) -
    path.length

theorem insertLevels_eq (n : Nat) (addr : α) (s : BitTrie) (path steps : NodePath) :
    insertLevels n tdesc path addr - steps.length =
      ipTreeInsertPrefixlen (laws.tree path n s) addr - (path ++ steps).length := by
  rw [List.length_append, ← Nat.sub_sub]
  rfl

variable (short : tdesc.fGetAddrPrefixlen addr ≤ tdesc.maxPrefixlen)
  (deep : path.length ≤ tdesc.fGetAddrPrefixlen addr)

variable (n path) in
include short in
theorem insertLevels_le : insertLevels n tdesc path addr ≤ (laws.keyFrom path addr).length := by
  rw [laws.length_keyFrom path short, insertLevels]
  split_ifs <;> omega

variable (path n) in
include short deep in
/-- Inserting an address inserts its key. For want of memory, it leaves some of
the nodes that lead there. -/
theorem ipTreeInsert_label (root : s ≠ .nil) :
    Ends (ipTreeInsert (laws.tree path n s) addr) True
      (laws.tree path n
        (BitTrie.insert (insertLevels n tdesc path addr) (laws.keyFrom path addr) s))
      (laws.Trees path n
        (Stalled (insertLevels n tdesc path addr) (laws.keyFrom path addr) s)) := by
  have agree : laws.keyFrom path addr <+: _ := laws.keyFrom_agrees
  have levels := insertLevels_le laws path n short
  have found := ipTreeFindNode_label_cases laws short deep root
  unfold ipTreeInsert ipTreeFind
  generalize laws.keyFrom path addr = key at agree levels found
  rcases found with ⟨find, cold⟩ | ⟨steps, bit, rest, rfl, find, cold, l, r, stop⟩ |
    ⟨steps, bit, rest, rfl, find, cold, l, r, stop, missing⟩
  · -- the node exists: mark it
    simp only [laws.tree_tdesc, laws.tree_root, find, Run.lift_some_bind]
    obtain ⟨l, r, hot, node⟩ : ∃ l r hot, focus key s = .node l r hot := by
      cases h : focus key s with
      | nil => exact absurd h cold.focus_ne_nil
      | node l r hot => exact ⟨l, r, hot, rfl⟩
    have whole := insert_append cold (insertLevels n tdesc path addr) []
    rw [List.append_nil, node] at whole
    rw [whole]
    have mark : Ends (ipTreeInsertMarkHot tdesc (laws.label (path ++ key) (focus key s))) True
        (laws.label (path ++ key) (BitTrie.insert (insertLevels n tdesc path addr - key.length) []
          (.node l r hot)))
        (laws.Labels (path ++ key) fun _ => False) := by
      rw [node]
      cases hot <;> simp [ipTreeInsertMarkHot, BitTrie.insert, leaf, laws.destroy, Ends.pure_zero]
    refine (Ends.updateAt laws cold mark).mono ?_
    rintro _ ⟨_, ⟨_, ⟨⟩, _⟩, _⟩
  · -- a hot node above it: nothing to do
    simp only [laws.tree_tdesc, laws.tree_root, find, Run.lift_some_bind]
    rw [insert_of_hot cold stop]
    exact .pure_zero trivial
  · -- a child is missing: create the nodes from there on
    simp only [laws.tree_tdesc, laws.tree_root, find, Run.lift_some_bind]
    have agree' : bit :: rest <+: (laws.bits addr).drop (path ++ steps).length := by
      obtain ⟨more, eq⟩ := agree
      rw [List.length_append, ← List.drop_drop, ← eq]
      simp
    have remaining := insertLevels_eq laws n addr s path steps
    have create := ipTreeInsertWalkdownCreate_label laws (laws.tree_tdesc path n s) missing agree'
      (by rw [← remaining]; simp at levels; omega)
    rw [insert_append cold, stop, remaining]
    refine (Ends.updateAt laws cold (by rw [stop]; exact create)).mono ?_
    rintro _ ⟨_, ⟨t, stalled, rfl⟩, rfl⟩
    rw [← stop, ← remaining] at stalled
    exact ⟨_, stalled.graft cold, rfl⟩

end Insert

/-! ### Collapse -/

section Collapse

/-- The depth, below a root at the end of `path`, at which auto-collapse cuts. -/
def collapseLimit (n : Nat) (path : NodePath) : Option Nat :=
  if n > 0 then some (n - path.length) else none

theorem collapseLimit_concat (n : Nat) (path : NodePath) (bit : Bool) :
    collapseLimit n (path ++ [bit]) = (collapseLimit n path).map (· - 1) := by
  unfold collapseLimit
  split_ifs
  · simp [Nat.sub_sub]
  · rfl

theorem collapseLimit_eq_zero_iff {n : Nat} {path : NodePath} :
    collapseLimit n path = some 0 ↔ n > 0 ∧ path.length ≥ n := by
  unfold collapseLimit
  split_ifs with positive
  · simp [positive, Nat.sub_eq_zero_iff_le]
  · simp [positive]

theorem ipTreeCollapseNode_label (n : Nat) (path : NodePath) (s : BitTrie) :
    ipTreeCollapseNode tdesc n (laws.label path s) =
      laws.label path (collapse (collapseLimit n path) s) := by
  induction s generalizing path with
  | nil => rfl
  | node l r hot left right =>
    rw [collapse, ← collapseLimit_concat n path false]
    nth_rewrite 2 [collapseLimit_concat n path false]
    rw [← collapseLimit_concat n path true]
    simp only [laws.label_node, ipTreeCollapseNode, laws.prefixlen_addrAt, laws.destroy, left,
      right, laws.isHot_label, collapseLimit_eq_zero_iff]
    cases hot with
    | true => simp [leaf]
    | false =>
      by_cases cut : n > 0 ∧ path.length ≥ n
      · simp [cut, leaf]
      · simp only [Bool.false_eq_true, cut, if_false, or_self]
        split_ifs <;> simp [leaf]

theorem ipTreeCollapse_label (n : Nat) (path : NodePath) (s : BitTrie) :
    ipTreeCollapse (laws.tree path n s) =
      (0, laws.tree path n (collapse (collapseLimit n path) s)) := by
  simp [ipTreeCollapse, ipTreeCollapseNode_label, IpTreeTypedesc.Lawful.tree]

end Collapse

/-! ### Invert -/

section Invert

variable {path : NodePath} {s : BitTrie} {m : Nat}

/-- A sibling is made of the node there is, or the call fails for want of memory. -/
theorem fNewSibling_label (short : path.length < tdesc.maxPrefixlen) (present : s ≠ .nil)
    (bit : Bool) :
    Ends (do
        let sibling ← tdesc.fNewSibling (laws.label (path ++ [bit]) s) true
        pure (if sibling.isNull then -1 else 0, sibling))
      True (laws.label (path ++ [!bit]) leaf) (laws.Labels (path ++ [!bit]) (· = .nil)) := by
  cases s with
  | nil => exact absurd rfl present
  | node l r hot =>
    rw [laws.label_node, laws.newSibling _ _ _ _ _ short]
    exact .bind_newNode (.pure_zero trivial) ⟨.nil, rfl, rfl⟩ rfl

/-- Inverting a subtree gives what it leaves uncovered, or the call fails and leaves hot nodes
without children. -/
def IpTreeTypedesc.Lawful.Inverts (m : Nat) (path : NodePath) (s : BitTrie) : Prop :=
  Ends (ipTreeInvertNode tdesc (laws.label path s)) (Invertible s) (laws.label path (invert s))
    (laws.Labels path fun t => t ≠ .nil ∧ HotLeaf t ∧ Fits m t)

/-- A child that is missing is made, and one that is there is walked down. -/
theorem invertChild_label {sibling : BitTrie} (bit : Bool) (room : path.length < tdesc.maxPrefixlen)
    (present : s = .nil → sibling ≠ .nil)
    (walk : s ≠ .nil → laws.Inverts m (path ++ [!bit]) s) :
    Ends (if s.isNil = true then do
          let made ← tdesc.fNewSibling (laws.label (path ++ [bit]) sibling) true
          pure (if made.isNull = true then -1 else 0, made)
        else
          ipTreeInvertNode tdesc (laws.label (path ++ [!bit]) s))
      (Invertible s) (laws.label (path ++ [!bit]) (invert s))
      (laws.Labels (path ++ [!bit]) fun t => HotLeaf t ∧ Fits m t) := by
  cases missing : s.isNil with
  | true =>
    obtain rfl := isNil_iff.mp missing
    refine ((fNewSibling_label laws room (present rfl) bit).congr_ok (by simp)).mono ?_
    rintro _ ⟨_, rfl, rfl⟩
    exact ⟨nil, ⟨trivial, fits_nil m⟩, rfl⟩
  | false =>
    have there : s ≠ nil := by simpa [← isNil_iff] using missing
    refine (walk there).mono ?_
    rintro _ ⟨t, shape, rfl⟩
    exact ⟨t, shape.2, rfl⟩

section Node

variable {l r : BitTrie}

/-- A child that is hot is destroyed. Its sibling is walked down, or takes its place. -/
theorem inverts_hot_cold (coldR : r.isHot = false)
    (room : path.length < tdesc.maxPrefixlen)
    (walk : r ≠ .nil → laws.Inverts m (path ++ [true]) r) :
    laws.Inverts (m + 1) path (node leaf r false) := by
  simp only [IpTreeTypedesc.Lawful.Inverts, laws.label_node, ipTreeInvertNode, laws.isHot_label,
    laws.isNull_label, laws.destroy, coldR, isHot_leaf]
  cases nilR : r.isNil with
  | true =>
    -- (B-1)
    obtain rfl := isNil_iff.mp nilR
    have flip := laws.flipAddrInplace .null .null true false room
    have valid : Invertible (node leaf nil false) := by simp [invertible_node]
    simpa [leaf, invert, flip] using Ends.pure_zero valid
  | false =>
    -- (B-2)
    have present : r ≠ nil := by simpa [← isNil_iff] using nilR
    have valid : Invertible r ↔ Invertible (node leaf r false) := by
      simp [invertible_node, coldR]
    simp only [reduceIte, Bool.not_false, Bool.false_eq_true]
    refine (((walk present).wrap fun r' => IpTreeNode.node .null r' false
      (laws.addrAt path)).congr_ok valid).mono ?_
    rintro _ ⟨_, ⟨t, ⟨-, leafy, fits⟩, rfl⟩, rfl⟩
    exact ⟨node nil t false, ⟨by simp, ⟨by simp, trivial, leafy⟩, fits_nil m, fits⟩, rfl⟩

theorem inverts_cold_hot (coldL : l.isHot = false)
    (room : path.length < tdesc.maxPrefixlen)
    (walk : l ≠ .nil → laws.Inverts m (path ++ [false]) l) :
    laws.Inverts (m + 1) path (node l leaf false) := by
  simp only [IpTreeTypedesc.Lawful.Inverts, laws.label_node, ipTreeInvertNode, laws.isHot_label,
    laws.isNull_label, laws.destroy, coldL, isHot_leaf]
  cases nilL : l.isNil with
  | true =>
    -- (C-1)
    obtain rfl := isNil_iff.mp nilL
    have flip := laws.flipAddrInplace .null .null true true room
    have valid : Invertible (node nil leaf false) := by simp [invertible_node]
    simpa [leaf, invert, flip] using Ends.pure_zero valid
  | false =>
    -- (C-2)
    have present : l ≠ nil := by simpa [← isNil_iff] using nilL
    have valid : Invertible l ↔ Invertible (node l leaf false) := by
      simp [invertible_node, coldL]
    simp only [reduceIte, Bool.not_false, Bool.false_eq_true]
    refine (((walk present).wrap fun l' => IpTreeNode.node l' .null false
      (laws.addrAt path)).congr_ok valid).mono ?_
    rintro _ ⟨_, ⟨t, ⟨-, leafy, fits⟩, rfl⟩, rfl⟩
    exact ⟨node t nil false, ⟨by simp, ⟨by simp, leafy, trivial⟩, fits, fits_nil m⟩, rfl⟩

theorem inverts_cold_cold (leafy : HotLeaf l ∧ HotLeaf r) (fits : Fits m l ∧ Fits m r)
    (coldL : l.isHot = false) (coldR : r.isHot = false) (room : path.length < tdesc.maxPrefixlen)
    (walkL : l ≠ .nil → laws.Inverts m (path ++ [false]) l)
    (walkR : r ≠ .nil → laws.Inverts m (path ++ [true]) r) :
    laws.Inverts (m + 1) path (node l r false) := by
  -- (D)
  simp only [IpTreeTypedesc.Lawful.Inverts, laws.label_node, ipTreeInvertNode, laws.isHot_label,
    laws.isNull_label, laws.destroy, coldL, coldR, reduceIte, Bool.false_eq_true]
  by_cases childless : l = nil ∧ r = nil
  · obtain ⟨rfl, rfl⟩ := childless
    refine .pure_neg_one ⟨node nil nil false, ⟨by simp, ⟨by simp, leafy⟩, fits⟩, rfl⟩ ?_
    simp [invertible_node]
  · have sibling : l = nil → r ≠ nil := fun left right => childless ⟨left, right⟩
    have first := invertChild_label laws true room sibling walkL
    have presentL : invert l ≠ nil := by
      simp [← isNil_iff, isNil_invert, coldL]
    have second := invertChild_label laws false room (fun _ => presentL) walkR
    have valid : Invertible (node l r false) ↔ Invertible l ∧ Invertible r := by
      simp [invertible_node, coldL, childless]
    have skip {β : Type} (a b c : β) :
        (if l.isNil = true then if r.isNil = true then a else b else c) =
          if l.isNil = true then b else c := by
      split_ifs with nilL nilR
      · exact absurd (isNil_iff.mp nilR) (sibling (isNil_iff.mp nilL))
      · rfl
      · rfl
    rw [skip]
    refine first.bind (fun ok => (valid.mp ok).1) (fun validL => ?_) ?_
    · have validR : Invertible r ↔ Invertible (node l r false) := by simp [valid, validL]
      refine ((second.wrap fun r' => IpTreeNode.node _ r' false _).congr_ok validR).mono ?_
      rintro _ ⟨_, ⟨t, shape, rfl⟩, rfl⟩
      exact ⟨node (invert l) t false, ⟨by simp, ⟨by simp, hotLeaf_invert l, shape.1⟩,
        fits_invert fits.1, shape.2⟩, rfl⟩
    · rintro _ ⟨t, shape, rfl⟩
      exact ⟨_, ⟨node t r false, ⟨by simp, ⟨by simp, shape.1, leafy.2⟩, shape.2, fits.2⟩, rfl⟩, rfl⟩

end Node

/-- Inverting takes a trie without hot siblings whose branches all lead
somewhere. On any other it fails, and leaves hot nodes without children. -/
theorem ipTreeInvertNode_label (root : s ≠ .nil) (cold : s.isHot = false) (leafy : HotLeaf s)
    (fits : Fits m s) (short : path.length + m ≤ tdesc.maxPrefixlen) :
    Ends (ipTreeInvertNode tdesc (laws.label path s)) (Invertible s) (laws.label path (invert s))
      (laws.Labels path fun t => t ≠ .nil ∧ HotLeaf t ∧ Fits m t) := by
  induction s generalizing path m with
  | nil => exact absurd rfl root
  | node l r hot left right =>
    obtain rfl : hot = false := cold
    obtain ⟨m, rfl⟩ := fits.exists_succ
    obtain ⟨-, leafyL, leafyR⟩ := leafy
    have below (bit : Bool) : (path ++ [bit]).length + m ≤ tdesc.maxPrefixlen := by simp; omega
    have room : path.length < tdesc.maxPrefixlen := by omega
    have walkL (coldL : l.isHot = false) (present : l ≠ nil) :
        laws.Inverts m (path ++ [false]) l := left present coldL leafyL fits.1 (below false)
    have walkR (coldR : r.isHot = false) (present : r ≠ nil) :
        laws.Inverts m (path ++ [true]) r := right present coldR leafyR fits.2 (below true)
    cases hotL : l.isHot with
    | true =>
      obtain rfl := leafyL.eq_leaf hotL
      cases hotR : r.isHot with
      | true =>
        -- (A)
        obtain rfl := leafyR.eq_leaf hotR
        simp only [laws.label_node, ipTreeInvertNode, laws.isHot_label, laws.isNull_label,
          isHot_leaf]
        refine .pure_neg_one
          ⟨node leaf leaf false, ⟨by simp, ⟨by simp, leafyL, leafyR⟩, fits⟩, rfl⟩ ?_
        simp [invertible_node]
      | false => exact inverts_hot_cold laws hotR room (walkR hotR)
    | false =>
      cases hotR : r.isHot with
      | true =>
        obtain rfl := leafyR.eq_leaf hotR
        exact inverts_cold_hot laws hotL room (walkL hotL)
      | false =>
        exact inverts_cold_cold laws ⟨leafyL, leafyR⟩ fits hotL hotR room (walkL hotL)
          (walkR hotR)

theorem ipTreeInvert_label (path : NodePath) (n : Nat) (root : s ≠ .nil) (leafy : HotLeaf s)
    (fits : Fits m s)
    (short : path.length + m ≤ tdesc.maxPrefixlen) :
    Ends (ipTreeInvert (laws.tree path n s)) (InvertibleBelow s)
      (laws.tree path n (invertBelow s))
      (laws.Trees path n fun t => t ≠ .nil ∧ HotLeaf t ∧ Fits m t) := by
  cases s with
  | nil => exact absurd rfl root
  | node l r hot => cases hot with
    | true =>
      -- all is covered, and the root stays without networks
      obtain ⟨rfl, rfl⟩ := leafy.1 rfl
      have valid : InvertibleBelow leaf := ⟨noHotSiblings_leaf, sprouting_leaf.below⟩
      simpa [ipTreeInvert, IpTreeTypedesc.Lawful.tree, invertBelow, laws.destroy, leaf] using
        Ends.pure_zero valid
    | false =>
      by_cases childless : l = nil ∧ r = nil
      · -- the empty tree is kept
        obtain ⟨rfl, rfl⟩ := childless
        have valid : InvertibleBelow (node nil nil false) := by
          simp [InvertibleBelow, NoHotSiblings, SproutingBelow]
        simpa [ipTreeInvert, IpTreeTypedesc.Lawful.tree, invertBelow] using Ends.pure_zero valid
      · have walk := ipTreeInvertNode_label laws root rfl leafy fits short
        have descend : ipTreeInvert (laws.tree path n (node l r false)) =
            ipTreeInvertNode tdesc (laws.label path (node l r false)) >>= fun out =>
              pure (out.1, { laws.tree path n (node l r false) with root := out.2 }) := by
          have test : ¬ (l.isNil = true ∧ r.isNil = true) := by simpa [isNil_iff] using childless
          simp only [ipTreeInvert, laws.tree_root, laws.tree_tdesc, laws.label_node,
            laws.isNull_label, test, Bool.false_eq_true, if_false]
        rw [descend, invertBelow_of_child childless]
        refine walk.bind (invertibleBelow_iff childless).mp (fun valid => ?_) ?_
        · exact .pure_zero ((invertibleBelow_iff childless).mpr valid)
        · intro half reached
          obtain ⟨t, ht, rfl⟩ := reached
          exact ⟨_, ⟨t, ht, rfl⟩, rfl⟩

end Invert

/-! ### Purge -/

section Purge

variable {γ : Type} {ok : Prop} {addr : α} {path : NodePath} {s : BitTrie} {n : Nat}

/-- A new tree has a root without children, or the call fails for want of memory. -/
theorem Ends.bind_ipTreeNew {next : Option (IpTree α) → Run (Int × γ)} {done b : γ}
    {failed : γ → Prop}
    (made : Ends (next (some (laws.tree [] 0 (.node .nil .nil false)))) ok done failed)
    (hb : failed b) (none : next none = pure (-1, b)) :
    Ends (ipTreeNew tdesc >>= next) ok done failed := by
  have steps : ipTreeNew tdesc >>= next = newNode (laws.label [] (.node .nil .nil false)) >>=
      fun block => if block.isNull then pure (-1, b)
        else newNode (laws.label [] (.node .nil .nil false)) >>=
          fun root => if root.isNull then pure (-1, b) else next (some ⟨tdesc, root, 0⟩) := by
    funext mem
    cases first : mem 0 <;> cases second : mem 1 <;>
      simp [ipTreeNew, laws.newNull, newNode_apply, first, second, none]
  rw [steps]
  exact .bind_newNode (.bind_newNode made hb rfl) hb rfl

/-- Replacing a hot node leaves, below it, everything but the purged network. -/
theorem ipTreePurgeReplaceParent_label {tree : IpTree α} (same : tree.tdesc = tdesc)
    (short : tdesc.fGetAddrPrefixlen addr ≤ tdesc.maxPrefixlen)
    (deep : path.length < tdesc.fGetAddrPrefixlen addr) :
    Ends (ipTreePurgeReplaceParent tree addr (laws.label path leaf)) True
      (laws.label path (invert (chain (laws.keyFrom path addr))))
      (laws.Labels path (· = leaf)) := by
  subst same
  have length := laws.length_keyFrom path short
  -- the network is the only one in a new tree below the parent, which is inverted then
  have added := ipTreeInsert_label laws path 0 short deep.le
    (show node nil nil false ≠ nil by simp)
  have levels : insertLevels 0 tree.tdesc path addr = (laws.keyFrom path addr).length := by
    simp [insertLevels, length]
  rw [levels, insert_childless] at added
  have nonempty : laws.keyFrom path addr ≠ [] := by
    rw [← List.length_pos_iff, length]
    omega
  obtain ⟨bit, rest, key⟩ := List.exists_cons_of_ne_nil nonempty
  have child : invertBelow (chain (laws.keyFrom path addr)) =
      invert (chain (laws.keyFrom path addr)) := by
    rw [key, chain]
    cases bit <;> simp [setChild, invertBelow, isNil_iff, chain_ne_nil]
  have valid : InvertibleBelow (chain (laws.keyFrom path addr)) :=
    ⟨noHotSiblings_chain _, (sprouting_chain _).below⟩
  have room : path.length + (laws.keyFrom path addr).length ≤ tree.tdesc.maxPrefixlen := by omega
  have inverted := (ipTreeInvert_label laws path 0 (chain_ne_nil _) (hotLeaf_chain _)
    (fits_chain le_rfl) room).congr_ok (iff_true_intro valid)
  rw [child] at inverted
  simp only [leaf, laws.label_node, ipTreePurgeReplaceParent]
  refine .bind_ipTreeNew laws ?_ ⟨_, rfl, rfl⟩ rfl
  refine Ends.bind added id (fun _ => ?_) ?_
  · refine Ends.bind inverted id (fun _ => ?_) ?_
    · obtain ⟨l, r, shape⟩ : ∃ l r, invert (chain (laws.keyFrom path addr)) = node l r false := by
        rw [key, chain]
        cases bit <;> simp [setChild, invert]
      rw [shape]
      exact .pure_zero trivial
    · rintro _ ⟨t, -, rfl⟩
      exact ⟨_, ⟨_, rfl, rfl⟩, rfl⟩
  · rintro _ ⟨t, -, rfl⟩
    exact ⟨_, ⟨_, rfl, rfl⟩, rfl⟩

variable (path n) in
/-- A node that was found loses its children if it is the root, and otherwise is detached. -/
theorem ipTreePurgeReplaceNode_label {key : List Bool} (cold : ColdPath key s) :
    Ends (ipTreePurgeReplaceNode (laws.tree path n s)
        (if key = [] then none else some key.dropLast) key) True
      (laws.tree path n (removeBelow key s)) (laws.Trees path n fun _ => False) := by
  rcases List.eq_nil_or_concat' key with rfl | ⟨parent, bit, rfl⟩
  · obtain ⟨l, r, hot, rfl⟩ : ∃ l r hot, s = node l r hot := by
      cases s with
      | nil => exact absurd rfl cold
      | node l r hot => exact ⟨l, r, hot, rfl⟩
    -- the root cannot be detached, so it loses its children
    have clear : Ends
        (ipTreePurgeRoot tdesc (laws.label (path ++ []) (focus [] (node l r hot)))) True
        (laws.label (path ++ []) (node nil nil false))
        (laws.Labels (path ++ []) fun _ => False) := by
      simp [ipTreePurgeRoot, laws.destroy, Ends.pure_zero]
    simp only [ipTreePurgeReplaceNode, reduceIte]
    refine (Ends.updateAt laws cold clear).mono ?_
    rintro _ ⟨_, ⟨_, ⟨⟩, _⟩, _⟩
  · obtain ⟨above, l, r, stop, present⟩ := cold.dropLast
    have detach : Ends (ipTreePurgeDetach tdesc parent (parent ++ [bit])
          (laws.label (path ++ parent) (focus parent s))) True
        (laws.label (path ++ parent) (remove [bit] (node l r false)))
        (laws.Labels (path ++ parent) fun _ => False) := by
      have gone : remove [] (child l r bit) = nil := by cases child l r bit <;> rfl
      rw [stop, remove_cons_node, gone]
      cases bit <;> simp [ipTreePurgeDetach, laws.destroy, Ends.pure_zero]
    rw [removeBelow_of_ne_nil (by simp), remove_append above, stop]
    simp only [ipTreePurgeReplaceNode, List.append_eq_nil_iff, List.cons_ne_self, and_false,
      reduceIte, List.dropLast_concat, Run.lift_some_bind]
    refine (Ends.updateAt laws above detach).mono ?_
    rintro _ ⟨_, ⟨_, ⟨⟩, _⟩, _⟩

variable (short : tdesc.fGetAddrPrefixlen addr ≤ tdesc.maxPrefixlen)
  (deep : path.length ≤ tdesc.fGetAddrPrefixlen addr)

variable (path n) in
include short deep in
/-- Purging an address removes its key. For want of memory, it changes nothing. -/
theorem ipTreePurge_label (root : s ≠ .nil) (leafy : HotLeaf s) :
    Ends (ipTreePurge (laws.tree path n s) addr) True
      (laws.tree path n (removeBelow (laws.keyFrom path addr) s)) (laws.Trees path n (· = s)) := by
  have found := ipTreeFindNode_label_cases laws short deep root
  have length := laws.length_keyFrom path short
  unfold ipTreePurge ipTreeFind
  rcases found with ⟨find, cold⟩ | ⟨steps, bit, rest, key, find, cold, l, r, stop⟩ |
    ⟨steps, bit, rest, key, find, cold, l, r, stop, missing⟩
  · simp only [laws.tree_tdesc, laws.tree_root, find, Run.lift_some_bind]
    refine (ipTreePurgeReplaceNode_label laws path n cold).mono ?_
    rintro _ ⟨_, ⟨⟩, _⟩
  · -- a hot node above it: replace that node
    simp only [laws.tree_tdesc, laws.tree_root, find, Run.lift_some_bind]
    have last : focus steps s = leaf := (leafy.focus steps).eq_leaf (by rw [stop]; rfl)
    have key' : laws.keyFrom (path ++ steps) addr = bit :: rest := by
      have drop := congrArg (List.drop steps.length) key
      rw [IpTreeTypedesc.Lawful.keyFrom, List.drop_drop, List.drop_left] at drop
      rw [IpTreeTypedesc.Lawful.keyFrom, List.length_append, drop]
    have deep' : (path ++ steps).length < tdesc.fGetAddrPrefixlen addr := by
      rw [key] at length
      simp only [List.length_append, List.length_cons] at length ⊢
      omega
    have replace := ipTreePurgeReplaceParent_label laws (laws.tree_tdesc path n s) short deep'
    have whole : removeBelow (steps ++ bit :: rest) s =
        graft steps (invert (chain (bit :: rest))) s := by
      rw [removeBelow_of_ne_nil (by simp), remove_append cold, last, leaf, remove_cons_hot]
    rw [key, whole, ← key']
    refine (Ends.updateAt laws cold (by rw [last]; exact replace)).mono ?_
    rintro _ ⟨_, ⟨_, rfl, rfl⟩, rfl⟩
    exact ⟨s, rfl, by rw [← last, graft_focus]⟩
  · -- nothing there
    simp only [laws.tree_tdesc, laws.tree_root, find, Run.lift_some_bind]
    rw [key, removeBelow_of_ne_nil (by simp), remove_of_missing cold stop missing]
    exact .pure_zero trivial

end Purge

/-! ### Collect -/

theorem ipTreeCollectAddrInto_label (darr : List α) (path : NodePath) (s : BitTrie) :
    ipTreeCollectAddrInto darr (laws.label path s) =
      darr ++ (hotPaths s).map fun below => laws.addrAt (path ++ below) := by
  induction s generalizing darr path with
  | nil => simp [ipTreeCollectAddrInto, hotPaths]
  | node l r hot left right => cases hot with
    | true => simp [ipTreeCollectAddrInto, hotPaths]
    | false => simp [ipTreeCollectAddrInto, hotPaths, left, right, Function.comp_def]

/-- Collecting lists the networks of the hot nodes, from left to right. -/
theorem ipTreeCollectAddr_label (n : Nat) (s : BitTrie) :
    ipTreeCollectAddr (laws.tree [] n s) = (hotPaths s).map laws.addrAt := by
  simp [ipTreeCollectAddr, ipTreeCollectAddrInto_label]

end IpDedup
