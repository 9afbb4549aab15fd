import IpDedup.Tree.Hidden
import IpDedup.Tree.Runs

/-!
# Reached trees

The trees that any sequence of calls leads to, where the auto-collapse value
may change between the calls. A late change makes insertions meet nodes below
the new depth, and leaves hot nodes with children.

## Main definitions

* `Reached`: the trees that some calls lead to
* `IpFamily.capped`: the prefix length of a network under auto-collapse

## Main results

* `Reached.visible`: the invariant of reached trees
* `ipTreeInsert_reached`: what an insertion into a reached tree covers
-/

set_option autoImplicit false

open BitString BitTrie

namespace IpDedup

open IpFamily

/-- The trees that some calls lead to, whatever `malloc` answers. Calls that fail do not end the
sequence. -/
inductive Reached {α : Type} (tdesc : IpTreeTypedesc α) : IpTree α → Prop
  | new {tree : IpTree α} {mem mem' : Mallocs} :
      ipTreeNew tdesc mem = some (some tree, mem') → Reached tdesc tree
  | setAutoCollapse {tree : IpTree α} (prefixlen : Nat) :
      Reached tdesc tree → Reached tdesc (ipTreeSetAutoCollapse tree prefixlen)
  | call {tree tree' : IpTree α} {op : TreeOp α} {ret : Int} {mem mem' : Mallocs} :
      Reached tdesc tree → op.run tree mem = some ((ret, tree'), mem') → Reached tdesc tree'

theorem Reached.calls {α : Type} {tdesc : IpTreeTypedesc α} {tree tree' : IpTree α}
    {ops : List (TreeOp α)} {rets : List Int} {mem mem' : Mallocs} (reached : Reached tdesc tree)
    (run : runTreeOps tree ops mem = some ((rets, tree'), mem')) : Reached tdesc tree' := by
  induction ops generalizing tree rets mem with
  | nil =>
    obtain rfl : tree = tree' := congrArg (fun out => out.1.2) (Option.some.inj run)
    exact reached
  | cons op ops ih =>
    rw [runTreeOps, Run.bind_apply] at run
    obtain ⟨⟨⟨ret, next⟩, mem₁⟩, first, run⟩ := Option.bind_eq_some_iff.mp run
    dsimp only at run
    rw [Run.bind_apply] at run
    obtain ⟨⟨⟨rets', last⟩, mem₂⟩, others, run⟩ := Option.bind_eq_some_iff.mp run
    obtain ⟨same, rfl⟩ := Prod.mk.inj (Option.some.inj run)
    obtain rfl : last = tree' := congrArg Prod.snd same
    exact ih (reached.call first) others

/-! ### What is visible of a reached tree -/

section Visible

variable {α : Type} {tdesc : IpTreeTypedesc α} (laws : tdesc.Lawful) {tree : IpTree α} {n : Nat}

theorem prune_tree (n : Nat) (s : BitTrie) :
    (laws.tree [] n s).prune = laws.tree [] n s.prune := by
  simp [IpTree.prune, IpTreeTypedesc.Lawful.tree, prune_label]

/-- What is visible of the outcome of a call depends on what was visible before. -/
theorem Ends.of_prune {run run' : Run (Int × IpTree α)} {ok : Prop} {s : BitTrie}
    {shape : BitTrie → Prop} (same : pruneTree <$> run' = pruneTree <$> run)
    (h : Ends run' ok (laws.tree [] n s) (laws.Trees [] n shape)) :
    Ends (pruneTree <$> run) ok (laws.tree [] n s.prune)
      (laws.Trees [] n fun t => ∃ t', shape t' ∧ t = t'.prune) := by
  intro mem
  rw [← same]
  obtain ⟨mem', all, ⟨good, eq⟩ | ⟨_, ⟨t, ht, rfl⟩, eq, bad⟩⟩ := h mem
  · exact ⟨mem', all, Or.inl ⟨good, by simp [eq, pruneTree, prune_tree]⟩⟩
  · exact ⟨mem', all, Or.inr ⟨_, ⟨t.prune, ⟨t, ht, rfl⟩, rfl⟩, by simp [eq, pruneTree, prune_tree],
      bad⟩⟩

/-- A call that leaves the tree of a set of blocks, up to what is hidden, is defined. -/
theorem Ends.exists_visible {run : Run (Int × IpTree α)} {ok : Prop} {s : BitTrie}
    {shape : BitTrie → Prop}
    (h : Ends (pruneTree <$> run) ok (laws.tree [] n s) (laws.Trees [] n shape))
    (done : ∃ S : Subnets tdesc.maxPrefixlen, S.trie = s)
    (failed : ∀ t, shape t → ∃ S : Subnets tdesc.maxPrefixlen, S.trie = t) (mem : Mallocs) :
    ∃ ret tree mem', ∃ S : Subnets tdesc.maxPrefixlen,
      run mem = some ((ret, tree), mem') ∧ tree.prune = laws.tree [] n S.trie := by
  obtain ⟨mem', -, outcome⟩ := h mem
  have visible : ∃ ret, ∃ S : Subnets tdesc.maxPrefixlen,
      (pruneTree <$> run) mem = some ((ret, laws.tree [] n S.trie), mem') := by
    rcases outcome with ⟨-, eq⟩ | ⟨_, ⟨t, ht, rfl⟩, eq, -⟩
    · obtain ⟨S, rfl⟩ := done
      exact ⟨0, S, eq⟩
    · obtain ⟨S, rfl⟩ := failed t ht
      exact ⟨-1, S, eq⟩
  obtain ⟨_, S, eq⟩ := visible
  rw [Run.map_apply] at eq
  obtain ⟨⟨⟨ret, tree⟩, mem''⟩, eq', out⟩ := Option.map_eq_some_iff.mp eq
  exact ⟨ret, tree, mem'', S, eq', congrArg (fun out => out.1.2) out⟩

variable (loc : tdesc.Local) {addr : α} (S : Subnets tdesc.maxPrefixlen)

include loc in
theorem ipTreeInsert_visible (short : tdesc.fGetAddrPrefixlen addr ≤ tdesc.maxPrefixlen)
    (shape : tree.prune = laws.tree [] n S.trie) :
    Ends (pruneTree <$> ipTreeInsert tree addr) True
      (laws.tree [] n (BitTrie.insert (insertLevels n tdesc [] addr) (laws.key addr) S.trie).prune)
      (laws.Trees [] n fun t => ∃ t', Stalled (insertLevels n tdesc [] addr) (laws.key addr)
        S.trie t' ∧ t = t'.prune) := by
  have same := ipTreeInsert_prune laws loc short S.root shape
  have added := ipTreeInsert_label laws [] n short (Nat.zero_le _) S.root
  rw [shape] at same
  exact .of_prune laws same added

theorem insertLevels_root_le (short : tdesc.fGetAddrPrefixlen addr ≤ tdesc.maxPrefixlen) (n : Nat) :
    insertLevels n tdesc [] addr ≤ tdesc.maxPrefixlen := by
  unfold insertLevels
  split_ifs <;> omega

/-- The visible blocks after an insertion. -/
def insertedSubnets (n : Nat) (addr : α)
    (short : tdesc.fGetAddrPrefixlen addr ≤ tdesc.maxPrefixlen) : Subnets tdesc.maxPrefixlen :=
  .pruned S.deep (BitTrie.insert (insertLevels n tdesc [] addr) (laws.key addr) S.trie)
    (insert_ne_nil S.root) (fits_insert S.fits ((List.length_take_le _ _).trans
      (insertLevels_root_le short n)))

theorem covers_insertedSubnets {S : Subnets tdesc.maxPrefixlen}
    (short : tdesc.fGetAddrPrefixlen addr ≤ tdesc.maxPrefixlen) (word : List Bool) :
    (insertedSubnets laws S n addr short).Covers word ↔ S.Covers word ∨
      (laws.key addr).take
        (max (insertLevels n tdesc [] addr) (search (laws.key addr) S.trie).length) <+: word := by
  rw [Subnets.Covers, insertedSubnets, Subnets.pruned, covers_prune, covers_insert_search S.root,
    Bool.or_eq_true, List.isPrefixOf_iff_prefix]
  rfl

include loc in
/-- With enough memory, an insertion succeeds. -/
theorem ipTreeInsert_visible_all (short : tdesc.fGetAddrPrefixlen addr ≤ tdesc.maxPrefixlen)
    (shape : tree.prune = laws.tree [] n S.trie) :
    ∃ tree', ipTreeInsert tree addr Mallocs.all = some ((0, tree'), Mallocs.all) ∧
      tree'.prune = laws.tree [] n (insertedSubnets laws S n addr short).trie := by
  have added := (ipTreeInsert_visible laws loc S short shape).run_all trivial
  rw [Run.map_apply] at added
  obtain ⟨⟨⟨ret, tree'⟩, mem'⟩, run, out⟩ := Option.map_eq_some_iff.mp added
  obtain ⟨⟨rfl, shape'⟩, rfl⟩ : (ret = 0 ∧ tree'.prune = _) ∧ mem' = Mallocs.all := by
    simpa [pruneTree] using out
  exact ⟨tree', run, shape'⟩

include loc in
theorem ipTreePurge_visible (short : tdesc.fGetAddrPrefixlen addr ≤ tdesc.maxPrefixlen)
    (shape : tree.prune = laws.tree [] n S.trie) :
    Ends (pruneTree <$> ipTreePurge tree addr) True
      (laws.tree [] n (removeBelow (laws.key addr) S.trie).prune)
      (laws.Trees [] n fun t => ∃ t', t' = S.trie ∧ t = t'.prune) := by
  have same := ipTreePurge_prune laws loc short S.root shape
  have purged := ipTreePurge_label laws [] n short (Nat.zero_le _) S.root S.leafy
  rw [shape] at same
  exact .of_prune laws same purged

/-- An address that is too long changes nothing. -/
theorem TreeOp.run_long (long : tdesc.maxPrefixlen < tdesc.fGetAddrPrefixlen addr)
    (shape : tree.prune = laws.tree [] n S.trie) :
    ipTreeInsert tree addr = pure (-1, tree) ∧ ipTreePurge tree addr = pure (-1, tree) := by
  have find : ipTreeFind tree addr = some ⟨.error, none, none⟩ := by
    rw [← ipTreeFind_prune, shape, ipTreeFind_outside laws (Or.inr long) S.root]
  constructor
  · rw [ipTreeInsert, find]
    rfl
  · rw [ipTreePurge, find]
    rfl

include loc in
/-- A call is defined, and what it leaves visible is the tree of a set of blocks. -/
theorem TreeOp.run_visible (shape : tree.prune = laws.tree [] n S.trie) (op : TreeOp α)
    (mem : Mallocs) :
    ∃ ret tree' mem', ∃ S' : Subnets tdesc.maxPrefixlen,
      op.run tree mem = some ((ret, tree'), mem') ∧ tree'.prune = laws.tree [] n S'.trie := by
  have same : tree.tdesc = tdesc := congrArg IpTree.tdesc shape
  have limit : tree.autoCollapsePrefixlen = n := congrArg IpTree.autoCollapsePrefixlen shape
  cases op with
  | insert addr =>
    by_cases short : tdesc.fGetAddrPrefixlen addr ≤ tdesc.maxPrefixlen
    · have levels := insertLevels_root_le short n
      refine (ipTreeInsert_visible laws loc S short shape).exists_visible laws
        ⟨insertedSubnets laws S n addr short, rfl⟩ ?_ mem
      rintro _ ⟨t, stalled, rfl⟩
      exact ⟨.pruned S.deep _ stalled.ne_nil (stalled.fits S.fits levels), rfl⟩
    · refine ⟨-1, tree, mem, S, ?_, shape⟩
      rw [TreeOp.run, (TreeOp.run_long laws S (by omega) shape).1]
      rfl
  | purge addr =>
    by_cases short : tdesc.fGetAddrPrefixlen addr ≤ tdesc.maxPrefixlen
    · have fits : Fits tdesc.maxPrefixlen (removeBelow (laws.key addr) S.trie) := by
        have whole : (laws.key addr).take tdesc.maxPrefixlen = laws.key addr :=
          List.take_of_length_le ((laws.length_key short).trans_le short)
        rw [← whole]
        exact (S.remove (laws.key addr)).fits
      refine (ipTreePurge_visible laws loc S short shape).exists_visible laws
        ⟨.pruned S.deep _ (removeBelow_ne_nil S.root) fits, rfl⟩ ?_ mem
      rintro _ ⟨t, rfl, rfl⟩
      exact ⟨.pruned S.deep _ S.root S.fits, rfl⟩
    · refine ⟨-1, tree, mem, S, ?_, shape⟩
      rw [TreeOp.run, (TreeOp.run_long laws S (by omega) shape).2]
      rfl
  | collapse =>
    -- collapsing destroys what was hidden
    have collapsed : ipTreeCollapse tree =
        (0, laws.tree [] n (S.collapse (collapseLimit n [])).trie) := by
      rw [← ipTreeCollapse_prune loc same, shape, ipTreeCollapse_label]
      rfl
    refine ⟨0, _, mem, S.collapse (collapseLimit n []), by rw [TreeOp.run, collapsed]; rfl, ?_⟩
    rw [prune_tree, prune_of_hotLeaf (S.collapse _).leafy]
  | invert =>
    -- inverting the tree and the visible part of it leaves the same visible part
    have inverted := ipTreeInvert_label laws [] n S.root S.leafy S.fits (by simp)
    have hidden := ipTreeInvert_prune loc same
    rw [shape] at hidden
    refine (Ends.of_prune laws hidden inverted).exists_visible laws
      ⟨.pruned S.deep _ S.invert.root S.invert.fits, rfl⟩ ?_ mem
    rintro _ ⟨t, ⟨root, leafy, fits⟩, rfl⟩
    exact ⟨.pruned S.deep _ root fits, rfl⟩

include loc in
/-- What is visible of a reached tree is the tree of a set of blocks. -/
theorem Reached.visible (deep : 0 < tdesc.maxPrefixlen) (reached : Reached tdesc tree) :
    ∃ S : Subnets tdesc.maxPrefixlen,
      tree.prune = laws.tree [] tree.autoCollapsePrefixlen S.trie := by
  induction reached with
  | @new tree mem mem' created =>
    obtain ⟨made, mem₁, new, rfl | rfl⟩ := ipTreeNew_label laws deep mem
    · simp [new] at created
    · obtain rfl : laws.tree [] 0 (Subnets.empty deep).trie = tree := by
        simpa [new] using congrArg (Option.map Prod.fst) created
      refine ⟨.empty deep, ?_⟩
      rw [prune_tree, prune_of_hotLeaf (Subnets.empty deep).leafy]
      rfl
  | setAutoCollapse prefixlen reached ih =>
    obtain ⟨S, shape⟩ := ih
    exact ⟨S, congrArg (ipTreeSetAutoCollapse · prefixlen) shape⟩
  | @call tree tree' op ret mem mem' reached ran ih =>
    -- a call has one outcome, which is the one that was reached
    obtain ⟨S, shape⟩ := ih
    obtain ⟨ret', next, mem'', S', eq, shape'⟩ := TreeOp.run_visible laws loc S shape op mem
    obtain rfl : next = tree' := by
      simpa [eq] using congrArg (Option.map fun out => out.1.2) ran
    have kept : next.autoCollapsePrefixlen = tree.autoCollapsePrefixlen :=
      (congrArg IpTree.autoCollapsePrefixlen shape' :)
    exact ⟨S', by rw [shape', kept]⟩

end Visible

/-! ### Inserting into a reached tree -/

section Insert

/-- The node at which a search ends lies this many bits below the root. -/
def IpTreeFindResult.depth (find : IpTreeFindResult) : Nat :=
  ((find.nodeOut <|> find.parentOut).getD []).length

/-- The prefix length of a network, but at most `n` if `n` is not zero. -/
def IpFamily.capped (family : IpFamily) (n : Nat) (addr : family.Addr) : Nat :=
  if n = 0 then family.prefixlen addr else min (family.prefixlen addr) n

variable {α : Type}

/-- The node that a pointer designates. -/
def IpTreeNode.follow : NodePath → IpTreeNode α → IpTreeNode α
  | [], target => target
  | _ :: _, .null => .null
  | bit :: path, .node left right _ _ => follow path (IpTreeNode.child left right bit)

def IpTreeNode.Childless : IpTreeNode α → Prop
  | .null => True
  | .node left right _ _ => left = .null ∧ right = .null

/-- Hot nodes have no children. -/
def IpTreeNode.HotChildless : IpTreeNode α → Prop
  | .null => True
  | .node left right hot _ =>
    (hot = true → left = .null ∧ right = .null) ∧ left.HotChildless ∧ right.HotChildless

variable {tdesc : IpTreeTypedesc α} (laws : tdesc.Lawful) {node : IpTreeNode α}

theorem follow_label (path steps : NodePath) (s : BitTrie) :
    (laws.label path s).follow steps = laws.label (path ++ steps) (focus steps s) := by
  induction steps generalizing path s with
  | nil => cases s <;> simp [IpTreeNode.follow]
  | cons bit steps ih => cases s with
    | nil => rfl
    | node l r hot =>
      rw [laws.label_node, IpTreeNode.follow, laws.child_label, ih]
      simp [focus]

theorem hotChildless_label (path : NodePath) (s : BitTrie) :
    (laws.label path s).HotChildless ↔ HotLeaf s := by
  induction s generalizing path with
  | nil => exact Iff.rfl
  | node l r hot left right =>
    simp only [laws.label_node, IpTreeNode.HotChildless, HotLeaf, left, right,
      laws.label_eq_null_iff]

theorem IpTreeNode.HotChildless.prune_eq (leafy : node.HotChildless) : node.prune = node := by
  induction node with
  | null => rfl
  | node left right hot addr ihLeft ihRight => cases hot with
    | true =>
      obtain ⟨rfl, rfl⟩ := leafy.1 rfl
      rfl
    | false => rw [prune_node, ihLeft leafy.2.1, ihRight leafy.2.2]

variable {family : IpFamily} {tree : IpTree family.Addr} {n : Nat} {s : BitTrie}

theorem capped_eq (n : Nat) (addr : family.Addr) :
    family.capped n addr = insertLevels n family.typedesc [] addr := by
  unfold capped insertLevels prefixlen
  rw [List.length_nil, Nat.sub_zero]
  split_ifs <;> omega

/-- What a tree covers is what is visible of it. -/
theorem mem_covered_of_prune (S : Subnets family.width) (shape : tree.prune = family.tree n S)
    (x : BitVec family.width) :
    x ∈ family.covered (ipTreeCollectAddr tree) ↔ S.Covers (family.bitsOf x) := by
  rw [← ipTreeCollectAddr_prune, shape, mem_covered_tree]

/-- The search ends where it ends in the trie. Hot nodes stay without children, unless the search
ends at a node that is too deep and has a child. -/
theorem ipTreeFind_visible (S : Subnets family.width) (shape : tree.prune = family.tree n S)
    {addr : family.Addr} (short : family.prefixlen addr ≤ family.width) (m : Nat) :
    ∃ find, ipTreeFind tree addr = some find ∧
      find.depth = (search (family.lawful.key addr) S.trie).length ∧
      (tree.root = family.lawful.label [] S.trie →
        (find.ret = .miss → find.depth < m ∨
          (tree.root.follow (find.parentOut.getD [])).Childless) →
        HotLeaf (BitTrie.insert m (family.lawful.key addr) S.trie)) := by
  have find := ipTreeFind_of_prune family.lawful shape addr
  have deep : ([] : NodePath).length ≤ family.typedesc.fGetAddrPrefixlen addr := Nat.zero_le _
  have found := ipTreeFindNode_label_cases family.lawful short deep S.root
  rw [keyFrom_nil] at found
  generalize family.lawful.key addr = key at found
  rw [find]
  rcases found with ⟨find, cold⟩ | ⟨steps, bit, rest, rfl, find, cold, l, r, stop⟩ |
    ⟨steps, bit, rest, rfl, find, cold, l, r, stop, missing⟩
  · -- found: the node becomes a leaf
    refine ⟨_, find, by rw [search_of_cold cold]; rfl, fun _ _ => ?_⟩
    exact hotLeaf_insert_of_cold S.leafy cold m
  · -- a subnet of a hot node: nothing changes
    refine ⟨_, find, by rw [search_of_hot cold stop]; rfl, fun _ _ => ?_⟩
    rw [insert_of_hot cold stop]
    exact S.leafy
  · -- missing: the last node becomes hot itself if it is too deep, with the child it may have
    refine ⟨_, find, by rw [search_of_missing cold stop missing]; rfl, fun root clear => ?_⟩
    refine hotLeaf_insert_of_missing S.leafy cold stop missing ((clear rfl).imp_right ?_)
    intro childless
    have node := follow_label family.lawful [] steps S.trie
    rw [stop, ← root, family.lawful.label_node] at node
    rw [Option.getD_some, node] at childless
    simpa [IpTreeNode.Childless, IpTreeTypedesc.Lawful.label_eq_null_iff] using childless

/-- Inserting into a reached tree covers one more block. It has the prefix length of the network
under auto-collapse, but no node on the way of the search is cut off. -/
theorem ipTreeInsert_reached (family : IpFamily) (tree : IpTree family.Addr)
    (reached : Reached family.typedesc tree) (addr : family.Addr)
    (short : family.prefixlen addr ≤ family.width) :
    ∃ find tree', ipTreeFind tree addr = some find ∧
      ipTreeInsert tree addr Mallocs.all = some ((0, tree'), Mallocs.all) ∧
      family.covered (ipTreeCollectAddr tree') =
        family.covered (ipTreeCollectAddr tree) ∪
          family.blockAt (max (family.capped tree.autoCollapsePrefixlen addr) find.depth) addr ∧
      (tree.root.HotChildless →
        (find.ret = .miss → find.depth < family.capped tree.autoCollapsePrefixlen addr ∨
          (tree.root.follow (find.parentOut.getD [])).Childless) →
        tree'.root.HotChildless) := by
  obtain ⟨S, shape⟩ := reached.visible family.lawful family.locality family.width_pos
  generalize tree.autoCollapsePrefixlen = n at shape
  obtain ⟨find, found, depth, leafy⟩ := ipTreeFind_visible S shape short (family.capped n addr)
  obtain ⟨tree', run, shape'⟩ :=
    ipTreeInsert_visible_all family.lawful family.locality S short shape
  have length : (family.lawful.key addr).length = family.prefixlen addr :=
    family.lawful.length_key short
  have levels : max (family.capped n addr) find.depth ≤ family.prefixlen addr := by
    have inside := (search_begins (family.lawful.key addr) S.trie).length_le
    refine max_le ?_ (by omega)
    unfold capped
    split_ifs <;> omega
  refine ⟨find, tree', found, run, ?_, fun childless clear => ?_⟩
  · have cut : (family.lawful.key addr).take (max (family.capped n addr) find.depth) =
        (family.bitsOf (family.word addr)).take (max (family.capped n addr) find.depth) := by
      rw [key_eq, List.take_take, Nat.min_eq_left levels]
    ext x
    rw [Set.mem_union, mem_blockAt_iff (levels.trans short), ← cut, depth,
      mem_covered_of_prune _ shape', mem_covered_of_prune S shape, capped_eq]
    exact covers_insertedSubnets family.lawful short _
  · -- nothing is hidden, so the trees are known altogether
    have whole : tree = family.tree n S := by
      rw [IpFamily.tree, ← shape, IpTree.prune, childless.prune_eq]
    have inserted := (ipTreeInsert_label family.lawful [] n short (Nat.zero_le _) S.root).run_all
      trivial
    rw [← capped_eq, keyFrom_nil] at inserted
    rw [whole, IpFamily.tree, inserted] at run
    obtain rfl : family.lawful.tree [] n _ = tree' := by simpa using run
    rw [family.lawful.tree_root, hotChildless_label]
    exact leafy (congrArg IpTree.root whole) clear

/-- After `10.0.0.0/24` is inserted and auto-collapse is set to 8, inserting `10.0.0.0/16` finds its
node, which is deeper than 8. -/
theorem ipTreeInsert_reached_found :
    ∃ tree : IpTree (Ip4Addr .bits64), Reached (ip4TreeNodeOps .bits64) tree ∧
      tree.autoCollapsePrefixlen = 8 ∧ ipTreeCollectAddr tree = [⟨24, 0x0a000000⟩] ∧
      ∃ find tree', ipTreeFind tree ⟨16, 0x0a000000⟩ = some find ∧ find.depth = 16 ∧
        ipTreeInsert tree ⟨16, 0x0a000000⟩ Mallocs.all = some ((0, tree'), Mallocs.all) ∧
        (IpFamily.v4 .bits64).covered (ipTreeCollectAddr tree') =
          (IpFamily.v4 .bits64).covered (ipTreeCollectAddr tree) ∪
            (IpFamily.v4 .bits64).blockAt (max ((IpFamily.v4 .bits64).capped
              tree.autoCollapsePrefixlen ⟨16, 0x0a000000⟩) find.depth) ⟨16, 0x0a000000⟩ ∧
        (tree.root.HotChildless →
          (find.ret = .miss → find.depth < (IpFamily.v4 .bits64).capped
              tree.autoCollapsePrefixlen ⟨16, 0x0a000000⟩ ∨
            (tree.root.follow (find.parentOut.getD [])).Childless) →
          tree'.root.HotChildless) := by
  have ends : (runTreeOps
      ((IpFamily.v4 .bits64).tree 0 (.empty (IpFamily.v4 .bits64).width_pos))
      [.insert (⟨24, 0x0a000000⟩ : Ip4Addr .bits64)] Mallocs.all).map (fun out =>
      (ipTreeCollectAddr out.1.2,
        (ipTreeFind out.1.2 ⟨16, 0x0a000000⟩).map IpTreeFindResult.depth)) =
      some ([⟨24, 0x0a000000⟩], some 16) := by decide +kernel
  obtain ⟨⟨⟨rets, tree⟩, mem'⟩, run, same⟩ := Option.map_eq_some_iff.mp ends
  obtain ⟨collected, depth⟩ := Prod.mk.inj same
  have reached : Reached (ip4TreeNodeOps .bits64) (ipTreeSetAutoCollapse tree 8) :=
    .setAutoCollapse 8 ((Reached.new (ipTreeNew_all (.v4 .bits64))).calls run)
  -- auto-collapse only counts for what is inserted from now on
  obtain ⟨find, tree', found, inserted⟩ := ipTreeInsert_reached (.v4 .bits64)
    (ipTreeSetAutoCollapse tree 8) reached (⟨16, 0x0a000000⟩ : Ip4Addr .bits64)
    (by decide : 16 ≤ 32)
  refine ⟨_, reached, rfl, collected, find, tree', found, ?_, inserted⟩
  obtain ⟨_, found', depth⟩ := Option.map_eq_some_iff.mp depth
  rwa [← Option.some.inj (found'.symm.trans found)]

/-- After `10.0.0.0/24` is inserted and auto-collapse is set to 8, inserting `10.1.0.0/24` covers
`10.0.0.0/15` instead of `10.0.0.0/8`, and the hot node keeps its child. -/
theorem ipTreeInsert_reached_deeper :
    ∃ tree : IpTree (Ip4Addr .bits64), Reached (ip4TreeNodeOps .bits64) tree ∧
      tree.autoCollapsePrefixlen = 8 ∧ tree.root.HotChildless ∧
      ∃ tree', ipTreeInsert tree ⟨24, 0x0a010000⟩ Mallocs.all = some ((0, tree'), Mallocs.all) ∧
        (IpFamily.v4 .bits64).covered (ipTreeCollectAddr tree') ≠
          (IpFamily.v4 .bits64).covered (ipTreeCollectAddr tree) ∪
            (IpFamily.v4 .bits64).blockAt (min 24 8) ⟨24, 0x0a010000⟩ ∧
        ¬ tree'.root.HotChildless := by
  have shortFirst : (IpFamily.v4 .bits64).prefixlen ⟨24, 0x0a000000⟩ ≤ 32 := by decide
  have shortSecond : (IpFamily.v4 .bits64).prefixlen ⟨24, 0x0a010000⟩ ≤ 32 := by decide
  have first := (ipTreeInsert_label (IpFamily.v4 .bits64).lawful [] 0 shortFirst (Nat.zero_le _)
    (Subnets.empty (IpFamily.v4 .bits64).width_pos).root).run_all trivial
  obtain ⟨s, shape, root, leafy, fits⟩ : ∃ s,
      s = chain ([false, false, false, false, true, false, true, false] ++ .replicate 16 false) ∧
      s ≠ nil ∧ HotLeaf s ∧ Fits 32 s :=
    ⟨_, rfl, chain_ne_nil _, hotLeaf_chain _, fits_chain (by simp)⟩
  have inserted : BitTrie.insert
      (insertLevels 0 (IpFamily.v4 .bits64).typedesc [] ⟨24, 0x0a000000⟩)
      ((IpFamily.v4 .bits64).lawful.keyFrom [] ⟨24, 0x0a000000⟩)
      (Subnets.empty (IpFamily.v4 .bits64).width_pos).trie = s := by
    rw [shape]
    decide +kernel
  rw [inserted] at first
  have second := (ipTreeInsert_label (IpFamily.v4 .bits64).lawful [] 8 shortSecond (Nat.zero_le _)
    root).run_all trivial
  have called : TreeOp.run _ (.insert _) Mallocs.all = _ := first
  refine ⟨_, .setAutoCollapse 8 (.call (.new (ipTreeNew_all (.v4 .bits64))) called), rfl,
    (hotChildless_label _ _ _).mpr leafy, _, second, ?_, ?_⟩
  · intro same
    have inside : 0x0a800000#32 ∈ (IpFamily.v4 .bits64).blockAt 8 ⟨24, 0x0a010000⟩ := by
      change (0x0a800000#32 >>> 24 : BitVec 32) = 0x0a010000#32 >>> 24
      decide
    have covered := (Set.ext_iff.mp same 0x0a800000#32).mpr (Or.inr inside)
    have fits' : Fits (IpFamily.v4 .bits64).width (BitTrie.insert
        (insertLevels 8 (IpFamily.v4 .bits64).typedesc [] ⟨24, 0x0a010000⟩)
        ((IpFamily.v4 .bits64).lawful.keyFrom [] ⟨24, 0x0a010000⟩) s) :=
      fits_insert fits (by decide +kernel)
    have covers := (mem_covered_of_prune (.pruned (IpFamily.v4 .bits64).width_pos _
      (insert_ne_nil root) fits') (prune_tree _ _ _) _).mp covered
    rw [Subnets.Covers, Subnets.pruned, covers_prune, shape] at covers
    revert covers
    decide +kernel
  · rw [IpTreeTypedesc.Lawful.tree_root, hotChildless_label]
    intro leafy
    -- the node at which the search ended
    have stop : focus ([false, false, false, false, true, false, true, false] ++ .replicate 7 false)
        (BitTrie.insert (insertLevels 8 (IpFamily.v4 .bits64).typedesc [] ⟨24, 0x0a010000⟩)
          ((IpFamily.v4 .bits64).lawful.keyFrom [] ⟨24, 0x0a010000⟩) s) =
        node (chain (.replicate 8 false)) nil true := by
      rw [shape]
      decide +kernel
    have sub := leafy.focus
      ([false, false, false, false, true, false, true, false] ++ .replicate 7 false)
    rw [stop] at sub
    exact chain_ne_nil _ (sub.1 rfl).1

end Insert

end IpDedup
