import IpDedup.Tree.Complement
import IpDedup.Tree.Reached

/-!
# Auto-collapse

Collapsing widens the networks of a reached tree to the auto-collapse depth,
if each node at that depth bears a network, also where it has dead ends further
down. Insertions leave only such nodes, so for them it does not matter when
auto-collapse is set.

## Main definitions

* `IpTreeNode.Bears`: each node at the auto-collapse depth bears a network
* `insertSwitchCollapse`: insert, set auto-collapse, insert and collapse

## Main results

* `ipTreeCollapse_reached_iff`: what a collapsed tree covers
* `insertSwitchCollapse_eq`: the time of the switch does not matter
-/

set_option autoImplicit false

open BitString BitTrie

namespace IpDedup

open IpFamily

/-! ### Branches that bear networks -/

section Bears

variable {α : Type} {tdesc : IpTreeTypedesc α}

/-- The first node of prefix length `n` or longer on each branch that no hot node ends before is hot
or has a hot node below it. -/
def IpTreeNode.Bears (tdesc : IpTreeTypedesc α) (n : Nat) : IpTreeNode α → Prop
  | .null => True
  | .node left right hot addr =>
    hot = true ∨ if tdesc.fGetAddrPrefixlen addr ≥ n then
      ipTreeCollectAddrInto [] (.node left right hot addr) ≠ [] else
      left.Bears tdesc n ∧ right.Bears tdesc n

instance IpTreeNode.decidableBears (tdesc : IpTreeTypedesc α) (n : Nat) :
    (node : IpTreeNode α) → Decidable (node.Bears tdesc n)
  | .null => inferInstanceAs (Decidable True)
  | .node left right _ _ =>
    have := decidableBears tdesc n left
    have := decidableBears tdesc n right
    inferInstanceAs (Decidable (_ ∨ _))

theorem bears_prune (n : Nat) (node : IpTreeNode α) :
    node.prune.Bears tdesc n ↔ node.Bears tdesc n := by
  induction node with
  | null => exact Iff.rfl
  | node left right hot addr ihLeft ihRight => cases hot with
    | true => exact ⟨fun _ => Or.inl rfl, fun _ => Or.inl rfl⟩
    | false =>
      have same := ipTreeCollectAddrInto_prune [] (.node left right false addr)
      rw [IpTreeNode.prune_node] at same ⊢
      simp only [IpTreeNode.Bears, same, ihLeft, ihRight]

theorem bears_label (laws : tdesc.Lawful) (n : Nat) (path : NodePath) (s : BitTrie) :
    (laws.label path s).Bears tdesc n ↔ s.Bears (some (n - path.length)) := by
  induction s generalizing path with
  | nil => exact Iff.rfl
  | node l r hot left right =>
    have below (bit : Bool) :
        (some (n - path.length)).map (· - 1) = some (n - (path ++ [bit]).length) := by
      simp [Nat.sub_sub]
    have collect := ipTreeCollectAddrInto_label laws [] path (.node l r hot)
    have here : n ≤ path.length ↔ some (n - path.length) = some 0 := by
      simp [Nat.sub_eq_zero_iff_le]
    rw [laws.label_node] at collect ⊢
    rw [List.nil_append] at collect
    simp only [IpTreeNode.Bears, BitTrie.Bears, laws.prefixlen_addrAt, left, right, collect,
      ge_iff_le, here, ne_eq, List.map_eq_nil_iff, ← below]

end Bears

/-! ### Collapsing a reached tree -/

section Collapse

variable {family : IpFamily} {tree : IpTree family.Addr} {n : Nat}

/-- Beginning with the same bits is agreeing after a shift. -/
theorem take_bitsOf_eq_iff (x y : BitVec family.width) :
    (family.bitsOf x).take n = (family.bitsOf y).take n ↔
      x >>> (family.width - n) = y >>> (family.width - n) := by
  obtain ⟨len, short, cut, width⟩ : ∃ len, len ≤ family.width ∧
      (∀ z, (family.bitsOf z).take n = (family.bitsOf z).take len) ∧
      family.width - n = family.width - len := by
    refine ⟨min n family.width, min_le_right _ _, fun z => ?_, by omega⟩
    rw [List.take_eq_take_iff, length_bitsOf]
    omega
  rw [cut, cut, width, bitsOf, bitsOf, take_ofNat short, take_ofNat short, ← BitVec.toNat_inj,
    BitVec.toNat_ushiftRight, BitVec.toNat_ushiftRight]
  constructor
  · intro same
    have values := congrArg value same
    rwa [value_ofNat, value_ofNat, Nat.mod_eq_of_lt (shiftRight_lt x short),
      Nat.mod_eq_of_lt (shiftRight_lt y short)] at values
  · exact congrArg _

theorem ipTreeCollapse_visible (S : Subnets family.width) (shape : tree.prune = family.tree n S) :
    ipTreeCollapse tree = (0, family.tree n (S.collapse (collapseLimit n []))) := by
  have same : tree.tdesc = family.typedesc := congrArg IpTree.tdesc shape
  rw [← ipTreeCollapse_prune family.locality same, shape]
  exact ipTreeCollapse_tree n S

/-- The blocks of a tree, widened to the auto-collapse depth. -/
theorem exists_mem_widened_iff (S : Subnets family.width) (shape : tree.prune = family.tree n S)
    (x : BitVec family.width) :
    (∃ net ∈ ipTreeCollectAddr tree, x ∈ family.widened n net) ↔
      ∃ path ∈ hotPaths S.trie, cut (collapseLimit n []) path <+: family.bitsOf x := by
  rw [← ipTreeCollectAddr_prune, shape, collect_tree]
  simp only [List.mem_map, exists_exists_and_eq_and]
  refine exists_congr fun path => and_congr_right fun mem => ?_
  have short := length_le_width S mem
  have bits := bitsOf_addrAt short
  have front : (family.bitsOf (family.word (family.lawful.addrAt path))).take
      (if n > 0 ∧ path.length > n then n else path.length) = cut (collapseLimit n []) path := by
    by_cases positive : 0 < n
    · have limit : collapseLimit n [] = some n := by simp [collapseLimit, positive]
      rw [limit, cut_some]
      by_cases long : path.length > n
      · have front := congrArg (List.take n) bits
        rw [if_pos ⟨positive, long⟩]
        rwa [List.take_take, Nat.min_eq_left long.le] at front
      · rw [if_neg (fun h => long h.2), bits, List.take_of_length_le (by omega)]
    · have limit : collapseLimit n [] = none := by simp [collapseLimit, positive]
      rw [limit, cut_none, if_neg (fun h => positive h.1), bits]
  rw [widened, prefixlen_addrAt, mem_blockAt_iff (by split_ifs <;> omega), front]

/-- A reached tree collapses to a tree without hot siblings that covers its networks, widened to
the auto-collapse depth, and no other block of that depth. It does exactly if each node at that
depth bears a network. -/
theorem ipTreeCollapse_reached_iff (family : IpFamily) (tree : IpTree family.Addr)
    (reached : Reached family.typedesc tree) :
    ((ipTreeCollapse tree).2.root.Apart ∧
      family.covered (ipTreeCollectAddr (ipTreeCollapse tree).2) =
        {x | ∃ net ∈ ipTreeCollectAddr tree, x ∈ family.widened tree.autoCollapsePrefixlen net} ∧
      (0 < tree.autoCollapsePrefixlen →
        ∀ x ∈ family.covered (ipTreeCollectAddr (ipTreeCollapse tree).2),
          ∃ y ∈ family.covered (ipTreeCollectAddr tree),
            x >>> (family.width - tree.autoCollapsePrefixlen) =
              y >>> (family.width - tree.autoCollapsePrefixlen))) ↔
      (0 < tree.autoCollapsePrefixlen →
        tree.root.Bears family.typedesc tree.autoCollapsePrefixlen) := by
  obtain ⟨S, shape⟩ := reached.visible family.lawful family.locality family.width_pos
  generalize tree.autoCollapsePrefixlen = n at shape ⊢
  have collapsed := ipTreeCollapse_visible S shape
  have covered (x : BitVec family.width) :
      x ∈ family.covered (ipTreeCollectAddr (ipTreeCollapse tree).2) ↔
        covers (BitTrie.collapse (collapseLimit n []) S.trie) (family.bitsOf x) = true := by
    rw [collapsed, mem_covered_tree]
    rfl
  have fits (x : BitVec family.width) : Fits (family.bitsOf x).length S.trie := by
    rw [length_bitsOf]
    exact S.fits
  have bears : (0 < n → tree.root.Bears family.typedesc n) ↔
      S.trie.Bears (collapseLimit n []) := by
    rw [← bears_prune, show tree.root.prune = family.lawful.label [] S.trie from
      congrArg IpTree.root shape, bears_label, List.length_nil, Nat.sub_zero]
    by_cases positive : 0 < n
    · simp [collapseLimit, positive]
    · simp [collapseLimit, positive, bears_none]
  rw [bears]
  constructor
  · -- a branch without a hot node would be covered from the limit on
    rintro ⟨-, cover, -⟩
    by_contra barren
    obtain ⟨word, length, covers, uncovered⟩ := exists_covers_of_not_bears barren S.fits
    obtain ⟨x, rfl⟩ := exists_bitsOf length
    rw [← covered, cover] at covers
    exact uncovered ((exists_mem_widened_iff S shape x).mp covers)
  · intro bears
    have widens (x : BitVec family.width) :
        x ∈ family.covered (ipTreeCollectAddr (ipTreeCollapse tree).2) ↔
          ∃ path ∈ hotPaths S.trie, cut (collapseLimit n []) path <+: family.bitsOf x := by
      rw [covered, covers_collapse_limit bears (fits x)]
    refine ⟨?_, ?_, fun positive x hx => ?_⟩
    · rw [collapsed]
      exact (apart_label family.lawful [] _).mpr (noHotSiblings_collapse _ _)
    · ext x
      rw [widens, Set.mem_ofPred_eq, exists_mem_widened_iff S shape]
    · -- the block of that depth holds a network, so it holds an address of one
      have limit : collapseLimit n [] = some n := by simp [collapseLimit, positive]
      simp only [widens, limit, cut_some] at hx
      obtain ⟨other, length, same, covers⟩ := (widened_iff (fits x)).mpr hx
      obtain ⟨y, rfl⟩ := exists_bitsOf (length.trans (length_bitsOf x))
      refine ⟨y, ?_, (take_bitsOf_eq_iff x y).mp same.symm⟩
      rw [← ipTreeCollectAddr_prune, shape]
      exact (mem_covered_tree n S y).mpr covers

/-- With auto-collapse set to 8, one half of `10.0.0.0/8` is purged in two parts. Its node stays as
a dead end, but it is deeper than 8, and collapsing widens the other half. -/
theorem ipTreeCollapse_reached_iff_half :
    ∃ tree mem', runTreeOps ((IpFamily.v4 .bits64).tree 8 (.empty (IpFamily.v4 .bits64).width_pos))
        [.insert (⟨8, 0x0a000000⟩ : Ip4Addr .bits64), .purge (⟨10, 0x0a000000⟩ : Ip4Addr .bits64),
          .purge (⟨10, 0x0a400000⟩ : Ip4Addr .bits64)] Mallocs.all =
        some (([0, 0, 0], tree), mem') ∧
      tree.autoCollapsePrefixlen = 8 ∧ ipTreeCollectAddr tree = [⟨9, 0x0a800000⟩] ∧
      (ipTreeCollapse tree).2.root.Apart ∧
      (IpFamily.v4 .bits64).covered (ipTreeCollectAddr (ipTreeCollapse tree).2) =
        {x | ∃ net ∈ ipTreeCollectAddr tree,
          x ∈ (IpFamily.v4 .bits64).widened tree.autoCollapsePrefixlen net} ∧
      (0 < tree.autoCollapsePrefixlen →
        ∀ x ∈ (IpFamily.v4 .bits64).covered (ipTreeCollectAddr (ipTreeCollapse tree).2),
          ∃ y ∈ (IpFamily.v4 .bits64).covered (ipTreeCollectAddr tree),
            x >>> ((IpFamily.v4 .bits64).width - tree.autoCollapsePrefixlen) =
              y >>> ((IpFamily.v4 .bits64).width - tree.autoCollapsePrefixlen)) := by
  -- the node of `10.0.0.0/8` still leads to a hot node
  have ends : (runTreeOps
      ((IpFamily.v4 .bits64).tree 8 (.empty (IpFamily.v4 .bits64).width_pos))
      [.insert (⟨8, 0x0a000000⟩ : Ip4Addr .bits64), .purge (⟨10, 0x0a000000⟩ : Ip4Addr .bits64),
        .purge (⟨10, 0x0a400000⟩ : Ip4Addr .bits64)] Mallocs.all).map (fun out =>
      (out.1.1, out.1.2.autoCollapsePrefixlen, ipTreeCollectAddr out.1.2,
        decide (out.1.2.root.Bears (ip4TreeNodeOps .bits64) out.1.2.autoCollapsePrefixlen))) =
      some ([0, 0, 0], 8, [⟨9, 0x0a800000⟩], true) := by decide +kernel
  obtain ⟨⟨⟨rets, tree⟩, mem'⟩, run, same⟩ := Option.map_eq_some_iff.mp ends
  obtain ⟨rfl, limit, collected, bears⟩ : rets = [0, 0, 0] ∧ _ ∧ _ ∧ _ := by simpa using same
  have reached : Reached (ip4TreeNodeOps .bits64) tree :=
    (Reached.setAutoCollapse 8 (.new (ipTreeNew_all (.v4 .bits64)))).calls run
  exact ⟨tree, mem', run, limit, collected,
    (ipTreeCollapse_reached_iff (.v4 .bits64) tree reached).mpr fun _ => bears⟩

/-- With auto-collapse set to 8, `10.0.0.0/8` is inserted and both of its halves are purged. The
node of the network stays, and collapsing covers the network again. -/
theorem ipTreeCollapse_reached_dead_end :
    ∃ tree, runTreeOps ((IpFamily.v4 .bits64).tree 8 (.empty (IpFamily.v4 .bits64).width_pos))
        [.insert (⟨8, 0x0a000000⟩ : Ip4Addr .bits64), .purge (⟨9, 0x0a000000⟩ : Ip4Addr .bits64),
          .purge (⟨9, 0x0a800000⟩ : Ip4Addr .bits64)] Mallocs.all =
        some (([0, 0, 0], tree), Mallocs.all) ∧
      ipTreeCollectAddr (ipTreeCollapse tree).2 = [⟨8, 0x0a000000⟩] ∧
      (IpFamily.v4 .bits64).covered (ipTreeCollectAddr (ipTreeCollapse tree).2) ≠
        {x | ∃ net ∈ ipTreeCollectAddr tree, x ∈ (IpFamily.v4 .bits64).widened 8 net} := by
  refine ⟨_, rfl, rfl, ?_⟩
  intro same
  have inside : 0x0a000000#32 ∈ (IpFamily.v4 .bits64).covered
      [(⟨8, 0x0a000000⟩ : Ip4Addr .bits64)] := ⟨_, List.mem_singleton_self _, rfl⟩
  obtain ⟨net, mem, -⟩ := (Set.ext_iff.mp same 0x0a000000#32).mp inside
  exact absurd mem List.not_mem_nil

end Collapse

/-! ### The time of the switch -/

section Switch

variable {α : Type}

/-- Insert some networks into a new tree, set auto-collapse, insert the others and collapse the
tree. -/
def insertSwitchCollapse (tdesc : IpTreeTypedesc α) (before : List α) (prefixlen : Nat)
    (after : List α) : Run (Option (IpTree α)) := do
  match ← ipTreeNew tdesc with
  | none => pure none
  | some tree =>
    let (_, tree) ← runTreeOps tree (before.map .insert)
    let (_, tree) ← runTreeOps (ipTreeSetAutoCollapse tree prefixlen) (after.map .insert)
    pure (some (ipTreeCollapse tree).2)

variable {tdesc : IpTreeTypedesc α} (laws : tdesc.Lawful) (loc : tdesc.Local) {n k : Nat}

/-- A trie to which some keys were added, seen from the depth limit. -/
structure Grown (k : Nat) (S T : Subnets tdesc.maxPrefixlen) (keys : List (List Bool)) : Prop where
  sprouts : SproutingBelow T.trie
  widened (word : List Bool) (length : word.length = tdesc.maxPrefixlen) :
    Widened k T.trie word ↔ Widened k S.trie word ∨ ∃ key ∈ keys, key.take k <+: word

/-- An insertion that is not cut above depth `k` adds its key, seen from there. -/
theorem widened_insertedSubnets (S : Subnets tdesc.maxPrefixlen) (switch : n = 0 ∨ k ≤ n) {addr : α}
    (short : tdesc.fGetAddrPrefixlen addr ≤ tdesc.maxPrefixlen) {word : List Bool}
    (length : word.length = tdesc.maxPrefixlen) :
    Widened k (insertedSubnets laws S n addr short).trie word ↔
      Widened k S.trie word ∨ (laws.key addr).take k <+: word := by
  have keyLength := laws.length_key short
  rw [insertedSubnets, Subnets.pruned, widened_prune]
  refine widened_insert S.root (by omega) ?_
  unfold insertLevels
  split_ifs with cut
  · exact Or.inr (by simpa using switch.resolve_left (by omega))
  · exact Or.inl (by simp [keyLength])

include loc in
/-- Insertions add their keys, whether auto-collapse is off or set to `k` or more. -/
theorem runTreeOps_insert_visible (nets : List α)
    (short : ∀ addr ∈ nets, tdesc.fGetAddrPrefixlen addr ≤ tdesc.maxPrefixlen)
    (switch : n = 0 ∨ k ≤ n) {tree : IpTree α} (S : Subnets tdesc.maxPrefixlen)
    (sprouts : SproutingBelow S.trie) (shape : tree.prune = laws.tree [] n S.trie) :
    ∃ rets tree' T, runTreeOps tree (nets.map .insert) Mallocs.all =
        some ((rets, tree'), Mallocs.all) ∧
      tree'.prune = laws.tree [] n T.trie ∧ Grown k S T (nets.map laws.key) := by
  induction nets generalizing tree S with
  | nil => exact ⟨[], tree, S, rfl, shape, sprouts, by simp⟩
  | cons addr nets ih =>
    have shortAddr := short addr (List.mem_cons_self)
    obtain ⟨tree₁, run₁, shape₁⟩ := ipTreeInsert_visible_all laws loc S shortAddr shape
    obtain ⟨rets, tree', T, run, shape', grown⟩ :=
      ih (fun other mem => short other (List.mem_cons_of_mem addr mem))
        (insertedSubnets laws S n addr shortAddr)
        (sproutingBelow_prune (sproutingBelow_insert sprouts)) shape₁
    refine ⟨0 :: rets, tree', T, ?_, shape', grown.sprouts, fun word length => ?_⟩
    · simp [runTreeOps, TreeOp.run, run₁, run]
    · rw [grown.widened word length, widened_insertedSubnets laws S switch shortAddr length,
        List.map_cons, List.exists_mem_cons_iff, or_assoc]

/-- Collapsing only depends on what is covered, seen from the depth limit. -/
theorem collapse_eq_of_widened (S T : Subnets tdesc.maxPrefixlen) (sproutsS : SproutingBelow S.trie)
    (sproutsT : SproutingBelow T.trie)
    (same : ∀ word : List Bool, word.length = tdesc.maxPrefixlen →
      (Widened (n + 1) S.trie word ↔ Widened (n + 1) T.trie word)) :
    BitTrie.collapse (some (n + 1)) S.trie = BitTrie.collapse (some (n + 1)) T.trie := by
  have covers (U : Subnets tdesc.maxPrefixlen) (sprouts : SproutingBelow U.trie) {word : List Bool}
      (length : word.length = tdesc.maxPrefixlen) :
      covers (BitTrie.collapse (some (n + 1)) U.trie) word = true ↔
        Widened (n + 1) U.trie word := by
    have fits : Fits word.length U.trie := by
      rw [length]
      exact U.fits
    rw [covers_collapse_limit (bears_of_sproutingBelow sprouts fits) fits, widened_iff fits]
    rfl
  refine eq_of_covers_eq_below (collapse_ne_nil S.root) (collapse_ne_nil T.root)
    (hotLeaf_collapse _ _) (hotLeaf_collapse _ _) (fits_collapse S.fits) (fits_collapse T.fits)
    ⟨noHotSiblings_collapse _ _, sproutingBelow_collapse sproutsS⟩
    ⟨noHotSiblings_collapse _ _, sproutingBelow_collapse sproutsT⟩ ?_
  intro word length
  rw [Bool.eq_iff_iff, covers S sproutsS length, covers T sproutsT length, same word length]

theorem insertSwitchCollapse_all {family : IpFamily} {before after : List family.Addr} {n : Nat}
    {rets₁ rets₂ : List Int} {tree₁ tree₂ : IpTree family.Addr}
    (first : runTreeOps (family.tree 0 (.empty family.width_pos)) (before.map .insert)
      Mallocs.all = some ((rets₁, tree₁), Mallocs.all))
    (second : runTreeOps (ipTreeSetAutoCollapse tree₁ n) (after.map .insert) Mallocs.all =
      some ((rets₂, tree₂), Mallocs.all)) :
    insertSwitchCollapse family.typedesc before n after Mallocs.all =
      some (some (ipTreeCollapse tree₂).2, Mallocs.all) := by
  simp [insertSwitchCollapse, ipTreeNew_all, first, second]

/-- It does not matter whether auto-collapse is set before the insertions, or after some of them:
the collapsed trees are the same. -/
theorem insertSwitchCollapse_eq (family : IpFamily) (before after : List family.Addr)
    (shortBefore : ∀ addr ∈ before, family.prefixlen addr ≤ family.width)
    (shortAfter : ∀ addr ∈ after, family.prefixlen addr ≤ family.width) (n : Nat)
    (positive : 1 ≤ n) :
    ∃ tree, insertSwitchCollapse family.typedesc before n after Mallocs.all =
        some (some tree, Mallocs.all) ∧
      insertSwitchCollapse family.typedesc [] n (before ++ after) Mallocs.all =
        some (some tree, Mallocs.all) := by
  obtain ⟨n, rfl⟩ := Nat.exists_eq_add_of_le' positive
  let start : Subnets family.width := .empty family.width_pos
  have sprouts : SproutingBelow start.trie := ⟨trivial, trivial⟩
  have shape (k : Nat) : (family.tree k start).prune = family.tree k start := by
    rw [IpFamily.tree, prune_tree, prune_of_hotLeaf start.leafy]
  have shortAll : ∀ addr ∈ before ++ after, family.prefixlen addr ≤ family.width := by
    intro addr mem
    exact (List.mem_append.mp mem).elim (shortBefore addr) (shortAfter addr)
  -- auto-collapse is set between the insertions
  obtain ⟨rets₁, tree₁, S₁, run₁, shape₁, grown₁⟩ := runTreeOps_insert_visible (k := n + 1)
    family.lawful family.locality before shortBefore (Or.inl rfl) start sprouts (shape 0)
  have switched : (ipTreeSetAutoCollapse tree₁ (n + 1)).prune = family.tree (n + 1) S₁ :=
    congrArg (ipTreeSetAutoCollapse · (n + 1)) shape₁
  obtain ⟨rets₂, tree₂, S₂, run₂, shape₂, grown₂⟩ := runTreeOps_insert_visible (k := n + 1)
    family.lawful family.locality after shortAfter (Or.inr le_rfl) S₁ grown₁.sprouts switched
  -- auto-collapse is set before them
  obtain ⟨rets₃, tree₃, S₃, run₃, shape₃, grown₃⟩ := runTreeOps_insert_visible (k := n + 1)
    family.lawful family.locality (before ++ after) shortAll (Or.inr le_rfl) start sprouts
    (shape (n + 1))
  -- seen from the depth limit, both runs have added the same keys
  have same := collapse_eq_of_widened S₂ S₃ grown₂.sprouts grown₃.sprouts fun word length => by
    rw [grown₂.widened word length, grown₁.widened word length, grown₃.widened word length,
      List.map_append]
    simp only [List.mem_append, or_and_right, exists_or, or_assoc]
  have collapsed : (ipTreeCollapse tree₂).2 = (ipTreeCollapse tree₃).2 := by
    have limit : collapseLimit (n + 1) [] = some (n + 1) := by simp [collapseLimit]
    rw [ipTreeCollapse_visible S₂ shape₂, ipTreeCollapse_visible S₃ shape₃, limit]
    exact congrArg (family.lawful.tree [] (n + 1)) same
  refine ⟨(ipTreeCollapse tree₂).2, insertSwitchCollapse_all run₁ run₂, ?_⟩
  rw [collapsed]
  exact insertSwitchCollapse_all rfl run₃

/-- Two networks of different lengths, and a switch to prefix length 8 between them. -/
theorem insertSwitchCollapse_eq_two :
    (∀ addr ∈ [(⟨24, 0x0a000000⟩ : Ip4Addr .bits64)], (IpFamily.v4 .bits64).prefixlen addr ≤ 32) ∧
      (∀ addr ∈ [(⟨16, 0x0a010000⟩ : Ip4Addr .bits64)], (IpFamily.v4 .bits64).prefixlen addr ≤ 32) ∧
      ∃ tree, insertSwitchCollapse (ip4TreeNodeOps .bits64) [⟨24, 0x0a000000⟩] 8
          [⟨16, 0x0a010000⟩] Mallocs.all = some (some tree, Mallocs.all) ∧
        insertSwitchCollapse (ip4TreeNodeOps .bits64) [] 8 [⟨24, 0x0a000000⟩, ⟨16, 0x0a010000⟩]
          Mallocs.all = some (some tree, Mallocs.all) :=
  have before : ∀ addr ∈ [(⟨24, 0x0a000000⟩ : Ip4Addr .bits64)],
      (IpFamily.v4 .bits64).prefixlen addr ≤ 32 := by decide
  have after : ∀ addr ∈ [(⟨16, 0x0a010000⟩ : Ip4Addr .bits64)],
      (IpFamily.v4 .bits64).prefixlen addr ≤ 32 := by decide
  ⟨before, after, insertSwitchCollapse_eq (.v4 .bits64) _ _ before after 8 (by decide)⟩

end Switch

end IpDedup
