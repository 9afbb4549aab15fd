import IpDedup.Tree.Reached
import IpDedup.Tree.Shape

/-!
# What the search finds

`ip_tree_find_node` on any subtree whose addresses match their paths, collapsed
or not. The nodes on the way to an address are numbered by their depth, from the
root of the subtree down to the prefix length of the address.

## Main definitions

* `IpFamily.pointer`: the node on the way to an address at some depth
* `IpTreeFindResult.Exact`: what the return codes and the out variables mean

## Main results

* `ipTreeFindNode_exact`: the search returns what they mean
-/

set_option autoImplicit false

open BitString BitTrie

namespace IpDedup

open IpFamily

section Code

variable (family : IpFamily) (root : IpTreeNode family.Addr) (m : Nat) (x : family.Addr)

/-- The pointer from a root of prefix length `m` to the node at depth `d` on the way to `x`. -/
def IpFamily.pointer (d : Nat) : NodePath := ((family.bitsOf (family.word x)).take d).drop m

/-- The node at depth `d` on the way to `x`, which may be missing. -/
def IpTreeNode.wayTo (d : Nat) : IpTreeNode family.Addr := root.follow (family.pointer m x d)

/-- A hot node on the way to `x`, above its own depth. -/
def IpTreeNode.HotAbove (d : Nat) : Prop :=
  m ≤ d ∧ d < family.prefixlen x ∧ (root.wayTo family m x d).isHot = true

/-- The last node that exists on the way to `x`. -/
def IpTreeNode.Deepest (d : Nat) : Prop :=
  m ≤ d ∧ d ≤ family.prefixlen x ∧ root.wayTo family m x d ≠ .null ∧
    ∀ d', d < d' → d' ≤ family.prefixlen x → root.wayTo family m x d' = .null

/-- The number of an address, cut after `p` bits. -/
def IpFamily.truncated (p : Nat) : Nat :=
  (family.word x).toNat >>> (family.width - p) <<< (family.width - p)

/-- What a search for `x` that did not fail says about the way from a root of prefix length `m`. -/
structure IpTreeFindResult.Exact (find : IpTreeFindResult) : Prop where
  hitHotParent : find.ret = .hitHotParent ↔ ∃ d, root.HotAbove family m x d
  hotParent : ∀ d, root.HotAbove family m x d → (∀ d' < d, ¬ root.HotAbove family m x d') →
    find.parentOut = some (family.pointer m x d)
  miss : find.ret = .miss ↔ (∀ d, ¬ root.HotAbove family m x d) ∧
    ∃ d < family.prefixlen x, root.Deepest family m x d
  missParent : find.ret = .miss →
    ∃ d, root.Deepest family m x d ∧ find.parentOut = some (family.pointer m x d)
  hit : find.ret = .hit ↔ (∀ d, ¬ root.HotAbove family m x d) ∧
    ∀ d, m ≤ d → d ≤ family.prefixlen x → root.wayTo family m x d ≠ .null
  hitNode : find.ret = .hit → find.nodeOut = some (family.pointer m x (family.prefixlen x)) ∧
    ∃ addr, (root.wayTo family m x (family.prefixlen x)).addr? = some addr ∧
      family.prefixlen addr = family.prefixlen x ∧
      family.number addr = family.truncated x (family.prefixlen x)
  hitParent : find.ret = .hit → find.parentOut =
    if family.prefixlen x = m then none else some (family.pointer m x (family.prefixlen x - 1))
  noNode : find.ret ≠ .hit → find.nodeOut = none

end Code

/-! ### The way in the trie -/

section Way

variable {family : IpFamily} {path : NodePath} {s : BitTrie} {x : family.Addr}
  (short : family.prefixlen x ≤ family.width) (deep : path.length ≤ family.prefixlen x)

/-- The bits of `x` that lead from the root to its own depth. -/
def IpFamily.wayDown (family : IpFamily) (path : NodePath) (x : family.Addr) : List Bool :=
  family.lawful.keyFrom path x

include short in
theorem length_wayDown : (family.wayDown path x).length = family.prefixlen x - path.length :=
  family.lawful.length_keyFrom path short

include short deep in
/-- The pointer to depth `path.length + k`. -/
theorem pointer_eq {k : Nat} (inside : k ≤ (family.wayDown path x).length) :
    family.pointer path.length x (path.length + k) = (family.wayDown path x).take k := by
  rw [length_wayDown short] at inside
  have cut : ((family.bitsOf (family.word x)).take (family.prefixlen x)).take (path.length + k) =
      (family.bitsOf (family.word x)).take (path.length + k) := by
    rw [List.take_take, Nat.min_eq_left (by omega)]
  rw [wayDown, IpTreeTypedesc.Lawful.keyFrom, key_eq, List.take_drop, cut, pointer]

include short deep in
theorem wayTo_eq {k : Nat} (inside : k ≤ (family.wayDown path x).length) :
    (family.lawful.label path s).wayTo family path.length x (path.length + k) =
      family.lawful.label (path ++ (family.wayDown path x).take k)
        (focus ((family.wayDown path x).take k) s) := by
  rw [IpTreeNode.wayTo, pointer_eq short deep inside, follow_label]

include short deep in
theorem hotAbove_iff (d : Nat) :
    (family.lawful.label path s).HotAbove family path.length x d ↔
      ∃ k < (family.wayDown path x).length, d = path.length + k ∧
        (focus ((family.wayDown path x).take k) s).isHot = true := by
  have length : (family.wayDown path x).length = family.prefixlen x - path.length :=
    length_wayDown short
  constructor
  · rintro ⟨low, high, hot⟩
    obtain ⟨k, rfl⟩ := Nat.exists_eq_add_of_le low
    rw [wayTo_eq short deep (by omega), IpTreeTypedesc.Lawful.isHot_label] at hot
    exact ⟨k, by omega, rfl, hot⟩
  · rintro ⟨k, inside, rfl, hot⟩
    refine ⟨Nat.le_add_right _ _, by omega, ?_⟩
    rwa [wayTo_eq short deep inside.le, IpTreeTypedesc.Lawful.isHot_label]

include short deep in
theorem wayTo_eq_null_iff {k : Nat} (inside : k ≤ (family.wayDown path x).length) :
    (family.lawful.label path s).wayTo family path.length x (path.length + k) = .null ↔
      focus ((family.wayDown path x).take k) s = nil := by
  rw [wayTo_eq short deep inside, IpTreeTypedesc.Lawful.label_eq_null_iff]

/-- The bits of an address up to its own depth, as a number. -/
theorem pad_take_bitsOf (short : family.prefixlen x ≤ family.width) :
    pad family.width ((family.bitsOf (family.word x)).take (family.prefixlen x)) =
      family.truncated x (family.prefixlen x) := by
  rw [pad, bitsOf, take_ofNat short, value_ofNat, length_ofNat,
    Nat.mod_eq_of_lt (shiftRight_lt (family.word x) short), truncated]

include deep in
/-- At its own depth the way leads to the network of `x`. -/
theorem append_wayDown (inside : path <+: family.bitsOf (family.word x)) :
    path ++ family.wayDown path x =
      (family.bitsOf (family.word x)).take (family.prefixlen x) := by
  have front : path = ((family.bitsOf (family.word x)).take (family.prefixlen x)).take
      path.length := by
    rw [List.take_take, Nat.min_eq_left deep]
    exact List.prefix_iff_eq_take.mp inside
  rw [wayDown, IpTreeTypedesc.Lawful.keyFrom, key_eq]
  nth_rewrite 1 [front]
  exact List.take_append_drop _ _

end Way

/-! ### The three outcomes -/

section Outcomes

variable {family : IpFamily} {path : NodePath} {s : BitTrie} {x : family.Addr}
  (short : family.prefixlen x ≤ family.width) (deep : path.length ≤ family.prefixlen x)
include short deep

theorem exact_hit (inside : path <+: family.bitsOf (family.word x))
    (cold : ColdPath (family.wayDown path x) s) :
    (IpTreeFindResult.mk .hit
      (if family.wayDown path x = [] then none else some (family.wayDown path x).dropLast)
      (some (family.wayDown path x))).Exact family (family.lawful.label path s) path.length x := by
  have length : (family.wayDown path x).length = family.prefixlen x - path.length :=
    length_wayDown short
  have own : family.prefixlen x = path.length + (family.wayDown path x).length := by omega
  have whole : (family.wayDown path x).take (family.wayDown path x).length =
      family.wayDown path x := List.take_length
  have noneHot (d : Nat) : ¬ (family.lawful.label path s).HotAbove family path.length x d := by
    rw [hotAbove_iff short deep]
    rintro ⟨k, before, -, hot⟩
    rw [cold.isHot_focus_take before] at hot
    cases hot
  have present (d : Nat) (low : path.length ≤ d) (high : d ≤ family.prefixlen x) :
      (family.lawful.label path s).wayTo family path.length x d ≠ .null := by
    obtain ⟨k, rfl⟩ := Nat.exists_eq_add_of_le low
    rw [ne_eq, wayTo_eq_null_iff short deep (by omega)]
    exact cold.focus_take k
  constructor
  case hitHotParent => exact iff_of_false (by simp) fun ⟨d, hot⟩ => noneHot d hot
  case hotParent => exact fun d hot => absurd hot (noneHot d)
  case miss =>
    refine iff_of_false (by simp) ?_
    rintro ⟨-, d, before, -, -, -, missing⟩
    exact present _ deep le_rfl (missing _ before le_rfl)
  case missParent => exact fun miss => absurd miss (by simp)
  case hit => exact iff_of_true rfl ⟨noneHot, present⟩
  case hitNode =>
    refine fun _ => ⟨?_, family.lawful.addrAt (path ++ family.wayDown path x), ?_, ?_, ?_⟩
    · rw [own, pointer_eq short deep le_rfl, whole]
    · obtain ⟨l, r, hot, node⟩ : ∃ l r hot, focus (family.wayDown path x) s = .node l r hot := by
        cases stop : focus (family.wayDown path x) s with
        | nil => exact absurd stop cold.focus_ne_nil
        | node l r hot => exact ⟨l, r, hot, rfl⟩
      rw [own, wayTo_eq short deep le_rfl, whole, node]
      rfl
    · rw [prefixlen_addrAt, List.length_append, ← own]
    · rw [append_wayDown deep inside, number_addrAt, pad_take_bitsOf short]
      rw [List.length_take, length_bitsOf]
      exact Nat.min_le_right _ _
  case hitParent =>
    -- there is a parent unless the node is the root
    intro _
    have root : family.wayDown path x = [] ↔ family.prefixlen x = path.length := by
      rw [← List.length_eq_zero_iff]
      omega
    simp only [root]
    split_ifs with none
    · rfl
    · have before : family.prefixlen x - 1 =
          path.length + ((family.wayDown path x).length - 1) := by omega
      rw [before, pointer_eq short deep (Nat.sub_le _ _), List.dropLast_eq_take]
  case noNode => exact fun other => absurd rfl other

theorem exact_hitHotParent {steps rest : List Bool} {bit : Bool} {l r : BitTrie}
    (way : family.wayDown path x = steps ++ bit :: rest) (cold : ColdPath steps s)
    (stop : focus steps s = .node l r true) :
    (IpTreeFindResult.mk .hitHotParent (some steps) none).Exact family
      (family.lawful.label path s) path.length x := by
  have length := congrArg List.length way
  rw [List.length_append, List.length_cons] at length
  have front {k : Nat} (le : k ≤ steps.length) :
      (family.wayDown path x).take k = steps.take k := by
    rw [way, List.take_append_of_le_length le]
  have hot : (family.lawful.label path s).HotAbove family path.length x
      (path.length + steps.length) := by
    rw [hotAbove_iff short deep]
    refine ⟨steps.length, by omega, rfl, ?_⟩
    rw [front le_rfl, List.take_length, stop]
    rfl
  -- the way ends at the first hot node
  have above {d : Nat} (other : (family.lawful.label path s).HotAbove family path.length x d) :
      path.length + steps.length ≤ d := by
    obtain ⟨k, -, rfl, hot'⟩ := (hotAbove_iff short deep d).mp other
    by_contra before
    rw [front (by omega), cold.isHot_focus_take (by omega)] at hot'
    cases hot'
  constructor
  case hitHotParent => exact iff_of_true rfl ⟨_, hot⟩
  case hotParent =>
    intro d own topmost
    obtain rfl : d = path.length + steps.length := by
      rcases Nat.lt_or_ge (path.length + steps.length) d with below | le
      · exact absurd hot (topmost _ below)
      · exact le.antisymm (above own)
    rw [pointer_eq short deep (by omega), front le_rfl, List.take_length]
  case miss => exact iff_of_false (by simp) fun miss => miss.1 _ hot
  case missParent => exact fun miss => absurd miss (by simp)
  case hit => exact iff_of_false (by simp) fun hit => hit.1 _ hot
  case hitNode => exact fun hit => absurd hit (by simp)
  case hitParent => exact fun hit => absurd hit (by simp)
  case noNode => exact fun _ => rfl

theorem exact_miss {steps rest : List Bool} {bit : Bool} {l r : BitTrie}
    (way : family.wayDown path x = steps ++ bit :: rest) (cold : ColdPath steps s)
    (stop : focus steps s = .node l r false) (missing : child l r bit = .nil) :
    (IpTreeFindResult.mk .miss (some steps) none).Exact family
      (family.lawful.label path s) path.length x := by
  have length := congrArg List.length way
  rw [List.length_append, List.length_cons] at length
  have depth : (family.wayDown path x).length = family.prefixlen x - path.length :=
    length_wayDown short
  have front {k : Nat} (le : k ≤ steps.length) :
      (family.wayDown path x).take k = steps.take k := by
    rw [way, List.take_append_of_le_length le]
  have gone {k : Nat} (past : steps.length < k) :
      focus ((family.wayDown path x).take k) s = nil := by
    rw [way]
    exact focus_take_of_missing stop missing past rest
  have noneHot (d : Nat) : ¬ (family.lawful.label path s).HotAbove family path.length x d := by
    rw [hotAbove_iff short deep]
    rintro ⟨k, -, -, hot⟩
    -- before the end of the way, at it, and where no nodes are
    rcases Nat.lt_trichotomy k steps.length with before | rfl | past
    · rw [front before.le, cold.isHot_focus_take before] at hot
      cases hot
    · rw [front le_rfl, List.take_length, stop] at hot
      cases hot
    · rw [gone past] at hot
      cases hot
  have deepest : (family.lawful.label path s).Deepest family path.length x
      (path.length + steps.length) := by
    refine ⟨Nat.le_add_right _ _, by omega, ?_, ?_⟩
    · rw [ne_eq, wayTo_eq_null_iff short deep (by omega), front le_rfl, List.take_length, stop]
      simp
    · intro d below high
      obtain ⟨k, rfl⟩ := Nat.exists_eq_add_of_le (Nat.le_of_add_right_le below.le)
      rw [wayTo_eq_null_iff short deep (by omega)]
      exact gone (by omega)
  constructor
  case hitHotParent => exact iff_of_false (by simp) fun ⟨d, hot⟩ => noneHot d hot
  case hotParent => exact fun d hot => absurd hot (noneHot d)
  case miss => exact iff_of_true rfl ⟨noneHot, _, by omega, deepest⟩
  case missParent =>
    intro _
    refine ⟨_, deepest, ?_⟩
    rw [pointer_eq short deep (by omega), front le_rfl, List.take_length]
  case hit =>
    refine iff_of_false (by simp) fun hit => ?_
    exact hit.2 _ deep le_rfl (deepest.2.2.2 _ (by omega) le_rfl)
  case hitNode => exact fun hit => absurd hit (by simp)
  case hitParent => exact fun hit => absurd hit (by simp)
  case noNode => exact fun _ => rfl

end Outcomes

/-- On a subtree whose addresses match their paths, a search for an address in the root's network
fails if its prefix length is out of range, and otherwise tells where the way to it ends. -/
theorem ipTreeFindNode_exact (family : IpFamily) (path : NodePath) (root : IpTreeNode family.Addr)
    (rootAddr x : family.Addr) (addressed : root.Addressed family path)
    (isRoot : root.addr? = some rootAddr) (inside : family.word x ∈ family.block rootAddr) :
    ∃ find, ipTreeFindNode family.typedesc root x = some find ∧
      (find.ret = .error ↔ family.prefixlen x < family.prefixlen rootAddr ∨
        family.width < family.prefixlen x) ∧
      (find.ret ≠ .error → find.Exact family root (family.prefixlen rootAddr) x) := by
  have whole := addressed.eq_label_shape
  obtain ⟨l, r, hot, rfl⟩ : ∃ l r hot, root = .node l r hot rootAddr := by
    cases root with
    | null => cases isRoot
    | node l r hot addr =>
      obtain rfl : addr = rootAddr := by simpa using isRoot
      exact ⟨l, r, hot, rfl⟩
  obtain ⟨length, shortRoot, number, -⟩ := addressed
  have placed : rootAddr = family.lawful.addrAt path := by
    apply addr_ext family
    · rw [length, prefixlen_addrAt]
    · rw [number, number_addrAt family (length ▸ shortRoot)]
  have front : path <+: family.bitsOf (family.word x) := by
    rw [mem_block_iff shortRoot, placed, key_addrAt (length ▸ shortRoot)] at inside
    exact inside
  by_cases range : family.prefixlen x < family.prefixlen rootAddr ∨
      family.width < family.prefixlen x
  · -- the search does not start
    refine ⟨⟨.error, none, none⟩, ?_, iff_of_true rfl range, fun found => absurd rfl found⟩
    exact if_pos range
  · rw [not_or, not_lt, not_lt, length] at range
    obtain ⟨deep, short⟩ := range
    have shape : (IpTreeNode.node l r hot rootAddr).shape ≠ nil := by simp [IpTreeNode.shape]
    have found := ipTreeFindNode_label_cases family.lawful short deep shape
    rw [← whole] at found
    have ends {find : IpTreeFindResult} (ret : find.ret ≠ .error)
        (exact : find.Exact family (.node l r hot rootAddr) path.length x) :
        (find.ret = .error ↔ family.prefixlen x < family.prefixlen rootAddr ∨
          family.width < family.prefixlen x) ∧
        (find.ret ≠ .error → find.Exact family (.node l r hot rootAddr)
          (family.prefixlen rootAddr) x) := by
      rw [length]
      exact ⟨iff_of_false ret (by omega), fun _ => exact⟩
    rcases found with ⟨find, cold⟩ | ⟨steps, bit, rest, way, find, cold, l', r', stop⟩ |
      ⟨steps, bit, rest, way, find, cold, l', r', stop, missing⟩
    · refine ⟨_, find, ends (by simp) ?_⟩
      rw [whole]
      exact exact_hit short deep front cold
    · refine ⟨_, find, ends (by simp) ?_⟩
      rw [whole]
      exact exact_hitHotParent short deep way cold stop
    · refine ⟨_, find, ends (by simp) ?_⟩
      rw [whole]
      exact exact_miss short deep way cold stop missing

/-- Searching for `10.0.0.0/9` below the hot node of `10.0.0.0/8`, which has a child. -/
theorem ipTreeFindNode_exact_private :
    ∃ find, ipTreeFindNode (ip4TreeNodeOps .bits64)
        (.node (.node .null .null false (⟨9, 0x0a000000⟩ : Ip4Addr .bits64)) .null true
          ⟨8, 0x0a000000⟩) ⟨9, 0x0a000000⟩ = some find ∧
      (find.ret = .error ↔ (9 < 8 ∨ 32 < 9)) ∧
      (find.ret ≠ .error → find.Exact (.v4 .bits64)
        (.node (.node .null .null false ⟨9, 0x0a000000⟩) .null true ⟨8, 0x0a000000⟩) 8
        ⟨9, 0x0a000000⟩) := by
  have addressed : IpTreeNode.Addressed (.v4 .bits64)
      [false, false, false, false, true, false, true, false]
      (.node (.node .null .null false (⟨9, 0x0a000000⟩ : Ip4Addr .bits64)) .null true
        ⟨8, 0x0a000000⟩) :=
    ⟨rfl, by decide, by decide, ⟨rfl, by decide, by decide, trivial, trivial⟩, trivial⟩
  exact ipTreeFindNode_exact (.v4 .bits64) _ _ ⟨8, 0x0a000000⟩ (⟨9, 0x0a000000⟩ : Ip4Addr .bits64)
    addressed rfl (show _ >>> _ = _ >>> _ by decide)

end IpDedup
