import IpDedup.Tree.Networks
import IpDedup.Tree.Runs

/-!
# Trees and their shapes

A tree whose addresses match their paths is the subnet tree of its shape. This
holds of any such tree, whether some run reaches it or not, and with its root at
any network.

## Main definitions

* `IpTreeNode.shape`: the trie under a subtree
* `IpTree.Valid`: addresses match paths, and hot nodes are leaves

## Main results

* `IpTree.Valid.eq_tree`: a valid tree is the subnet tree of its shape
* `IpFamily.mem_covered_tree_at`: what a tree with any root covers
-/

set_option autoImplicit false

open BitString BitTrie

namespace IpDedup

/-- The trie under a subtree. -/
def IpTreeNode.shape {α : Type} : IpTreeNode α → BitTrie
  | .null => nil
  | .node left right hot _ => .node left.shape right.shape hot

/-- No prefix length exceeds the width of an address. -/
def IpTreeNode.Narrow (family : IpFamily) : IpTreeNode family.Addr → Prop
  | .null => True
  | .node left right _ addr =>
    family.prefixlen addr ≤ family.width ∧ left.Narrow family ∧ right.Narrow family

/-- Every address is that of its path, whichever nodes are hot. -/
def IpTreeNode.Addressed (family : IpFamily) : NodePath → IpTreeNode family.Addr → Prop
  | _, .null => True
  | path, .node left right _ addr =>
    family.prefixlen addr = path.length ∧ family.prefixlen addr ≤ family.width ∧
      family.number addr = pad family.width path ∧
      left.Addressed family (path ++ [false]) ∧ right.Addressed family (path ++ [true])

/-- A tree with a root, where every address is that of its path below the root's network and hot
nodes are leaves. -/
structure IpTree.Valid (family : IpFamily) (path : NodePath) (tree : IpTree family.Addr) :
    Prop where
  tdesc : tree.tdesc = family.typedesc
  root : tree.root ≠ .null
  placed : tree.root.Placed family path
  narrow : tree.root.Narrow family

section Shape

variable {α : Type} {tdesc : IpTreeTypedesc α} (laws : tdesc.Lawful)

@[simp] theorem shape_label (path : NodePath) (s : BitTrie) : (laws.label path s).shape = s := by
  induction s generalizing path with
  | nil => rfl
  | node l r hot left right => simp [IpTreeNode.shape, left, right]

variable {family : IpFamily} {path : NodePath} {node : IpTreeNode family.Addr}

theorem addr_ext : (family : IpFamily) → {a b : family.Addr} →
    family.prefixlen a = family.prefixlen b → family.number a = family.number b → a = b
  | .v4 _, ⟨p, x⟩, ⟨q, y⟩, length, number => by
    obtain rfl : p = q := length
    obtain rfl : x = y := BitVec.eq_of_toNat_eq number
    rfl
  | .v6, ⟨p, x⟩, ⟨q, y⟩, length, number => by
    obtain rfl : p = q := length
    have word : x.toBitVec = y.toBitVec := BitVec.eq_of_toNat_eq number
    rw [← Ip6AddrData.ofBitVec_toBitVec x, ← Ip6AddrData.ofBitVec_toBitVec y, word]

/-- Addresses that match their paths are determined by them. -/
theorem IpTreeNode.Addressed.eq_label_shape (addressed : node.Addressed family path) :
    node = family.lawful.label path node.shape := by
  induction node generalizing path with
  | null => rfl
  | node left right hot addr ihLeft ihRight =>
    obtain ⟨length, short, number, addressedL, addressedR⟩ := addressed
    rw [IpTreeNode.shape, family.lawful.label_node, ← ihLeft addressedL, ← ihRight addressedR]
    congr 1
    apply addr_ext family
    · rw [length, IpFamily.prefixlen_addrAt]
    · rw [number, IpFamily.number_addrAt family (length ▸ short)]

theorem IpTreeNode.Placed.addressed (placed : node.Placed family path)
    (narrow : node.Narrow family) : node.Addressed family path := by
  induction node generalizing path with
  | null => trivial
  | node left right hot addr ihLeft ihRight =>
    obtain ⟨length, number, -, placedL, placedR⟩ := placed
    obtain ⟨short, narrowL, narrowR⟩ := narrow
    exact ⟨length, short, number, ihLeft placedL narrowL, ihRight placedR narrowR⟩

theorem eq_label_shape (placed : node.Placed family path) (narrow : node.Narrow family) :
    node = family.lawful.label path node.shape :=
  (placed.addressed narrow).eq_label_shape

theorem hotLeaf_shape (placed : node.Placed family path) : HotLeaf node.shape := by
  induction node generalizing path with
  | null => trivial
  | node left right hot addr ihLeft ihRight =>
    obtain ⟨-, -, leaf, placedL, placedR⟩ := placed
    refine ⟨fun isHot => ?_, ihLeft placedL, ihRight placedR⟩
    obtain ⟨rfl, rfl⟩ := leaf isHot
    exact ⟨rfl, rfl⟩

theorem within_shape (placed : node.Placed family path) (narrow : node.Narrow family) {m : Nat}
    (room : path.length + m = family.width) : Within m node.shape := by
  induction node generalizing path m with
  | null => cases m <;> trivial
  | node left right hot addr ihLeft ihRight =>
    obtain ⟨length, -, -, placedL, placedR⟩ := placed
    obtain ⟨-, narrowL, narrowR⟩ := narrow
    cases m with
    | zero =>
      -- a child would have a prefixlen beyond the width
      have none (bit : Bool) {sub : IpTreeNode family.Addr}
          (placed : sub.Placed family (path ++ [bit])) (narrow : sub.Narrow family) :
          sub.shape = nil := by
        cases sub with
        | null => rfl
        | node _ _ _ _ =>
          have length := placed.1
          have short := narrow.1
          rw [length, List.length_append, List.length_singleton] at short
          omega
      exact ⟨none false placedL narrowL, none true placedR narrowR⟩
    | succ m =>
      have room (bit : Bool) : (path ++ [bit]).length + m = family.width := by
        rw [List.length_append, List.length_singleton]
        omega
      exact ⟨ihLeft placedL narrowL (room false), ihRight placedR narrowR (room true)⟩

theorem narrow_label {s : BitTrie} {m : Nat} (within : Within m s)
    (room : path.length + m ≤ family.width) : (family.lawful.label path s).Narrow family := by
  induction s generalizing path m with
  | nil => trivial
  | node l r hot left right =>
    refine ⟨by rw [IpFamily.prefixlen_addrAt]; omega, ?_⟩
    cases m with
    | zero =>
      obtain ⟨rfl, rfl⟩ := within
      exact ⟨trivial, trivial⟩
    | succ m =>
      exact ⟨left within.1 (by simp; omega), right within.2 (by simp; omega)⟩

end Shape

/-! ### Valid trees -/

section Valid

variable {family : IpFamily} {path : NodePath} {tree : IpTree family.Addr}

theorem IpTree.Valid.length_le (valid : tree.Valid family path) : path.length ≤ family.width := by
  obtain ⟨-, root, placed, narrow⟩ := valid
  cases node : tree.root with
  | null => exact absurd node root
  | node left right hot addr =>
    rw [node] at placed narrow
    exact placed.1 ▸ narrow.1

theorem IpTree.Valid.eq_tree (valid : tree.Valid family path) :
    tree = family.lawful.tree path tree.autoCollapsePrefixlen tree.root.shape := by
  have node := eq_label_shape valid.placed valid.narrow
  have tdesc := valid.tdesc
  obtain ⟨tdesc', root, n⟩ := tree
  obtain rfl : tdesc' = family.typedesc := tdesc
  exact congrArg (IpTree.mk _ · n) node

theorem IpTree.Valid.shape_ne_nil (valid : tree.Valid family path) : tree.root.shape ≠ nil := by
  have root := valid.root
  cases node : tree.root with
  | null => exact absurd node root
  | node left right hot addr => simp [IpTreeNode.shape]

theorem IpTree.Valid.within (valid : tree.Valid family path) :
    Within (family.width - path.length) tree.root.shape := by
  have short := valid.length_le
  exact within_shape valid.placed valid.narrow (by omega)

theorem IpTree.Valid.hotLeaf (valid : tree.Valid family path) : HotLeaf tree.root.shape :=
  hotLeaf_shape valid.placed

/-- The subnet tree of a trie whose hot nodes are leaves is valid. -/
theorem valid_tree {s : BitTrie} {m n : Nat} (root : s ≠ nil) (leafy : HotLeaf s)
    (within : Within m s) (room : path.length + m ≤ family.width) :
    (family.lawful.tree path n s).Valid family path where
  tdesc := rfl
  root := by cases s with
    | nil => exact absurd rfl root
    | node l r hot => simp
  placed := placed_label leafy within room
  narrow := narrow_label within room

/-- What a tree covers, relative to the network of its root. -/
theorem IpFamily.mem_covered_tree_at {s : BitTrie} {m n : Nat} (within : Within m s)
    (room : path.length + m ≤ family.width) (x : BitVec family.width) :
    x ∈ family.covered (ipTreeCollectAddr (family.lawful.tree path n s)) ↔
      ∃ rest, family.bitsOf x = path ++ rest ∧ covers s rest = true := by
  have collect : ipTreeCollectAddr (family.lawful.tree path n s) =
      (hotPaths s).map fun below => family.lawful.addrAt (path ++ below) := by
    rw [ipTreeCollectAddr, family.lawful.tree_root, ipTreeCollectAddrInto_label, List.nil_append]
  have short {below : NodePath} (mem : below ∈ hotPaths s) :
      (path ++ below).length ≤ family.width := by
    have le := length_le_of_within within mem
    rw [List.length_append]
    omega
  -- an address is in a block exactly if it begins with the path to its hot node
  rw [collect, covered, Set.mem_ofPred_eq]
  constructor
  · rintro ⟨_, mem, inside⟩
    obtain ⟨below, hot, rfl⟩ := List.mem_map.mp mem
    rw [mem_block_iff (by rw [prefixlen_addrAt]; exact short hot), key_addrAt (short hot)] at inside
    obtain ⟨more, eq⟩ := inside
    refine ⟨below ++ more, by rw [← eq, List.append_assoc], ?_⟩
    exact covers_eq_true_iff.mpr ⟨below, hot, List.prefix_append _ _⟩
  · rintro ⟨rest, eq, covered⟩
    obtain ⟨below, hot, inside⟩ := covers_eq_true_iff.mp covered
    refine ⟨_, List.mem_map_of_mem hot, ?_⟩
    rw [mem_block_iff (by rw [prefixlen_addrAt]; exact short hot), key_addrAt (short hot), eq]
    exact (List.prefix_append_right_inj path).mpr inside

end Valid

end IpDedup
