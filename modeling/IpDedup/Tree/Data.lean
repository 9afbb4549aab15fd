import IpDedup.Ip.Ip4
import IpDedup.Ip.Ip6

/-!
# The subnet tree

`ip_tree/data`: nodes, the type descriptor that makes the operations work for
both address families, and the tree itself. A pointer to a node is either
`NULL` or owns the node it points to, so a `struct ip_tree_node*` is a value of
the inductive type `IpTreeNode`, and an operation that writes through a pointer
returns the tree it leaves behind.
-/

set_option autoImplicit false

namespace IpDedup

/-- `struct ip_tree_node*`, where `null` is the `NULL` pointer. -/
inductive IpTreeNode (α : Type) where
  | null
  | node (left right : IpTreeNode α) (hot : Bool) (addr : α)
deriving DecidableEq, Repr

namespace IpTreeNode

variable {α : Type}

def isNull : IpTreeNode α → Bool
  | null => true
  | node _ _ _ _ => false

/-- Reading `addr` through a pointer; undefined for `NULL`. -/
def addr? : IpTreeNode α → Option α
  | null => none
  | node _ _ _ addr => some addr

/-- `child != NULL && child->hot`, as `ip_tree_node_left_hot` and
`ip_tree_node_right_hot` test it on either child. -/
def isHot : IpTreeNode α → Bool
  | null => false
  | node _ _ hot _ => hot

@[simp] theorem isNull_null : (null : IpTreeNode α).isNull = true := rfl

@[simp] theorem isNull_node (l r : IpTreeNode α) (hot : Bool) (a : α) :
    (node l r hot a).isNull = false := rfl

@[simp] theorem addr?_node (l r : IpTreeNode α) (hot : Bool) (a : α) :
    (node l r hot a).addr? = some a := rfl

@[simp] theorem isHot_null : (null : IpTreeNode α).isHot = false := rfl

@[simp] theorem isHot_node (l r : IpTreeNode α) (hot : Bool) (a : α) :
    (node l r hot a).isHot = hot := rfl

end IpTreeNode

/-- `struct ip_tree_typedesc`: the operations that depend on the address family. -/
structure IpTreeTypedesc (α : Type) where
  maxPrefixlen : Nat
  fNewNull : Run (IpTreeNode α)
  fNewSibling : IpTreeNode α → Bool → Run (IpTreeNode α)
  fNewChild : IpTreeNode α → Bool → Bool → Run (IpTreeNode α)
  fDestroy : IpTreeNode α → IpTreeNode α
  fFlipAddrInplace : IpTreeNode α → Option (IpTreeNode α)
  fGetAddrPrefixlen : α → Nat
  fCheckAddrBitSet : α → Nat → Option Bool

/-- `struct ip_tree` -/
structure IpTree (α : Type) where
  tdesc : IpTreeTypedesc α
  root : IpTreeNode α
  autoCollapsePrefixlen : Nat

/-! ### Node functions shared by both address families -/

section NodeFunctions

variable {α : Type}

/-- `ip4_tree_node_new_null`, `ip6_tree_node_new_null` -/
def ipTreeNodeNewNull (initNull : α) : Run (IpTreeNode α) := do
  if ← malloc then pure (.node .null .null false initNull) else pure .null

/-- Allocate a node and give it the address that `init` derives from `src`. -/
def ipTreeNodeNewFrom (initNull : α) (init : α → Option α) (src : IpTreeNode α) (hot : Bool) :
    Run (IpTreeNode α) := do
  match ← ipTreeNodeNewNull initNull with
  | .null => pure .null
  | .node left right _ _ =>
    let srcAddr ← src.addr?
    let addr ← init srcAddr
    pure (.node left right hot addr)

/-- `ip4_tree_node_destroy`, `ip6_tree_node_destroy`: free a subtree and set the
pointer to `NULL`. -/
def ipTreeNodeDestroy (_ : IpTreeNode α) : IpTreeNode α := .null

/-- `ip4_tree_node_flip_addr_inplace`, `ip6_tree_node_flip_addr_inplace` -/
def ipTreeNodeFlipAddrInplace (flip : α → Option α) : IpTreeNode α → Option (IpTreeNode α)
  | .null => none
  | .node left right hot addr => (flip addr).map fun addr' => .node left right hot addr'

end NodeFunctions

/-- `IP4_TREE_NODE_OPS` -/
def ip4TreeNodeOps (w : UintFast32) : IpTreeTypedesc (Ip4Addr w) where
  maxPrefixlen := ip4MaxPrefixlen
  fNewNull := ipTreeNodeNewNull ip4AddrInitNull
  fNewSibling := ipTreeNodeNewFrom ip4AddrInitNull ip4AddrInitSibling
  fNewChild src bitSet := ipTreeNodeNewFrom ip4AddrInitNull (ip4AddrInitChild · bitSet) src
  fDestroy := ipTreeNodeDestroy
  fFlipAddrInplace := ipTreeNodeFlipAddrInplace ip4AddrFlipInplace
  fGetAddrPrefixlen addr := addr.prefixlen
  fCheckAddrBitSet := ip4AddrBitIsSetAt

/-- `IP6_TREE_NODE_OPS` -/
def ip6TreeNodeOps : IpTreeTypedesc Ip6Addr where
  maxPrefixlen := ip6MaxPrefixlen
  fNewNull := ipTreeNodeNewNull ip6AddrInitNull
  fNewSibling := ipTreeNodeNewFrom ip6AddrInitNull ip6AddrInitSibling
  fNewChild src bitSet := ipTreeNodeNewFrom ip6AddrInitNull (ip6AddrInitChild · bitSet) src
  fDestroy := ipTreeNodeDestroy
  fFlipAddrInplace := ipTreeNodeFlipAddrInplace ip6AddrFlipInplace
  fGetAddrPrefixlen addr := addr.prefixlen
  fCheckAddrBitSet := ip6AddrBitIsSetAt

/-! ### Trees -/

section Tree

variable {α : Type}

/-- `ip_tree_new`: `none` is `NULL`. -/
def ipTreeNew (tdesc : IpTreeTypedesc α) : Run (Option (IpTree α)) := do
  if ← malloc then
    let root ← tdesc.fNewNull
    if root.isNull then pure none else pure (some ⟨tdesc, root, 0⟩)
  else
    pure none

def ipTreeSetAutoCollapse (tree : IpTree α) (prefixlen : Nat) : IpTree α :=
  { tree with autoCollapsePrefixlen := prefixlen }

end Tree

end IpDedup
