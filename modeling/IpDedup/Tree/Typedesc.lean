import IpDedup.Lib.BitString
import IpDedup.Tree.Data

/-!
# The laws of a type descriptor

The tree operations are generic: all they know of an address is what the type
descriptor tells them. This module states what they rely on and proves it of
both descriptors. The laws only speak about prefix positions `1..W`, so they
also hold of a descriptor whose bit helpers are undefined anywhere else.

## Main definitions

* `IpTreeTypedesc.Lawful`: the laws, relative to the network of each path
* `IpTreeTypedesc.guarded`: a descriptor without bit positions outside `1..W`
* `IpFamily`: the address families of the program

## Main results

* `ip4TreeNodeOps_lawful`, `ip6TreeNodeOps_lawful`, `IpTreeTypedesc.Lawful.guarded`
-/

set_option autoImplicit false

open BitString

namespace IpDedup

variable {α : Type}

/-! ### Laws -/

/-- `malloc` fails, or it yields the given node. -/
def newNode (node : IpTreeNode α) : Run (IpTreeNode α) := do
  if ← malloc then pure node else pure .null

theorem newNode_apply (node : IpTreeNode α) (mem : Mallocs) :
    newNode node mem = some (if mem 0 then node else .null, fun n => mem (n + 1)) := by
  cases h : mem 0 <;> simp [newNode, h]

@[simp] theorem newNode_all (node : IpTreeNode α) :
    newNode node Mallocs.all = some (node, Mallocs.all) := rfl

/-- What the operations rely on. An address has a word of `maxPrefixlen` bits,
and the helpers lead from the network of a path to those of its children and of
its sibling. -/
structure IpTreeTypedesc.Lawful (tdesc : IpTreeTypedesc α) where
  word : α → BitVec tdesc.maxPrefixlen
  addrAt : List Bool → α
  word_addrAt : ∀ {path}, path.length ≤ tdesc.maxPrefixlen →
    word (addrAt path) = BitString.word tdesc.maxPrefixlen tdesc.maxPrefixlen path
  prefixlen_addrAt : ∀ path, tdesc.fGetAddrPrefixlen (addrAt path) = path.length
  checkAddrBitSet : ∀ addr {prefixpos}, 1 ≤ prefixpos → prefixpos ≤ tdesc.maxPrefixlen →
    tdesc.fCheckAddrBitSet addr prefixpos = some ((word addr).getMsbD (prefixpos - 1))
  newNull : tdesc.fNewNull = newNode (.node .null .null false (addrAt []))
  newChild : ∀ {path} left right hot bit newHot, path.length < tdesc.maxPrefixlen →
    tdesc.fNewChild (.node left right hot (addrAt path)) bit newHot =
      newNode (.node .null .null newHot (addrAt (path ++ [bit])))
  newSibling : ∀ {path} left right hot bit newHot, path.length < tdesc.maxPrefixlen →
    tdesc.fNewSibling (.node left right hot (addrAt (path ++ [bit]))) newHot =
      newNode (.node .null .null newHot (addrAt (path ++ [!bit])))
  flipAddrInplace : ∀ {path} left right hot bit, path.length < tdesc.maxPrefixlen →
    tdesc.fFlipAddrInplace (.node left right hot (addrAt (path ++ [bit]))) =
      some (.node left right hot (addrAt (path ++ [!bit])))
  destroy : ∀ node, tdesc.fDestroy node = .null

/-! ### The descriptors of the program -/

theorem ipTreeNodeNewFrom_node (initNull : α) {init : α → Option α} {src addr : α}
    (derived : init src = some addr) (left right : IpTreeNode α) (hot newHot : Bool) :
    ipTreeNodeNewFrom initNull init (.node left right hot src) newHot =
      newNode (.node .null .null newHot addr) := by
  funext mem
  cases h : mem 0 <;> simp [ipTreeNodeNewFrom, ipTreeNodeNewNull, newNode, h, derived]

def ip4TreeNodeOps_lawful (w : UintFast32) : (ip4TreeNodeOps w).Lawful where
  word := Ip4Addr.word
  addrAt := ip4AddrAt
  word_addrAt := word_ip4AddrAt
  prefixlen_addrAt _ := rfl
  checkAddrBitSet addr _ low high := ip4AddrBitIsSetAt_eq addr low high
  newNull := rfl
  newChild left right hot bit newHot short :=
    ipTreeNodeNewFrom_node _ (ip4AddrInitChild_addrAt short bit) left right hot newHot
  newSibling left right hot bit newHot short :=
    ipTreeNodeNewFrom_node _ (ip4AddrInitSibling_addrAt short bit) left right hot newHot
  flipAddrInplace left right hot bit short := by
    simp [ip4TreeNodeOps, ipTreeNodeFlipAddrInplace, ip4AddrFlipInplace_addrAt short bit]
  destroy _ := rfl

def ip6TreeNodeOps_lawful : ip6TreeNodeOps.Lawful where
  word := Ip6Addr.word
  addrAt := ip6AddrAt
  word_addrAt _ := word_ip6AddrAt
  prefixlen_addrAt _ := rfl
  checkAddrBitSet addr _ low high := ip6AddrBitIsSetAt_eq addr low high
  newNull := rfl
  newChild left right hot bit newHot short :=
    ipTreeNodeNewFrom_node _ (ip6AddrInitChild_addrAt short bit) left right hot newHot
  newSibling left right hot bit newHot short :=
    ipTreeNodeNewFrom_node _ (ip6AddrInitSibling_addrAt short bit) left right hot newHot
  flipAddrInplace left right hot bit short := by
    simp [ip6TreeNodeOps, ipTreeNodeFlipAddrInplace, ip6AddrFlipInplace_addrAt short bit]
  destroy _ := rfl

/-- The address family of a tree. -/
inductive IpFamily where
  | v4 (w : UintFast32)
  | v6
deriving DecidableEq, Repr

namespace IpFamily

/-- The address type of a family. -/
abbrev Addr : IpFamily → Type
  | v4 w => Ip4Addr w
  | v6 => Ip6Addr

def typedesc : (family : IpFamily) → IpTreeTypedesc family.Addr
  | v4 w => ip4TreeNodeOps w
  | v6 => ip6TreeNodeOps

def lawful : (family : IpFamily) → family.typedesc.Lawful
  | v4 w => ip4TreeNodeOps_lawful w
  | v6 => ip6TreeNodeOps_lawful

end IpFamily

/-! ### Guarded bit positions -/

section Guarded

variable (tdesc : IpTreeTypedesc α)

/-- Continue only with a bit position in `1..W`. -/
def IpTreeTypedesc.guardPos (prefixpos : Nat) : Option Unit :=
  if 1 ≤ prefixpos ∧ prefixpos ≤ tdesc.maxPrefixlen then some () else none

/-- The same descriptor, but a bit helper called with a position outside `1..W`
is undefined. The positions are those that the helpers compute from the address
they are given. -/
def IpTreeTypedesc.guarded : IpTreeTypedesc α where
  maxPrefixlen := tdesc.maxPrefixlen
  fNewNull := tdesc.fNewNull
  fNewSibling src hot := do
    let addr ← src.addr?
    tdesc.guardPos (tdesc.fGetAddrPrefixlen addr)
    tdesc.fNewSibling src hot
  fNewChild src bitSet hot := do
    let addr ← src.addr?
    tdesc.guardPos (uintFast8 (tdesc.fGetAddrPrefixlen addr + 1))
    tdesc.fNewChild src bitSet hot
  fDestroy := tdesc.fDestroy
  fFlipAddrInplace obj := do
    let addr ← obj.addr?
    tdesc.guardPos (tdesc.fGetAddrPrefixlen addr)
    tdesc.fFlipAddrInplace obj
  fGetAddrPrefixlen := tdesc.fGetAddrPrefixlen
  fCheckAddrBitSet addr prefixpos := do
    tdesc.guardPos prefixpos
    tdesc.fCheckAddrBitSet addr prefixpos

@[simp] theorem IpTreeTypedesc.guarded_maxPrefixlen :
    tdesc.guarded.maxPrefixlen = tdesc.maxPrefixlen := rfl

@[simp] theorem IpTreeTypedesc.guarded_fGetAddrPrefixlen :
    tdesc.guarded.fGetAddrPrefixlen = tdesc.fGetAddrPrefixlen := rfl

@[simp] theorem IpTreeTypedesc.guarded_fNewNull :
    tdesc.guarded.fNewNull = tdesc.fNewNull := rfl

@[simp] theorem IpTreeTypedesc.guarded_fDestroy :
    tdesc.guarded.fDestroy = tdesc.fDestroy := rfl

theorem IpTreeTypedesc.guardPos_eq {prefixpos : Nat} (low : 1 ≤ prefixpos)
    (high : prefixpos ≤ tdesc.maxPrefixlen) : tdesc.guardPos prefixpos = some () :=
  if_pos ⟨low, high⟩

variable {tdesc}

/-- The laws never call a bit helper outside `1..W`. -/
def IpTreeTypedesc.Lawful.guarded (lawful : tdesc.Lawful) (narrow : tdesc.maxPrefixlen < 256) :
    tdesc.guarded.Lawful where
  word := lawful.word
  addrAt := lawful.addrAt
  word_addrAt := lawful.word_addrAt
  prefixlen_addrAt := lawful.prefixlen_addrAt
  checkAddrBitSet addr prefixpos low high := by
    refine Eq.trans ?_ (lawful.checkAddrBitSet addr low high)
    simp [IpTreeTypedesc.guarded, guardPos_eq tdesc low high]
  newNull := lawful.newNull
  newChild {path} left right hot bit newHot short := by
    have short' : path.length < tdesc.maxPrefixlen := short
    -- the position one below fits into eight bits
    have small : uintFast8 ((path.length : Int) + 1) = path.length + 1 :=
      uintFast8_of_lt (n := path.length + 1) (by omega)
    rw [← lawful.newChild left right hot bit newHot short]
    funext mem
    simp [IpTreeTypedesc.guarded, lawful.prefixlen_addrAt, small,
      guardPos_eq tdesc (show 1 ≤ path.length + 1 by omega) short']
  newSibling {path} left right hot bit newHot short := by
    rw [← lawful.newSibling left right hot bit newHot short]
    funext mem
    simp [IpTreeTypedesc.guarded, lawful.prefixlen_addrAt,
      guardPos_eq tdesc (show 1 ≤ path.length + 1 by omega) short]
  flipAddrInplace {path} left right hot bit short := by
    rw [← lawful.flipAddrInplace left right hot bit short]
    simp [IpTreeTypedesc.guarded, lawful.prefixlen_addrAt,
      guardPos_eq tdesc (show 1 ≤ path.length + 1 by omega) short]
  destroy := lawful.destroy

end Guarded

end IpDedup
