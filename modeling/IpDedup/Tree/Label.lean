import IpDedup.Lib.TriePath
import IpDedup.Tree.Operations
import IpDedup.Tree.Typedesc

/-!
# Tries as subnet trees

A trie becomes a subnet tree when every node gets the network of its path as
address. The search of `ip_tree_find` only looks at the shape of such a tree.

## Main definitions

* `IpTreeTypedesc.Lawful.label`: the subnet tree of a trie
* `IpTreeTypedesc.Lawful.key`: the bits that lead to an address

## Main results

* `ipTreeFindNode_label_cases`: what `ip_tree_find` returns
* `updateAt_label`: writing through a pointer into a subnet tree
-/

set_option autoImplicit false

namespace IpDedup

open BitTrie

variable {α : Type} {tdesc : IpTreeTypedesc α} (laws : tdesc.Lawful)

namespace IpTreeTypedesc.Lawful

/-- The subnet tree of a trie whose root is at the end of `path`. -/
def label : NodePath → BitTrie → IpTreeNode α
  | _, .nil => .null
  | path, .node l r hot =>
    .node (label (path ++ [false]) l) (label (path ++ [true]) r) hot (laws.addrAt path)

/-- All bits of an address, most significant bit first. -/
def bits (addr : α) : List Bool := BitString.ofNat tdesc.maxPrefixlen (laws.word addr).toNat

/-- The bits of an address up to its prefix length. -/
def key (addr : α) : List Bool := (laws.bits addr).take (tdesc.fGetAddrPrefixlen addr)

variable {path : NodePath} {s l r t : BitTrie} {hot bit : Bool}

@[simp] theorem label_nil (path : NodePath) : laws.label path .nil = .null := rfl

@[simp] theorem label_node :
    laws.label path (.node l r hot) =
      .node (laws.label (path ++ [false]) l) (laws.label (path ++ [true]) r) hot
        (laws.addrAt path) := rfl

@[simp] theorem isNull_label (path : NodePath) (s : BitTrie) :
    (laws.label path s).isNull = s.isNil := by
  cases s <;> rfl

@[simp] theorem isHot_label (path : NodePath) (s : BitTrie) :
    (laws.label path s).isHot = s.isHot := by
  cases s <;> rfl

theorem label_eq_null_iff : laws.label path s = .null ↔ s = .nil := by
  cases s <;> simp

theorem child_label (bit : Bool) :
    IpTreeNode.child (laws.label (path ++ [false]) l) (laws.label (path ++ [true]) r) bit =
      laws.label (path ++ [bit]) (child l r bit) := by
  cases bit <;> rfl

theorem setChild_label (bit : Bool) :
    IpTreeNode.setChild (laws.label (path ++ [false]) l) (laws.label (path ++ [true]) r) hot
      (laws.addrAt path) bit (laws.label (path ++ [bit]) t) =
      laws.label path (setChild l r hot bit t) := by
  cases bit <;> rfl

@[simp] theorem length_bits (addr : α) : (laws.bits addr).length = tdesc.maxPrefixlen :=
  BitString.length_ofNat _ _

theorem length_key {addr : α} (short : tdesc.fGetAddrPrefixlen addr ≤ tdesc.maxPrefixlen) :
    (laws.key addr).length = tdesc.fGetAddrPrefixlen addr := by
  simp [key, short]

/-- Testing a bit of an address reads the next bit of its key. -/
theorem checkAddrBitSet_of_agree {addr : α} {pos : Nat} {rest : List Bool}
    (next : bit :: rest <+: (laws.bits addr).drop pos) :
    tdesc.fCheckAddrBitSet addr (pos + 1) = some bit := by
  have read : (laws.bits addr)[pos]? = some bit := by
    obtain ⟨more, eq⟩ := next
    rw [← Nat.add_zero pos, ← List.getElem?_drop, ← eq]
    rfl
  have inside : pos < tdesc.maxPrefixlen := by
    simpa using (List.getElem?_eq_some_iff.mp read).1
  rw [laws.checkAddrBitSet addr (by omega) inside, ← read, bits, BitString.getElem?_ofNat inside]
  simp [BitVec.getMsbD, inside, BitVec.testBit_toNat]

/-- After the next bit, the key goes on below the child. -/
theorem agree_next {addr : α} {rest : List Bool}
    (agree : bit :: rest <+: (laws.bits addr).drop path.length) :
    rest <+: (laws.bits addr).drop (path ++ [bit]).length := by
  obtain ⟨more, eq⟩ := agree
  rw [List.length_append, ← List.drop_drop, ← eq]
  simp

end IpTreeTypedesc.Lawful

/-! ### Pointers into a tree -/

section Pointers

variable {β : Type} {f : IpTreeNode α → Run (β × IpTreeNode α)} {ret : β} {mem mem' : Mallocs}
  {path steps : NodePath} {s t : BitTrie}

/-- What is written through a pointer lands in the trie at the end of its path. -/
theorem updateAt_label (cold : ColdPath steps s)
    (write : f (laws.label (path ++ steps) (focus steps s)) mem =
      some ((ret, laws.label (path ++ steps) t), mem')) :
    (laws.label path s).updateAt f steps mem =
      some ((ret, laws.label path (graft steps t s)), mem') := by
  induction steps generalizing path s with
  | nil => simpa [IpTreeNode.updateAt] using write
  | cons bit steps ih => cases s with
    | nil => exact cold.elim
    | node l r hot =>
      have below : (laws.label (path ++ [bit]) (child l r bit)).updateAt f steps mem =
          some ((ret, laws.label (path ++ [bit]) (graft steps t (child l r bit))), mem') :=
        ih cold.2 (by simpa [focus] using write)
      simp only [IpTreeTypedesc.Lawful.label_node, IpTreeNode.updateAt, laws.child_label,
        Run.bind_apply, below, Option.bind_some, Run.pure_apply, laws.setChild_label, graft]

end Pointers

/-! ### Find -/

section Find

variable {addr : α} {steps : NodePath} {s : BitTrie} {pos : Nat}

/-- The search walks down a cold path. -/
theorem ipTreeFindNodeLoop_cold (cold : ColdPath steps s)
    (agree : steps <+: (laws.bits addr).drop pos) (path sub : NodePath) (cur : Option NodePath)
    (count : Nat) :
    ipTreeFindNodeLoop tdesc addr (steps.length + count) pos cur sub (laws.label path s) =
      ipTreeFindNodeLoop tdesc addr count (pos + steps.length)
        (if steps = [] then cur else some (sub ++ steps.dropLast)) (sub ++ steps)
        (laws.label (path ++ steps) (focus steps s)) := by
  induction steps generalizing path sub cur s pos with
  | nil => simp
  | cons bit steps ih => cases s with
    | nil => exact cold.elim
    | node l r hot =>
      obtain ⟨rfl, cold⟩ := cold
      have bitSet := laws.checkAddrBitSet_of_agree agree
      have present : (child l r bit).isNil = false := by
        simpa [← isNil_iff] using cold.ne_nil
      have agree' : steps <+: (laws.bits addr).drop (pos + 1) := by
        obtain ⟨more, eq⟩ := agree
        rw [← List.drop_drop, ← eq]
        simp
      have count' : (bit :: steps).length + count = (steps.length + count) + 1 := by simp; omega
      rw [count']
      -- one round goes down to the child for the bit, which is there
      simp only [IpTreeTypedesc.Lawful.label_node, ipTreeFindNodeLoop, bitSet, laws.child_label,
        laws.isNull_label, present, Bool.false_eq_true, if_false, Option.bind_eq_bind,
        Option.bind_some]
      rw [ih cold agree']
      have parent : (if steps = [] then some sub else some (sub ++ bit :: steps.dropLast)) =
          some (sub ++ (bit :: steps).dropLast) := by
        cases steps <;> simp
      simp [focus, parent, Nat.add_assoc, Nat.add_comm 1]

/-- The bits that lead from the root of a subtree to an address below it. -/
def IpTreeTypedesc.Lawful.keyFrom (path : NodePath) (addr : α) : List Bool :=
  (laws.key addr).drop path.length

variable {path : NodePath} (short : tdesc.fGetAddrPrefixlen addr ≤ tdesc.maxPrefixlen)
  (deep : path.length ≤ tdesc.fGetAddrPrefixlen addr)

variable (path) in
include short in
theorem IpTreeTypedesc.Lawful.length_keyFrom :
    (laws.keyFrom path addr).length = tdesc.fGetAddrPrefixlen addr - path.length := by
  simp [keyFrom, laws.length_key short]

theorem IpTreeTypedesc.Lawful.keyFrom_agrees :
    laws.keyFrom path addr <+: (laws.bits addr).drop path.length := by
  have front : laws.key addr <+: laws.bits addr := List.take_prefix _ _
  exact front.drop _

include short deep in
/-- The search ends at the node of the address, at a hot node above it, or
where a child is missing. -/
theorem ipTreeFindNode_label_cases (root : s ≠ .nil) :
    (ipTreeFindNode tdesc (laws.label path s) addr =
        some ⟨.hit, if laws.keyFrom path addr = [] then none
          else some (laws.keyFrom path addr).dropLast, some (laws.keyFrom path addr)⟩ ∧
      ColdPath (laws.keyFrom path addr) s) ∨
    (∃ steps bit rest, laws.keyFrom path addr = steps ++ bit :: rest ∧
      ipTreeFindNode tdesc (laws.label path s) addr = some ⟨.hitHotParent, some steps, none⟩ ∧
      ColdPath steps s ∧ ∃ l r, focus steps s = .node l r true) ∨
    (∃ steps bit rest, laws.keyFrom path addr = steps ++ bit :: rest ∧
      ipTreeFindNode tdesc (laws.label path s) addr = some ⟨.miss, some steps, none⟩ ∧
      ColdPath steps s ∧ ∃ l r, focus steps s = .node l r false ∧ child l r bit = .nil) := by
  have loop : ipTreeFindNode tdesc (laws.label path s) addr =
      ipTreeFindNodeLoop tdesc addr (laws.keyFrom path addr).length path.length none []
        (laws.label path s) := by
    obtain ⟨l, r, hot, rfl⟩ : ∃ l r hot, s = .node l r hot := by
      cases s with
      | nil => exact absurd rfl root
      | node l r hot => exact ⟨l, r, hot, rfl⟩
    simp only [ipTreeFindNode, laws.label_node, IpTreeNode.addr?_node, laws.prefixlen_addrAt,
      laws.length_keyFrom path short, Option.bind_eq_bind, Option.bind_some]
    rw [if_neg (by omega)]
  have agree : laws.keyFrom path addr <+: _ := laws.keyFrom_agrees
  rw [loop]
  generalize laws.keyFrom path addr = key at agree
  -- the search goes down where no node is hot, and one more round finds out why it ends
  rcases search_cases root key with cold | ⟨steps, bit, rest, rfl, cold, l, r, stop⟩ |
    ⟨steps, bit, rest, rfl, cold, l, r, stop, missing⟩
  · refine Or.inl ⟨?_, cold⟩
    have walk := ipTreeFindNodeLoop_cold laws cold agree path [] none 0
    rw [Nat.add_zero] at walk
    rw [walk]
    simp [ipTreeFindNodeLoop]
  · refine Or.inr (Or.inl ⟨steps, bit, rest, rfl, ?_, cold, l, r, stop⟩)
    have walk := ipTreeFindNodeLoop_cold laws cold ((List.prefix_append _ _).trans agree) path []
      none (rest.length + 1)
    rw [List.length_append, List.length_cons, walk, stop]
    simp [ipTreeFindNodeLoop]
  · refine Or.inr (Or.inr ⟨steps, bit, rest, rfl, ?_, cold, l, r, stop, missing⟩)
    have walk := ipTreeFindNodeLoop_cold laws cold ((List.prefix_append _ _).trans agree) path []
      none (rest.length + 1)
    have bitSet : tdesc.fCheckAddrBitSet addr (path.length + steps.length + 1) = some bit := by
      have next : bit :: rest <+: (laws.bits addr).drop (path.length + steps.length) := by
        rw [← List.drop_drop]
        obtain ⟨more, eq⟩ := agree
        exact ⟨more, by simp [← eq]⟩
      exact laws.checkAddrBitSet_of_agree next
    rw [List.length_append, List.length_cons, walk, stop]
    simp only [ipTreeFindNodeLoop, laws.label_node, laws.child_label, bitSet, missing,
      laws.label_nil, IpTreeNode.isNull_null, Bool.false_eq_true, if_false, if_true,
      Option.bind_eq_bind, Option.bind_some, List.nil_append]

end Find

end IpDedup
