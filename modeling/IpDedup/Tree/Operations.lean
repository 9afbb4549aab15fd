import IpDedup.Tree.Data

/-!
# Tree operations

`ip_tree/op`: find, insert, collapse, invert, purge and collect. A pointer into
a tree is the path of left (`false`) and right (`true`) steps that leads to the
node from the root. An operation returns its return code together with the tree
as it stands afterwards, also when it fails half way.
-/

set_option autoImplicit false

namespace IpDedup

variable {α : Type}

/-- The steps from the root to a node. -/
abbrev NodePath := List Bool

/-- Read through `node->left` or `node->right`. -/
def IpTreeNode.child (left right : IpTreeNode α) (bit : Bool) : IpTreeNode α :=
  if bit then right else left

/-- Write `sub` to `node->left` or `node->right`. -/
def IpTreeNode.setChild (left right : IpTreeNode α) (hot : Bool) (addr : α) (bit : Bool)
    (sub : IpTreeNode α) : IpTreeNode α :=
  if bit then .node left sub hot addr else .node sub right hot addr

/-- Run `f` on the node that a pointer designates, writing its result back.
Following a path through `NULL` is undefined. -/
def IpTreeNode.updateAt {β : Type} (f : IpTreeNode α → Run (β × IpTreeNode α)) :
    NodePath → IpTreeNode α → Run (β × IpTreeNode α)
  | [], target => f target
  | _ :: _, .null => fun _ => none
  | bit :: path, .node left right hot addr => do
    let (ret, sub) ← updateAt f path (IpTreeNode.child left right bit)
    pure (ret, IpTreeNode.setChild left right hot addr bit sub)

/-! ### Find -/

/-- Return codes of `ip_tree_find`; `error` is `-1`. -/
inductive IpTreeFindRet where
  | error
  | hit
  | hitHotParent
  | miss
deriving DecidableEq, Repr

/-- The return code and the two out variables, where `none` is `NULL`. -/
structure IpTreeFindResult where
  ret : IpTreeFindRet
  parentOut : Option NodePath
  nodeOut : Option NodePath
deriving DecidableEq, Repr

/-- The search loop with `count = prefixlen - cur_prefixpos` rounds to go;
`curNode` and `subPath` point to `cur_node` and `sub_node`. -/
def ipTreeFindNodeLoop (tdesc : IpTreeTypedesc α) (varAddr : α) :
    Nat → Nat → Option NodePath → NodePath → IpTreeNode α → Option IpTreeFindResult
  | 0, _, curNode, subPath, _ => some ⟨.hit, curNode, some subPath⟩
  | _ + 1, _, _, _, .null => none
  | count + 1, curPrefixpos, _, subPath, .node left right hot _ =>
    if hot then
      some ⟨.hitHotParent, some subPath, none⟩
    else do
      let bit ← tdesc.fCheckAddrBitSet varAddr (curPrefixpos + 1)
      let sub := IpTreeNode.child left right bit
      if sub.isNull then
        some ⟨.miss, some subPath, none⟩
      else
        ipTreeFindNodeLoop tdesc varAddr count (curPrefixpos + 1) (some subPath)
          (subPath ++ [bit]) sub

def ipTreeFindNode (tdesc : IpTreeTypedesc α) (root : IpTreeNode α) (varAddr : α) :
    Option IpTreeFindResult := do
  let prefixlen := tdesc.fGetAddrPrefixlen varAddr
  -- `root` is read before it is compared with `NULL`
  let rootAddr ← root.addr?
  let minPrefixpos := tdesc.fGetAddrPrefixlen rootAddr
  if prefixlen < minPrefixpos ∨ prefixlen > tdesc.maxPrefixlen then
    some ⟨.error, none, none⟩
  else
    ipTreeFindNodeLoop tdesc varAddr (prefixlen - minPrefixpos) minPrefixpos none [] root

def ipTreeFind (tree : IpTree α) (varAddr : α) : Option IpTreeFindResult :=
  ipTreeFindNode tree.tdesc tree.root varAddr

/-! ### Insert -/

/-- The node creation loop with `count = prefixlen - cur_prefixpos` rounds to
go. A new node is linked to its parent before the next one is allocated. -/
def ipTreeInsertWalkdownCreateLoop (tdesc : IpTreeTypedesc α) (varAddr : α) :
    Nat → Nat → IpTreeNode α → Run (Int × IpTreeNode α)
  | _, _, .null => fun _ => none
  | 0, _, .node left right _ addr => pure (0, .node left right true addr)
  | count + 1, curPrefixpos, .node left right hot addr => do
    let bit ← tdesc.fCheckAddrBitSet varAddr (curPrefixpos + 1)
    let subNode ← tdesc.fNewChild (.node left right hot addr) bit false
    if subNode.isNull then
      pure (-1, .node left right hot addr)
    else
      let (ret, sub) ← ipTreeInsertWalkdownCreateLoop tdesc varAddr count (curPrefixpos + 1) subNode
      pure (ret, IpTreeNode.setChild left right hot addr bit sub)

/-- The prefix length that nodes are created down to, subject to auto-collapse. -/
def ipTreeInsertPrefixlen (tree : IpTree α) (varAddr : α) : Nat :=
  let prefixlen := tree.tdesc.fGetAddrPrefixlen varAddr
  if tree.autoCollapsePrefixlen > 0 ∧ prefixlen > tree.autoCollapsePrefixlen then
    tree.autoCollapsePrefixlen
  else
    prefixlen

def ipTreeInsertWalkdownCreate (tree : IpTree α) (varAddr : α) (parent : IpTreeNode α) :
    Run (Int × IpTreeNode α) := do
  let prefixlen := ipTreeInsertPrefixlen tree varAddr
  let parentAddr ← parent.addr?
  let curPrefixpos := tree.tdesc.fGetAddrPrefixlen parentAddr
  ipTreeInsertWalkdownCreateLoop tree.tdesc varAddr (prefixlen - curPrefixpos) curPrefixpos parent

/-- `IP_TREE_FIND_HIT`: mark the node as hot and free its children. -/
def ipTreeInsertMarkHot (tdesc : IpTreeTypedesc α) : IpTreeNode α → Run (Int × IpTreeNode α)
  | .null => fun _ => none
  | .node left right hot addr =>
    if hot then
      pure (0, .node left right hot addr)
    else
      pure (0, .node (tdesc.fDestroy left) (tdesc.fDestroy right) true addr)

/-- Write through a pointer into a tree. -/
def IpTree.updateAt {β : Type} (tree : IpTree α) (ptr : Option NodePath)
    (f : IpTreeNode α → Run (β × IpTreeNode α)) : Run (β × IpTree α) := do
  let path ← ptr
  let (ret, root) ← tree.root.updateAt f path
  pure (ret, { tree with root := root })

def ipTreeInsert (tree : IpTree α) (varAddr : α) : Run (Int × IpTree α) := do
  let find ← ipTreeFind tree varAddr
  match find.ret with
  | .hitHotParent => pure (0, tree)
  | .hit => tree.updateAt find.nodeOut (ipTreeInsertMarkHot tree.tdesc)
  | .miss => tree.updateAt find.parentOut (ipTreeInsertWalkdownCreate tree varAddr)
  | .error => pure (-1, tree)

/-! ### Collapse -/

/-- `_ip_tree_collapse`, which is never called on `NULL`. -/
def ipTreeCollapseNode (tdesc : IpTreeTypedesc α) (autocolPrefixlen : Nat) :
    IpTreeNode α → IpTreeNode α
  | .null => .null
  | .node left right hot addr =>
    if hot then
      .node (tdesc.fDestroy left) (tdesc.fDestroy right) true addr
    else if autocolPrefixlen > 0 ∧ tdesc.fGetAddrPrefixlen addr ≥ autocolPrefixlen then
      .node (tdesc.fDestroy left) (tdesc.fDestroy right) true addr
    else
      let left' := ipTreeCollapseNode tdesc autocolPrefixlen left
      let right' := ipTreeCollapseNode tdesc autocolPrefixlen right
      if left'.isHot ∧ right'.isHot then
        .node (tdesc.fDestroy left') (tdesc.fDestroy right') true addr
      else
        .node left' right' hot addr

def ipTreeCollapse (tree : IpTree α) : Int × IpTree α :=
  (0, { tree with root := ipTreeCollapseNode tree.tdesc tree.autoCollapsePrefixlen tree.root })

/-! ### Invert -/

/-- `_ip_tree_invert`. The cases are lettered as in the source. -/
def ipTreeInvertNode (tdesc : IpTreeTypedesc α) : IpTreeNode α → Run (Int × IpTreeNode α)
  | .null => fun _ => none
  | .node left right hot addr =>
    if left.isHot then
      if !right.isNull then
        if right.isHot then
          -- (A): invalid tree
          pure (-1, .node left right hot addr)
        else do
          -- (B-2): destroy left, walk down right
          let (ret, right') ← ipTreeInvertNode tdesc right
          pure (if ret ≠ 0 then -1 else 0, .node (tdesc.fDestroy left) right' hot addr)
      else do
        -- (B-1): flip bit and move left to right
        let left' ← tdesc.fFlipAddrInplace left
        pure (0, .node .null left' hot addr)
    else if right.isHot then
      if !left.isNull then do
        -- (C-2): destroy right, walk down left
        let (ret, left') ← ipTreeInvertNode tdesc left
        pure (if ret ≠ 0 then -1 else 0, .node left' (tdesc.fDestroy right) hot addr)
      else do
        -- (C-1): flip bit and move right to left
        let right' ← tdesc.fFlipAddrInplace right
        pure (0, .node right' .null hot addr)
    else do
      -- (D): create the missing child or recurse, left before right
      let (ret, left') ← (
        if left.isNull then
          if right.isNull then
            pure (-1, left)
          else do
            let left' ← tdesc.fNewSibling right true
            pure (if left'.isNull then -1 else 0, left')
        else
          ipTreeInvertNode tdesc left)
      if ret ≠ 0 then
        pure (-1, .node left' right hot addr)
      else
        let (ret, right') ← (
          if right.isNull then do
            let right' ← tdesc.fNewSibling left' true
            pure (if right'.isNull then -1 else 0, right')
          else
            ipTreeInvertNode tdesc right)
        pure (if ret ≠ 0 then -1 else 0, .node left' right' hot addr)

def ipTreeInvert (tree : IpTree α) : Run (Int × IpTree α) :=
  match tree.root with
  | .null => fun _ => none
  | .node left right hot addr =>
    if hot then
      let root := .node (tree.tdesc.fDestroy left) (tree.tdesc.fDestroy right) false addr
      pure (0, { tree with root := root })
    else if left.isNull ∧ right.isNull then
      pure (0, tree)
    else do
      let (ret, root) ← ipTreeInvertNode tree.tdesc tree.root
      pure (ret, { tree with root := root })

/-! ### Purge -/

/-- `node == tree->root`: lose the marker and the children. -/
def ipTreePurgeRoot (tdesc : IpTreeTypedesc α) : IpTreeNode α → Run (Int × IpTreeNode α)
  | .null => fun _ => none
  | .node left right _ addr =>
    pure (0, .node (tdesc.fDestroy left) (tdesc.fDestroy right) false addr)

/-- Detach the node `node` from its parent, which `parent` points to. -/
def ipTreePurgeDetach (tdesc : IpTreeTypedesc α) (parent node : NodePath) :
    IpTreeNode α → Run (Int × IpTreeNode α)
  | .null => fun _ => none
  | .node left right hot addr =>
    if node = parent ++ [false] then
      pure (0, .node (tdesc.fDestroy left) right hot addr)
    else if node = parent ++ [true] then
      pure (0, .node left (tdesc.fDestroy right) hot addr)
    else
      pure (-1, .node left right hot addr)

def ipTreePurgeReplaceNode (tree : IpTree α) (parent : Option NodePath) (node : NodePath) :
    Run (Int × IpTree α) :=
  if node = [] then
    tree.updateAt (some node) (ipTreePurgeRoot tree.tdesc)
  else do
    let parent ← parent
    tree.updateAt (some parent) (ipTreePurgeDetach tree.tdesc parent node)

/-- Replace a hot node by the inverse, below it, of the network to be purged. -/
def ipTreePurgeReplaceParent (tree : IpTree α) (varAddr : α) :
    IpTreeNode α → Run (Int × IpTreeNode α)
  | .null => fun _ => none
  | .node left right hot addr => do
    match ← ipTreeNew tree.tdesc with
    | none => pure (-1, .node left right hot addr)
    | some replTree =>
      match replTree.root with
      | .null => fun _ => none
      | .node replLeft replRight replHot _ =>
        -- start new subtree at parent
        let replTree := { replTree with root := .node replLeft replRight replHot addr }
        let (ret, replTree) ← ipTreeInsert replTree varAddr
        if ret ≠ 0 then
          pure (-1, .node left right hot addr)
        else
          let (ret, replTree) ← ipTreeInvert replTree
          if ret ≠ 0 then
            pure (-1, .node left right hot addr)
          else
            match replTree.root with
            | .null => fun _ => none
            | .node replLeft replRight _ _ => pure (0, .node replLeft replRight false addr)

def ipTreePurge (tree : IpTree α) (varAddr : α) : Run (Int × IpTree α) := do
  let find ← ipTreeFind tree varAddr
  match find.ret with
  | .hitHotParent => tree.updateAt find.parentOut (ipTreePurgeReplaceParent tree varAddr)
  | .hit =>
    let node ← find.nodeOut
    ipTreePurgeReplaceNode tree find.parentOut node
  | .miss => pure (0, tree)
  | .error => pure (-1, tree)

/-! ### Collect -/

/-- `_ip4_tree_collect_addr_into`, `_ip6_tree_collect_addr_into`: append the
hot networks to the array, left before right. -/
def ipTreeCollectAddrInto (darr : List α) : IpTreeNode α → List α
  | .null => darr
  | .node left right hot addr =>
    if hot then
      darr ++ [addr]
    else
      ipTreeCollectAddrInto (ipTreeCollectAddrInto darr left) right

/-- `ip4_tree_collect_addr`, `ip6_tree_collect_addr` -/
def ipTreeCollectAddr (tree : IpTree α) : List α :=
  ipTreeCollectAddrInto [] tree.root

end IpDedup
