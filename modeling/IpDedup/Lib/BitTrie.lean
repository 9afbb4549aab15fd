import Mathlib.Data.List.Infix
import Mathlib.Tactic.Common

/-!
# Binary tries as sets of keys

A node of a binary trie stands for the bits that lead to it. A hot node covers
every key that begins with these bits. Inserting, removing, collapsing and
inverting a trie are set operations on the keys it covers, up to a depth below
which the trie has no node.

## Main definitions

* `BitTrie`: tries, with `covers` for their meaning
* `chain`, `insert`, `remove`, `collapse`, `invert`: the operations
* `search`: the way down to the node where a search ends
* `HotLeaf`, `Fits`, `NoHotSiblings`, `Sprouting`: shapes of tries

## Main results

* `covers_insert_search`, `covers_remove`, `covers_collapse`, `covers_invert`: the
  operations on covered sets
* one preservation lemma per operation and shape; `invert` exchanges
  `NoHotSiblings` and `Sprouting`
-/

set_option autoImplicit false

/-- A binary trie. A node that is not hot only leads to its children. -/
inductive BitTrie where
  | nil
  | node (left right : BitTrie) (hot : Bool)
deriving DecidableEq, Repr

namespace BitTrie

/-! ### Nodes and keys -/

/-- A hot node without children. -/
def leaf : BitTrie := node nil nil true

def isNil : BitTrie → Bool
  | nil => true
  | node _ _ _ => false

def isHot : BitTrie → Bool
  | nil => false
  | node _ _ hot => hot

/-- The child on the side of a bit. -/
def child (left right : BitTrie) (bit : Bool) : BitTrie := if bit then right else left

/-- Replace the child on the side of a bit. -/
def setChild (left right : BitTrie) (hot bit : Bool) (sub : BitTrie) : BitTrie :=
  if bit then node left sub hot else node sub right hot

/-- A hot node on the way of the key covers it. -/
def covers : BitTrie → List Bool → Bool
  | nil, _ => false
  | node _ _ true, _ => true
  | node _ _ false, [] => false
  | node left right false, bit :: key => covers (child left right bit) key

@[simp] theorem isNil_nil : nil.isNil = true := rfl
@[simp] theorem isNil_node (l r : BitTrie) (h : Bool) : (node l r h).isNil = false := rfl
@[simp] theorem isHot_nil : nil.isHot = false := rfl
@[simp] theorem isHot_node (l r : BitTrie) (h : Bool) : (node l r h).isHot = h := rfl
@[simp] theorem isNil_leaf : leaf.isNil = false := rfl
@[simp] theorem isHot_leaf : leaf.isHot = true := rfl
@[simp] theorem leaf_ne_nil : leaf ≠ nil := by simp [leaf]
@[simp] theorem child_false (l r : BitTrie) : child l r false = l := rfl
@[simp] theorem child_true (l r : BitTrie) : child l r true = r := rfl

@[simp] theorem setChild_false (l r s : BitTrie) (h : Bool) :
    setChild l r h false s = node s r h := rfl

@[simp] theorem setChild_true (l r s : BitTrie) (h : Bool) :
    setChild l r h true s = node l s h := rfl

theorem isNil_iff {s : BitTrie} : s.isNil = true ↔ s = nil := by
  cases s <;> simp

@[simp] theorem isHot_setChild (l r s : BitTrie) (h b : Bool) : (setChild l r h b s).isHot = h := by
  cases b <;> rfl

theorem setChild_ne_nil (l r s : BitTrie) (h b : Bool) : setChild l r h b s ≠ nil := by
  cases b <;> simp

@[simp] theorem covers_nil (key : List Bool) : covers nil key = false := by
  cases key <;> rfl

@[simp] theorem covers_hot (l r : BitTrie) (key : List Bool) :
    covers (node l r true) key = true := by
  cases key <;> rfl

@[simp] theorem covers_node_nil (l r : BitTrie) : covers (node l r false) [] = false := rfl

@[simp] theorem covers_node_cons (l r : BitTrie) (bit : Bool) (key : List Bool) :
    covers (node l r false) (bit :: key) = covers (child l r bit) key := rfl

@[simp] theorem covers_leaf (key : List Bool) : covers leaf key = true := covers_hot nil nil key

/-- Replacing a child changes what is covered on its side alone. -/
theorem covers_setChild_cons (l r s : BitTrie) (bit b : Bool) (key : List Bool) :
    covers (setChild l r false bit s) (b :: key) =
      if b = bit then covers s key else covers (child l r b) key := by
  cases bit <;> cases b <;> rfl

@[simp] theorem covers_setChild_nil (l r s : BitTrie) (bit : Bool) :
    covers (setChild l r false bit s) [] = false := by
  cases bit <;> rfl

/-! ### Shapes -/

/-- Hot nodes have no children. -/
def HotLeaf : BitTrie → Prop
  | nil => True
  | node l r h => (h = true → l = nil ∧ r = nil) ∧ HotLeaf l ∧ HotLeaf r

/-- There is no node below depth `m`, and nodes at that depth are hot. -/
def Fits : Nat → BitTrie → Prop
  | _, nil => True
  | 0, node _ _ h => h = true
  | m + 1, node l r _ => Fits m l ∧ Fits m r

/-- No two hot nodes have the same parent. -/
def NoHotSiblings : BitTrie → Prop
  | nil => True
  | node l r _ => ¬ (l.isHot = true ∧ r.isHot = true) ∧ NoHotSiblings l ∧ NoHotSiblings r

/-- Every node that is not hot leads somewhere. -/
def Sprouting : BitTrie → Prop
  | nil => True
  | node l r h => (h = false → ¬ (l = nil ∧ r = nil)) ∧ Sprouting l ∧ Sprouting r

/-- Every node below the root that is not hot leads somewhere. -/
def SproutingBelow : BitTrie → Prop
  | nil => True
  | node l r _ => Sprouting l ∧ Sprouting r

/-- There is no node below depth `m`. -/
def Within : Nat → BitTrie → Prop
  | _, nil => True
  | 0, node l r _ => l = nil ∧ r = nil
  | m + 1, node l r _ => Within m l ∧ Within m r

@[simp] theorem hotLeaf_nil : HotLeaf nil := trivial
@[simp] theorem hotLeaf_leaf : HotLeaf leaf := ⟨fun _ => ⟨rfl, rfl⟩, trivial, trivial⟩
@[simp] theorem fits_nil (m : Nat) : Fits m nil := by cases m <;> trivial
@[simp] theorem fits_leaf (m : Nat) : Fits m leaf := by cases m <;> simp [leaf, Fits]
@[simp] theorem noHotSiblings_nil : NoHotSiblings nil := trivial
@[simp] theorem noHotSiblings_leaf : NoHotSiblings leaf := by simp [leaf, NoHotSiblings]
@[simp] theorem sprouting_nil : Sprouting nil := trivial
@[simp] theorem sprouting_leaf : Sprouting leaf := by simp [leaf, Sprouting]

theorem fits_zero_node {l r : BitTrie} {h : Bool} : Fits 0 (node l r h) ↔ h = true := Iff.rfl

theorem fits_succ_node {m : Nat} {l r : BitTrie} {h : Bool} :
    Fits (m + 1) (node l r h) ↔ Fits m l ∧ Fits m r := Iff.rfl

@[simp] theorem within_nil (m : Nat) : Within m nil := by cases m <;> trivial

theorem Fits.within {s : BitTrie} {m : Nat} (fits : Fits m s) (leafy : HotLeaf s) :
    Within m s := by
  induction s generalizing m with
  | nil => exact within_nil m
  | node l r hot left right => cases m with
    | zero => exact leafy.1 fits
    | succ m => exact ⟨left fits.1 leafy.2.1, right fits.2 leafy.2.2⟩

theorem Within.fits {s : BitTrie} {m : Nat} (within : Within m s) (sprouts : Sprouting s) :
    Fits m s := by
  induction s generalizing m with
  | nil => exact fits_nil m
  | node l r hot left right => cases m with
    | zero =>
      by_contra cold
      exact sprouts.1 (by simpa [fits_zero_node] using cold) within
    | succ m => exact ⟨left within.1 sprouts.2.1, right within.2 sprouts.2.2⟩

theorem HotLeaf.eq_leaf {s : BitTrie} (leafy : HotLeaf s) (hot : s.isHot = true) : s = leaf := by
  cases s with
  | nil => cases hot
  | node l r h =>
    obtain rfl : h = true := hot
    obtain ⟨rfl, rfl⟩ := leafy.1 rfl
    rfl

section Child

variable {l r s : BitTrie} {m : Nat} {b : Bool}

theorem HotLeaf.child {h : Bool} (leafy : HotLeaf (node l r h)) (b : Bool) :
    HotLeaf (child l r b) := by
  cases b
  · exact leafy.2.1
  · exact leafy.2.2

theorem HotLeaf.setChild (leafy : HotLeaf (node l r false)) (sub : HotLeaf s) (b : Bool) :
    HotLeaf (setChild l r false b s) := by
  cases b
  · exact ⟨by simp, sub, leafy.2.2⟩
  · exact ⟨by simp, leafy.2.1, sub⟩

theorem Fits.child {h : Bool} (fits : Fits (m + 1) (node l r h)) (b : Bool) :
    Fits m (child l r b) := by
  cases b
  · exact fits.1
  · exact fits.2

theorem Fits.setChild {h : Bool} (fits : Fits (m + 1) (node l r h)) (sub : Fits m s) (b : Bool) :
    Fits (m + 1) (setChild l r h b s) := by
  cases b
  · exact ⟨sub, fits.2⟩
  · exact ⟨fits.1, sub⟩

/-- A node that is not hot lies above the last level. -/
theorem Fits.exists_succ (fits : Fits m (node l r false)) : ∃ k, m = k + 1 := by
  cases m with
  | zero => cases fits
  | succ k => exact ⟨k, rfl⟩

theorem Fits.mono (fits : Fits m s) (leafy : HotLeaf s) {n : Nat} (h : m ≤ n) : Fits n s := by
  induction s generalizing m n with
  | nil => exact fits_nil n
  | node l r hot left right => cases hot with
    | true =>
      obtain ⟨rfl, rfl⟩ := leafy.1 rfl
      exact fits_leaf n
    | false =>
      obtain ⟨k, rfl⟩ := fits.exists_succ
      obtain ⟨j, rfl⟩ : ∃ j, n = j + 1 := ⟨n - 1, by omega⟩
      exact ⟨left fits.1 leafy.2.1 (by omega), right fits.2 leafy.2.2 (by omega)⟩

theorem NoHotSiblings.child {h : Bool} (apart : NoHotSiblings (node l r h)) (b : Bool) :
    NoHotSiblings (child l r b) := by
  cases b
  · exact apart.2.1
  · exact apart.2.2

theorem NoHotSiblings.setChild {h : Bool} (apart : NoHotSiblings (node l r h))
    (sub : NoHotSiblings s) (cold : s.isHot = false) (b : Bool) :
    NoHotSiblings (setChild l r h b s) := by
  cases b
  · exact ⟨by simp [cold], sub, apart.2.2⟩
  · exact ⟨by simp [cold], apart.2.1, sub⟩

theorem Sprouting.child {h : Bool} (sprouts : Sprouting (node l r h)) (b : Bool) :
    Sprouting (child l r b) := by
  cases b
  · exact sprouts.2.1
  · exact sprouts.2.2

theorem SproutingBelow.setChild {h h' : Bool} (sprouts : SproutingBelow (node l r h))
    (sub : Sprouting s) (b : Bool) : SproutingBelow (setChild l r h' b s) := by
  cases b
  · exact ⟨sub, sprouts.2⟩
  · exact ⟨sprouts.1, sub⟩

/-- A node with a child sprouts if everything below it does. -/
theorem Sprouting.setChild {h : Bool} (sprouts : SproutingBelow (node l r h))
    (sub : Sprouting s) (some : s ≠ nil) (b : Bool) : Sprouting (setChild l r h b s) := by
  cases b
  · exact ⟨by simp [some], sub, sprouts.2⟩
  · exact ⟨by simp [some], sprouts.1, sub⟩

theorem Sprouting.below {s : BitTrie} (sprouts : Sprouting s) : SproutingBelow s := by
  cases s with
  | nil => trivial
  | node l r h => exact sprouts.2

end Child

/-! ### A single branch -/

/-- The trie whose only hot node is at the end of the given bits. -/
def chain : List Bool → BitTrie
  | [] => leaf
  | bit :: key => setChild nil nil false bit (chain key)

theorem covers_chain (bits key : List Bool) : covers (chain bits) key = bits.isPrefixOf key := by
  induction bits generalizing key with
  | nil => simp [chain]
  | cons bit bits ih =>
    cases key with
    | nil => simp [chain]
    | cons b key =>
      rw [chain, covers_setChild_cons, List.isPrefixOf_cons_cons]
      by_cases same : b = bit
      · simp [same, ih]
      · cases b <;> cases bit <;> simp_all

theorem chain_ne_nil (bits : List Bool) : chain bits ≠ nil := by
  cases bits with
  | nil => simp [chain, leaf]
  | cons bit bits => exact setChild_ne_nil _ _ _ _ _

theorem hotLeaf_chain (bits : List Bool) : HotLeaf (chain bits) := by
  induction bits with
  | nil => exact hotLeaf_leaf
  | cons bit bits ih => cases bit <;> simp [chain, HotLeaf, ih]

theorem fits_chain {bits : List Bool} {m : Nat} (h : bits.length ≤ m) : Fits m (chain bits) := by
  induction bits generalizing m with
  | nil => exact fits_leaf m
  | cons bit bits ih =>
    obtain ⟨k, rfl⟩ : ∃ k, m = k + 1 := ⟨m - 1, by simp at h; omega⟩
    have below := ih (by simpa using h)
    cases bit <;> simp [chain, Fits, below]

theorem sprouting_chain (bits : List Bool) : Sprouting (chain bits) := by
  induction bits with
  | nil => exact sprouting_leaf
  | cons bit bits ih => cases bit <;> simp [chain, Sprouting, ih, chain_ne_nil]

theorem noHotSiblings_chain (bits : List Bool) : NoHotSiblings (chain bits) := by
  induction bits with
  | nil => exact noHotSiblings_leaf
  | cons bit bits ih => cases bit <;> simp [chain, NoHotSiblings, ih]

/-! ### Insert -/

/-- Cover the keys that begin with the given bits, creating at most `m` levels
below the root. -/
def insert : Nat → List Bool → BitTrie → BitTrie
  | _, _, nil => nil
  | _, _, node l r true => node l r true
  | _, [], node _ _ false => leaf
  | m, bit :: key, node l r false =>
    if (child l r bit).isNil then
      match m with
      -- no more levels, so the node covers its whole block
      | 0 => node l r true
      | m + 1 => setChild l r false bit (chain (key.take m))
    else
      setChild l r false bit (insert (m - 1) key (child l r bit))

@[simp] theorem insert_nil (m : Nat) (key : List Bool) : insert m key nil = nil := by
  cases key <;> rfl

@[simp] theorem insert_hot (m : Nat) (key : List Bool) (l r : BitTrie) :
    insert m key (node l r true) = node l r true := by
  cases key <;> rfl

theorem insert_missing {m : Nat} {bit : Bool} {key : List Bool} {l r : BitTrie}
    (missing : child l r bit = nil) :
    insert (m + 1) (bit :: key) (node l r false) =
      setChild l r false bit (chain (key.take m)) := by
  simp [insert, missing]

theorem insert_present {m : Nat} {bit : Bool} {key : List Bool} {l r : BitTrie}
    (present : child l r bit ≠ nil) :
    insert (m + 1) (bit :: key) (node l r false) =
      setChild l r false bit (insert m key (child l r bit)) := by
  simp [insert, isNil_iff, present]

theorem insert_ne_nil {m : Nat} {key : List Bool} {s : BitTrie} (h : s ≠ nil) :
    insert m key s ≠ nil := by
  cases s with
  | nil => exact absurd rfl h
  | node l r hot =>
    cases hot <;> cases key <;> simp only [insert, leaf, ne_eq, reduceCtorEq, not_false_eq_true]
    split
    · split <;> simp [setChild_ne_nil]
    · exact setChild_ne_nil _ _ _ _ _

theorem insert_childless (key : List Bool) :
    insert key.length key (node nil nil false) = chain key := by
  cases key with
  | nil => rfl
  | cons bit key =>
    have missing : child nil nil bit = nil := by cases bit <;> rfl
    rw [List.length_cons, insert_missing missing, List.take_length, chain]

/-- The steps of a key that a search can take: down to a hot node, or to where
a child is missing, or to the end of the key. -/
def search : List Bool → BitTrie → List Bool
  | _, nil => []
  | [], node _ _ _ => []
  | bit :: key, node l r hot =>
    if hot ∨ (child l r bit).isNil then [] else bit :: search key (child l r bit)

theorem search_missing {bit : Bool} {key : List Bool} {l r : BitTrie} {hot : Bool}
    (missing : child l r bit = nil) : search (bit :: key) (node l r hot) = [] := by
  simp [search, missing]

theorem search_present {bit : Bool} {key : List Bool} {l r : BitTrie}
    (present : child l r bit ≠ nil) :
    search (bit :: key) (node l r false) = bit :: search key (child l r bit) := by
  simp [search, isNil_iff, present]

theorem length_search_le {m : Nat} {s : BitTrie} (fits : Fits m s) (key : List Bool) :
    (search key s).length ≤ m := by
  induction key generalizing m s with
  | nil => cases s <;> simp [search]
  | cons bit key ih => cases s with
    | nil => simp [search]
    | node l r hot => cases hot with
      | true => simp [search]
      | false =>
        obtain ⟨k, rfl⟩ := fits.exists_succ
        by_cases missing : child l r bit = nil
        · simp [search_missing missing]
        · simpa [search_present missing] using ih (fits.child bit)

/-- Inserting adds one block. It is cut at `m` bits, but not above the node at
which the search ends. -/
theorem covers_insert_search {s : BitTrie} (root : s ≠ nil) (m : Nat) (bits key : List Bool) :
    covers (insert m bits s) key =
      (covers s key || (bits.take (max m (search bits s).length)).isPrefixOf key) := by
  induction bits generalizing m s key with
  | nil => cases s with
    | nil => exact absurd rfl root
    | node l r hot => cases hot <;> simp [insert]
  | cons bit bits ih => cases s with
    | nil => exact absurd rfl root
    | node l r hot => cases hot with
      | true => simp
      | false =>
        by_cases missing : child l r bit = nil
        · -- the search ends here, and only `m` counts
          rw [search_missing missing, List.length_nil, Nat.max_zero]
          cases m with
          | zero => simp [insert, missing]
          | succ m =>
            rw [insert_missing missing, List.take_succ_cons]
            cases key with
            | nil => simp
            | cons b key =>
              rw [covers_setChild_cons, covers_chain, covers_node_cons, List.isPrefixOf_cons_cons]
              by_cases same : b = bit
              · simp [same, missing]
              · cases b <;> cases bit <;> simp_all
        · -- one level less for the child, but the search may use up more than there are
          have levels : max m (search bits (child l r bit)).length.succ =
              max (m - 1) (search bits (child l r bit)).length + 1 := by omega
          have stays : insert m (bit :: bits) (node l r false) =
              setChild l r false bit (insert (m - 1) bits (child l r bit)) := by
            simp [insert, isNil_iff, missing]
          rw [search_present missing, List.length_cons, levels, stays, List.take_succ_cons]
          cases key with
          | nil => simp
          | cons b key =>
            rw [covers_setChild_cons, covers_node_cons, List.isPrefixOf_cons_cons, ih missing]
            by_cases same : b = bit
            · simp [same]
            · cases b <;> cases bit <;> simp_all

/-- With room for the key, the block is the key, truncated to `m` bits. -/
theorem covers_insert {m : Nat} {bits : List Bool} {s : BitTrie} (root : s ≠ nil)
    (room : bits.length ≤ m ∨ Fits m s) (key : List Bool) :
    covers (insert m bits s) key = (covers s key || (bits.take m).isPrefixOf key) := by
  have same : bits.take (max m (search bits s).length) = bits.take m := by
    rcases room with short | fits
    · rw [List.take_of_length_le short, List.take_of_length_le (short.trans (le_max_left _ _))]
    · rw [max_eq_left (length_search_le fits bits)]
  rw [covers_insert_search root, same]

/-- Room for the key: all its levels may be created, or the trie ends there. -/
theorem room_succ {m : Nat} {bit : Bool} {key : List Bool} {l r : BitTrie}
    (room : (bit :: key).length ≤ m ∨ Fits m (node l r false)) :
    ∃ k, m = k + 1 ∧ ∀ b, key.length ≤ k ∨ Fits k (child l r b) := by
  rcases room with short | fits
  · refine ⟨m - 1, by simp at short; omega, fun _ => Or.inl ?_⟩
    simp at short; omega
  · obtain ⟨k, rfl⟩ := fits.exists_succ
    exact ⟨k, rfl, fun b => Or.inr (fits.child b)⟩

theorem hotLeaf_insert {m : Nat} {bits : List Bool} {s : BitTrie} (leafy : HotLeaf s)
    (room : bits.length ≤ m ∨ Fits m s) : HotLeaf (insert m bits s) := by
  induction bits generalizing m s with
  | nil => cases s with
    | nil => trivial
    | node l r hot => cases hot <;> simp_all [insert]
  | cons bit bits ih => cases s with
    | nil => trivial
    | node l r hot => cases hot with
      | true => simpa using leafy
      | false =>
        obtain ⟨m, rfl, below⟩ := room_succ room
        by_cases missing : child l r bit = nil
        · rw [insert_missing missing]
          exact leafy.setChild (hotLeaf_chain _) bit
        · rw [insert_present missing]
          exact leafy.setChild (ih (leafy.child bit) (below bit)) bit

/-- Inserting creates no node below the levels it may create. -/
theorem fits_insert {m n : Nat} {bits : List Bool} {s : BitTrie} (fits : Fits n s)
    (short : (bits.take m).length ≤ n) : Fits n (insert m bits s) := by
  induction bits generalizing m n s with
  | nil => cases s with
    | nil => exact fits
    | node l r hot => cases hot <;> simp_all [insert]
  | cons bit bits ih => cases s with
    | nil => exact fits
    | node l r hot => cases hot with
      | true => simpa using fits
      | false =>
        obtain ⟨n, rfl⟩ := fits.exists_succ
        -- at depth `m` no node is created any more, but the search goes on
        cases m with
        | zero =>
          by_cases missing : child l r bit = nil
          · simpa [insert, missing, fits_succ_node] using fits
          · simp only [insert, isNil_iff, missing, if_false]
            exact fits.setChild (ih (fits.child bit) (by simp)) bit
        | succ m =>
          by_cases missing : child l r bit = nil
          · rw [insert_missing missing]
            exact fits.setChild (fits_chain (by simpa using short)) bit
          · rw [insert_present missing]
            exact fits.setChild (ih (fits.child bit) (by simpa using short)) bit

theorem sprouting_insert {m : Nat} {bits : List Bool} {s : BitTrie} (sprouts : Sprouting s) :
    Sprouting (insert m bits s) := by
  induction bits generalizing m s with
  | nil => cases s with
    | nil => trivial
    | node l r hot => cases hot <;> simp_all [insert]
  | cons bit bits ih => cases s with
    | nil => trivial
    | node l r hot => cases hot with
      | true => simpa using sprouts
      | false =>
        by_cases missing : child l r bit = nil
        · cases m with
          | zero => simpa [insert, missing, Sprouting] using sprouts.2
          | succ m =>
            rw [insert_missing missing]
            exact .setChild sprouts.below (sprouting_chain _) (chain_ne_nil _) bit
        · simp only [insert, isNil_iff, missing, if_false]
          exact .setChild sprouts.below (ih (sprouts.child bit)) (insert_ne_nil missing) bit

theorem sproutingBelow_insert {m : Nat} {bits : List Bool} {s : BitTrie}
    (sprouts : SproutingBelow s) : SproutingBelow (insert m bits s) := by
  cases s with
  | nil => simp [SproutingBelow]
  | node l r hot => cases hot with
    | true => simpa using sprouts
    | false => cases bits with
      | nil => simp [insert, leaf, SproutingBelow]
      | cons bit bits =>
        have sub : Sprouting (child l r bit) := by cases bit; exacts [sprouts.1, sprouts.2]
        by_cases missing : child l r bit = nil
        · cases m with
          | zero => simpa [insert, missing, SproutingBelow] using sprouts
          | succ m =>
            rw [insert_missing missing]
            exact sprouts.setChild (sprouting_chain _) bit
        · simp only [insert, isNil_iff, missing, if_false]
          exact sprouts.setChild (sprouting_insert sub) bit

/-! ### Invert -/

/-- Cover exactly what was not covered. -/
def invert : BitTrie → BitTrie
  | nil => leaf
  | node _ _ true => nil
  | node l r false => node (invert l) (invert r) false

theorem isHot_invert (s : BitTrie) : (invert s).isHot = s.isNil := by
  cases s with
  | nil => rfl
  | node l r hot => cases hot <;> rfl

theorem isNil_invert (s : BitTrie) : (invert s).isNil = s.isHot := by
  cases s with
  | nil => rfl
  | node l r hot => cases hot <;> rfl

theorem covers_invert {s : BitTrie} {key : List Bool} (fits : Fits key.length s) :
    covers (invert s) key = !covers s key := by
  induction s generalizing key with
  | nil => simp [invert]
  | node l r hot left right => cases hot with
    | true => simp [invert]
    | false => cases key with
      | nil => cases fits
      | cons b key =>
        rw [invert, covers_node_cons, covers_node_cons]
        cases b
        · exact left fits.1
        · exact right fits.2

theorem hotLeaf_invert (s : BitTrie) : HotLeaf (invert s) := by
  induction s with
  | nil => exact hotLeaf_leaf
  | node l r hot left right => cases hot with
    | true => trivial
    | false => exact ⟨by simp, left, right⟩

theorem fits_invert {s : BitTrie} {m : Nat} (fits : Fits m s) : Fits m (invert s) := by
  induction s generalizing m with
  | nil => exact fits_leaf m
  | node l r hot left right => cases hot with
    | true => exact fits_nil m
    | false =>
      obtain ⟨k, rfl⟩ := fits.exists_succ
      exact ⟨left fits.1, right fits.2⟩

theorem noHotSiblings_invert {s : BitTrie} (sprouts : Sprouting s) : NoHotSiblings (invert s) := by
  induction s with
  | nil => exact noHotSiblings_leaf
  | node l r hot left right => cases hot with
    | true => trivial
    | false =>
      refine ⟨?_, left sprouts.2.1, right sprouts.2.2⟩
      simpa [isHot_invert, isNil_iff] using sprouts.1 rfl

theorem sprouting_invert {s : BitTrie} (apart : NoHotSiblings s) : Sprouting (invert s) := by
  induction s with
  | nil => exact sprouting_leaf
  | node l r hot left right => cases hot with
    | true => trivial
    | false =>
      refine ⟨fun _ => ?_, left apart.2.1, right apart.2.2⟩
      simpa [← isNil_iff, isNil_invert] using apart.1

theorem invert_invert {s : BitTrie} (leafy : HotLeaf s) : invert (invert s) = s := by
  induction s with
  | nil => rfl
  | node l r hot left right => cases hot with
    | true =>
      obtain ⟨rfl, rfl⟩ := leafy.1 rfl
      rfl
    | false => simp [invert, left leafy.2.1, right leafy.2.2]

/-- The tries that can be inverted in place: hot siblings would leave a node
that leads nowhere, and such a node would leave hot siblings. -/
def Invertible (s : BitTrie) : Prop := NoHotSiblings s ∧ Sprouting s

@[simp] theorem invertible_nil : Invertible nil := ⟨trivial, trivial⟩
@[simp] theorem invertible_leaf : Invertible leaf := ⟨noHotSiblings_leaf, sprouting_leaf⟩

theorem invertible_node {l r : BitTrie} :
    Invertible (node l r false) ↔
      ¬ (l.isHot = true ∧ r.isHot = true) ∧ ¬ (l = nil ∧ r = nil) ∧
        Invertible l ∧ Invertible r := by
  simp only [Invertible, NoHotSiblings, Sprouting, true_implies]
  tauto

/-! ### Invert below a root

The root node stays, and a trie that covers nothing is not inverted. -/

/-- `invert` that keeps the root node and stops at one without children. -/
def invertBelow : BitTrie → BitTrie
  | nil => nil
  | node _ _ true => node nil nil false
  | node l r false => if l.isNil ∧ r.isNil then node nil nil false else invert (node l r false)

theorem invertBelow_of_child {l r : BitTrie} (h : ¬ (l = nil ∧ r = nil)) :
    invertBelow (node l r false) = invert (node l r false) := by
  rw [invertBelow, if_neg (by simpa [isNil_iff] using h)]

/-- A root without children leads nowhere, but it may stay. -/
def InvertibleBelow (s : BitTrie) : Prop := NoHotSiblings s ∧ SproutingBelow s

theorem invertibleBelow_iff {l r : BitTrie} (h : ¬ (l = nil ∧ r = nil)) :
    InvertibleBelow (node l r false) ↔ Invertible (node l r false) := by
  simp only [InvertibleBelow, Invertible, SproutingBelow, Sprouting, true_implies]
  tauto

theorem exists_covers {s : BitTrie} {m : Nat} (root : s ≠ nil) (sprouts : Sprouting s)
    (fits : Fits m s) : ∃ key : List Bool, key.length = m ∧ covers s key = true := by
  induction s generalizing m with
  | nil => exact absurd rfl root
  | node l r hot left right => cases hot with
    | true => exact ⟨List.replicate m false, by simp, by simp⟩
    | false =>
      -- one of the children is there, and it leads to a hot node
      obtain ⟨m, rfl⟩ := fits.exists_succ
      by_cases missing : l = nil
      · have present : r ≠ nil := fun h => sprouts.1 rfl ⟨missing, h⟩
        obtain ⟨key, length, covered⟩ := right present sprouts.2.2 fits.2
        exact ⟨true :: key, by simp [length], covered⟩
      · obtain ⟨key, length, covered⟩ := left missing sprouts.2.1 fits.1
        exact ⟨false :: key, by simp [length], covered⟩

section InvertBelow

variable {s : BitTrie} {m : Nat}

/-- Cover what was not covered, unless nothing was. -/
theorem covers_invertBelow {key : List Bool} (root : s ≠ nil) (fits : Fits key.length s)
    (sprouts : SproutingBelow s) :
    covers (invertBelow s) key = true ↔
      (∃ word : List Bool, word.length = key.length ∧ covers s word = true) ∧
        covers s key = false := by
  cases s with
  | nil => exact absurd rfl root
  | node l r hot => cases hot with
    | true => cases key <;> simp [invertBelow, child]
    | false =>
      by_cases childless : l = nil ∧ r = nil
      · -- a trie that covers nothing is kept
        obtain ⟨rfl, rfl⟩ := childless
        have none (word : List Bool) : covers (node nil nil false) word = false := by
          cases word with
          | nil => rfl
          | cons b word => cases b <;> simp
        simp [invertBelow, none]
      · have sprouts' : Sprouting (node l r false) := ⟨fun _ => childless, sprouts⟩
        have some := exists_covers root sprouts' fits
        rw [invertBelow_of_child childless, covers_invert fits]
        simp [some]

theorem invertBelow_ne_nil (root : s ≠ nil) : invertBelow s ≠ nil := by
  cases s with
  | nil => exact absurd rfl root
  | node l r hot => cases hot with
    | true => simp [invertBelow]
    | false =>
      rw [invertBelow]
      split_ifs <;> simp [invert]

theorem hotLeaf_invertBelow (s : BitTrie) : HotLeaf (invertBelow s) := by
  cases s with
  | nil => trivial
  | node l r hot => cases hot with
    | true => simp [invertBelow, HotLeaf]
    | false =>
      rw [invertBelow]
      split_ifs
      · simp [HotLeaf]
      · exact hotLeaf_invert _

theorem fits_invertBelow (fits : Fits (m + 1) s) : Fits (m + 1) (invertBelow s) := by
  cases s with
  | nil => trivial
  | node l r hot => cases hot with
    | true => simp [invertBelow, Fits]
    | false =>
      rw [invertBelow]
      split_ifs
      · simp [Fits]
      · exact fits_invert fits

theorem noHotSiblings_invertBelow (sprouts : SproutingBelow s) :
    NoHotSiblings (invertBelow s) := by
  cases s with
  | nil => trivial
  | node l r hot => cases hot with
    | true => simp [invertBelow, NoHotSiblings]
    | false =>
      rw [invertBelow]
      split_ifs with childless
      · simp [NoHotSiblings]
      · refine noHotSiblings_invert ⟨fun _ => ?_, sprouts⟩
        simpa [isNil_iff] using childless

end InvertBelow

/-! ### Remove -/

/-- Cover no key that begins with the given bits. A hot node above them is
replaced by the inverse of the branch that leads to them. -/
def remove : List Bool → BitTrie → BitTrie
  | _, nil => nil
  | [], node _ _ _ => nil
  | bit :: key, node _ _ true => invert (chain (bit :: key))
  | bit :: key, node l r false => setChild l r false bit (remove key (child l r bit))

/-- `remove` that keeps the root node. -/
def removeBelow : List Bool → BitTrie → BitTrie
  | _, nil => nil
  | [], node _ _ _ => node nil nil false
  | bit :: key, s => remove (bit :: key) s

theorem removeBelow_of_ne_nil {key : List Bool} (h : key ≠ []) (s : BitTrie) :
    removeBelow key s = remove key s := by
  cases key with
  | nil => exact absurd rfl h
  | cons bit key => cases s <;> rfl

@[simp] theorem remove_nil (key : List Bool) : remove key nil = nil := by
  cases key <;> rfl

@[simp] theorem remove_cons_hot (bit : Bool) (key : List Bool) (l r : BitTrie) :
    remove (bit :: key) (node l r true) = invert (chain (bit :: key)) := rfl

@[simp] theorem remove_cons_node (bit : Bool) (key : List Bool) (l r : BitTrie) :
    remove (bit :: key) (node l r false) =
      setChild l r false bit (remove key (child l r bit)) := rfl

theorem invert_chain_cons (bit : Bool) (bits : List Bool) :
    invert (chain (bit :: bits)) = setChild leaf leaf false bit (invert (chain bits)) := by
  cases bit <;> simp [chain, invert]

theorem covers_remove {bits key : List Bool} (short : bits.length ≤ key.length) (s : BitTrie) :
    covers (remove bits s) key = (covers s key && !bits.isPrefixOf key) := by
  induction bits generalizing key s with
  | nil => cases s <;> simp [remove]
  | cons bit bits ih =>
    cases key with
    | nil => simp at short
    | cons b key => cases s with
      | nil => simp
      | node l r hot => cases hot with
        | true =>
          -- the block was covered, so the inverse of the branch is what is left of it
          rw [remove_cons_hot, covers_invert (fits_chain short), covers_chain, covers_hot,
            Bool.true_and]
        | false =>
          rw [remove_cons_node, covers_setChild_cons, covers_node_cons, List.isPrefixOf_cons_cons]
          by_cases same : b = bit
          · simp [same, ih (by simpa using short)]
          · cases b <;> cases bit <;> simp_all

theorem covers_removeBelow {bits key : List Bool} (short : bits.length ≤ key.length)
    (s : BitTrie) : covers (removeBelow bits s) key = (covers s key && !bits.isPrefixOf key) := by
  cases bits with
  | nil => cases s with
    | nil => simp [removeBelow]
    | node l r hot =>
      cases key with
      | nil => simp [removeBelow]
      | cons b key => cases b <;> simp [removeBelow]
  | cons bit bits => cases s with
    | nil => simp [removeBelow]
    | node l r hot => exact covers_remove short (node l r hot)

theorem isHot_remove (bits : List Bool) (s : BitTrie) : (remove bits s).isHot = false := by
  cases s with
  | nil => simp
  | node l r hot => cases bits with
    | nil => rfl
    | cons bit bits => cases hot <;> simp [invert_chain_cons]

theorem hotLeaf_remove {s : BitTrie} (leafy : HotLeaf s) (bits : List Bool) :
    HotLeaf (remove bits s) := by
  induction bits generalizing s with
  | nil => cases s <;> trivial
  | cons bit bits ih => cases s with
    | nil => trivial
    | node l r hot => cases hot with
      | true => exact hotLeaf_invert _
      | false => exact leafy.setChild (ih (leafy.child bit)) bit

theorem fits_remove {s : BitTrie} {m : Nat} (fits : Fits m s) {bits : List Bool}
    (short : bits.length ≤ m) : Fits m (remove bits s) := by
  induction bits generalizing s m with
  | nil => cases s <;> simp [remove]
  | cons bit bits ih => cases s with
    | nil => exact fits
    | node l r hot => cases hot with
      | true => exact fits_invert (fits_chain short)
      | false =>
        obtain ⟨k, rfl⟩ := fits.exists_succ
        exact fits.setChild (ih (fits.child bit) (by simpa using short)) bit

theorem noHotSiblings_remove {s : BitTrie} (apart : NoHotSiblings s) (bits : List Bool) :
    NoHotSiblings (remove bits s) := by
  induction bits generalizing s with
  | nil => cases s <;> trivial
  | cons bit bits ih => cases s with
    | nil => trivial
    | node l r hot => cases hot with
      | true => exact noHotSiblings_invert (sprouting_chain _)
      | false => exact apart.setChild (ih (apart.child bit)) (isHot_remove ..) bit

section RemoveBelow

variable {s : BitTrie} {bits : List Bool}

theorem removeBelow_ne_nil (root : s ≠ nil) : removeBelow bits s ≠ nil := by
  cases s with
  | nil => exact absurd rfl root
  | node l r hot => cases bits with
    | nil => simp [removeBelow]
    | cons bit bits => cases hot <;> simp [removeBelow, invert_chain_cons, setChild_ne_nil]

theorem hotLeaf_removeBelow (leafy : HotLeaf s) : HotLeaf (removeBelow bits s) := by
  cases s with
  | nil => cases bits <;> trivial
  | node l r hot => cases bits with
    | nil => simp [removeBelow, HotLeaf]
    | cons bit bits => exact hotLeaf_remove leafy (bit :: bits)

theorem fits_removeBelow {m : Nat} (fits : Fits (m + 1) s) (short : bits.length ≤ m + 1) :
    Fits (m + 1) (removeBelow bits s) := by
  cases s with
  | nil => cases bits <;> trivial
  | node l r hot => cases bits with
    | nil => simp [removeBelow, Fits]
    | cons bit bits => exact fits_remove fits short

theorem noHotSiblings_removeBelow (apart : NoHotSiblings s) :
    NoHotSiblings (removeBelow bits s) := by
  cases s with
  | nil => cases bits <;> trivial
  | node l r hot => cases bits with
    | nil => simp [removeBelow, NoHotSiblings]
    | cons bit bits => exact noHotSiblings_remove apart (bit :: bits)

end RemoveBelow

/-! ### Collapse -/

/-- Merge hot siblings into their parent, from the bottom up. With a depth
limit, the nodes at that depth become hot as they are. -/
def collapse : Option Nat → BitTrie → BitTrie
  | _, nil => nil
  | limit, node l r hot =>
    if hot ∨ limit = some 0 then
      leaf
    else
      let l' := collapse (limit.map (· - 1)) l
      let r' := collapse (limit.map (· - 1)) r
      if l'.isHot ∧ r'.isHot then leaf else node l' r' false

@[simp] theorem collapse_nil (limit : Option Nat) : collapse limit nil = nil := rfl

@[simp] theorem collapse_hot (limit : Option Nat) (l r : BitTrie) :
    collapse limit (node l r true) = leaf := by simp [collapse]

theorem collapse_ne_nil {limit : Option Nat} {s : BitTrie} (h : s ≠ nil) :
    collapse limit s ≠ nil := by
  cases s with
  | nil => exact absurd rfl h
  | node l r hot =>
    rw [collapse]
    dsimp only
    split_ifs <;> simp [leaf]

theorem isNil_collapse (limit : Option Nat) (s : BitTrie) :
    (collapse limit s).isNil = s.isNil := by
  cases s with
  | nil => rfl
  | node l r hot =>
    have some : collapse limit (node l r hot) ≠ nil := collapse_ne_nil (by simp)
    simpa [← isNil_iff] using some

theorem noHotSiblings_collapse (limit : Option Nat) (s : BitTrie) :
    NoHotSiblings (collapse limit s) := by
  induction s generalizing limit with
  | nil => trivial
  | node l r hot left right =>
    rw [collapse]
    dsimp only
    split_ifs with now both
    · exact noHotSiblings_leaf
    · exact noHotSiblings_leaf
    · exact ⟨both, left _, right _⟩

theorem hotLeaf_collapse (limit : Option Nat) (s : BitTrie) : HotLeaf (collapse limit s) := by
  induction s generalizing limit with
  | nil => trivial
  | node l r hot left right =>
    rw [collapse]
    dsimp only
    split_ifs with now both
    · exact hotLeaf_leaf
    · exact hotLeaf_leaf
    · exact ⟨by simp, left _, right _⟩

theorem fits_collapse {limit : Option Nat} {s : BitTrie} {m : Nat} (fits : Fits m s) :
    Fits m (collapse limit s) := by
  induction s generalizing limit m with
  | nil => exact fits
  | node l r hot left right =>
    rw [collapse]
    dsimp only
    split_ifs with now both
    · exact fits_leaf m
    · exact fits_leaf m
    · cases hot with
      | true => simp at now
      | false =>
        obtain ⟨k, rfl⟩ := fits.exists_succ
        exact ⟨left fits.1, right fits.2⟩

theorem sprouting_collapse {limit : Option Nat} {s : BitTrie} (sprouts : Sprouting s) :
    Sprouting (collapse limit s) := by
  induction s generalizing limit with
  | nil => trivial
  | node l r hot left right =>
    rw [collapse]
    dsimp only
    split_ifs with now both
    · exact sprouting_leaf
    · exact sprouting_leaf
    · refine ⟨fun _ => ?_, left sprouts.2.1, right sprouts.2.2⟩
      have cold : hot = false := by simpa using fun h => now (Or.inl h)
      simpa [← isNil_iff, isNil_collapse] using sprouts.1 cold

theorem sproutingBelow_collapse {limit : Option Nat} {s : BitTrie} (sprouts : SproutingBelow s) :
    SproutingBelow (collapse limit s) := by
  cases s with
  | nil => trivial
  | node l r hot =>
    rw [collapse]
    dsimp only
    split_ifs with now both
    · simp [leaf, SproutingBelow]
    · simp [leaf, SproutingBelow]
    · exact ⟨sprouting_collapse sprouts.1, sprouting_collapse sprouts.2⟩

/-- Merging hot siblings does not remove a branch that leads nowhere. -/
theorem sprouting_of_collapse {s : BitTrie} (leafy : HotLeaf s)
    (sprouts : Sprouting (collapse none s)) : Sprouting s := by
  induction s with
  | nil => trivial
  | node l r hot left right => cases hot with
    | true =>
      obtain ⟨rfl, rfl⟩ := leafy.1 rfl
      exact sprouting_leaf
    | false =>
      simp only [collapse, Bool.false_eq_true, reduceCtorEq, or_self, if_false,
        Option.map_none] at sprouts
      split_ifs at sprouts with both
      · -- children that collapse to leaves are there, and lead to hot nodes
        have leafL := (hotLeaf_collapse none l).eq_leaf both.1
        have leafR := (hotLeaf_collapse none r).eq_leaf both.2
        refine ⟨?_, left leafy.2.1 (by simp [leafL]), right leafy.2.2 (by simp [leafR])⟩
        rintro - ⟨rfl, -⟩
        exact leaf_ne_nil leafL.symm
      · refine ⟨fun cold => ?_, left leafy.2.1 sprouts.2.1, right leafy.2.2 sprouts.2.2⟩
        simpa [← isNil_iff, isNil_collapse] using sprouts.1 cold

theorem sproutingBelow_of_collapse {s : BitTrie} (leafy : HotLeaf s)
    (sprouts : SproutingBelow (collapse none s)) : SproutingBelow s := by
  cases s with
  | nil => trivial
  | node l r hot => cases hot with
    | true =>
      obtain ⟨rfl, rfl⟩ := leafy.1 rfl
      exact ⟨trivial, trivial⟩
    | false =>
      simp only [collapse, Bool.false_eq_true, reduceCtorEq, or_self, if_false,
        Option.map_none] at sprouts
      split_ifs at sprouts with both
      · have leafL := (hotLeaf_collapse none l).eq_leaf both.1
        have leafR := (hotLeaf_collapse none r).eq_leaf both.2
        exact ⟨sprouting_of_collapse leafy.2.1 (by simp [leafL]),
          sprouting_of_collapse leafy.2.2 (by simp [leafR])⟩
      · exact ⟨sprouting_of_collapse leafy.2.1 sprouts.1,
          sprouting_of_collapse leafy.2.2 sprouts.2⟩

/-- Collapsing keeps what is covered, if the nodes at the depth limit are hot
already. -/
theorem covers_collapse {limit : Option Nat} {s : BitTrie} {key : List Bool}
    (fits : Fits key.length s) (capped : ∀ m, limit = some m → Fits m s) :
    covers (collapse limit s) key = covers s key := by
  induction s generalizing limit key with
  | nil => rfl
  | node l r hot left right => cases hot with
    | true => simp
    | false => cases key with
      | nil => cases fits
      | cons b key =>
        -- a node at the limit would be hot
        have below : limit ≠ some 0 := fun h => by cases capped 0 h
        have capped' : ∀ m, limit.map (· - 1) = some m → Fits m l ∧ Fits m r := by
          intro m same
          obtain ⟨n, hn, rfl⟩ := Option.map_eq_some_iff.mp same
          obtain ⟨k, rfl⟩ := (capped n hn).exists_succ
          exact capped (k + 1) hn
        have hleft := left fits.1 (fun m h => (capped' m h).1)
        have hright := right fits.2 (fun m h => (capped' m h).2)
        simp only [collapse, Bool.false_eq_true, below, or_self, if_false]
        split_ifs with both
        · have hl : covers l key = true := by
            rw [← hleft, (hotLeaf_collapse _ l).eq_leaf both.1, covers_leaf]
          have hr : covers r key = true := by
            rw [← hright, (hotLeaf_collapse _ r).eq_leaf both.2, covers_leaf]
          cases b <;> simp [hl, hr]
        · cases b <;> simp [hleft, hright]

end BitTrie
