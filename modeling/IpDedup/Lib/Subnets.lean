import IpDedup.Lib.BitTrie
import Mathlib.Order.Basic

/-!
# Sets of blocks as tries

A trie with a root, whose hot nodes have no children and lie at most `depth`
levels down, represents a union of blocks. The operations of `BitTrie` act on
such tries, and each one is a set operation on the words it covers.

## Main definitions

* `Subnets`: tries that carry their shape
* `Subnets.Covers`: the words that lie in some block

## Main results

* `Subnets.covers_insert`, `Subnets.covers_remove`, `Subnets.covers_collapse`,
  `Subnets.covers_invert`
* `Subnets.covers_insertAll`, `Subnets.covers_removeAll`: the same for lists of blocks
-/

set_option autoImplicit false

open BitTrie

/-- A trie of blocks of at most `depth` bits. -/
structure Subnets (depth : Nat) where
  trie : BitTrie
  root : trie ≠ nil
  leafy : HotLeaf trie
  fits : Fits depth trie
  deep : 0 < depth

namespace Subnets

section Operations

variable {depth : Nat} (S : Subnets depth)

/-- The word lies in some block. -/
def Covers (word : List Bool) : Prop := covers S.trie word = true

theorem fits_empty {depth : Nat} (deep : 0 < depth) : Fits depth (node nil nil false) := by
  obtain ⟨m, rfl⟩ := Nat.exists_eq_add_one_of_ne_zero deep.ne'
  simp [Fits]

/-- No block. -/
def empty {depth : Nat} (deep : 0 < depth) : Subnets depth where
  trie := node nil nil false
  root := by simp
  leafy := by simp [HotLeaf]
  fits := fits_empty deep
  deep := deep

theorem room (key : List Bool) : key.length ≤ min key.length depth ∨
    Fits (min key.length depth) S.trie := by
  rcases Nat.le_total key.length depth with short | long
  · exact Or.inl (le_min le_rfl short)
  · rw [Nat.min_eq_right long]
    exact Or.inr S.fits

/-- Add one block, widened to `depth` bits if it is smaller. -/
def insert (key : List Bool) : Subnets depth where
  trie := BitTrie.insert (min key.length depth) key S.trie
  root := insert_ne_nil S.root
  leafy := hotLeaf_insert S.leafy (S.room key)
  fits := fits_insert S.fits (by rw [List.length_take]; omega)
  deep := S.deep

/-- Remove what lies in one block, widened likewise. -/
def remove (key : List Bool) : Subnets depth where
  trie := removeBelow (key.take depth) S.trie
  root := removeBelow_ne_nil S.root
  leafy := hotLeaf_removeBelow S.leafy
  fits := by
    obtain ⟨m, rfl⟩ : ∃ m, depth = m + 1 := ⟨depth - 1, by have := S.deep; omega⟩
    exact fits_removeBelow S.fits (List.length_take_le _ _)
  deep := S.deep

/-- Merge the halves of a block, and blocks below the depth limit. -/
def collapse (limit : Option Nat) : Subnets depth where
  trie := BitTrie.collapse limit S.trie
  root := collapse_ne_nil S.root
  leafy := hotLeaf_collapse limit S.trie
  fits := fits_collapse S.fits
  deep := S.deep

/-- The complement, but no block remains no block. -/
def invert : Subnets depth where
  trie := invertBelow S.trie
  root := invertBelow_ne_nil S.root
  leafy := hotLeaf_invertBelow S.trie
  fits := by
    obtain ⟨m, rfl⟩ : ∃ m, depth = m + 1 := ⟨depth - 1, by have := S.deep; omega⟩
    exact fits_invertBelow S.fits
  deep := S.deep

/-- Allow smaller blocks. -/
def deepen {m : Nat} (h : depth ≤ m) : Subnets m where
  trie := S.trie
  root := S.root
  leafy := S.leafy
  fits := S.fits.mono S.leafy h
  deep := S.deep.trans_le h

end Operations

/-! ### What is covered -/

variable {depth : Nat} {S : Subnets depth} {word : List Bool}

@[simp] theorem trie_insert (key : List Bool) :
    (S.insert key).trie = BitTrie.insert (min key.length depth) key S.trie := rfl

theorem not_covers_empty (deep : 0 < depth) (word : List Bool) :
    ¬ (empty deep).Covers word := by
  cases word with
  | nil => simp [Covers, empty]
  | cons b word => cases b <;> simp [Covers, empty]

theorem covers_insert (key : List Bool) :
    (S.insert key).Covers word ↔ S.Covers word ∨ key.take depth <+: word := by
  have same : key.take (min key.length depth) = key.take depth := by
    rw [Nat.min_comm, ← List.take_take, List.take_length]
  rw [Covers, insert, BitTrie.covers_insert S.root (S.room key), Bool.or_eq_true,
    List.isPrefixOf_iff_prefix, same, Covers]

theorem covers_remove (key : List Bool) (wide : depth ≤ word.length) :
    (S.remove key).Covers word ↔ S.Covers word ∧ ¬ key.take depth <+: word := by
  rw [Covers, remove, covers_removeBelow ((List.length_take_le _ _).trans wide), Bool.and_eq_true,
    Bool.not_eq_true', ← Bool.not_eq_true, List.isPrefixOf_iff_prefix, Covers]

theorem covers_collapse {limit : Option Nat} (wide : depth ≤ word.length)
    (capped : ∀ m, limit = some m → depth ≤ m) :
    (S.collapse limit).Covers word ↔ S.Covers word := by
  rw [Covers, collapse, BitTrie.covers_collapse (S.fits.mono S.leafy wide)
    (fun m h => S.fits.mono S.leafy (capped m h)), Covers]

theorem covers_invert (wide : depth ≤ word.length) (sprouts : SproutingBelow S.trie) :
    S.invert.Covers word ↔
      (∃ other : List Bool, other.length = word.length ∧ S.Covers other) ∧ ¬ S.Covers word := by
  rw [Covers, invert, covers_invertBelow S.root (S.fits.mono S.leafy wide) sprouts, Covers,
    Bool.not_eq_true]
  rfl

/-! ### Lists of blocks -/

/-- Add every block of a list. -/
def insertAll (S : Subnets depth) (keys : List (List Bool)) : Subnets depth :=
  keys.foldl insert S

/-- Remove every block of a list. -/
def removeAll (S : Subnets depth) (keys : List (List Bool)) : Subnets depth :=
  keys.foldl remove S

@[simp] theorem insertAll_nil : S.insertAll [] = S := rfl

@[simp] theorem insertAll_cons (key : List Bool) (keys : List (List Bool)) :
    S.insertAll (key :: keys) = (S.insert key).insertAll keys := rfl

@[simp] theorem removeAll_nil : S.removeAll [] = S := rfl

@[simp] theorem removeAll_cons (key : List Bool) (keys : List (List Bool)) :
    S.removeAll (key :: keys) = (S.remove key).removeAll keys := rfl

theorem covers_insertAll (keys : List (List Bool)) :
    (S.insertAll keys).Covers word ↔ S.Covers word ∨ ∃ key ∈ keys, key.take depth <+: word := by
  induction keys generalizing S with
  | nil => simp
  | cons key keys ih =>
    rw [insertAll_cons, ih, covers_insert, List.exists_mem_cons_iff, or_assoc]

theorem covers_removeAll (keys : List (List Bool)) (wide : depth ≤ word.length) :
    (S.removeAll keys).Covers word ↔
      S.Covers word ∧ ¬ ∃ key ∈ keys, key.take depth <+: word := by
  induction keys generalizing S with
  | nil => simp
  | cons key keys ih =>
    rw [removeAll_cons, ih, covers_remove key wide, List.exists_mem_cons_iff, not_or, and_assoc]

theorem sproutingBelow_insertAll (sprouts : SproutingBelow S.trie) (keys : List (List Bool)) :
    SproutingBelow (S.insertAll keys).trie := by
  induction keys generalizing S with
  | nil => exact sprouts
  | cons key keys ih => exact ih (sproutingBelow_insert sprouts)

theorem noHotSiblings_removeAll (apart : NoHotSiblings S.trie) (keys : List (List Bool)) :
    NoHotSiblings (S.removeAll keys).trie := by
  induction keys generalizing S with
  | nil => exact apart
  | cons key keys ih => exact ih (noHotSiblings_removeBelow apart)

end Subnets
