import IpDedup.Lib.PrefixCover
import IpDedup.Lib.Subnets

/-!
# Sizes of tries

How many blocks a trie has after each operation. Adding a block adds at most
one, and merging adds none. Removing a block, or inverting, may leave one block
beside each step of a path.

## Main definitions

* `BitTrie.count`: the number of hot nodes

## Main results

* `BitTrie.count_insert_le`, `BitTrie.count_remove_le`, `BitTrie.count_invert_le`
* `Subnets.count_insertAll_le`, `Subnets.count_removeAll_le`: the same for lists of blocks
-/

set_option autoImplicit false

namespace BitTrie

/-- The number of hot nodes that are not below others. -/
def count : BitTrie → Nat
  | nil => 0
  | node _ _ true => 1
  | node l r false => count l + count r

variable {s l r : BitTrie}

theorem length_hotPaths (s : BitTrie) : (hotPaths s).length = count s := by
  induction s with
  | nil => rfl
  | node l r hot left right => cases hot with
    | true => rfl
    | false => simp [hotPaths, count, left, right]

theorem count_setChild (l r s : BitTrie) (b : Bool) :
    count (setChild l r false b s) + count (child l r b) = count (node l r false) + count s := by
  cases b <;> simp only [setChild_false, setChild_true, child_false, child_true, count] <;> omega

theorem count_leaf : count leaf = 1 := rfl

theorem count_chain (bits : List Bool) : count (chain bits) = 1 := by
  induction bits with
  | nil => rfl
  | cons b bits ih => cases b <;> simp [chain, count, ih]

/-- A trie that leads somewhere has a block. -/
theorem count_pos (sprouts : Sprouting s) (root : s ≠ nil) : 0 < count s := by
  induction s with
  | nil => exact absurd rfl root
  | node l r hot left right => cases hot with
    | true => exact Nat.one_pos
    | false =>
      obtain ⟨some, sproutsL, sproutsR⟩ := sprouts
      rw [count]
      by_cases missing : l = nil
      · have below := right sproutsR fun none => some rfl ⟨missing, none⟩
        omega
      · have below := left sproutsL missing
        omega

/-- Adding a block adds at most one. -/
theorem count_insert_le (m : Nat) (key : List Bool) (s : BitTrie) :
    count (insert m key s) ≤ count s + 1 := by
  induction key generalizing m s with
  | nil => cases s with
    | nil => simp
    | node l r hot => cases hot <;> simp [insert, leaf, count]
  | cons bit key ih => cases s with
    | nil => simp
    | node l r hot => cases hot with
      | true => simp
      | false =>
        -- a missing child becomes a chain; one that exists is inserted into
        by_cases missing : child l r bit = nil
        · cases m with
          | zero => simp [insert, missing, count]
          | succ m =>
            have moved := count_setChild l r (chain (key.take m)) bit
            rw [count_chain] at moved
            rw [insert_missing missing]
            omega
        · have moved := count_setChild l r (insert (m - 1) key (child l r bit)) bit
          have below := ih (m - 1) (child l r bit)
          simp only [insert, isNil_iff, missing, if_false]
          omega

/-- Merging adds no blocks. -/
theorem count_collapse_le {limit : Option Nat} (sprouts : Sprouting s) :
    count (collapse limit s) ≤ count s := by
  induction s generalizing limit with
  | nil => simp
  | node l r hot left right =>
    have positive := count_pos sprouts (by simp)
    rw [collapse]
    dsimp only
    split_ifs with stop merge
    · exact positive
    · exact positive
    · -- the node stays, with both children collapsed
      rw [not_or, Bool.not_eq_true] at stop
      have belowL := @left (limit.map (· - 1)) sprouts.2.1
      have belowR := @right (limit.map (· - 1)) sprouts.2.2
      rw [stop.1, count, count]
      omega

theorem count_invert_le {m : Nat} (fits : Fits m s) (sprouts : Sprouting s) :
    count (invert s) ≤ m * count s + 1 := by
  induction s generalizing m with
  | nil => simp [invert, leaf, count]
  | node l r hot left right => cases hot with
    | true => simp [invert, count]
    | false =>
      obtain ⟨k, rfl⟩ := fits.exists_succ
      have positive := count_pos sprouts (by simp)
      have belowL := left fits.1 sprouts.2.1
      have belowR := right fits.2 sprouts.2.2
      -- one step up, the bound grows by the number of blocks, which is at least one
      rw [count] at positive
      simp only [invert, count]
      nlinarith

/-- Removing a block leaves at most one more beside each step of its path. -/
theorem count_remove_le (key : List Bool) (s : BitTrie) :
    count (remove key s) ≤ count s + key.length := by
  induction key generalizing s with
  | nil => cases s <;> simp [remove, count]
  | cons bit key ih => cases s with
    | nil => simp
    | node l r hot => cases hot with
      | true =>
        -- what is left of a block is beside the path
        have beside (bits : List Bool) : count (invert (chain bits)) = bits.length := by
          induction bits with
          | nil => rfl
          | cons b bits ih => cases b <;> simp [chain, invert, count, leaf, ih, Nat.add_comm]
        rw [remove_cons_hot, beside]
        omega
      | false =>
        have moved := count_setChild l r (remove key (child l r bit)) bit
        have below := ih (child l r bit)
        rw [remove_cons_node, List.length_cons]
        omega

/-! ### Below a root -/

theorem count_collapse_le_of_below {limit : Option Nat} (sprouts : SproutingBelow s)
    (deep : limit ≠ some 0) : count (collapse limit s) ≤ count s := by
  cases s with
  | nil => simp
  | node l r hot => cases hot with
    | true => simp [count, leaf]
    | false =>
      have belowL := @count_collapse_le l (limit.map (· - 1)) sprouts.1
      have belowR := @count_collapse_le r (limit.map (· - 1)) sprouts.2
      rw [collapse, if_neg (by simpa using deep)]
      dsimp only
      split_ifs with merge
      · -- both children were there, and each has a block
        have some : l ≠ nil := by
          rintro rfl
          exact Bool.false_ne_true merge.1
        have positive := count_pos sprouts.1 some
        rw [count_leaf, count]
        omega
      · rw [count, count]
        omega

theorem count_invertBelow_le {m : Nat} (fits : Fits m s) (sprouts : SproutingBelow s) :
    count (invertBelow s) ≤ m * count s + 1 := by
  cases s with
  | nil => simp [invertBelow, count]
  | node l r hot => cases hot with
    | true => simp [invertBelow, count]
    | false =>
      by_cases childless : l = nil ∧ r = nil
      · simp [invertBelow, childless, count]
      · rw [invertBelow_of_child childless]
        exact count_invert_le fits ⟨fun _ => childless, sprouts⟩

theorem count_removeBelow_le (key : List Bool) (s : BitTrie) :
    count (removeBelow key s) ≤ count s + key.length := by
  cases key with
  | nil => cases s <;> simp [removeBelow, count]
  | cons bit key =>
    rw [removeBelow_of_ne_nil (List.cons_ne_nil bit key)]
    exact count_remove_le _ s

end BitTrie

/-! ### Sets of blocks -/

namespace Subnets

open BitTrie

variable {depth : Nat} {S : Subnets depth}

theorem count_insertAll_le (S : Subnets depth) (keys : List (List Bool)) :
    count (S.insertAll keys).trie ≤ count S.trie + keys.length := by
  induction keys generalizing S with
  | nil => exact le_rfl
  | cons key keys ih =>
    have first := count_insert_le (min key.length depth) key S.trie
    have others := ih (S.insert key)
    rw [trie_insert] at others
    rw [insertAll_cons, List.length_cons]
    omega

theorem count_removeAll_le (S : Subnets depth) (keys : List (List Bool)) :
    count (S.removeAll keys).trie ≤ count S.trie + depth * keys.length := by
  induction keys generalizing S with
  | nil => exact le_rfl
  | cons key keys ih =>
    have first := count_removeBelow_le (key.take depth) S.trie
    have short := List.length_take_le depth key
    have others : count ((S.remove key).removeAll keys).trie ≤
        count (removeBelow (key.take depth) S.trie) + depth * keys.length := ih (S.remove key)
    rw [removeAll_cons, List.length_cons, Nat.mul_succ]
    omega

end Subnets
