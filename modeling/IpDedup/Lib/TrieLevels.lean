import IpDedup.Lib.PrefixCover
import IpDedup.Lib.TriePath

/-!
# Tries of bounded depth

A trie may end in nodes that are not hot, as deep as any node may be. The
operations keep to the depth of the trie and of the key, and an insertion that
stops on the way leaves nodes that no list of hot nodes shows.

## Main results

* `BitTrie.within_insert`, `BitTrie.within_removeBelow`: no deeper than the trie and the key
* `BitTrie.Stalled.within`, `BitTrie.Stalled.hotPaths_eq`: an insertion that stopped
-/

set_option autoImplicit false

namespace BitTrie

variable {l r s t : BitTrie} {m n : Nat} {path bits : List Bool}

/-! ### Depth -/

theorem within_leaf (n : Nat) : Within n leaf := (fits_leaf n).within hotLeaf_leaf

theorem within_childless (n : Nat) (hot : Bool) : Within n (node nil nil hot) := by
  cases n with
  | zero => exact ⟨rfl, rfl⟩
  | succ n => exact ⟨within_nil n, within_nil n⟩

theorem Within.child {hot : Bool} (within : Within (n + 1) (node l r hot)) (bit : Bool) :
    Within n (child l r bit) := by
  cases bit
  · exact within.1
  · exact within.2

theorem Within.setChild {hot : Bool} (within : Within (n + 1) (node l r hot)) (sub : Within n s)
    (bit : Bool) : Within (n + 1) (setChild l r hot bit s) := by
  cases bit
  · exact ⟨sub, within.2⟩
  · exact ⟨within.1, sub⟩

theorem within_chain (short : bits.length ≤ n) : Within n (chain bits) :=
  (fits_chain short).within (hotLeaf_chain bits)

theorem within_insert (within : Within n s) (short : bits.length ≤ n) :
    Within n (insert m bits s) := by
  induction bits generalizing m n s with
  | nil => cases s with
    | nil => exact within_nil n
    | node l r hot => cases hot with
      | true => exact within
      | false => exact within_leaf n
  | cons bit bits ih => cases s with
    | nil => exact within_nil n
    | node l r hot => cases hot with
      | true =>
        -- the key is covered already
        exact within
      | false =>
        obtain ⟨n, rfl⟩ := Nat.exists_eq_add_of_lt (Nat.zero_lt_of_lt short)
        rw [Nat.zero_add] at within short ⊢
        have below : bits.length ≤ n := Nat.le_of_succ_le_succ short
        by_cases missing : child l r bit = nil
        · cases m with
          | zero =>
            -- the node becomes hot as it is
            simp only [insert, missing, isNil_nil, if_true]
            exact ⟨within.1, within.2⟩
          | succ m =>
            rw [insert_missing missing]
            have front : (bits.take m).length ≤ n := (List.length_take_le' m bits).trans below
            exact within.setChild (within_chain front) bit
        · simp only [insert, isNil_iff, missing, if_false]
          exact within.setChild (ih (within.child bit) below) bit

theorem within_remove (within : Within n s) (short : bits.length ≤ n) :
    Within n (remove bits s) := by
  induction bits generalizing n s with
  | nil => cases s <;> exact within_nil n
  | cons bit bits ih => cases s with
    | nil => exact within_nil n
    | node l r hot => cases hot with
      | true =>
        -- what is left below a hot node branches off on the way to the key
        exact (fits_invert (fits_chain short)).within (hotLeaf_invert _)
      | false =>
        obtain ⟨n, rfl⟩ := Nat.exists_eq_add_of_lt (Nat.zero_lt_of_lt short)
        rw [Nat.zero_add] at within short ⊢
        exact within.setChild (ih (within.child bit) (Nat.le_of_succ_le_succ short)) bit

theorem within_removeBelow (within : Within n s) (short : bits.length ≤ n) :
    Within n (removeBelow bits s) := by
  cases bits with
  | nil => cases s with
    | nil => exact within_nil n
    | node l r hot => exact within_childless n false
  | cons bit bits =>
    rw [removeBelow_of_ne_nil (List.cons_ne_nil bit bits)]
    exact within_remove within short

theorem within_sprout (within : Within n s) (short : path.length ≤ n) :
    Within n (sprout path s) := by
  induction path generalizing n s with
  | nil => cases s with
    | nil => exact within_childless n false
    | node l r hot => rwa [sprout_nil_node]
  | cons bit path ih =>
    obtain ⟨n, rfl⟩ := Nat.exists_eq_add_of_lt (Nat.zero_lt_of_lt short)
    rw [Nat.zero_add] at within short ⊢
    have below : path.length ≤ n := Nat.le_of_succ_le_succ short
    cases s with
    | nil => exact (within_childless (n + 1) false).setChild (ih (within_nil n) below) bit
    | node l r hot => cases hot with
      | true => exact within
      | false => exact within.setChild (ih (within.child bit) below) bit

/-! ### Nodes that are not hot -/

/-- The nodes that are created are not hot, and no other node changes. -/
theorem hotPaths_sprout (path : List Bool) (s : BitTrie) :
    hotPaths (sprout path s) = hotPaths s := by
  induction path generalizing s with
  | nil => cases s with
    | nil => rfl
    | node l r hot => rw [sprout_nil_node]
  | cons bit path ih => cases s with
    | nil =>
      rw [sprout_cons_nil]
      cases bit <;> simp [hotPaths, ih]
    | node l r hot => cases hot with
      | true => rfl
      | false =>
        rw [sprout_cons_node]
        cases bit <;> simp [hotPaths, ih]

theorem Stalled.within {key : List Bool} (stalled : Stalled m key s t) (within : Within n s)
    (short : m ≤ n) : Within n t := by
  obtain ⟨front, -, shorter, rfl⟩ := stalled
  exact within_sprout within (shorter.le.trans short)

theorem Stalled.hotPaths_eq {key : List Bool} (stalled : Stalled m key s t) :
    hotPaths t = hotPaths s := by
  obtain ⟨front, -, -, rfl⟩ := stalled
  exact hotPaths_sprout front s

end BitTrie
