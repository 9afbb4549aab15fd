import IpDedup.Lib.PrefixCover
import IpDedup.Lib.Subnets
import IpDedup.Lib.TriePath

/-!
# Tries under a depth limit

Inserting with a depth limit covers a block whose length also depends on how
far the search gets, and may leave hot nodes with children. Collapsing with a
depth limit widens the blocks below it, unless some node at that depth leads to
no hot node.

## Main definitions

* `BitTrie.prune`: without the children of hot nodes
* `BitTrie.Bears`: every node at the depth limit leads to a hot node

## Main results

* `BitTrie.covers_collapse_limit`, `BitTrie.exists_covers_of_not_bears`: what is
  covered after collapsing, and when it is too much
* `BitTrie.widened_insert`: inserting adds one block, seen from the depth limit
* `BitTrie.eq_of_covers_eq`: what a collapsed trie covers determines it
-/

set_option autoImplicit false

namespace BitTrie

variable {s t l r : BitTrie} {m n : Nat} {key path rest word : List Bool} {bit : Bool}

/-! ### Where a search ends -/

theorem search_begins (key : List Bool) (s : BitTrie) : search key s <+: key := by
  induction key generalizing s with
  | nil => cases s <;> simp [search]
  | cons bit key ih => cases s with
    | nil => exact List.nil_prefix
    | node l r hot =>
      rw [search]
      split_ifs
      · exact List.nil_prefix
      · exact List.cons_prefix_cons.mpr ⟨rfl, ih _⟩

theorem search_append (cold : ColdPath path s) (rest : List Bool) :
    search (path ++ rest) s = path ++ search rest (focus path s) := by
  induction path generalizing s with
  | nil => simp
  | cons bit path ih => cases s with
    | nil => exact cold.elim
    | node l r hot =>
      obtain ⟨rfl, cold⟩ := cold
      rw [List.cons_append, search_present cold.ne_nil, ih cold]
      rfl

/-- The search reaches the end of a cold path. -/
theorem search_of_cold (cold : ColdPath key s) : search key s = key := by
  have whole := search_append cold []
  cases h : focus key s with
  | nil => exact absurd h cold.focus_ne_nil
  | node l r hot => simpa [h, search] using whole

/-- The search does not get past a hot node. -/
theorem search_of_hot (cold : ColdPath path s) (stop : focus path s = node l r true) :
    search (path ++ bit :: rest) s = path := by
  rw [search_append cold, stop]
  simp [search]

theorem search_of_missing {hot : Bool} (cold : ColdPath path s)
    (stop : focus path s = node l r hot) (missing : child l r bit = nil) :
    search (path ++ bit :: rest) s = path := by
  rw [search_append cold, stop, search_missing missing, List.append_nil]

theorem HotLeaf.graft (leafy : HotLeaf s) (cold : ColdPath path s) (sub : HotLeaf t) :
    HotLeaf (graft path t s) := by
  induction path generalizing s with
  | nil => simpa using sub
  | cons bit path ih => cases s with
    | nil => exact cold.elim
    | node l r hot =>
      obtain ⟨rfl, cold⟩ := cold
      exact leafy.setChild (ih (leafy.child bit) cold) bit

/-- Where the search finds the key, its node becomes a leaf. -/
theorem hotLeaf_insert_of_cold (leafy : HotLeaf s) (cold : ColdPath key s) (m : Nat) :
    HotLeaf (insert m key s) := by
  have whole := insert_append cold m []
  rw [List.append_nil] at whole
  rw [whole]
  refine leafy.graft cold ?_
  have sub := leafy.focus key
  cases h : focus key s with
  | nil => simp
  | node l r hot => cases hot with
    | true => rwa [insert_hot, ← h]
    | false => exact hotLeaf_leaf

/-- Where a child is missing, the nodes are created, or the node becomes hot as it is. -/
theorem hotLeaf_insert_of_missing (leafy : HotLeaf s) (cold : ColdPath path s)
    (stop : focus path s = node l r false) (missing : child l r bit = nil)
    (clear : path.length < m ∨ l = nil ∧ r = nil) : HotLeaf (insert m (path ++ bit :: rest) s) := by
  rw [insert_append cold, stop]
  refine leafy.graft cold ?_
  have sub := leafy.focus path
  rw [stop] at sub
  cases levels : m - path.length with
  | zero =>
    have marked : insert 0 (bit :: rest) (node l r false) = node l r true := by
      simp [insert, missing]
    rw [marked]
    exact ⟨fun _ => clear.resolve_left (by omega), sub.2⟩
  | succ k =>
    rw [insert_missing missing]
    exact sub.setChild (hotLeaf_chain _) bit

/-! ### Children of hot nodes -/

/-- The trie without the children of its hot nodes. -/
def prune : BitTrie → BitTrie
  | nil => nil
  | node l r hot => if hot then leaf else node (prune l) (prune r) false

@[simp] theorem prune_nil : prune nil = nil := rfl

@[simp] theorem prune_hot : prune (node l r true) = leaf := rfl

@[simp] theorem prune_node : prune (node l r false) = node (prune l) (prune r) false := rfl

@[simp] theorem prune_eq_nil_iff : prune s = nil ↔ s = nil := by
  cases s with
  | nil => simp
  | node l r hot => cases hot <;> simp

theorem hotLeaf_prune (s : BitTrie) : HotLeaf (prune s) := by
  induction s with
  | nil => trivial
  | node l r hot left right => cases hot with
    | true => exact hotLeaf_leaf
    | false => exact ⟨by simp, left, right⟩

theorem prune_of_hotLeaf (leafy : HotLeaf s) : prune s = s := by
  induction s with
  | nil => rfl
  | node l r hot left right => cases hot with
    | true =>
      obtain ⟨rfl, rfl⟩ := leafy.1 rfl
      rfl
    | false => rw [prune_node, left leafy.2.1, right leafy.2.2]

theorem covers_prune (s : BitTrie) (key : List Bool) : covers (prune s) key = covers s key := by
  induction s generalizing key with
  | nil => rfl
  | node l r hot left right => cases hot with
    | true => simp
    | false => cases key with
      | nil => simp
      | cons b key => cases b <;> simp [left, right]

theorem fits_prune (fits : Fits m s) : Fits m (prune s) := by
  induction s generalizing m with
  | nil => exact fits
  | node l r hot left right => cases hot with
    | true => exact fits_leaf m
    | false =>
      obtain ⟨k, rfl⟩ := fits.exists_succ
      exact ⟨left fits.1, right fits.2⟩

theorem sprouting_prune (sprouts : Sprouting s) : Sprouting (prune s) := by
  induction s with
  | nil => trivial
  | node l r hot left right => cases hot with
    | true => exact sprouting_leaf
    | false => exact ⟨by simpa using sprouts.1, left sprouts.2.1, right sprouts.2.2⟩

theorem sproutingBelow_prune (sprouts : SproutingBelow s) : SproutingBelow (prune s) := by
  cases s with
  | nil => trivial
  | node l r hot => cases hot with
    | true => exact sprouting_leaf.below
    | false => exact ⟨sprouting_prune sprouts.1, sprouting_prune sprouts.2⟩

/-! ### Collapsing -/

/-- The first bits of a path, up to the depth limit. -/
def cut (limit : Option Nat) (path : List Bool) : List Bool := limit.elim path path.take

@[simp] theorem cut_none (path : List Bool) : cut none path = path := rfl

@[simp] theorem cut_some (n : Nat) (path : List Bool) : cut (some n) path = path.take n := rfl

@[simp] theorem cut_nil (limit : Option Nat) : cut limit [] = [] := by
  cases limit <;> simp

theorem cut_cons {limit : Option Nat} (below : limit ≠ some 0) (bit : Bool) (path : List Bool) :
    cut limit (bit :: path) = bit :: cut (limit.map (· - 1)) path := by
  cases limit with
  | none => rfl
  | some n => cases n with
    | zero => exact absurd rfl below
    | succ n => simp

/-- Every node at the depth limit, unless it lies below a hot node, leads to a hot node. -/
def Bears : Option Nat → BitTrie → Prop
  | _, nil => True
  | limit, node l r hot =>
    hot = true ∨ if limit = some 0 then hotPaths (node l r hot) ≠ [] else
      Bears (limit.map (· - 1)) l ∧ Bears (limit.map (· - 1)) r

theorem bears_node {limit : Option Nat} (below : limit ≠ some 0) :
    Bears limit (node l r false) ↔
      Bears (limit.map (· - 1)) l ∧ Bears (limit.map (· - 1)) r := by
  simp [Bears, below]

theorem bears_none (s : BitTrie) : Bears none s := by
  induction s with
  | nil => trivial
  | node l r hot left right => exact Or.inr ⟨left, right⟩

/-- Below a node that is not hot, the blocks on one side count. -/
theorem exists_cut_prefix_cons {limit : Option Nat} (below : limit ≠ some 0) (b : Bool) :
    (∃ path ∈ hotPaths (node l r false), cut limit path <+: b :: word) ↔
      ∃ path ∈ hotPaths (child l r b), cut (limit.map (· - 1)) path <+: word := by
  constructor
  · rintro ⟨path, mem, inside⟩
    cases path with
    | nil => simp [nil_mem_hotPaths] at mem
    | cons c path =>
      rw [cut_cons below] at inside
      obtain ⟨rfl, further⟩ := List.cons_prefix_cons.mp inside
      exact ⟨path, cons_mem_hotPaths.mp mem, further⟩
  · rintro ⟨path, mem, inside⟩
    refine ⟨b :: path, cons_mem_hotPaths.mpr mem, ?_⟩
    rw [cut_cons below]
    exact List.cons_prefix_cons.mpr ⟨rfl, inside⟩

/-- Above the depth limit, a node that is not hot covers what its collapsed children cover. -/
theorem covers_collapse_node {limit : Option Nat} (below : limit ≠ some 0) (b : Bool)
    (word : List Bool) :
    covers (collapse limit (node l r false)) (b :: word) =
      covers (collapse (limit.map (· - 1)) (child l r b)) word := by
  simp only [collapse, Bool.false_eq_true, below, or_self, if_false]
  split_ifs with both
  · -- both halves are covered, and so is the block that they are merged into
    have leafL := (hotLeaf_collapse (limit.map (· - 1)) l).eq_leaf both.1
    have leafR := (hotLeaf_collapse (limit.map (· - 1)) r).eq_leaf both.2
    cases b
    · simp [leafL]
    · simp [leafR]
  · cases b <;> rfl

/-- Collapsing widens every block to the depth limit. -/
theorem covers_collapse_limit {limit : Option Nat} (bears : Bears limit s)
    (fits : Fits word.length s) :
    covers (collapse limit s) word = true ↔ ∃ path ∈ hotPaths s, cut limit path <+: word := by
  induction s generalizing limit word with
  | nil => simp [hotPaths]
  | node l r hot left right => cases hot with
    | true => simp [hotPaths]
    | false => cases word with
      | nil => cases fits
      | cons b word =>
        by_cases here : limit = some 0
        · -- at the limit the node becomes hot, whichever hot node it leads to
          subst here
          have some : hotPaths (node l r false) ≠ [] := by simpa [Bears] using bears
          obtain ⟨path, mem⟩ := List.exists_mem_of_ne_nil _ some
          simp only [collapse, or_true, if_true, covers_leaf, true_iff]
          exact ⟨path, mem, by simp⟩
        · obtain ⟨bearsL, bearsR⟩ := (bears_node here).mp bears
          rw [covers_collapse_node here, exists_cut_prefix_cons here]
          cases b
          · exact left bearsL fits.1
          · exact right bearsR fits.2

/-- A node at the depth limit that leads to no hot node is covered all the same. -/
theorem exists_covers_of_not_bears {limit : Option Nat} (barren : ¬ Bears limit s)
    (fits : Fits m s) :
    ∃ word : List Bool, word.length = m ∧ covers (collapse limit s) word = true ∧
      ¬ ∃ path ∈ hotPaths s, cut limit path <+: word := by
  induction s generalizing limit m with
  | nil => exact absurd trivial barren
  | node l r hot left right => cases hot with
    | true => exact absurd (Or.inl rfl) barren
    | false =>
      obtain ⟨m, rfl⟩ := fits.exists_succ
      by_cases here : limit = some 0
      · -- the node at the limit becomes hot, but nothing below it was
        subst here
        have none : hotPaths (node l r false) = [] := by simpa [Bears] using barren
        refine ⟨List.replicate (m + 1) false, by simp, by simp [collapse], ?_⟩
        simp [none]
      · have side (b : Bool) (barren : ¬ Bears (limit.map (· - 1)) (child l r b))
            (sub : ∃ word : List Bool, word.length = m ∧
              covers (collapse (limit.map (· - 1)) (child l r b)) word = true ∧
              ¬ ∃ path ∈ hotPaths (child l r b), cut (limit.map (· - 1)) path <+: word) :
            ∃ word : List Bool, word.length = m + 1 ∧
              covers (collapse limit (node l r false)) word = true ∧
              ¬ ∃ path ∈ hotPaths (node l r false), cut limit path <+: word := by
          obtain ⟨word, length, covered, uncovered⟩ := sub
          refine ⟨b :: word, by simp [length], ?_, ?_⟩
          · rwa [covers_collapse_node here]
          · rwa [exists_cut_prefix_cons here]
        by_cases bearsL : Bears (limit.map (· - 1)) l
        · have barrenR : ¬ Bears (limit.map (· - 1)) r :=
            fun bearsR => barren ((bears_node here).mpr ⟨bearsL, bearsR⟩)
          exact side true barrenR (right barrenR fits.2)
        · -- otherwise the left side has such a node
          exact side false bearsL (left bearsL fits.1)

theorem hotPaths_ne_nil (root : s ≠ nil) (sprouts : Sprouting s) (fits : Fits m s) :
    hotPaths s ≠ [] := by
  obtain ⟨word, -, covered⟩ := exists_covers root sprouts fits
  obtain ⟨path, mem, -⟩ := covers_eq_true_iff.mp covered
  exact List.ne_nil_of_mem mem

/-- Where every branch leads to a hot node, every node does. -/
theorem bears_of_sprouting {limit : Option Nat} (sprouts : Sprouting s) (fits : Fits m s) :
    Bears limit s := by
  induction s generalizing limit m with
  | nil => trivial
  | node l r hot left right => cases hot with
    | true => exact Or.inl rfl
    | false =>
      have some := hotPaths_ne_nil (by simp) sprouts fits
      obtain ⟨k, rfl⟩ := fits.exists_succ
      refine Or.inr ?_
      split_ifs
      · exact some
      · exact ⟨left sprouts.2.1 fits.1, right sprouts.2.2 fits.2⟩

/-- The root lies above the depth limit. -/
theorem bears_of_sproutingBelow (sprouts : SproutingBelow s) (fits : Fits m s) :
    Bears (some (n + 1)) s := by
  cases s with
  | nil => trivial
  | node l r hot => cases hot with
    | true => exact Or.inl rfl
    | false =>
      obtain ⟨k, rfl⟩ := fits.exists_succ
      rw [bears_node (by simp)]
      exact ⟨bears_of_sprouting sprouts.1 fits.1, bears_of_sprouting sprouts.2 fits.2⟩

/-! ### Seen from the depth limit -/

/-- Some word that agrees on the first `n` bits is covered. -/
def Widened (n : Nat) (s : BitTrie) (word : List Bool) : Prop :=
  ∃ other : List Bool, other.length = word.length ∧ other.take n = word.take n ∧
    covers s other = true

theorem take_prefix_iff (short : path.length ≤ word.length) :
    path.take n <+: word ↔
      ∃ other : List Bool, other.length = word.length ∧ other.take n = word.take n ∧
        path <+: other := by
  constructor
  · intro inside
    -- the cut path goes on with the rest of the path, and then with the word
    refine ⟨path ++ word.drop path.length, by simp; omega, ?_, List.prefix_append _ _⟩
    rcases Nat.le_total path.length n with wide | narrow
    · rw [List.take_of_length_le wide] at inside
      obtain ⟨more, rfl⟩ := inside
      simp
    · have length : (path.take n).length = n := by simpa using narrow
      rw [List.take_append_of_le_length narrow]
      rwa [List.prefix_iff_eq_take, length] at inside
  · rintro ⟨other, -, same, inside⟩
    exact (inside.take n).trans (same ▸ List.take_prefix n word)

/-- These words begin with a block that is cut at the depth limit. -/
theorem widened_iff (fits : Fits word.length s) :
    Widened n s word ↔ ∃ path ∈ hotPaths s, path.take n <+: word := by
  constructor
  · rintro ⟨other, length, same, covered⟩
    obtain ⟨path, mem, inside⟩ := covers_eq_true_iff.mp covered
    have short := length_le_of_mem_hotPaths fits mem
    exact ⟨path, mem, (take_prefix_iff short).mpr ⟨other, length, same, inside⟩⟩
  · rintro ⟨path, mem, inside⟩
    have short := length_le_of_mem_hotPaths fits mem
    obtain ⟨other, length, same, below⟩ := (take_prefix_iff short).mp inside
    exact ⟨other, length, same, covers_eq_true_iff.mpr ⟨path, mem, below⟩⟩

/-- Inserting adds the block of the key, cut at the depth limit. -/
theorem widened_insert (root : s ≠ nil) (short : key.length ≤ word.length)
    (levels : key.length ≤ m ∨ n ≤ m) :
    Widened n (insert m key s) word ↔ Widened n s word ∨ key.take n <+: word := by
  have same : (key.take (max m (search key s).length)).take n = key.take n := by
    rw [List.take_take, List.take_eq_take_iff]
    omega
  have short' : (key.take (max m (search key s).length)).length ≤ word.length :=
    (List.length_take_le' _ _).trans short
  -- the block that is added is at least as long as the limit, or as the key
  rw [← same, take_prefix_iff short', Widened, Widened, ← exists_or]
  refine exists_congr fun other => ?_
  rw [covers_insert_search root, Bool.or_eq_true, List.isPrefixOf_iff_prefix]
  tauto

theorem widened_prune : Widened n s.prune word ↔ Widened n s word := by
  simp only [Widened, covers_prune]

/-! ### What is covered determines a collapsed trie -/

/-- Only a leaf covers everything. -/
theorem eq_leaf_of_covers (fits : Fits m s) (valid : Invertible s)
    (leafy : HotLeaf s) (all : ∀ word : List Bool, word.length = m → covers s word = true) :
    s = leaf := by
  induction s generalizing m with
  | nil => simpa using all (List.replicate m false) (by simp)
  | node l r hot left right => cases hot with
    | true => exact leafy.eq_leaf rfl
    | false =>
      obtain ⟨m, rfl⟩ := fits.exists_succ
      obtain ⟨apart, -, validL, validR⟩ := invertible_node.mp valid
      -- both children cover everything, and hot siblings are excluded
      have leafL := left fits.1 validL leafy.2.1 fun word length =>
        all (false :: word) (by simp [length])
      have leafR := right fits.2 validR leafy.2.2 fun word length =>
        all (true :: word) (by simp [length])
      exact absurd ⟨by rw [leafL]; rfl, by rw [leafR]; rfl⟩ apart

/-- Without hot siblings and dead ends, what is covered determines the trie. -/
theorem eq_of_covers_eq (leafyS : HotLeaf s) (leafyT : HotLeaf t) (fitsS : Fits m s)
    (fitsT : Fits m t) (validS : Invertible s) (validT : Invertible t)
    (same : ∀ word : List Bool, word.length = m → covers s word = covers t word) : s = t := by
  induction s generalizing m t with
  | nil =>
    -- a trie without dead ends covers something unless it is empty
    by_contra differ
    obtain ⟨word, length, covered⟩ := exists_covers (Ne.symm differ) validT.2 fitsT
    simp [← same word length] at covered
  | node l r hot left right => cases hot with
    | true =>
      rw [leafyS.eq_leaf rfl] at same ⊢
      refine (eq_leaf_of_covers fitsT validT leafyT fun word length => ?_).symm
      simp [← same word length]
    | false => cases t with
      | nil =>
        obtain ⟨word, length, covered⟩ := exists_covers (by simp) validS.2 fitsS
        simp [same word length] at covered
      | node l' r' hot' => cases hot' with
        | true =>
          rw [leafyT.eq_leaf rfl] at same ⊢
          exact eq_leaf_of_covers fitsS validS leafyS fun word length => by simp [same word length]
        | false =>
          -- the words that begin with a bit determine the child on its side
          obtain ⟨m, rfl⟩ := fitsS.exists_succ
          obtain ⟨-, -, validL, validR⟩ := invertible_node.mp validS
          obtain ⟨-, -, validL', validR'⟩ := invertible_node.mp validT
          rw [left leafyS.2.1 leafyT.2.1 fitsS.1 fitsT.1 validL validL' fun word length =>
              same (false :: word) (by simp [length]),
            right leafyS.2.2 leafyT.2.2 fitsS.2 fitsT.2 validR validR' fun word length =>
              same (true :: word) (by simp [length])]

theorem invertible_or_childless (root : s ≠ nil) (valid : InvertibleBelow s) :
    Invertible s ∨ s = node nil nil false := by
  cases s with
  | nil => exact absurd rfl root
  | node l r hot =>
    by_cases childless : hot = false ∧ l = nil ∧ r = nil
    · obtain ⟨rfl, rfl, rfl⟩ := childless
      exact Or.inr rfl
    · exact Or.inl ⟨valid.1, fun cold none => childless ⟨cold, none⟩, valid.2⟩

/-- A root without children covers nothing, and it is the only one. -/
theorem eq_of_covers_eq_below (rootS : s ≠ nil) (rootT : t ≠ nil) (leafyS : HotLeaf s)
    (leafyT : HotLeaf t) (fitsS : Fits m s) (fitsT : Fits m t) (validS : InvertibleBelow s)
    (validT : InvertibleBelow t)
    (same : ∀ word : List Bool, word.length = m → covers s word = covers t word) : s = t := by
  have none (word : List Bool) : covers (node nil nil false) word = false := by
    cases word with
    | nil => rfl
    | cons b word => cases b <;> simp
  rcases invertible_or_childless rootS validS with validS | rfl <;>
    rcases invertible_or_childless rootT validT with validT | rfl
  · exact eq_of_covers_eq leafyS leafyT fitsS fitsT validS validT same
  · obtain ⟨word, length, covered⟩ := exists_covers rootS validS.2 fitsS
    simp [same word length, none] at covered
  · obtain ⟨word, length, covered⟩ := exists_covers rootT validT.2 fitsT
    simp [← same word length, none] at covered
  · rfl

end BitTrie

/-- The blocks of a trie, whatever its hot nodes have below them. -/
def Subnets.pruned {depth : Nat} (deep : 0 < depth) (s : BitTrie) (root : s ≠ .nil)
    (fits : BitTrie.Fits depth s) : Subnets depth where
  trie := s.prune
  root := by simpa using root
  leafy := BitTrie.hotLeaf_prune s
  fits := BitTrie.fits_prune fits
  deep := deep
