import IpDedup.Lib.BitString
import IpDedup.Lib.BitTrie
import Mathlib.Data.List.Perm.Subperm

/-!
# Canonical prefix covers

A list of bit strings covers the words that begin with one of them. It is
canonical if it is sorted, its blocks are disjoint and no two of them are the
halves of a larger block. A canonical list is determined by the words it covers
and no list that covers the same words is shorter.

## Main definitions

* `BitString.Before`: the first block lies entirely before the second
* `PrefixCover.Covers`, `PrefixCover.Canonical`
* `BitTrie.hotPaths`: the hot nodes of a trie, from left to right

## Main results

* `PrefixCover.Canonical.eq_of_covers_iff`, `PrefixCover.Canonical.length_le`
* `BitTrie.canonical_hotPaths`
-/

set_option autoImplicit false

namespace BitString

/-- The two bit strings part at some bit, where the first one has a zero. -/
def Before (p q : List Bool) : Prop :=
  ∃ common zero one, p = common ++ false :: zero ∧ q = common ++ true :: one

variable {p q r : List Bool}

theorem Before.cons (b : Bool) (h : Before p q) : Before (b :: p) (b :: q) := by
  obtain ⟨common, zero, one, rfl, rfl⟩ := h
  exact ⟨b :: common, zero, one, rfl, rfl⟩

theorem before_false_true (p q : List Bool) : Before (false :: p) (true :: q) :=
  ⟨[], p, q, rfl, rfl⟩

theorem not_before_nil : ¬ Before [] q := by
  rintro ⟨common, zero, one, h, -⟩
  simp at h

theorem before_cons_iff {a b : Bool} :
    Before (a :: p) (b :: q) ↔ (a = false ∧ b = true) ∨ (a = b ∧ Before p q) := by
  constructor
  · rintro ⟨common, zero, one, hp, hq⟩
    cases common with
    | nil =>
      simp only [List.nil_append, List.cons.injEq] at hp hq
      exact Or.inl ⟨hp.1, hq.1⟩
    | cons c common =>
      simp only [List.cons_append, List.cons.injEq] at hp hq
      exact Or.inr ⟨hp.1.trans hq.1.symm, common, zero, one, hp.2, hq.2⟩
  · rintro (⟨rfl, rfl⟩ | ⟨rfl, h⟩)
    · exact before_false_true p q
    · exact h.cons a

/-- Blocks in order are disjoint. -/
theorem Before.not_both (h : Before p q) {key : List Bool} (hp : p <+: key) : ¬ q <+: key := by
  obtain ⟨common, zero, one, rfl, rfl⟩ := h
  rintro ⟨t, rfl⟩
  obtain ⟨s, hs⟩ := hp
  simp [List.append_assoc] at hs

theorem Before.not_self : ¬ Before p p :=
  fun h => h.not_both List.prefix_rfl List.prefix_rfl

theorem Before.asymm (h : Before p q) : ¬ Before q p := by
  induction p generalizing q with
  | nil => exact absurd h not_before_nil
  | cons a p ih => cases q with
    | nil =>
      obtain ⟨common, zero, one, -, hq⟩ := h
      simp at hq
    | cons b q =>
      rw [before_cons_iff] at h ⊢
      rintro (⟨rfl, rfl⟩ | ⟨rfl, h'⟩)
      · simp at h
      · rcases h with ⟨rfl, h⟩ | ⟨-, h⟩
        · simp at h
        · exact ih h h'

theorem Before.pad_lt {width : Nat} (h : Before p q) (hp : p.length ≤ width)
    (hq : q.length ≤ width) : pad width p < pad width q := by
  obtain ⟨common, zero, one, rfl, rfl⟩ := h
  exact pad_lt_pad common zero one hp hq

end BitString

namespace PrefixCover

open BitString

/-- Some block of the list contains the word. -/
def Covers (blocks : List (List Bool)) (key : List Bool) : Prop := ∃ p ∈ blocks, p <+: key

/-- Sorted, disjoint, and without the two halves of one block. -/
structure Canonical (blocks : List (List Bool)) : Prop where
  sorted : blocks.Pairwise Before
  merged : ∀ p, ¬ (p ++ [false] ∈ blocks ∧ p ++ [true] ∈ blocks)

variable {width : Nat} {blocks others : List (List Bool)} {p q key : List Bool}

theorem covers_iff : Covers blocks key ↔ ∃ p ∈ blocks, p <+: key := Iff.rfl

/-- Only one block of a sorted list contains a given word. -/
theorem Canonical.eq_of_both (canon : Canonical blocks) (hp : p ∈ blocks) (hq : q ∈ blocks)
    (pkey : p <+: key) (qkey : q <+: key) : p = q := by
  obtain ⟨i, hi, rfl⟩ := List.mem_iff_getElem.mp hp
  obtain ⟨j, hj, rfl⟩ := List.mem_iff_getElem.mp hq
  have sorted := List.pairwise_iff_getElem.mp canon.sorted
  rcases lt_trichotomy i j with less | rfl | less
  · exact absurd qkey ((sorted i j hi hj less).not_both pkey)
  · rfl
  · exact absurd pkey ((sorted j i hj hi less).not_both qkey)

theorem Canonical.nodup (canon : Canonical blocks) : blocks.Nodup :=
  canon.sorted.imp fun {p q} before (same : p = q) => Before.not_self (same ▸ before)

/-- A block whose words are all covered lies in a single block of the list: two
halves that lie in different ones would have been merged. -/
theorem Canonical.exists_above (canon : Canonical blocks) (short : q.length ≤ width)
    (covered : ∀ key, key.length = width → q <+: key → Covers blocks key) :
    ∃ p ∈ blocks, p <+: q := by
  obtain ⟨n, hn⟩ : ∃ n, width = q.length + n := ⟨width - q.length, by omega⟩
  induction n generalizing q with
  | zero => exact covered q (by omega) List.prefix_rfl
  | succ n ih =>
    -- each half lies in a block, which is the half itself or contains both
    have half (b : Bool) : ∃ p ∈ blocks, p = q ++ [b] ∨ p <+: q := by
      obtain ⟨p, hp, inside⟩ := ih (q := q ++ [b]) (by simp; omega)
        (fun key length hkey => covered key length ((List.prefix_append q [b]).trans hkey))
        (by simp; omega)
      exact ⟨p, hp, List.prefix_concat_iff.mp inside⟩
    obtain ⟨p, hp, rfl | inside⟩ := half false
    · obtain ⟨p', hp', rfl | inside⟩ := half true
      · exact absurd ⟨hp, hp'⟩ (canon.merged q)
      · exact ⟨p', hp', inside⟩
    · exact ⟨p, hp, inside⟩

section SameCover

variable (canon : Canonical blocks) (bounded : ∀ p ∈ blocks, p.length ≤ width)
  (same : ∀ key : List Bool, key.length = width → (Covers blocks key ↔ Covers others key))

include canon bounded same

/-- Every block contains a block of each list that covers the same words. -/
theorem Canonical.exists_below (hp : p ∈ blocks) : ∃ q ∈ others, p <+: q := by
  let key := p ++ List.replicate (width - p.length) false
  have length : key.length = width := by
    have := bounded p hp
    simp only [key, List.length_append, List.length_replicate]
    omega
  have pkey : p <+: key := List.prefix_append _ _
  obtain ⟨q, hq, qkey⟩ := (same key length).mp ⟨p, hp, pkey⟩
  obtain ⟨p', hp', inside⟩ := canon.exists_above (q := q) (length ▸ qkey.length_le)
    (fun key' length' qkey' => (same key' length').mpr ⟨q, hq, qkey'⟩)
  rw [canon.eq_of_both hp hp' pkey (inside.trans qkey)]
  exact ⟨q, hq, inside⟩

/-- No list that covers the same words is shorter. -/
theorem Canonical.length_le : blocks.length ≤ others.length := by
  let above (q : List Bool) : Option (List Bool) := blocks.find? (·.isPrefixOf q)
  -- each block is the one above some block of the other list
  have subset : blocks ⊆ others.filterMap above := by
    intro p hp
    obtain ⟨q, hq, inside⟩ := canon.exists_below bounded same hp
    have found : above q = some p := by
      obtain ⟨p', hp'⟩ : ∃ p', above q = some p' := by
        rw [← Option.isSome_iff_exists, List.find?_isSome]
        exact ⟨p, hp, by simpa using inside⟩
      have inside' : p' <+: q := by simpa using List.find?_some hp'
      rw [hp', canon.eq_of_both hp (List.mem_of_find?_eq_some hp') inside inside']
    exact List.mem_filterMap.mpr ⟨q, hq, found⟩
  calc blocks.length ≤ (others.filterMap above).length :=
        (List.subperm_of_subset canon.nodup subset).length_le
    _ ≤ others.length := List.length_filterMap_le _ _

/-- Blocks that contain each other are the same. -/
theorem Canonical.subset (canon' : Canonical others) (bounded' : ∀ p ∈ others, p.length ≤ width) :
    blocks ⊆ others := by
  intro p hp
  obtain ⟨q, hq, inside⟩ := canon.exists_below bounded same hp
  obtain ⟨p', hp', inside'⟩ :=
    canon'.exists_below bounded' (fun key h => (same key h).symm) hq
  obtain rfl : p = p' := canon.eq_of_both hp hp' (inside.trans inside') List.prefix_rfl
  rwa [inside.eq_of_length (inside.length_le.antisymm inside'.length_le)]

/-- A canonical list is determined by what it covers. -/
theorem Canonical.eq_of_covers_iff (canon' : Canonical others)
    (bounded' : ∀ p ∈ others, p.length ≤ width) : blocks = others := by
  have same' (key : List Bool) (h : key.length = width) := (same key h).symm
  have sub := canon.subset bounded same canon' bounded'
  have sub' := canon'.subset bounded' same' canon bounded
  have perm : blocks.Perm others :=
    (List.perm_ext_iff_of_nodup canon.nodup canon'.nodup).mpr fun p => ⟨@sub p, @sub' p⟩
  exact perm.eq_of_pairwise (fun _ _ _ _ h h' => absurd h' h.asymm) canon.sorted canon'.sorted

end SameCover

end PrefixCover

namespace BitTrie

open BitString PrefixCover

/-! ### The hot nodes of a trie -/

/-- The paths to the hot nodes, from left to right. -/
def hotPaths : BitTrie → List (List Bool)
  | nil => []
  | node _ _ true => [[]]
  | node l r false => (hotPaths l).map (false :: ·) ++ (hotPaths r).map (true :: ·)

variable {s l r : BitTrie}

theorem nil_mem_hotPaths : [] ∈ hotPaths s ↔ s.isHot = true := by
  cases s with
  | nil => simp [hotPaths]
  | node l r hot => cases hot <;> simp [hotPaths]

theorem cons_mem_hotPaths {bit : Bool} {p : List Bool} :
    bit :: p ∈ hotPaths (node l r false) ↔ p ∈ hotPaths (child l r bit) := by
  cases bit <;> simp [hotPaths]

theorem covers_eq_true_iff {key : List Bool} : covers s key = true ↔ Covers (hotPaths s) key := by
  induction s generalizing key with
  | nil => simp [Covers, hotPaths]
  | node l r hot left right => cases hot with
    | true => simp [Covers, hotPaths]
    | false => cases key with
      | nil => simp [Covers, nil_mem_hotPaths]
      | cons b key =>
        have sub : covers (child l r b) key = true ↔ Covers (hotPaths (child l r b)) key := by
          cases b
          · exact left
          · exact right
        rw [covers_node_cons, sub]
        constructor
        · rintro ⟨p, hp, inside⟩
          exact ⟨b :: p, cons_mem_hotPaths.mpr hp, List.cons_prefix_cons.mpr ⟨rfl, inside⟩⟩
        · rintro ⟨p, hp, inside⟩
          cases p with
          | nil => simp [nil_mem_hotPaths] at hp
          | cons c p =>
            obtain ⟨rfl, below⟩ := List.cons_prefix_cons.mp inside
            exact ⟨p, cons_mem_hotPaths.mp hp, below⟩

theorem length_le_of_mem_hotPaths {m : Nat} (fits : Fits m s) {p : List Bool}
    (hp : p ∈ hotPaths s) : p.length ≤ m := by
  induction s generalizing m p with
  | nil => simp [hotPaths] at hp
  | node l r hot left right => cases hot with
    | true => simp_all [hotPaths]
    | false =>
      obtain ⟨k, rfl⟩ := fits.exists_succ
      cases p with
      | nil => simp
      | cons b p =>
        have sub := cons_mem_hotPaths.mp hp
        have below : p.length ≤ k := by
          cases b
          · exact left fits.1 sub
          · exact right fits.2 sub
        simpa using below

theorem length_le_of_within {m : Nat} (within : Within m s) {p : List Bool}
    (hp : p ∈ hotPaths s) : p.length ≤ m := by
  induction s generalizing m p with
  | nil => simp [hotPaths] at hp
  | node l r hot left right => cases hot with
    | true => simp_all [hotPaths]
    | false => cases p with
      | nil => exact Nat.zero_le m
      | cons b p =>
        rw [cons_mem_hotPaths] at hp
        cases m with
        | zero =>
          obtain ⟨rfl, rfl⟩ := within
          cases b <;> simp [hotPaths] at hp
        | succ m =>
          refine Nat.succ_le_succ ?_
          cases b
          · exact left within.1 hp
          · exact right within.2 hp

theorem sorted_hotPaths (s : BitTrie) : (hotPaths s).Pairwise Before := by
  induction s with
  | nil => simp [hotPaths]
  | node l r hot left right => cases hot with
    | true => simp [hotPaths]
    | false =>
      rw [hotPaths, List.pairwise_append]
      refine ⟨left.map _ fun _ _ h => h.cons false, right.map _ fun _ _ h => h.cons true, ?_⟩
      intro p hp q hq
      obtain ⟨p, -, rfl⟩ := List.mem_map.mp hp
      obtain ⟨q, -, rfl⟩ := List.mem_map.mp hq
      exact before_false_true p q

theorem canonical_hotPaths (apart : NoHotSiblings s) : Canonical (hotPaths s) := by
  refine ⟨sorted_hotPaths s, ?_⟩
  induction s with
  | nil => simp [hotPaths]
  | node l r hot left right => cases hot with
    | true => simp [hotPaths]
    | false =>
      rintro p ⟨zero, one⟩
      cases p with
      | nil =>
        rw [List.nil_append, cons_mem_hotPaths, nil_mem_hotPaths] at zero one
        exact apart.1 ⟨zero, one⟩
      | cons b p =>
        rw [List.cons_append, cons_mem_hotPaths] at zero one
        cases b
        · exact left apart.2.1 p ⟨zero, one⟩
        · exact right apart.2.2 p ⟨zero, one⟩

end BitTrie
