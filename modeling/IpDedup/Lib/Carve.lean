import IpDedup.Lib.PrefixCover

/-!
# Carving a block out of other blocks

Removing a block from a trie acts on its hot nodes one by one: those within the
block disappear, and one around it gives way to the blocks beside the path that
leads from there to the block.

## Main definitions

* `BitTrie.carve`: what removing a block leaves of another one

## Main results

* `BitTrie.hotPaths_removeBelow`: removing a block carves it out of every hot node
* `BitTrie.perm_length_carve`, `BitTrie.covers_carve`: the blocks that are left
-/

set_option autoImplicit false

open PrefixCover

namespace BitTrie

/-- What removing the block `key` leaves of the block `p`. -/
def carve (key p : List Bool) : List (List Bool) :=
  if key <+: p then []
  else if p <+: key then (hotPaths (invert (chain (key.drop p.length)))).map (p ++ ·)
  else [p]

variable {s l r : BitTrie} {bit b : Bool} {key p rest word : List Bool}

/-! ### One block -/

theorem carve_of_begins (inside : key <+: p) : carve key p = [] := if_pos inside

theorem carve_of_disjoint (inside : ¬ key <+: p) (around : ¬ p <+: key) : carve key p = [p] := by
  rw [carve, if_neg inside, if_neg around]

theorem carve_append (strict : rest ≠ []) :
    carve (p ++ rest) p = (hotPaths (invert (chain rest))).map (p ++ ·) := by
  have longer : ¬ p ++ rest <+: p := by
    intro inside
    have le := inside.length_le
    rw [List.length_append] at le
    exact strict (List.length_eq_zero_iff.mp (by omega))
  rw [carve, if_neg longer, if_pos (List.prefix_append p rest), List.drop_left]

/-- Carving happens below the bits in common. -/
theorem carve_cons : carve (b :: key) (b :: p) = (carve key p).map (b :: ·) := by
  simp only [carve, List.cons_prefix_cons, true_and, List.length_cons, List.drop_succ_cons]
  split_ifs
  · rfl
  · rw [List.map_map]
    rfl
  · rfl

theorem carve_cons_of_ne (other : b ≠ bit) : carve (bit :: key) (b :: p) = [b :: p] :=
  carve_of_disjoint (fun inside => other (List.cons_prefix_cons.mp inside).1.symm)
    fun around => other (List.cons_prefix_cons.mp around).1

/-! ### The blocks beside a path -/

theorem hotPaths_setChild_leaf :
    hotPaths (setChild leaf leaf false b s) =
      if b then [false] :: (hotPaths s).map (true :: ·)
      else (hotPaths s).map (false :: ·) ++ [[true]] := by
  cases b <;> simp [hotPaths, leaf]

/-- There is one block beside each step of a path. -/
theorem perm_length_hotPaths_chain (bits : List Bool) :
    ((hotPaths (invert (chain bits))).map List.length).Perm (List.range' 1 bits.length) := by
  induction bits with
  | nil => simp [chain, invert, leaf, hotPaths]
  | cons b bits ih =>
    have below : (((hotPaths (invert (chain bits))).map List.length).map (· + 1)).Perm
        (List.range' 2 bits.length) := by
      have shift : (List.range' 1 bits.length).map (· + 1) = List.range' 2 bits.length := by
        simp only [Nat.add_comm _ 1, List.map_add_range']
      rw [← shift]
      exact ih.map _
    rw [invert_chain_cons, hotPaths_setChild_leaf, List.length_cons, List.range'_succ]
    cases b with
    | true => simpa [List.map_map, Function.comp_def] using below
    | false =>
      rw [if_neg Bool.false_ne_true, List.map_append, List.map_map]
      refine List.perm_append_comm.trans ?_
      simpa [List.map_map, Function.comp_def] using below

/-- One block of each length between that of the block around and that of the block removed. -/
theorem perm_length_carve (strict : rest ≠ []) :
    ((carve (p ++ rest) p).map List.length).Perm (List.range' (p.length + 1) rest.length) := by
  have shift : (List.range' 1 rest.length).map (p.length + ·) =
      List.range' (p.length + 1) rest.length := by
    rw [List.map_add_range']
  rw [carve_append strict, List.map_map, ← shift]
  have below := (perm_length_hotPaths_chain rest).map (p.length + ·)
  simpa [List.map_map, Function.comp_def] using below

/-- The blocks that are left cover the difference. -/
theorem covers_carve (strict : rest ≠ []) (wide : (p ++ rest).length ≤ word.length) :
    Covers (carve (p ++ rest) p) word ↔ p <+: word ∧ ¬ p ++ rest <+: word := by
  -- below `p`, an inverted chain covers what does not begin with its key
  have below {w : List Bool} (long : rest.length ≤ w.length) :
      Covers (hotPaths (invert (chain rest))) w ↔ ¬ rest <+: w := by
    rw [← covers_eq_true_iff, covers_invert (fits_chain long), covers_chain, Bool.not_eq_true',
      ← Bool.not_eq_true, List.isPrefixOf_iff_prefix]
  rw [List.length_append] at wide
  rw [carve_append strict]
  constructor
  · rintro ⟨q, mem, inside⟩
    obtain ⟨q, hot, rfl⟩ := List.mem_map.mp mem
    obtain ⟨w, rfl⟩ := (List.prefix_append p q).trans inside
    rw [List.prefix_append_right_inj] at inside
    refine ⟨List.prefix_append p w, fun both => ?_⟩
    rw [List.length_append] at wide
    exact (below (by omega)).mp ⟨q, hot, inside⟩ ((List.prefix_append_right_inj p).mp both)
  · rintro ⟨⟨w, rfl⟩, outside⟩
    rw [List.length_append] at wide
    obtain ⟨q, hot, inside⟩ := (below (w := w) (by omega)).mpr fun both =>
      outside ((List.prefix_append_right_inj p).mpr both)
    exact ⟨p ++ q, List.mem_map_of_mem hot, (List.prefix_append_right_inj p).mpr inside⟩

/-! ### Removing a block -/

theorem hotPaths_setChild :
    hotPaths (setChild l r false b s) =
      (if b then (hotPaths l).map (false :: ·) else (hotPaths s).map (false :: ·)) ++
        if b then (hotPaths s).map (true :: ·) else (hotPaths r).map (true :: ·) := by
  cases b <;> rfl

/-- On one side of a node, carving acts below; on the other side it does nothing. -/
theorem flatMap_carve_cons (paths : List (List Bool)) :
    (paths.map (b :: ·)).flatMap (carve (bit :: key)) =
      if b = bit then (paths.flatMap (carve key)).map (b :: ·) else paths.map (b :: ·) := by
  rw [List.flatMap_map]
  split_ifs with same
  · subst same
    rw [List.map_flatMap]
    exact List.flatMap_congr fun p _ => carve_cons
  · have alone : paths.flatMap (fun p => carve (bit :: key) (b :: p)) =
        paths.flatMap fun p => [b :: p] :=
      List.flatMap_congr fun p _ => carve_cons_of_ne same
    rw [alone, List.map_eq_flatMap]

theorem hotPaths_remove (leafy : HotLeaf s) (key : List Bool) :
    hotPaths (remove key s) = (hotPaths s).flatMap (carve key) := by
  induction key generalizing s with
  | nil =>
    have none : (hotPaths s).flatMap (carve []) = [] :=
      List.flatMap_eq_nil_iff.mpr fun p _ => carve_of_begins List.nil_prefix
    rw [none]
    cases s <;> rfl
  | cons bit key ih => cases s with
    | nil => rfl
    | node l r hot => cases hot with
      | true =>
        have beside := carve_append (p := []) (show bit :: key ≠ [] by simp)
        rw [List.nil_append] at beside
        simp [hotPaths, beside]
      | false =>
        have below := ih (leafy.child bit)
        rw [remove_cons_node, hotPaths_setChild, hotPaths, List.flatMap_append,
          flatMap_carve_cons, flatMap_carve_cons, below]
        cases bit <;> simp

/-- Removing a block carves it out of every hot node. -/
theorem hotPaths_removeBelow (leafy : HotLeaf s) (key : List Bool) :
    hotPaths (removeBelow key s) = (hotPaths s).flatMap (carve key) := by
  cases key with
  | cons bit key =>
    rw [removeBelow_of_ne_nil (by simp), hotPaths_remove leafy]
  | nil =>
    rw [← hotPaths_remove leafy]
    cases s <;> rfl

end BitTrie
