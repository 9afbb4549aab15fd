import IpDedup.Lib.BitTrie

/-!
# Operating at the end of a path

A search walks down through nodes that are not hot. Inserting and removing act
where the search ends, and leave the rest of the trie as it is.

## Main definitions

* `BitTrie.ColdPath`: no node before the end of the path is hot or missing
* `BitTrie.focus`, `BitTrie.graft`: the subtrie at the end of a path, and its replacement
* `BitTrie.sprout`: create the nodes of a path, none of them hot
* `BitTrie.Stalled`: an insertion that stopped on the way

## Main results

* `BitTrie.search_cases`: where a search ends
* `BitTrie.insert_append`, `BitTrie.remove_append`: the operations act at the
  end of a cold path
-/

set_option autoImplicit false

namespace BitTrie

/-- The nodes on the path exist, and none before its end is hot. -/
def ColdPath : List Bool → BitTrie → Prop
  | [], s => s ≠ nil
  | _ :: _, nil => False
  | bit :: path, node l r hot => hot = false ∧ ColdPath path (child l r bit)

/-- The subtrie at the end of a path. -/
def focus : List Bool → BitTrie → BitTrie
  | [], s => s
  | _ :: _, nil => nil
  | bit :: path, node l r _ => focus path (child l r bit)

/-- Replace the subtrie at the end of a path. -/
def graft : List Bool → BitTrie → BitTrie → BitTrie
  | [], t, _ => t
  | _ :: _, _, nil => nil
  | bit :: path, t, node l r hot => setChild l r hot bit (graft path t (child l r bit))

@[simp] theorem focus_nil (s : BitTrie) : focus [] s = s := by cases s <;> rfl

@[simp] theorem graft_nil (t s : BitTrie) : graft [] t s = t := by cases s <;> rfl

variable {s t : BitTrie} {path rest : List Bool} {m : Nat}

theorem ColdPath.ne_nil (cold : ColdPath path s) : s ≠ nil := by
  cases s with
  | nil => cases path with
    | nil => exact cold
    | cons bit path => exact cold.elim
  | node l r hot => simp

theorem ColdPath.focus_ne_nil (cold : ColdPath path s) : focus path s ≠ nil := by
  induction path generalizing s with
  | nil => simpa using cold.ne_nil
  | cons bit path ih => cases s with
    | nil => exact cold.elim
    | node l r hot => exact ih cold.2

theorem focus_append (path rest : List Bool) (s : BitTrie) :
    focus (path ++ rest) s = focus rest (focus path s) := by
  induction path generalizing s with
  | nil => simp
  | cons bit path ih => cases s with
    | nil => cases rest <;> rfl
    | node l r hot => exact ih _

/-- Every node on the way of a cold path exists and is not hot. -/
theorem ColdPath.front {bit : Bool} (cold : ColdPath (path ++ bit :: rest) s) :
    ColdPath path s ∧ (focus path s).isHot = false := by
  induction path generalizing s with
  | nil => cases s with
    | nil => exact cold.elim
    | node l r hot => exact ⟨by simp [ColdPath], cold.1⟩
  | cons b path ih => cases s with
    | nil => exact cold.elim
    | node l r hot =>
      obtain ⟨below, stop⟩ := ih cold.2
      exact ⟨⟨cold.1, below⟩, stop⟩

@[simp] theorem focus_cons_node (bit : Bool) (l r : BitTrie) (hot : Bool) :
    focus (bit :: path) (node l r hot) = focus path (child l r bit) := rfl

@[simp] theorem focus_of_nil (path : List Bool) : focus path nil = nil := by cases path <;> rfl

theorem ColdPath.focus_take (cold : ColdPath path s) (k : Nat) :
    focus (path.take k) s ≠ nil := by
  rcases Nat.lt_or_ge k path.length with inside | whole
  · have cut := (List.take_append_drop k path).symm
    rw [List.drop_eq_getElem_cons inside] at cut
    rw [cut] at cold
    exact cold.front.1.focus_ne_nil
  · rw [List.take_of_length_le whole]
    exact cold.focus_ne_nil

theorem ColdPath.isHot_focus_take (cold : ColdPath path s) {k : Nat} (inside : k < path.length) :
    (focus (path.take k) s).isHot = false := by
  have cut := (List.take_append_drop k path).symm
  rw [List.drop_eq_getElem_cons inside] at cut
  rw [cut] at cold
  exact cold.front.2

/-- Behind a missing child there is nothing. -/
theorem focus_take_of_missing {l r : BitTrie} {hot bit : Bool} (stop : focus path s = node l r hot)
    (missing : child l r bit = nil) {k : Nat} (past : path.length < k) (rest : List Bool) :
    focus ((path ++ bit :: rest).take k) s = nil := by
  obtain ⟨j, rfl⟩ : ∃ j, k = path.length + (j + 1) := ⟨k - path.length - 1, by omega⟩
  rw [List.take_length_add_append, List.take_succ_cons, focus_append, stop, focus_cons_node,
    missing, focus_of_nil]

/-- Either the key is there, or a node on the way is hot, or a child is missing
on the way. -/
theorem search_cases (root : s ≠ nil) (key : List Bool) :
    ColdPath key s ∨
    (∃ path bit rest, key = path ++ bit :: rest ∧ ColdPath path s ∧
      ∃ l r, focus path s = node l r true) ∨
    (∃ path bit rest, key = path ++ bit :: rest ∧ ColdPath path s ∧
      ∃ l r, focus path s = node l r false ∧ child l r bit = nil) := by
  induction key generalizing s with
  | nil => exact Or.inl root
  | cons bit key ih => cases s with
    | nil => exact absurd rfl root
    | node l r hot => cases hot with
      | true => exact Or.inr (Or.inl ⟨[], bit, key, rfl, root, l, r, rfl⟩)
      | false =>
        by_cases missing : child l r bit = nil
        · exact Or.inr (Or.inr ⟨[], bit, key, rfl, root, l, r, rfl, missing⟩)
        · rcases ih missing with cold | ⟨path, b, rest, rfl, cold, stop⟩ |
            ⟨path, b, rest, rfl, cold, stop⟩
          · exact Or.inl ⟨rfl, cold⟩
          · exact Or.inr (Or.inl ⟨bit :: path, b, rest, rfl, ⟨rfl, cold⟩, stop⟩)
          · exact Or.inr (Or.inr ⟨bit :: path, b, rest, rfl, ⟨rfl, cold⟩, stop⟩)

theorem ColdPath.dropLast {bit : Bool} (cold : ColdPath (path ++ [bit]) s) :
    ColdPath path s ∧ ∃ l r, focus path s = node l r false ∧ child l r bit ≠ nil := by
  induction path generalizing s with
  | nil => cases s with
    | nil => exact cold.elim
    | node l r hot =>
      obtain ⟨rfl, present⟩ := cold
      exact ⟨by simp [ColdPath], l, r, rfl, present.ne_nil⟩
  | cons b path ih => cases s with
    | nil => exact cold.elim
    | node l r hot =>
      obtain ⟨below, stop⟩ := ih cold.2
      exact ⟨⟨cold.1, below⟩, stop⟩

theorem graft_focus (path : List Bool) (s : BitTrie) : graft path (focus path s) s = s := by
  induction path generalizing s with
  | nil => simp
  | cons bit path ih => cases s with
    | nil => rfl
    | node l r hot => cases bit <;> simp [graft, focus, ih]

/-! ### Insert and remove -/

theorem insert_append (cold : ColdPath path s) (m : Nat) (rest : List Bool) :
    insert m (path ++ rest) s =
      graft path (insert (m - path.length) rest (focus path s)) s := by
  induction path generalizing s m with
  | nil => simp
  | cons bit path ih => cases s with
    | nil => exact cold.elim
    | node l r hot =>
      obtain ⟨rfl, cold⟩ := cold
      have present : (child l r bit).isNil = false := by
        simpa [← isNil_iff] using cold.ne_nil
      simp only [List.cons_append, insert, present, Bool.false_eq_true, if_false, graft, focus,
        List.length_cons, ih cold (m - 1)]
      congr 3
      omega

theorem remove_append (cold : ColdPath path s) (rest : List Bool) :
    remove (path ++ rest) s = graft path (remove rest (focus path s)) s := by
  induction path generalizing s with
  | nil => simp
  | cons bit path ih => cases s with
    | nil => exact cold.elim
    | node l r hot =>
      obtain ⟨rfl, cold⟩ := cold
      simp [graft, focus, ih cold]

/-- What lies on the path is hot or missing, so there is nothing to insert. -/
theorem insert_of_hot {l r : BitTrie} (cold : ColdPath path s)
    (covered : focus path s = node l r true) (m : Nat) (rest : List Bool) :
    insert m (path ++ rest) s = s := by
  rw [insert_append cold, covered, insert_hot, ← covered, graft_focus]

theorem remove_of_missing {l r : BitTrie} {bit : Bool} (cold : ColdPath path s)
    (stop : focus path s = node l r false) (missing : child l r bit = nil) (rest : List Bool) :
    remove (path ++ bit :: rest) s = s := by
  have stay : remove (bit :: rest) (node l r false) = node l r false := by
    cases bit <;> simp_all
  rw [remove_append cold, stop, stay, ← stop, graft_focus]

/-! ### Shapes -/

theorem HotLeaf.focus (leafy : HotLeaf s) (path : List Bool) : HotLeaf (focus path s) := by
  induction path generalizing s with
  | nil => simpa using leafy
  | cons bit path ih => cases s with
    | nil => trivial
    | node l r hot => exact ih (leafy.child bit)

/-! ### Creating nodes -/

/-- Create the nodes of a path, as far as no hot node lies on it. -/
def sprout : List Bool → BitTrie → BitTrie
  | _, node l r true => node l r true
  | [], nil => node nil nil false
  | [], node l r false => node l r false
  | bit :: path, nil => setChild nil nil false bit (sprout path nil)
  | bit :: path, node l r false => setChild l r false bit (sprout path (child l r bit))

@[simp] theorem sprout_nil_node (l r : BitTrie) (hot : Bool) :
    sprout [] (node l r hot) = node l r hot := by
  cases hot <;> rfl

@[simp] theorem sprout_cons_node (bit : Bool) (l r : BitTrie) :
    sprout (bit :: path) (node l r false) =
      setChild l r false bit (sprout path (child l r bit)) := rfl

@[simp] theorem sprout_cons_nil (bit : Bool) :
    sprout (bit :: path) nil = setChild nil nil false bit (sprout path nil) := rfl

theorem sprout_ne_nil (path : List Bool) (s : BitTrie) : sprout path s ≠ nil := by
  cases s with
  | nil => cases path <;> simp [sprout, setChild_ne_nil]
  | node l r hot => cases hot <;> cases path <;> simp [sprout, setChild_ne_nil]

theorem sprout_append (cold : ColdPath path s) (rest : List Bool) :
    sprout (path ++ rest) s = graft path (sprout rest (focus path s)) s := by
  induction path generalizing s with
  | nil => simp
  | cons bit path ih => cases s with
    | nil => exact cold.elim
    | node l r hot =>
      obtain ⟨rfl, cold⟩ := cold
      simp [graft, focus, ih cold]

theorem hotLeaf_sprout (leafy : HotLeaf s) (path : List Bool) : HotLeaf (sprout path s) := by
  induction path generalizing s with
  | nil => cases s with
    | nil => simp [sprout, HotLeaf]
    | node l r hot => simpa using leafy
  | cons bit path ih => cases s with
    | nil => exact HotLeaf.setChild (by simp [HotLeaf]) (ih leafy) bit
    | node l r hot => cases hot with
      | true => exact leafy
      | false => exact leafy.setChild (ih (leafy.child bit)) bit

/-- Nodes that are not hot stay above the last level. -/
theorem fits_sprout (fits : Fits m s) (short : path.length < m) : Fits m (sprout path s) := by
  induction path generalizing s m with
  | nil => cases s with
    | nil =>
      obtain ⟨k, rfl⟩ : ∃ k, m = k + 1 := ⟨m - 1, by simp at short; omega⟩
      simp [sprout, Fits]
    | node l r hot => simpa using fits
  | cons bit path ih =>
    obtain ⟨k, rfl⟩ : ∃ k, m = k + 1 := ⟨m - 1, by simp at short; omega⟩
    have short' : path.length < k := by simpa using short
    cases s with
    | nil => exact Fits.setChild (h := false) (by simp [Fits]) (ih (fits_nil k) short') bit
    | node l r hot => cases hot with
      | true => exact fits
      | false => exact fits.setChild (ih (fits.child bit) short') bit

/-- What is left when an insertion stops on the way: some of the first `m`
nodes that lead to the key. -/
def Stalled (m : Nat) (key : List Bool) (s t : BitTrie) : Prop :=
  ∃ front, front <+: key ∧ front.length < m ∧ t = sprout front s

theorem Stalled.refl {key : List Bool} (h : 0 < m) (l r : BitTrie) (hot : Bool) :
    Stalled m key (node l r hot) (node l r hot) :=
  ⟨[], List.nil_prefix, h, (sprout_nil_node l r hot).symm⟩

theorem Stalled.ne_nil {key : List Bool} (h : Stalled m key s t) : t ≠ nil := by
  obtain ⟨front, -, -, rfl⟩ := h
  exact sprout_ne_nil front s

theorem Stalled.hotLeaf {key : List Bool} (h : Stalled m key s t) (leafy : HotLeaf s) :
    HotLeaf t := by
  obtain ⟨front, -, -, rfl⟩ := h
  exact hotLeaf_sprout leafy front

theorem Stalled.fits {n : Nat} {key : List Bool} (h : Stalled m key s t) (fits : Fits n s)
    (short : m ≤ n) : Fits n t := by
  obtain ⟨front, -, shorter, rfl⟩ := h
  exact fits_sprout fits (by omega)

theorem Stalled.graft {key : List Bool} (cold : ColdPath path s)
    (h : Stalled (m - path.length) key (focus path s) t) :
    Stalled m (path ++ key) s (graft path t s) := by
  obtain ⟨front, inside, shorter, rfl⟩ := h
  refine ⟨path ++ front, (List.prefix_append_right_inj _).mpr inside, ?_,
    (sprout_append cold front).symm⟩
  rw [List.length_append]
  omega

end BitTrie
