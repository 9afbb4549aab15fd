import IpDedup.Lib.Subnets
import IpDedup.Tree.Networks

/-!
# The tree stage of the program

What `main_run` does with the parsed networks of one address family: insert,
collapse, invert if requested, and purge.

## Main results

* `mainRunTreeStage_covered`: the networks that come out cover the union of the
  input, or its complement, minus the purged networks
* `mainRunTreeStage_canonical`: they are the canonical decomposition of that set
-/

set_option autoImplicit false

open BitString BitTrie PrefixCover

namespace IpDedup

section Code

variable {α : Type}

/-- `EX_SOFTWARE` -/
def exSoftware : Int := 70

/-- `EX_OSERR` -/
def exOserr : Int := 71

/-- Insert parsed networks, one by one. -/
def ipTreeInsertAll (tree : IpTree α) : List α → Run (Int × IpTree α)
  | [] => pure (0, tree)
  | addr :: addrs => do
    let (ret, tree) ← ipTreeInsert tree addr
    if ret ≠ 0 then pure (-1, tree) else ipTreeInsertAll tree addrs

/-- `ip_tree_builder_purge`, for the collected networks of one family. -/
def ipTreeBuilderPurge (tree : IpTree α) : List α → Run (Int × IpTree α)
  | [] => pure (0, tree)
  | addr :: addrs => do
    let (ret, tree) ← ipTreePurge tree addr
    if ret ≠ 0 then pure (-1, tree) else ipTreeBuilderPurge tree addrs

/-- The purge stage: collect a second tree of networks and purge each of them. -/
def mainRunPurge (tdesc : IpTreeTypedesc α) (tree : IpTree α) (purges : List α) :
    Run (Int × Option (IpTree α)) := do
  match ← ipTreeNew tdesc with
  | none => pure (exSoftware, none)
  | some purgeTree =>
    let (ret, purgeTree) ← ipTreeInsertAll purgeTree purges
    if ret ≠ 0 then
      pure (exSoftware, none)
    else
      let (ret, tree) ← ipTreeBuilderPurge tree (ipTreeCollectAddr purgeTree)
      if ret ≠ 0 then pure (exSoftware, none) else pure (0, some tree)

/-- The tree stage of `main_run`, which stops at the first call that fails. -/
def mainRunTreeStage (tdesc : IpTreeTypedesc α) (collapsePrefixlen : Nat) (wantInvert : Bool)
    (inputs purges : List α) : Run (Int × Option (IpTree α)) := do
  match ← ipTreeNew tdesc with
  | none => pure (exOserr, none)
  | some tree =>
    let tree := ipTreeSetAutoCollapse tree collapsePrefixlen
    let (ret, tree) ← ipTreeInsertAll tree inputs
    if ret ≠ 0 then
      pure (exSoftware, none)
    else
      let (_, tree) := ipTreeCollapse tree
      let (ret, tree) ← (if wantInvert then ipTreeInvert tree else pure (0, tree))
      if ret ≠ 0 then pure (exSoftware, none) else mainRunPurge tdesc tree purges

end Code

/-! ### The stage on sets of blocks -/

section Stage

variable {family : IpFamily}

/-- The deepest level that insertions reach. -/
def insertDepth (n width : Nat) : Nat := if n > 0 then min n width else width

theorem insertDepth_pos (n : Nat) {width : Nat} (h : 0 < width) : 0 < insertDepth n width := by
  unfold insertDepth
  split_ifs <;> omega

theorem insertDepth_le (n width : Nat) : insertDepth n width ≤ width := by
  unfold insertDepth
  split_ifs <;> omega

open IpFamily

variable {n depth : Nat} {addr : family.Addr} {addrs : List family.Addr}

theorem ipTreeInsert_all (same : depth = insertDepth n family.width) (S : Subnets depth)
    (short : family.prefixlen addr ≤ family.width) :
    ipTreeInsert (family.tree n S) addr Mallocs.all =
      some ((0, family.tree n (S.insert (family.lawful.key addr))), Mallocs.all) := by
  have levels : insertLevels n family.typedesc [] addr =
      min (family.lawful.key addr).length depth := by
    rw [family.lawful.length_key short, same, insertLevels, insertDepth]
    change family.prefixlen addr ≤ _ at short
    split_ifs <;> simp [IpFamily.prefixlen] at * <;> omega
  have added := (ipTreeInsert_label family.lawful [] n short (Nat.zero_le _) S.root).run_all trivial
  rw [levels, keyFrom_nil] at added
  exact added

theorem ipTreeInsertAll_all (same : depth = insertDepth n family.width)
    (short : ∀ addr ∈ addrs, family.prefixlen addr ≤ family.width) (S : Subnets depth) :
    ipTreeInsertAll (family.tree n S) addrs Mallocs.all =
      some ((0, family.tree n (S.insertAll (addrs.map family.lawful.key))),
        Mallocs.all) := by
  induction addrs generalizing S with
  | nil => rfl
  | cons addr addrs ih =>
    obtain ⟨first, others⟩ := List.forall_mem_cons.mp short
    simp [ipTreeInsertAll, ipTreeInsert_all same S first, ih others]

theorem ipTreePurge_all (S : Subnets family.width)
    (short : family.prefixlen addr ≤ family.width) :
    ipTreePurge (family.tree n S) addr Mallocs.all =
      some ((0, family.tree n (S.remove (family.lawful.key addr))), Mallocs.all) := by
  have ends := ipTreePurge_label family.lawful [] n short (Nat.zero_le _) S.root S.leafy
  have purged := ends.run_all trivial
  rw [keyFrom_nil, ← take_key short] at purged
  exact purged

theorem ipTreeBuilderPurge_all (short : ∀ addr ∈ addrs, family.prefixlen addr ≤ family.width)
    (S : Subnets family.width) :
    ipTreeBuilderPurge (family.tree n S) addrs Mallocs.all =
      some ((0, family.tree n (S.removeAll (addrs.map family.lawful.key))),
        Mallocs.all) := by
  induction addrs generalizing S with
  | nil => rfl
  | cons addr addrs ih =>
    obtain ⟨first, others⟩ := List.forall_mem_cons.mp short
    simp [ipTreeBuilderPurge, ipTreePurge_all S first, ih others]

theorem ipTreeInvert_all (same : depth ≤ family.width) (S : Subnets depth)
    (valid : InvertibleBelow S.trie) :
    ipTreeInvert (family.tree n S) Mallocs.all =
      some ((0, family.tree n S.invert), Mallocs.all) := by
  have room : ([] : NodePath).length + depth ≤ family.width := by simpa using same
  exact (ipTreeInvert_label family.lawful [] n S.root S.leafy S.fits room).run_all valid

/-- The inserted and collapsed input. -/
def inputSubnets (family : IpFamily) (n : Nat) (inputs : List family.Addr) :
    Subnets (insertDepth n family.width) :=
  ((Subnets.empty (insertDepth_pos n family.width_pos)).insertAll
    (inputs.map family.lawful.key)).collapse (collapseLimit n [])

/-- The networks to be purged. -/
def purgeSubnets (family : IpFamily) (purges : List family.Addr) : Subnets family.width :=
  (Subnets.empty family.width_pos).insertAll (purges.map family.lawful.key)

/-- The set of blocks that the stage computes. -/
def stageSubnets (family : IpFamily) (n : Nat) (wantInvert : Bool)
    (inputs purges : List family.Addr) : Subnets family.width :=
  let kept := if wantInvert then (inputSubnets family n inputs).invert
    else inputSubnets family n inputs
  (kept.deepen (insertDepth_le n family.width)).removeAll
    (hotPaths (purgeSubnets family purges).trie)

/-- Purging the collected networks of a tree removes its blocks. -/
theorem ipTreeBuilderPurge_collect (S T : Subnets family.width) (m : Nat) :
    ipTreeBuilderPurge (family.tree n S) (ipTreeCollectAddr (family.tree m T)) Mallocs.all =
      some ((0, family.tree n (S.removeAll (hotPaths T.trie))), Mallocs.all) := by
  rw [ipTreeBuilderPurge_all (prefixlen_collect m T), key_collect]

theorem mainRunPurge_all {purges : List family.Addr}
    (short : ∀ addr ∈ purges, family.prefixlen addr ≤ family.width) (S : Subnets family.width) :
    mainRunPurge family.typedesc (family.tree n S) purges Mallocs.all =
      some ((0, some (family.tree n (S.removeAll (hotPaths (purgeSubnets family purges).trie)))),
        Mallocs.all) := by
  have same : family.width = insertDepth 0 family.width := rfl
  have second := ipTreeInsertAll_all same short (.empty family.width_pos)
  have purged := ipTreeBuilderPurge_collect (n := n) S (purgeSubnets family purges) 0
  rw [purgeSubnets] at purged ⊢
  simp only [mainRunPurge, Run.bind_apply, ipTreeNew_all, Option.bind_some, second, purged,
    ne_eq, not_true_eq_false, reduceIte, Run.pure_apply]

theorem invertibleBelow_inputSubnets (n : Nat) (inputs : List family.Addr) :
    InvertibleBelow (inputSubnets family n inputs).trie := by
  refine ⟨noHotSiblings_collapse _ _, sproutingBelow_collapse ?_⟩
  exact Subnets.sproutingBelow_insertAll (by simp [Subnets.empty, SproutingBelow]) _

theorem mainRunTreeStage_eq {wantInvert : Bool} {inputs purges : List family.Addr}
    (shortInputs : ∀ addr ∈ inputs, family.prefixlen addr ≤ family.width)
    (shortPurges : ∀ addr ∈ purges, family.prefixlen addr ≤ family.width) :
    mainRunTreeStage family.typedesc n wantInvert inputs purges Mallocs.all =
      some ((0, some (family.tree n (stageSubnets family n wantInvert inputs purges))),
        Mallocs.all) := by
  have start : ipTreeSetAutoCollapse (family.tree 0 (.empty family.width_pos)) n =
      family.tree n (.empty (insertDepth_pos n family.width_pos)) := rfl
  have inserted := ipTreeInsertAll_all (n := n) rfl shortInputs
    (.empty (insertDepth_pos n family.width_pos))
  have inverted := ipTreeInvert_all (n := n) (insertDepth_le n family.width) _
    (invertibleBelow_inputSubnets n inputs)
  -- the files to be purged are read without auto-collapse, so they may lie deeper
  have purged (S : Subnets (insertDepth n family.width)) :
      mainRunPurge family.typedesc (family.tree n S) purges Mallocs.all =
        some ((0, some (family.tree n ((S.deepen (insertDepth_le n family.width)).removeAll
          (hotPaths (purgeSubnets family purges).trie)))), Mallocs.all) :=
    mainRunPurge_all shortPurges (S.deepen _)
  simp only [mainRunTreeStage, Run.bind_apply, ipTreeNew_all, Option.bind_some, start, inserted,
    ipTreeCollapse_tree, ne_eq, not_true_eq_false, reduceIte]
  rw [← inputSubnets, stageSubnets]
  cases wantInvert with
  | true =>
    simp only [reduceIte, inverted, Option.bind_some, not_true_eq_false, purged]
  | false =>
    simp only [Bool.false_eq_true, reduceIte, Run.pure_apply, Option.bind_some,
      not_true_eq_false, purged]

/-! ### What comes out -/

/-- The union of the input networks, widened by auto-collapse. -/
def inputSet (family : IpFamily) (n : Nat) (inputs : List family.Addr) :
    Set (BitVec family.width) :=
  {x | ∃ addr ∈ inputs, x ∈ family.widened n addr}

/-- The union of the input or its complement, but the complement of nothing is nothing. -/
def keptSet (family : IpFamily) (n : Nat) (wantInvert : Bool) (inputs : List family.Addr) :
    Set (BitVec family.width) :=
  if wantInvert then {x | (inputSet family n inputs).Nonempty ∧ x ∉ inputSet family n inputs}
  else inputSet family n inputs

theorem mem_widened_iff (short : family.prefixlen addr ≤ family.width)
    (x : BitVec family.width) :
    x ∈ family.widened n addr ↔
      (family.lawful.key addr).take (insertDepth n family.width) <+: family.bitsOf x := by
  have length : min (insertDepth n family.width) (family.prefixlen addr) =
      if n > 0 ∧ family.prefixlen addr > n then n else family.prefixlen addr := by
    unfold insertDepth
    split_ifs <;> omega
  rw [widened, mem_blockAt_iff (by split_ifs <;> omega), key_eq, List.take_take, length]

theorem covers_inputSubnets {inputs : List family.Addr}
    (short : ∀ addr ∈ inputs, family.prefixlen addr ≤ family.width) (x : BitVec family.width) :
    (inputSubnets family n inputs).Covers (family.bitsOf x) ↔ x ∈ inputSet family n inputs := by
  have wide : insertDepth n family.width ≤ (family.bitsOf x).length := by
    rw [length_bitsOf]
    exact insertDepth_le n family.width
  have capped : ∀ m, collapseLimit n [] = some m → insertDepth n family.width ≤ m := by
    unfold collapseLimit insertDepth
    intro m limit
    split_ifs at limit ⊢
    cases limit
    simp
  rw [inputSubnets, Subnets.covers_collapse wide capped, Subnets.covers_insertAll, inputSet,
    Set.mem_ofPred_eq]
  constructor
  · rintro (none | ⟨_, mem, inside⟩)
    · exact absurd none (Subnets.not_covers_empty _ _)
    · obtain ⟨addr, hinputs, rfl⟩ := List.mem_map.mp mem
      exact ⟨addr, hinputs, (mem_widened_iff (short addr hinputs) x).mpr inside⟩
  · rintro ⟨addr, hinputs, inside⟩
    exact Or.inr ⟨_, List.mem_map_of_mem hinputs,
      (mem_widened_iff (short addr hinputs) x).mp inside⟩

theorem covers_purgeSubnets {purges : List family.Addr}
    (short : ∀ addr ∈ purges, family.prefixlen addr ≤ family.width) (x : BitVec family.width) :
    (purgeSubnets family purges).Covers (family.bitsOf x) ↔ x ∈ family.covered purges := by
  rw [purgeSubnets, Subnets.covers_insertAll, covered_iff_exists short, covers_iff]
  constructor
  · rintro (none | ⟨_, mem, inside⟩)
    · exact absurd none (Subnets.not_covers_empty _ _)
    · obtain ⟨addr, hpurges, rfl⟩ := List.mem_map.mp mem
      rw [take_key (short addr hpurges)] at inside
      exact ⟨_, mem, inside⟩
  · rintro ⟨_, mem, inside⟩
    obtain ⟨addr, hpurges, rfl⟩ := List.mem_map.mp mem
    exact Or.inr ⟨_, mem, by rwa [take_key (short addr hpurges)]⟩

theorem covers_stageSubnets {wantInvert : Bool} {inputs purges : List family.Addr}
    (shortInputs : ∀ addr ∈ inputs, family.prefixlen addr ≤ family.width)
    (shortPurges : ∀ addr ∈ purges, family.prefixlen addr ≤ family.width)
    (x : BitVec family.width) :
    (stageSubnets family n wantInvert inputs purges).Covers (family.bitsOf x) ↔
      x ∈ keptSet family n wantInvert inputs \ family.covered purges := by
  have input := covers_inputSubnets (n := n) shortInputs
  have wide : insertDepth n family.width ≤ (family.bitsOf x).length := by
    rw [length_bitsOf]
    exact insertDepth_le n family.width
  -- the keys of the purged networks are short enough as they are
  have purged : (∃ key ∈ hotPaths (purgeSubnets family purges).trie,
      key.take family.width <+: family.bitsOf x) ↔ x ∈ family.covered purges := by
    rw [← covers_purgeSubnets shortPurges, Subnets.Covers, covers_eq_true_iff, covers_iff]
    refine exists_congr fun key => and_congr_right fun mem => ?_
    rw [List.take_of_length_le (length_le_width _ mem)]
  have kept : (if wantInvert then (inputSubnets family n inputs).invert
      else inputSubnets family n inputs).Covers (family.bitsOf x) ↔
        x ∈ keptSet family n wantInvert inputs := by
    cases wantInvert with
    | false => exact input x
    | true =>
      -- an input without networks is not inverted
      simp only [reduceIte, keptSet, Set.mem_ofPred_eq]
      rw [Subnets.covers_invert wide (invertibleBelow_inputSubnets n inputs).2,
        exists_covers_iff input, input]
  rw [stageSubnets, Subnets.covers_removeAll _ (by simp), purged, Set.mem_sdiff, ← kept]
  rfl

theorem noHotSiblings_stageSubnets (wantInvert : Bool) (inputs purges : List family.Addr) :
    NoHotSiblings (stageSubnets family n wantInvert inputs purges).trie := by
  have collapsed := invertibleBelow_inputSubnets n inputs
  refine Subnets.noHotSiblings_removeAll ?_ _
  cases wantInvert with
  | true => exact noHotSiblings_invertBelow collapsed.2
  | false => exact collapsed.1

end Stage

/-! ### Main results -/

section Main

open IpFamily

variable (family : IpFamily) (n : Nat) (wantInvert : Bool) (inputs purges : List family.Addr)

/-- While allocation succeeds, the stage succeeds, and the networks it leaves
cover the kept input minus the purged networks. -/
theorem mainRunTreeStage_covered
    (shortInputs : ∀ addr ∈ inputs, family.prefixlen addr ≤ family.width)
    (shortPurges : ∀ addr ∈ purges, family.prefixlen addr ≤ family.width) :
    ∃ tree, mainRunTreeStage family.typedesc n wantInvert inputs purges Mallocs.all =
        some ((0, some tree), Mallocs.all) ∧
      family.covered (ipTreeCollectAddr tree) =
        keptSet family n wantInvert inputs \ family.covered purges := by
  refine ⟨_, mainRunTreeStage_eq shortInputs shortPurges, ?_⟩
  ext x
  rw [mem_covered_tree, covers_stageSubnets shortInputs shortPurges]

/-- Everything but `10.0.0.0/8` and `192.168.1.1`. -/
theorem mainRunTreeStage_covered_outside :
    ∃ tree, mainRunTreeStage (v4 .bits32).typedesc 0 true [⟨8, 0x0a000000⟩] [⟨32, 0xc0a80101⟩]
        Mallocs.all = some ((0, some tree), Mallocs.all) ∧
      (v4 .bits32).covered (ipTreeCollectAddr tree) =
        keptSet (v4 .bits32) 0 true [⟨8, 0x0a000000⟩] \ (v4 .bits32).covered [⟨32, 0xc0a80101⟩] :=
  mainRunTreeStage_covered (v4 .bits32) 0 true [⟨8, 0x0a000000⟩] [⟨32, 0xc0a80101⟩]
    (by decide) (by decide)

/-- The networks that the stage leaves are the canonical decomposition of what
they cover, and any other run that covers the same leaves the same networks. -/
theorem mainRunTreeStage_canonical
    (shortInputs : ∀ addr ∈ inputs, family.prefixlen addr ≤ family.width)
    (shortPurges : ∀ addr ∈ purges, family.prefixlen addr ≤ family.width) :
    ∃ tree, mainRunTreeStage family.typedesc n wantInvert inputs purges Mallocs.all =
        some ((0, some tree), Mallocs.all) ∧
      family.Canonical (ipTreeCollectAddr tree) ∧
      ∀ n' wantInvert' inputs' purges' tree' mem,
        (∀ addr ∈ inputs' ++ purges', family.prefixlen addr ≤ family.width) →
        mainRunTreeStage family.typedesc n' wantInvert' inputs' purges' Mallocs.all =
          some ((0, some tree'), mem) →
        family.covered (ipTreeCollectAddr tree') = family.covered (ipTreeCollectAddr tree) →
        ipTreeCollectAddr tree' = ipTreeCollectAddr tree := by
  have apart := noHotSiblings_stageSubnets (n := n) wantInvert inputs purges
  refine ⟨_, mainRunTreeStage_eq shortInputs shortPurges, canonical_collect n apart, ?_⟩
  intro n' wantInvert' inputs' purges' tree' mem short run cover
  rw [mainRunTreeStage_eq (fun a h => short a (List.mem_append_left _ h))
    (fun a h => short a (List.mem_append_right _ h))] at run
  -- both trees are canonical, so what they cover determines what is collected
  obtain ⟨rfl, rfl⟩ : family.tree n' (stageSubnets family n' wantInvert' inputs' purges') = tree' ∧
      Mallocs.all = mem := by simpa using run
  exact collect_eq_of_covered_eq (noHotSiblings_stageSubnets wantInvert' inputs' purges') apart
    cover

/-- The two halves of `10.0.0.0/8`, without one address. -/
theorem mainRunTreeStage_canonical_halves :
    ∃ tree, mainRunTreeStage (v4 .bits32).typedesc 0 false [⟨9, 0x0a000000⟩, ⟨9, 0x0a800000⟩]
        [⟨32, 0x0a000001⟩] Mallocs.all = some ((0, some tree), Mallocs.all) ∧
      (v4 .bits32).Canonical (ipTreeCollectAddr tree) ∧
      ∀ n' wantInvert' inputs' purges' tree' mem,
        (∀ addr ∈ inputs' ++ purges', (v4 .bits32).prefixlen addr ≤ (v4 .bits32).width) →
        mainRunTreeStage (v4 .bits32).typedesc n' wantInvert' inputs' purges' Mallocs.all =
          some ((0, some tree'), mem) →
        (v4 .bits32).covered (ipTreeCollectAddr tree') =
          (v4 .bits32).covered (ipTreeCollectAddr tree) →
        ipTreeCollectAddr tree' = ipTreeCollectAddr tree :=
  mainRunTreeStage_canonical (v4 .bits32) 0 false [⟨9, 0x0a000000⟩, ⟨9, 0x0a800000⟩]
    [⟨32, 0x0a000001⟩] (by decide) (by decide)

end Main

end IpDedup
