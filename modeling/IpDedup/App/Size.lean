import IpDedup.App.ArrayStages
import IpDedup.App.ExitCode
import IpDedup.Lib.TrieSize

/-!
# Sizes

How much a run may print: without inverting and purging, no more networks than
it read. Each network that is purged, and each network of an inverted input, may
leave one network beside each step of its path. So the arrays of a run do not
overflow, unless there are more lines than fit in any memory.

## Main definitions

* `sizeBound`: a bound for the networks of one family
* `IpdedupGlobals.FewLines`: there are no more lines than fit in memory

## Main results

* `mainRun_size`: a run prints no more networks than that
* `few_of_reads`: with few enough lines, there are few enough networks for arrays
-/

set_option autoImplicit false

namespace IpDedup

open BitTrie IpFamily

/-! ### The tree of a family -/

/-- A bound for the networks that are printed for one family. -/
def sizeBound (family : IpFamily) (wantInvert : Bool) (inputs purges : Nat) : Nat :=
  (if wantInvert then family.width * inputs + 1 else inputs) + family.width * purges

section Trees

variable (family : IpFamily) (n : Nat) (wantInvert : Bool) (inputs purges : List family.Addr)

theorem count_insertedSubnets_le {depth : Nat} (deep : 0 < depth) :
    count ((Subnets.empty deep).insertAll (inputs.map family.lawful.key)).trie ≤
      inputs.length := by
  have inserted := Subnets.count_insertAll_le (.empty deep) (inputs.map family.lawful.key)
  have none : count (Subnets.empty deep).trie = 0 := rfl
  rw [List.length_map] at inserted
  omega

theorem count_inputSubnets_le : count (inputSubnets family n inputs).trie ≤ inputs.length := by
  have deep : collapseLimit n [] ≠ some 0 := by
    unfold collapseLimit
    split_ifs with limit
    · exact fun same => limit.ne' (Option.some.inj same)
    · exact nofun
  refine (count_collapse_le_of_below ?_ deep).trans (count_insertedSubnets_le family inputs _)
  exact Subnets.sproutingBelow_insertAll (by simp [Subnets.empty, SproutingBelow]) _

/-- A tree that the networks were inserted into has no more networks than that. -/
theorem length_collect_inserted_le {found : Bool} {tree? : Option (IpTree family.Addr)}
    (short : ∀ addr ∈ purges, family.prefixlen addr ≤ family.width)
    (inserted : InsertedInto purges (startTree family 0 found) tree?) :
    ∀ tree ∈ tree?, (ipTreeCollectAddr tree).length ≤ purges.length := by
  intro tree own
  rw [insertedInto_startTree family short inserted] at own
  split_ifs at own
  · obtain rfl := Option.some.inj own
    have collected : ipTreeCollectAddr (family.tree 0 (purgeSubnets family purges)) = _ :=
      collect_tree 0 (purgeSubnets family purges)
    refine (congrArg List.length collected).trans_le ?_
    rw [List.length_map, length_hotPaths]
    exact count_insertedSubnets_le family purges _
  · cases own

/-- What is printed of a family is bounded by what is read. -/
theorem length_stageNets_le :
    (stageNets family n wantInvert inputs purges).length ≤
      sizeBound family wantInvert inputs.length purges.length := by
  have input := count_inputSubnets_le family n inputs
  have kept : count (if wantInvert then (inputSubnets family n inputs).invert
      else inputSubnets family n inputs).trie ≤
        if wantInvert then family.width * inputs.length + 1 else inputs.length := by
    cases wantInvert with
    | false => exact input
    | true =>
      have inverted := count_invertBelow_le (inputSubnets family n inputs).fits
        (invertibleBelow_inputSubnets n inputs).2
      refine inverted.trans (Nat.add_le_add_right ?_ 1)
      exact Nat.mul_le_mul (insertDepth_le n family.width) input
  have purged : (hotPaths (purgeSubnets family purges).trie).length ≤ purges.length := by
    rw [length_hotPaths]
    exact count_insertedSubnets_le family purges _
  -- each purged network leaves at most one network for each bit
  rw [stageNets, collect_tree, List.length_map, length_hotPaths, sizeBound]
  refine (Subnets.count_removeAll_le _ _).trans (Nat.add_le_add kept ?_)
  exact Nat.mul_le_mul_left _ purged

/-- With as many networks as there are lines, the bound is far below the size of an array. -/
theorem sizeBound_lt (family : IpFamily) (wantInvert : Bool) {inputs purges : Nat}
    (few : inputs + purges < 2 ^ 50) : sizeBound family wantInvert inputs purges < 2 ^ 60 := by
  have width : family.width ≤ 128 := by
    cases family with
    | v4 _ => exact (by decide : 32 ≤ 128)
    | v6 => exact (by decide : 128 ≤ 128)
  have bound : sizeBound family wantInvert inputs purges ≤ 128 * inputs + 1 + 128 * purges := by
    refine Nat.add_le_add ?_ (Nat.mul_le_mul_right _ width)
    split_ifs
    · exact Nat.add_le_add_right (Nat.mul_le_mul_right _ width) 1
    · omega
  omega

variable {inputs purges}

theorem length_collect_stageTree_lt {found wantInvert : Bool}
    (small : inputs.length + purges.length < 2 ^ 50) :
    ∀ tree ∈ stageTree family n found wantInvert inputs purges,
      (ipTreeCollectAddr tree).length < 2 ^ 60 := by
  intro tree own
  rw [stageTree] at own
  split_ifs at own
  · obtain rfl := Option.some.inj own
    exact (length_stageNets_le _ _ _ _ _).trans_lt (sizeBound_lt _ _ small)
  · cases own

end Trees

/-! ### The run -/

section Run

variable {P : Platform} {sys : System} {g : IpdedupGlobals P.fast32} {f : ParseIpAddrFunc P.fast32}

/-- While allocation succeeds, a run that can read its files and open its output prints no more
networks of a family than the bound for those that it read. -/
theorem mainRun_size (prints : g.Prints sys f) (bufs : ParseBufs P.fast32) :
    ∃ (out : MainOut P.fast32) (netsV4 : List (Ip4Addr P.fast32)) (netsV6 : List Ip6Addr),
      mainRun P sys g bufs Mallocs.all = some (out, Mallocs.all) ∧
        out.outstream = g.printedNets netsV4 netsV6 ∧
        netsV4.length ≤ sizeBound (v4 P.fast32) g.wantInvert
          ((g.inputLines sys).flatMap f.netsV4).length
          ((g.purgeLines sys).flatMap f.netsV4).length ∧
        netsV6.length ≤ sizeBound v6 g.wantInvert ((g.inputLines sys).flatMap f.netsV6).length
          ((g.purgeLines sys).flatMap f.netsV6).length := by
  obtain ⟨out, run, -, -, outstream⟩ := mainRun_prints prints bufs
  exact ⟨out, g.netsV4 sys f, g.netsV6 sys f, run, outstream,
    length_stageNets_le _ _ _ _ _, length_stageNets_le _ _ _ _ _⟩

/-- An address that is excluded from a network leaves one network for each bit behind its
prefix. -/
theorem mainRun_size_purged :
    let P : Platform := ⟨.bits64, fun x _ => x, fun x _ => x⟩
    let f : ParseIpAddrFunc P.fast32 := parseIp4AddrCombined
    let sys : System := ⟨fun _ => some ⟨["10.0.0.1\n".toList], false⟩,
      ⟨["10.0.0.0/8\n".toList], false⟩, fun _ => true⟩
    let g : IpdedupGlobals P.fast32 := ⟨.onlyIpv4, .empty .onlyIpv4, 0, 0, none, none,
      [some ['p']], false, false, false, false, false, false⟩
    (g.netsV4 sys f).length = 24 ∧
      ∃ (out : MainOut P.fast32) (netsV4 : List (Ip4Addr P.fast32)) (netsV6 : List Ip6Addr),
        mainRun P sys g .zero Mallocs.all = some (out, Mallocs.all) ∧
          out.outstream = g.printedNets netsV4 netsV6 ∧
          netsV4.length ≤ sizeBound (v4 P.fast32) g.wantInvert
            ((g.inputLines sys).flatMap f.netsV4).length
            ((g.purgeLines sys).flatMap f.netsV4).length ∧
          netsV6.length ≤ sizeBound v6 g.wantInvert ((g.inputLines sys).flatMap f.netsV6).length
            ((g.purgeLines sys).flatMap f.netsV6).length := by
  intro P f sys g
  have inputs : ∀ name ∈ [stdinName], FileRead f g.wantKeepGoing sys.fopen sys.stdin name := by
    unfold FileRead
    decide +kernel
  have purges : ∀ name ∈ g.purgeInfiles,
      FileRead f g.wantKeepGoing sys.fopen sys.stdin name := by
    unfold FileRead
    decide +kernel
  have prints : g.Prints sys f :=
    ⟨ipTreeBuilderNew_all rfl, rfl, ⟨inputs, purges, not_asksStdinTwice_single _ _,
      not_asksStdinTwice_single _ _⟩, by simp [g, IpdedupGlobals.Opens], rfl⟩
  exact ⟨by decide +kernel, mainRun_size prints .zero⟩

/-! ### Arrays -/

/-- There are no more lines than fit in memory. -/
def IpdedupGlobals.FewLines (sys : System) (g : IpdedupGlobals P.fast32) : Prop :=
  (g.inputLines sys).length + (g.purgeLines sys).length < 2 ^ 50

theorem length_flatMap_le {α : Type} {nets : List Char → List α}
    (single : ∀ line, (nets line).length ≤ 1) (lines : List (List Char)) :
    (lines.flatMap nets).length ≤ lines.length := by
  induction lines with
  | nil => exact le_rfl
  | cons line lines ih =>
    have own := single line
    rw [List.flatMap_cons, List.length_append, List.length_cons]
    omega

/-- A line names at most one network of a family. -/
theorem length_netsV4_le (f : ParseIpAddrFunc P.fast32) (lines : List (List Char)) :
    (lines.flatMap f.netsV4).length ≤ lines.length := by
  refine length_flatMap_le (fun line => ?_) lines
  rw [ParseIpAddrFunc.netsV4, ParseIpAddrData.netsV4]
  split_ifs <;> simp

theorem length_netsV6_le (f : ParseIpAddrFunc P.fast32) (lines : List (List Char)) :
    (lines.flatMap f.netsV6).length ≤ lines.length := by
  refine length_flatMap_le (fun line => ?_) lines
  rw [ParseIpAddrFunc.netsV6, ParseIpAddrData.netsV6]
  split_ifs <;> simp

/-- A run that can read its files collects no more networks than an array holds. -/
theorem few_of_reads (made : g.treeBuilder = .empty g.treeMode)
    (parser : parseIpFileParser P g.treeMode g.wantStrict = some f) (reads : g.Reads sys f)
    (fewLines : g.FewLines sys) {bufs : ParseBufs P.fast32} {full : MainOut P.fast32}
    (run : mainRun P sys g bufs Mallocs.all = some (full, Mallocs.all)) :
    full.treeBuilder.Few ∧ ∀ purges ∈ full.purgeBuilder, purges.Few := by
  have sound := parseIpFileParser_sound parser
  obtain ⟨obj, purgeBuilder, staged, purged, ran⟩ := mainRun_staged made parser reads bufs
  obtain ⟨printed, -, same⟩ := Option.map_eq_some_iff.mp (ran.symm.trans run)
  obtain rfl : _ = full := congrArg Prod.fst same
  -- there are no more networks than lines
  have inputsV4 := length_netsV4_le f (g.inputLines sys)
  have purgesV4 := length_netsV4_le f (g.purgeLines sys)
  have inputsV6 := length_netsV6_le f (g.inputLines sys)
  have purgesV6 := length_netsV6_le f (g.purgeLines sys)
  rw [IpdedupGlobals.FewLines] at fewLines
  have smallV4 : ((g.inputLines sys).flatMap f.netsV4).length +
      ((g.purgeLines sys).flatMap f.netsV4).length < 2 ^ 50 := by omega
  have smallV6 : ((g.inputLines sys).flatMap f.netsV6).length +
      ((g.purgeLines sys).flatMap f.netsV6).length < 2 ^ 50 := by omega
  constructor
  · constructor
    · dsimp only
      rw [staged.v4]
      exact length_collect_stageTree_lt (v4 P.fast32) _ smallV4
    · dsimp only
      rw [staged.v6]
      exact length_collect_stageTree_lt v6 _ smallV6
  · intro purges own
    have inserted := purged purges own
    constructor
    · intro tree own
      have bound := length_collect_inserted_le (v4 P.fast32) _ (short_netsV4 sound _)
        inserted.v4 tree own
      omega
    · intro tree own
      have bound := length_collect_inserted_le v6 _ (short_netsV6 sound _) inserted.v6 tree own
      omega

end Run

end IpDedup
