import IpDedup.App.Pipe

/-!
# Pipelines

Runs behind each other, each of which reads what the one before it printed. Such
a run is a function on sets of addresses, and a pipeline is the composition of
these functions, whatever text is between the runs.

## Main definitions

* `IpFamily.filterSet`: what a run leaves of a set of addresses
* `mainRunPipeline`: the runs of a pipeline
* `IpFilter.pipedNetsV6`, `IpFilter.pipedSetV6`: what a pipeline makes of networks, and of a set

## Main results

* `mainRunPipeline_decomposes`: when a pipeline succeeds, and what it prints then
* `mainRunPipeline_split`: a run with many options is a pipeline of runs with one option each
-/

set_option autoImplicit false

namespace IpDedup

open IpFamily

/-! ### Sets of addresses -/

section Sets

variable (family : IpFamily) (n : Nat) (wantInvert : Bool) (s purged : Set (BitVec family.width))

/-- The blocks of prefix length `n` that have an address of the set, unless `n` is zero. -/
def IpFamily.widenSet : Set (BitVec family.width) :=
  if n > 0 then {x | ∃ y ∈ s, x >>> (family.width - n) = y >>> (family.width - n)} else s

/-- What is left of a set of addresses. The complement of nothing is nothing. -/
def IpFamily.filterSet : Set (BitVec family.width) :=
  (if wantInvert then {x | (family.widenSet n s).Nonempty ∧ x ∉ family.widenSet n s}
    else family.widenSet n s) \ purged

variable {family n wantInvert s purged} {nets purges : List family.Addr}

@[simp] theorem widenSet_zero : family.widenSet 0 s = s := if_neg (Nat.lt_irrefl 0)

/-- Addresses that agree on some bits agree on fewer. -/
theorem ushiftRight_eq_of_le {w i j : Nat} {x y : BitVec w} (le : i ≤ j)
    (same : x >>> i = y >>> i) : x >>> j = y >>> j := by
  obtain ⟨k, rfl⟩ := Nat.exists_eq_add_of_le le
  rw [BitVec.shiftRight_add, same, ← BitVec.shiftRight_add]

/-- Widening a network is widening its block. -/
theorem widened_eq_widenSet (addr : family.Addr) :
    family.widened n addr = family.widenSet n (family.block addr) := by
  rw [widened, widenSet]
  by_cases positive : n > 0
  · rw [if_pos positive]
    by_cases long : family.prefixlen addr > n
    · rw [if_pos ⟨positive, long⟩]
      ext x
      constructor
      · exact fun inside => ⟨family.word addr, rfl, inside⟩
      · rintro ⟨y, own, same⟩
        exact same.trans (ushiftRight_eq_of_le (Nat.sub_le_sub_left long.le _) own)
    · rw [if_neg (not_and_of_not_right _ long)]
      ext x
      constructor
      · exact fun own => ⟨x, own, rfl⟩
      · -- the block is made of blocks of prefix length `n`
        rintro ⟨y, own, same⟩
        have le : family.width - n ≤ family.width - family.prefixlen addr :=
          Nat.sub_le_sub_left (not_lt.mp long) _
        exact (ushiftRight_eq_of_le le same).trans own
  · rw [if_neg (not_and_of_not_left _ positive), if_neg positive]
    rfl

theorem inputSet_eq_widenSet :
    inputSet family n nets = family.widenSet n (family.covered nets) := by
  have blocks : inputSet family n nets =
      {x | ∃ addr ∈ nets, x ∈ family.widenSet n (family.block addr)} := by
    simp only [inputSet, widened_eq_widenSet]
  rw [blocks]
  by_cases positive : n > 0
  · simp only [widenSet, if_pos positive]
    ext x
    constructor
    · rintro ⟨addr, mem, y, own, same⟩
      exact ⟨y, ⟨addr, mem, own⟩, same⟩
    · rintro ⟨y, ⟨addr, mem, own⟩, same⟩
      exact ⟨addr, mem, y, own, same⟩
  · simp only [widenSet, if_neg positive]
    rfl

/-- What is printed covers what is left of the set that the input covers. -/
theorem covered_stageNets_eq_filterSet
    (short : ∀ addr ∈ nets, family.prefixlen addr ≤ family.width)
    (shortPurges : ∀ addr ∈ purges, family.prefixlen addr ≤ family.width) :
    family.covered (stageNets family n wantInvert nets purges) =
      family.filterSet n wantInvert (family.covered nets) (family.covered purges) := by
  rw [covered_stageNets short shortPurges, keptSet, inputSet_eq_widenSet, filterSet]

/-- Inserting, collapsing, inverting and purging, with all networks printed and read in between. -/
theorem stageNets_split (short : ∀ addr ∈ nets, family.prefixlen addr ≤ family.width)
    (shortPurges : ∀ addr ∈ purges, family.prefixlen addr ≤ family.width) :
    stageNets family 0 false (stageNets family 0 wantInvert
        (stageNets family n false (stageNets family 0 false nets []) []) []) purges =
      stageNets family n wantInvert nets purges := by
  have none : ∀ addr ∈ ([] : List family.Addr), family.prefixlen addr ≤ family.width :=
    List.forall_mem_nil _
  apply stageNets_eq_of_covered_eq
  rw [covered_stageNets_eq_filterSet canonical_stageNets.valid shortPurges,
    covered_stageNets_eq_filterSet canonical_stageNets.valid none,
    covered_stageNets_eq_filterSet canonical_stageNets.valid none,
    covered_stageNets_eq_filterSet short none, covered_stageNets_eq_filterSet short shortPurges,
    covered_nil]
  simp [filterSet]

end Sets

/-! ### Filters -/

namespace IpFilter

variable {P : Platform} (filter : IpFilter) (filters : List IpFilter) (sys : System)
  (f : ParseIpAddrFunc P.fast32)

/-- The IPv4 addresses that a filter leaves. -/
def setV4 (s : Set (BitVec (v4 P.fast32).width)) : Set (BitVec (v4 P.fast32).width) :=
  (v4 P.fast32).filterSet filter.collapsePrefixlenV4 filter.wantInvert s
    ((v4 P.fast32).covered ((filter.purgeLines sys).flatMap f.netsV4))

/-- The IPv6 addresses that a filter leaves. -/
def setV6 (s : Set (BitVec v6.width)) : Set (BitVec v6.width) :=
  v6.filterSet filter.collapsePrefixlenV6 filter.wantInvert s
    (v6.covered ((filter.purgeLines sys).flatMap f.netsV6))

/-- What the filters of a pipeline make of IPv4 networks. -/
def pipedNetsV4 (nets : List (Ip4Addr P.fast32)) : List (Ip4Addr P.fast32) :=
  filters.foldl (fun nets filter => filter.netsV4 sys f nets) nets

/-- What the filters of a pipeline make of IPv6 networks. -/
def pipedNetsV6 (nets : List Ip6Addr) : List Ip6Addr :=
  filters.foldl (fun nets filter => filter.netsV6 sys f nets) nets

/-- The IPv4 addresses that the filters of a pipeline leave. -/
def pipedSetV4 (s : Set (BitVec (v4 P.fast32).width)) : Set (BitVec (v4 P.fast32).width) :=
  filters.foldl (fun s filter => filter.setV4 sys f s) s

/-- The IPv6 addresses that the filters of a pipeline leave. -/
def pipedSetV6 (s : Set (BitVec v6.width)) : Set (BitVec v6.width) :=
  filters.foldl (fun s filter => filter.setV6 sys f s) s

variable {filter filters sys f} {mode : ParseIpType}

/-- Networks that are the decomposition of a set go through a pipeline like the set. -/
theorem pipedNetsV4_decomposes (sound : f.Sound mode) {nets : List (Ip4Addr P.fast32)}
    (canonical : (v4 P.fast32).Canonical nets) :
    (v4 P.fast32).Canonical (pipedNetsV4 filters sys f nets) ∧
      (v4 P.fast32).covered (pipedNetsV4 filters sys f nets) =
        pipedSetV4 filters sys f ((v4 P.fast32).covered nets) := by
  refine List.foldl_rel (r := fun nets s => (v4 P.fast32).Canonical nets ∧
    (v4 P.fast32).covered nets = s) ⟨canonical, rfl⟩ ?_
  rintro filter - nets _ ⟨canonical, rfl⟩
  exact ⟨canonical_stageNets,
    covered_stageNets_eq_filterSet canonical.valid (short_netsV4 sound _)⟩

theorem pipedNetsV6_decomposes (sound : f.Sound mode) {nets : List Ip6Addr}
    (canonical : v6.Canonical nets) :
    v6.Canonical (pipedNetsV6 filters sys f nets) ∧
      v6.covered (pipedNetsV6 filters sys f nets) =
        pipedSetV6 filters sys f (v6.covered nets) := by
  refine List.foldl_rel (r := fun nets s => v6.Canonical nets ∧ v6.covered nets = s)
    ⟨canonical, rfl⟩ ?_
  rintro filter - nets _ ⟨canonical, rfl⟩
  exact ⟨canonical_stageNets,
    covered_stageNets_eq_filterSet canonical.valid (short_netsV6 sound _)⟩

end IpFilter

/-! ### Runs -/

open IpFilter

/-- Runs that read what the one before them printed, as long as they succeed. -/
def mainRunPipeline (P : Platform) (sys : System) (mode : ParseIpType)
    (bufs : ParseBufs P.fast32) : List IpFilter → List Char → Option (List Char)
  | [], text => some text
  | filter :: filters, text =>
    match mainRun P (sys.pipe text) (filter.globals P.fast32 mode) bufs Mallocs.all with
    | none => none
    | some (out, _) =>
      if out.ret = 0 then mainRunPipeline P sys mode bufs filters out.outstream else none

/-- A run of the same input that prints it as it is. -/
def IpdedupGlobals.untouched {w : UintFast32} (g : IpdedupGlobals w) : IpdedupGlobals w :=
  { g with
    collapsePrefixlenV4 := 0
    collapsePrefixlenV6 := 0
    wantInvert := false
    purgeInfiles := [] }

/-- The options of a run, each as a filter of its own. -/
def IpdedupGlobals.filters {w : UintFast32} (g : IpdedupGlobals w) : List IpFilter :=
  [⟨g.collapsePrefixlenV4, g.collapsePrefixlenV6, false, []⟩, ⟨0, 0, g.wantInvert, []⟩,
    ⟨0, 0, false, g.purgeInfiles⟩]

section Runs

variable {P : Platform} {sys : System} {mode : ParseIpType} {f : ParseIpAddrFunc P.fast32}
  {filter : IpFilter} {filters : List IpFilter} {netsV4 : List (Ip4Addr P.fast32)}
  {netsV6 : List Ip6Addr} (bufs : ParseBufs P.fast32)

/-- The first run of a pipeline stops it, or passes on what the filter makes of the networks. -/
theorem mainRunPipeline_cons (filters : List IpFilter)
    (printable : Printable mode netsV4 netsV6)
    (parser : parseIpFileParser P mode false = some f) (reads : filter.Reads sys f) :
    (¬ (∀ net ∈ netsV6, net.addr.Readable) ∧
      mainRunPipeline P sys mode bufs (filter :: filters) (printedText netsV4 netsV6) = none) ∨
    (∀ net ∈ netsV6, net.addr.Readable) ∧
      mainRunPipeline P sys mode bufs (filter :: filters) (printedText netsV4 netsV6) =
        mainRunPipeline P sys mode bufs filters
          (printedText (filter.netsV4 sys f netsV4) (filter.netsV6 sys f netsV6)) := by
  obtain ⟨out, run, success, text⟩ := mainRun_filter printable parser reads bufs
  rw [mainRunPipeline, run]
  dsimp only
  by_cases good : out.ret = 0
  · rw [if_pos good, text good]
    exact Or.inr ⟨success.mp good, rfl⟩
  · rw [if_neg good]
    exact Or.inl ⟨success.not.mp good, rfl⟩

/-- What is in front of an element of a list. -/
theorem forall_front_cons {α : Type} {p : List α → Prop} {a : α} {as : List α} :
    (∀ front b back, a :: as = front ++ b :: back → p front) ↔
      p [] ∧ ∀ front b back, as = front ++ b :: back → p (a :: front) := by
  constructor
  · intro all
    exact ⟨all [] a as rfl, fun front b back cut => all (a :: front) b back (by rw [cut]; rfl)⟩
  · rintro ⟨first, others⟩ front b back cut
    cases front with
    | nil => exact first
    | cons c front =>
      obtain ⟨rfl, rfl⟩ := List.cons.inj cut
      exact others front b back rfl

/-- A pipeline succeeds if each run can read what the runs in front of it made of the networks. -/
theorem mainRunPipeline_isSome (printable : Printable mode netsV4 netsV6)
    (parser : parseIpFileParser P mode false = some f)
    (reads : ∀ filter ∈ filters, filter.Reads sys f) :
    (mainRunPipeline P sys mode bufs filters (printedText netsV4 netsV6)).isSome ↔
      ∀ front filter back, filters = front ++ filter :: back →
        ∀ net ∈ pipedNetsV6 front sys f netsV6, net.addr.Readable := by
  induction filters generalizing netsV4 netsV6 with
  | nil => simp [mainRunPipeline]
  | cons filter filters ih =>
    obtain ⟨own, others⟩ := List.forall_mem_cons.mp reads
    rw [forall_front_cons]
    rcases mainRunPipeline_cons bufs filters printable parser own with
      ⟨bad, run⟩ | ⟨good, run⟩
    · rw [run]
      exact iff_of_false Bool.false_ne_true fun all => bad all.1
    · rw [run, ih (printable.filtered (parseIpFileParser_sound parser) filter sys) others]
      exact (and_iff_right good).symm

/-- It prints what all of its runs make of the networks. -/
theorem mainRunPipeline_text (printable : Printable mode netsV4 netsV6)
    (parser : parseIpFileParser P mode false = some f)
    (reads : ∀ filter ∈ filters, filter.Reads sys f) :
    ∀ text ∈ mainRunPipeline P sys mode bufs filters (printedText netsV4 netsV6),
      text = printedText (pipedNetsV4 filters sys f netsV4) (pipedNetsV6 filters sys f netsV6) := by
  induction filters generalizing netsV4 netsV6 with
  | nil => exact fun text own => (Option.some.inj own).symm
  | cons filter filters ih =>
    obtain ⟨own, others⟩ := List.forall_mem_cons.mp reads
    intro text mem
    rcases mainRunPipeline_cons bufs filters printable parser own with ⟨-, run⟩ | ⟨-, run⟩
    · rw [run] at mem
      cases mem
    · rw [run] at mem
      exact ih (printable.filtered (parseIpFileParser_sound parser) filter sys) others text mem

end Runs

/-! ### Main results -/

section Main

variable {P : Platform} {sys : System} {g : IpdedupGlobals P.fast32}
  {f f' : ParseIpAddrFunc P.fast32} {filters : List IpFilter}

/-- A run, and filters that read what it printed in the default form. They succeed exactly if no
text on the way has an IPv6 address with a first block that is zero and no adjacent zero blocks.
Then the last of them prints the canonical decomposition of what they leave, one after the other,
of the addresses that the run has left of its input. -/
theorem mainRunPipeline_decomposes (prints : g.Prints sys f) (short : g.wantLongOutput = false)
    (full : g.wantReduxOutput = false) (parser : parseIpFileParser P g.treeMode false = some f')
    (reads : ∀ filter ∈ filters, filter.Reads sys f') (bufs bufs' : ParseBufs P.fast32) :
    ∃ out, mainRun P sys g bufs Mallocs.all = some (out, Mallocs.all) ∧
      ((mainRunPipeline P sys g.treeMode bufs' filters out.outstream).isSome ↔
        ∀ front filter back, filters = front ++ filter :: back →
          ∀ net ∈ pipedNetsV6 front sys f' (g.netsV6 sys f), net.addr.Readable) ∧
      ∀ text ∈ mainRunPipeline P sys g.treeMode bufs' filters out.outstream,
        ∃ (netsV4 : List (Ip4Addr P.fast32)) (netsV6 : List Ip6Addr),
          text = printedText netsV4 netsV6 ∧
            (v4 P.fast32).Canonical netsV4 ∧
            (v4 P.fast32).covered netsV4 = pipedSetV4 filters sys f' (g.resultV4 sys f) ∧
            v6.Canonical netsV6 ∧
            v6.covered netsV6 = pipedSetV6 filters sys f' (g.resultV6 sys f) := by
  have sound := parseIpFileParser_sound prints.parser
  have sound' := parseIpFileParser_sound parser
  obtain ⟨out, -, run, printed, printable, -⟩ := mainRun_printsText prints short full bufs
  refine ⟨out, run, ?_, fun text own => ?_⟩
  · rw [printed]
    exact mainRunPipeline_isSome bufs' printable parser reads
  · rw [printed] at own
    have same := mainRunPipeline_text bufs' printable parser reads text own
    have canonicalV4 : (v4 P.fast32).Canonical (g.netsV4 sys f) := canonical_stageNets
    have canonicalV6 : v6.Canonical (g.netsV6 sys f) := canonical_stageNets
    rw [← covered_netsV4 sound, ← covered_netsV6 sound]
    obtain ⟨piped4, cover4⟩ := pipedNetsV4_decomposes sound' canonicalV4
    obtain ⟨piped6, cover6⟩ := pipedNetsV6_decomposes sound' canonicalV6
    exact ⟨_, _, same, piped4, cover4, piped6, cover6⟩

/-- A network that is purged after it was inverted, and what is left inverted once more. -/
theorem mainRunPipeline_decomposes_invert :
    let P : Platform := ⟨.bits64, fun x _ => x, fun x _ => x⟩
    let f : ParseIpAddrFunc P.fast32 := parseIpAddrCombined
    let sys : System := ⟨fun _ => some ⟨["128.0.0.0/2\n".toList], false⟩,
      ⟨["0.0.0.0/1\n".toList], false⟩, fun _ => true⟩
    let g : IpdedupGlobals P.fast32 := ⟨.both, .empty .both, 0, 0, none, none, [], false, false,
      false, false, false, false⟩
    let filters : List IpFilter := [⟨0, 0, true, [some ['p']]⟩, .invert]
    ∃ out, mainRun P sys g .zero Mallocs.all = some (out, Mallocs.all) ∧
      ((mainRunPipeline P sys g.treeMode .zero filters out.outstream).isSome ↔
        ∀ front filter back, filters = front ++ filter :: back →
          ∀ net ∈ pipedNetsV6 front sys f (g.netsV6 sys f), net.addr.Readable) ∧
      ∀ text ∈ mainRunPipeline P sys g.treeMode .zero filters out.outstream,
        ∃ (netsV4 : List (Ip4Addr P.fast32)) (netsV6 : List Ip6Addr),
          text = printedText netsV4 netsV6 ∧
            (v4 P.fast32).Canonical netsV4 ∧
            (v4 P.fast32).covered netsV4 = pipedSetV4 filters sys f (g.resultV4 sys f) ∧
            v6.Canonical netsV6 ∧
            v6.covered netsV6 = pipedSetV6 filters sys f (g.resultV6 sys f) := by
  intro P f sys g filters
  have inputs : ∀ name ∈ g.inputNames, FileRead f g.wantKeepGoing sys.fopen sys.stdin name := by
    unfold FileRead
    decide +kernel
  have prints : g.Prints sys f := by
    refine ⟨ipTreeBuilderNew_all rfl, rfl, ⟨inputs, by simp [g], not_asksStdinTwice_single _ _,
      asksStdinAgain_nil⟩, ?_, rfl⟩
    simp [g, IpdedupGlobals.Opens]
  have reads : ∀ filter ∈ filters, filter.Reads sys f := by
    unfold IpFilter.Reads FileRead
    decide +kernel
  exact mainRunPipeline_decomposes prints rfl rfl rfl reads .zero .zero

/-- A run that collapses, inverts and purges prints what a pipeline prints that does so in runs of
their own. The pipeline succeeds if all of these can read what comes to them. -/
theorem mainRunPipeline_split (prints : g.Prints sys f) (short : g.wantLongOutput = false)
    (full : g.wantReduxOutput = false) (lax : g.wantStrict = false)
    (careful : g.wantKeepGoing = false) (noStdin : stdinName ∉ g.purgeInfiles)
    (bufs bufs' : ParseBufs P.fast32) :
    ∃ out direct, mainRun P sys g.untouched bufs Mallocs.all = some (out, Mallocs.all) ∧
      mainRun P sys g bufs Mallocs.all = some (direct, Mallocs.all) ∧
      ((mainRunPipeline P sys g.treeMode bufs' g.filters out.outstream).isSome ↔
        ∀ front filter back, g.filters = front ++ filter :: back →
          ∀ net ∈ pipedNetsV6 front sys f (g.untouched.netsV6 sys f), net.addr.Readable) ∧
      ∀ text ∈ mainRunPipeline P sys g.treeMode bufs' g.filters out.outstream,
        text = direct.outstream := by
  have sound := parseIpFileParser_sound prints.parser
  have parser : parseIpFileParser P g.treeMode false = some f := lax ▸ prints.parser
  have plain : g.untouched.Prints sys f :=
    ⟨prints.made, prints.parser, ⟨prints.reads.inputs, List.forall_mem_nil _,
      prints.reads.inputsOnce, asksStdinAgain_nil⟩, prints.opens, prints.plain⟩
  obtain ⟨out, -, run, printed, printable, -⟩ := mainRun_printsText plain short full bufs
  obtain ⟨direct, -, run', text, -⟩ := mainRun_printsText prints short full bufs
  -- only the last filter reads files, and those are the files of the run
  have purging : (⟨0, 0, false, g.purgeInfiles⟩ : IpFilter).Reads sys f := by
    refine fun name mem => ⟨fun same => noStdin (same ▸ mem), ?_⟩
    rw [← careful]
    exact prints.reads.purges name mem
  have reads : ∀ filter ∈ g.filters, filter.Reads sys f :=
    List.forall_mem_cons.mpr ⟨List.forall_mem_nil _,
      List.forall_mem_cons.mpr ⟨List.forall_mem_nil _, List.forall_mem_singleton.mpr purging⟩⟩
  have purges : inputLines sys.fopen sys.stdin g.purgeInfiles = g.purgeLines sys :=
    inputLines_other noStdin _
  -- the filters leave what the stages of the run leave
  have split4 : pipedNetsV4 g.filters sys f (g.untouched.netsV4 sys f) =
      stageNets (v4 P.fast32) g.collapsePrefixlenV4 g.wantInvert
        ((g.inputLines sys).flatMap f.netsV4)
        ((inputLines sys.fopen sys.stdin g.purgeInfiles).flatMap f.netsV4) :=
    stageNets_split (short_netsV4 sound _) (short_netsV4 sound _)
  have split6 : pipedNetsV6 g.filters sys f (g.untouched.netsV6 sys f) =
      stageNets v6 g.collapsePrefixlenV6 g.wantInvert ((g.inputLines sys).flatMap f.netsV6)
        ((inputLines sys.fopen sys.stdin g.purgeInfiles).flatMap f.netsV6) :=
    stageNets_split (short_netsV6 sound _) (short_netsV6 sound _)
  refine ⟨out, direct, run, run', ?_, fun text' own => ?_⟩
  · rw [printed]
    exact mainRunPipeline_isSome bufs' printable parser reads
  · rw [printed] at own
    rw [mainRunPipeline_text bufs' printable parser reads text' own, text, split4, split6, purges]
    rfl

/-- A run with all three options. -/
theorem mainRunPipeline_split_all :
    let P : Platform := ⟨.bits64, fun x _ => x, fun x _ => x⟩
    let f : ParseIpAddrFunc P.fast32 := parseIp4AddrCombined
    let sys : System := ⟨fun _ => some ⟨["128.0.0.0/2\n".toList], false⟩,
      ⟨["10.0.0.0/16\n".toList, "10.200.0.0\n".toList], false⟩, fun _ => true⟩
    let g : IpdedupGlobals P.fast32 := ⟨.onlyIpv4, .empty .onlyIpv4, 8, 0, none, none,
      [some ['p']], true, false, false, false, false, false⟩
    ∃ out direct, mainRun P sys g.untouched .zero Mallocs.all = some (out, Mallocs.all) ∧
      mainRun P sys g .zero Mallocs.all = some (direct, Mallocs.all) ∧
      ((mainRunPipeline P sys g.treeMode .zero g.filters out.outstream).isSome ↔
        ∀ front filter back, g.filters = front ++ filter :: back →
          ∀ net ∈ pipedNetsV6 front sys f (g.untouched.netsV6 sys f), net.addr.Readable) ∧
      ∀ text ∈ mainRunPipeline P sys g.treeMode .zero g.filters out.outstream,
        text = direct.outstream := by
  intro P f sys g
  have inputs : ∀ name ∈ g.inputNames, FileRead f g.wantKeepGoing sys.fopen sys.stdin name := by
    unfold FileRead
    decide +kernel
  have purges : ∀ name ∈ g.purgeInfiles, FileRead f g.wantKeepGoing sys.fopen sys.stdin name := by
    unfold FileRead
    decide +kernel
  have prints : g.Prints sys f := by
    refine ⟨ipTreeBuilderNew_all rfl, rfl, ⟨inputs, purges, not_asksStdinTwice_single _ _,
      not_asksStdinTwice_single _ _⟩, ?_, rfl⟩
    simp [g, IpdedupGlobals.Opens]
  exact mainRunPipeline_split prints rfl rfl rfl rfl (by decide) .zero .zero

end Main

end IpDedup
