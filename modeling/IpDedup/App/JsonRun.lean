import IpDedup.App.Decomposition
import IpDedup.Print.JsonDecode

/-!
# Runs that write JSON

With JSON, a run prints the networks that it would print as lines, as the
objects of one document. The netmask of a network of prefixlen 0, and of an IPv6
network of prefixlen 64, is computed with an undefined shift, so that there is
no document if such a network is left.

## Main definitions

* `IpdedupGlobals.PrintsJson`: a run that gets to writing JSON

## Main results

* `mainRun_json`: what is written decodes to the document of the canonical decompositions
-/

set_option autoImplicit false

namespace IpDedup

open IpFamily ParseIpAddrFunc

variable {P : Platform} {sys : System} {g : IpdedupGlobals P.fast32}
  {f : ParseIpAddrFunc P.fast32}

/-- A run with a new builder that can read all its files and open its output, and writes JSON. -/
structure IpdedupGlobals.PrintsJson (sys : System) (g : IpdedupGlobals P.fast32)
    (f : ParseIpAddrFunc P.fast32) : Prop where
  made : ipTreeBuilderNew g.treeMode Mallocs.all = some (some g.treeBuilder, Mallocs.all)
  parser : parseIpFileParser P g.treeMode g.wantStrict = some f
  reads : g.Reads sys f
  opens : g.Opens sys
  json : g.wantJsonOutput = true

/-- The run ends with the JSON of its trees. -/
theorem mainRun_printsJson (prints : g.PrintsJson sys f) (bufs : ParseBufs P.fast32) :
    ∃ (obj : IpTreeBuildData P.fast32) (purgeBuilder : Option (IpTreeBuildData P.fast32)),
      obj.v4.elim [] ipTreeCollectAddr = g.netsV4 sys f ∧
      obj.v6.elim [] ipTreeCollectAddr = g.netsV6 sys f ∧
      mainRun P sys g bufs Mallocs.all = (fprintIpTreeJson obj.v4 obj.v6).map fun text =>
        (⟨0, [], text, obj, purgeBuilder⟩, Mallocs.all) := by
  have sound := parseIpFileParser_sound prints.parser
  have made := treeBuilder_eq_empty prints.made prints.parser
  obtain ⟨obj, purgeBuilder, staged, -, run⟩ :=
    mainRun_staged made prints.parser prints.reads bufs
  refine ⟨obj, purgeBuilder, staged.elim_v4 sound id rfl, staged.elim_v6 sound id rfl, ?_⟩
  rw [run, mainRunPrint, if_neg (opens_iff.mp prints.opens), if_pos prints.json]
  cases fprintIpTreeJson obj.v4 obj.v6 <;> rfl

/-- While allocation succeeds, a run that writes JSON computes an undefined netmask exactly if the
canonical decomposition of what is left has a network of prefixlen 0, or one of prefixlen 64 for
IPv6. Otherwise it succeeds, and what it writes decodes to the document that has an object for each
network, in order. -/
theorem mainRun_json (prints : g.PrintsJson sys f) (bufs : ParseBufs P.fast32) :
    ∃ (netsV4 : List (Ip4Addr P.fast32)) (netsV6 : List Ip6Addr),
      (v4 P.fast32).Canonical netsV4 ∧ (v4 P.fast32).covered netsV4 = g.resultV4 sys f ∧
      v6.Canonical netsV6 ∧ v6.covered netsV6 = g.resultV6 sys f ∧
      (mainRun P sys g bufs Mallocs.all = none ↔
        (∃ net ∈ netsV4, net.prefixlen = 0) ∨
          ∃ net ∈ netsV6, net.prefixlen = 0 ∨ net.prefixlen = 64) ∧
      ∀ out ∈ mainRun P sys g bufs Mallocs.all, out.1.ret = 0 ∧ out.1.stderr = [] ∧
        ∃ doc, ipTreeJson netsV4 netsV6 = some doc ∧
          Json.decode out.1.outstream = some doc := by
  have sound := parseIpFileParser_sound prints.parser
  have canonical : (v4 P.fast32).Canonical (g.netsV4 sys f) := canonical_stageNets
  obtain ⟨obj, purgeBuilder, netsV4, netsV6, run⟩ := mainRun_printsJson prints bufs
  refine ⟨g.netsV4 sys f, g.netsV6 sys f, canonical, covered_netsV4 sound, canonical_stageNets,
    covered_netsV6 sound, ?_, ?_⟩
  · rw [run, Option.map_eq_none_iff, ← netsV4, ← netsV6]
    apply fprintIpTreeJson_eq_none
    rw [netsV4]
    exact canonical.valid
  · rintro out ended
    rw [run] at ended
    obtain ⟨text, printed, rfl⟩ := Option.map_eq_some_iff.mp ended
    have decoded := fprintIpTreeJson_decode printed
    rw [netsV4, netsV6] at decoded
    exact ⟨rfl, rfl, decoded⟩

/-- Networks of both families, read from `stdin`: two that meet, and one that is left out. -/
theorem mainRun_json_both :
    let P : Platform := ⟨.bits64, fun x _ => x, fun x _ => x⟩
    let f : ParseIpAddrFunc P.fast32 := parseIpAddrCombined
    let sys : System := ⟨fun _ => some ⟨["fe80::/10\n".toList], false⟩,
      ⟨["10.128.0.0/9\n".toList, "fe80::1\n".toList, "10.0.0.0/9\n".toList], false⟩,
      fun _ => true⟩
    let g : IpdedupGlobals P.fast32 := ⟨.both, .empty .both, 0, 0, none, none,
      [some ['p']], false, false, false, false, false, true⟩
    ∃ (netsV4 : List (Ip4Addr P.fast32)) (netsV6 : List Ip6Addr),
      (v4 P.fast32).Canonical netsV4 ∧ (v4 P.fast32).covered netsV4 = g.resultV4 sys f ∧
      v6.Canonical netsV6 ∧ v6.covered netsV6 = g.resultV6 sys f ∧
      (mainRun P sys g .zero Mallocs.all = none ↔
        (∃ net ∈ netsV4, net.prefixlen = 0) ∨
          ∃ net ∈ netsV6, net.prefixlen = 0 ∨ net.prefixlen = 64) ∧
      ∀ out ∈ mainRun P sys g .zero Mallocs.all, out.1.ret = 0 ∧ out.1.stderr = [] ∧
        ∃ doc, ipTreeJson netsV4 netsV6 = some doc ∧
          Json.decode out.1.outstream = some doc := by
  intro P f sys g
  have inputs : ∀ name ∈ [stdinName], FileRead f g.wantKeepGoing sys.fopen sys.stdin name := by
    unfold FileRead
    decide +kernel
  have purges : ∀ name ∈ g.purgeInfiles,
      FileRead f g.wantKeepGoing sys.fopen sys.stdin name := by
    unfold FileRead
    decide +kernel
  have prints : g.PrintsJson sys f := by
    refine ⟨ipTreeBuilderNew_all rfl, rfl, ⟨inputs, purges, not_asksStdinTwice_single _ _,
      not_asksStdinTwice_single _ _⟩, ?_, rfl⟩
    simp [g, IpdedupGlobals.Opens]
  exact mainRun_json prints .zero

end IpDedup
