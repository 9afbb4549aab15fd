import IpDedup.App.ExitCode
import IpDedup.Print.Reread

/-!
# A run behind a pipe

What a run prints by default is a valid input of another run, as long as every
printed IPv6 network can be read. The other run reads the networks that were
printed, and may filter them again.

## Main definitions

* `IpFilter`: what the other run may do
* `System.pipe`: the other run reads a text from `stdin`
* `Printable`: networks as a run prints them

## Main results

* `parseIpFileParser_plain`: the parser of a mode, in terms of the parsers of its families
* `mainRun_filter`: when the other run succeeds, and what it prints then
* `mainRun_pipe_iff`: a run that only reads and prints, prints the same text again
* `mainRun_pipe_invert_iff`: when inverting twice is of no effect
-/

set_option autoImplicit false

namespace IpDedup

open IpFamily ParseIpAddrFunc

variable {P : Platform}

/-! ### One line -/

section Lines

variable {w : UintFast32} {mode : ParseIpType} {body : List Char}

/-- What the parser of a mode makes of a line is what the parsers of its families make of it. -/
structure ReadsAs (f : ParseIpAddrFunc w) (mode : ParseIpType) (body : List Char)
    (ip4 : ParsedIp4 w) (ip6 : ParsedIp6) : Prop where
  valid : f.Valid body ↔
    mode.ipv4 = true ∧ ip4.ret = .success ∨ mode.ipv6 = true ∧ ip6.ret = .success
  netsV4 : f.netsV4 body = if mode.ipv4 = true ∧ ip4.ret = .success then [ip4.addr] else []
  netsV6 : f.netsV6 body = if mode.ipv6 = true ∧ ip6.ret = .success then [ip6.addr] else []

theorem parseIp4AddrCombined_plain :
    ReadsAs (w := w) parseIp4AddrCombined .onlyIpv4 body (parseIp4Addr .zero body ip4AddrInitNull)
      (parseIp6Addr .zero body ip6AddrInitNull) := by
  have valid : parseIp4AddrCombined.Valid body ↔
      (parseIp4Addr (w := w) .zero body ip4AddrInitNull).ret = .success := Iff.rfl
  refine ⟨by simp [valid, ParseIpType.onlyIpv4], ?_, ?_⟩
  · exact if_congr (valid.trans (by simp [ParseIpType.onlyIpv4])) rfl rfl
  · exact (ite_self ([] : List Ip6Addr)).trans (if_neg (by simp [ParseIpType.onlyIpv4])).symm

theorem parseIp6AddrCombined_plain :
    ReadsAs (w := w) parseIp6AddrCombined .onlyIpv6 body (parseIp4Addr .zero body ip4AddrInitNull)
      (parseIp6Addr .zero body ip6AddrInitNull) := by
  have valid : parseIp6AddrCombined.Valid (w := w) body ↔
      (parseIp6Addr .zero body ip6AddrInitNull).ret = .success := Iff.rfl
  refine ⟨by simp [valid, ParseIpType.onlyIpv6], ?_, ?_⟩
  · exact (ite_self ([] : List (Ip4Addr w))).trans (if_neg (by simp [ParseIpType.onlyIpv6])).symm
  · exact if_congr (valid.trans (by simp [ParseIpType.onlyIpv6])) rfl rfl

theorem parseIpAddrCombined_plain (charset : ∀ c ∈ body, AddrChar c) :
    ReadsAs (w := w) parseIpAddrCombined .both body (parseIp4Addr .zero body ip4AddrInitNull)
      (parseIp6Addr .zero body ip6AddrInitNull) := by
  have agrees := parseIpMixedAddr_agrees_lax (w := w) .zero .zero .zero ip4AddrInitNull
    ip6AddrInitNull ip4AddrInitNull ip6AddrInitNull charset
  have valid : parseIpAddrCombined.Valid (w := w) body ↔ _ := agrees.ret
  refine ⟨by simp [valid, ParseIpType.both], ?_, ?_⟩
  · rw [ParseIpAddrFunc.netsV4]
    -- the type says which of the two addresses was read
    by_cases read : (parseIp4Addr (w := w) .zero body ip4AddrInitNull).ret = .success
    · rw [if_pos (valid.mpr (Or.inl read)), if_pos ⟨rfl, read⟩, ← agrees.addrV4 read]
      exact if_pos (agrees.ipv4.mpr read)
    · rw [if_neg (not_and_of_not_right _ read)]
      split_ifs with own
      · exact if_neg (agrees.ipv4.not.mpr read)
      · rfl
  · rw [ParseIpAddrFunc.netsV6]
    by_cases read : (parseIp6Addr .zero body ip6AddrInitNull).ret = .success
    · rw [if_pos (valid.mpr (Or.inr read)), if_pos ⟨rfl, read⟩, ← agrees.addrV6 read]
      exact if_pos (agrees.ipv6.mpr read)
    · rw [if_neg (not_and_of_not_right _ read)]
      split_ifs with own
      · exact if_neg (agrees.ipv6.not.mpr read)
      · rfl

theorem parseIpFileParser_plain {f : ParseIpAddrFunc P.fast32}
    (parser : parseIpFileParser P mode false = some f) (charset : ∀ c ∈ body, AddrChar c) :
    ReadsAs f mode body (parseIp4Addr .zero body ip4AddrInitNull)
      (parseIp6Addr .zero body ip6AddrInitNull) := by
  obtain ⟨parsers, init, rfl⟩ := Option.map_eq_some_iff.mp parser
  rw [parseIpFileInitParseMode] at init
  split_ifs at init with ipv4 ipv6 both
  · subst ipv4
    obtain rfl := Option.some.inj init
    exact parseIp4AddrCombined_plain
  · subst ipv6
    obtain rfl := Option.some.inj init
    exact parseIp6AddrCombined_plain
  · subst both
    obtain rfl := Option.some.inj init
    exact parseIpAddrCombined_plain charset

end Lines

/-! ### Filters -/

/-- A text comes from `stdin`. -/
def System.pipe (sys : System) (text : List Char) : System :=
  { sys with stdin := .ofText text }

/-- What a run does to the networks that it reads from `stdin`. -/
structure IpFilter where
  collapsePrefixlenV4 : Nat
  collapsePrefixlenV6 : Nat
  wantInvert : Bool
  purgeInfiles : List (Option (List Char))
deriving DecidableEq, Repr

namespace IpFilter

/-- The run only reads and prints. -/
def plain : IpFilter := ⟨0, 0, false, []⟩

/-- The run inverts. -/
def invert : IpFilter := ⟨0, 0, true, []⟩

/-- The run is neither strict nor in keep-going mode, and prints in the default form. -/
def globals (filter : IpFilter) (w : UintFast32) (mode : ParseIpType) : IpdedupGlobals w :=
  ⟨mode, .empty mode, filter.collapsePrefixlenV4, filter.collapsePrefixlenV6, none, none,
    filter.purgeInfiles, filter.wantInvert, false, false, false, false, false⟩

variable {P : Platform} (filter : IpFilter) (sys : System) (f : ParseIpAddrFunc P.fast32)

/-- The files to be purged can be read, and `stdin` is none of them. -/
def Reads : Prop :=
  ∀ name ∈ filter.purgeInfiles, name ≠ stdinName ∧ FileRead f false sys.fopen sys.stdin name

/-- The lines of the files to be purged. -/
def purgeLines : List (List Char) := inputLines sys.fopen sys.stdin filter.purgeInfiles

/-- The IPv4 networks that the run prints, of those that it reads. -/
def netsV4 (nets : List (Ip4Addr P.fast32)) : List (Ip4Addr P.fast32) :=
  stageNets (v4 P.fast32) filter.collapsePrefixlenV4 filter.wantInvert nets
    ((filter.purgeLines sys).flatMap f.netsV4)

/-- The IPv6 networks that the run prints, of those that it reads. -/
def netsV6 (nets : List Ip6Addr) : List Ip6Addr :=
  stageNets v6 filter.collapsePrefixlenV6 filter.wantInvert nets
    ((filter.purgeLines sys).flatMap f.netsV6)

end IpFilter

section Nets

variable {family : IpFamily} {n : Nat} {wantInvert : Bool} {inputs purges : List family.Addr}

theorem inputSet_zero (nets : List family.Addr) :
    inputSet family 0 nets = family.covered nets := by
  ext x
  simp [inputSet, covered, widened, block]

theorem covered_nil : family.covered [] = ∅ := by
  ext x
  simp [covered]

/-- Printed networks are their own decomposition. -/
theorem stageNets_stageNets :
    stageNets family 0 false (stageNets family n wantInvert inputs purges) [] =
      stageNets family n wantInvert inputs purges := by
  apply stageNets_eq_of_covered_eq
  rw [covered_stageNets canonical_stageNets.valid (by simp), covered_nil, Set.sdiff_empty, keptSet,
    if_neg Bool.false_ne_true, inputSet_zero]

theorem covered_stageNets_nil (short : ∀ addr ∈ inputs, family.prefixlen addr ≤ family.width) :
    family.covered (stageNets family n wantInvert inputs []) =
      keptSet family n wantInvert inputs := by
  rw [covered_stageNets short (by simp), covered_nil, Set.sdiff_empty]

/-- Inverting twice restores the decomposition of the input, unless the input is everything. -/
theorem stageNets_invert (short : ∀ addr ∈ inputs, family.prefixlen addr ≤ family.width)
    (part : inputSet family n inputs ≠ Set.univ) :
    stageNets family 0 true (stageNets family n true inputs []) [] =
      stageNets family n false inputs [] := by
  apply stageNets_eq_of_covered_eq
  rw [covered_stageNets_nil canonical_stageNets.valid, covered_stageNets_nil short, keptSet,
    keptSet, if_pos rfl, if_neg Bool.false_ne_true, inputSet_zero, covered_stageNets_nil short,
    keptSet, if_pos rfl]
  -- an address outside the input is in the first result, which is not empty then
  obtain ⟨y, outside⟩ := (Set.ne_univ_iff_exists_notMem _).mp part
  ext x
  constructor
  · rintro ⟨⟨_, nonempty, -⟩, inside⟩
    exact not_not.mp fun other => inside ⟨nonempty, other⟩
  · intro own
    exact ⟨⟨y, ⟨x, own⟩, outside⟩, fun other => other.2 own⟩

/-- If the input is everything, nothing is left to be inverted again. -/
theorem stageNets_invert_lt (short : ∀ addr ∈ inputs, family.prefixlen addr ≤ family.width)
    (all : inputSet family n inputs = Set.univ) :
    (stageNets family 0 true (stageNets family n true inputs []) []).length <
      (stageNets family n false inputs []).length := by
  have once : stageNets family n true inputs [] = [] := by
    have same : family.covered (stageNets family n true inputs []) =
        family.covered (stageNets family n true [] []) := by
      rw [covered_stageNets_nil short, keptSet, if_pos rfl, all, stageNets_nil, covered_nil]
      simp
    rw [stageNets_eq_of_covered_eq same, stageNets_nil]
  -- `ip_tree_invert` does not touch an empty tree, so the second run prints nothing
  rw [once, stageNets_nil, List.length_nil, List.length_pos_iff]
  intro empty
  have never : family.covered (stageNets family n false inputs []) =
      keptSet family n false inputs := covered_stageNets_nil short
  rw [empty, covered_nil, keptSet, if_neg Bool.false_ne_true, all] at never
  exact Set.empty_ne_univ never

theorem stageNets_invert_le (short : ∀ addr ∈ inputs, family.prefixlen addr ≤ family.width) :
    (stageNets family 0 true (stageNets family n true inputs []) []).length ≤
      (stageNets family n false inputs []).length := by
  by_cases all : inputSet family n inputs = Set.univ
  · exact (stageNets_invert_lt short all).le
  · exact (congrArg List.length (stageNets_invert short all)).le

/-- A printed network is the one that a path leads to. -/
theorem exists_addrAt {addr : family.Addr}
    (mem : addr ∈ stageNets family n wantInvert inputs purges) :
    ∃ path : NodePath, path.length ≤ family.width ∧ addr = family.lawful.addrAt path := by
  rw [stageNets, collect_tree] at mem
  obtain ⟨path, own, rfl⟩ := List.mem_map.mp mem
  exact ⟨path, length_le_width _ own, rfl⟩

end Nets

/-- The number that is stored for a printed IPv4 network is that of its path. -/
theorem clean_stageNets {w : UintFast32} {n : Nat} {wantInvert : Bool}
    {inputs purges : List (Ip4Addr w)} {addr : Ip4Addr w}
    (mem : addr ∈ stageNets (v4 w) n wantInvert inputs purges) : addr.Clean := by
  obtain ⟨path, short, rfl⟩ := exists_addrAt mem
  have number : ((v4 w).lawful.addrAt path).addr.toNat = BitString.pad 32 path :=
    number_addrAt (v4 w) short
  have small : BitString.pad 32 path < 2 ^ 32 := BitString.pad_lt short
  have fits : BitString.pad 32 path < 2 ^ w.width :=
    small.trans_le (Nat.pow_le_pow_right (by decide) w.le_width)
  refine ⟨BitVec.ofNat 32 (BitString.pad 32 path), BitVec.eq_of_toNat_eq ?_⟩
  rw [BitVec.toNat_setWidth, BitVec.toNat_ofNat, Nat.mod_eq_of_lt small, Nat.mod_eq_of_lt fits,
    number]

/-! ### What a filter reads -/

section Texts

variable {w : UintFast32}

/-- The printed lines, without their newlines. -/
def bodies (netsV4 : List (Ip4Addr w)) (netsV6 : List Ip6Addr) : List (List Char) :=
  netsV4.map ip4Line ++ netsV6.map ip6Line

/-- Networks as they are printed by default. -/
def printedText (netsV4 : List (Ip4Addr w)) (netsV6 : List Ip6Addr) : List Char :=
  (bodies netsV4 netsV6).flatMap fun body => body ++ ['\n']

/-- Networks that a run of a mode may print. -/
structure Printable (mode : ParseIpType) (netsV4 : List (Ip4Addr w)) (netsV6 : List Ip6Addr) :
    Prop where
  clean : ∀ addr ∈ netsV4, addr.Clean
  shortV4 : ∀ addr ∈ netsV4, addr.prefixlen ≤ ip4MaxPrefixlen
  shortV6 : ∀ addr ∈ netsV6, addr.prefixlen ≤ ip6MaxPrefixlen
  modeV4 : mode.ipv4 = false → netsV4 = []
  modeV6 : mode.ipv6 = false → netsV6 = []

variable {g : IpdedupGlobals w} {netsV4 netsV4' : List (Ip4Addr w)} {netsV6 netsV6' : List Ip6Addr}

theorem printedNets_default (short : g.wantLongOutput = false)
    (full : g.wantReduxOutput = false) :
    g.printedNets netsV4 netsV6 = printedText netsV4 netsV6 := by
  rw [IpdedupGlobals.printedNets, short, full, if_neg Bool.false_ne_true,
    if_neg Bool.false_ne_true, flatMap_fprintIp4Net, fprintIp6TreeCompactLoop_lines,
    printedText, bodies, List.flatMap_append]

/-- The lines of the text are the lines that were printed. -/
theorem effectiveLines_printedText :
    (InputStream.ofText (printedText netsV4 netsV6)).effectiveLines = bodies netsV4 netsV6 := by
  refine effectiveLines_printed (List.forall_mem_append.mpr ⟨?_, ?_⟩)
  · exact List.forall_mem_map.mpr fun addr _ => plainLine_ip4 addr
  · exact List.forall_mem_map.mpr fun addr _ => plainLine_ip6 addr

/-- The text tells how many networks there are. -/
theorem length_eq_of_printedText_eq
    (same : printedText netsV4' netsV6' = printedText netsV4 netsV6) :
    netsV4'.length + netsV6'.length = netsV4.length + netsV6.length := by
  have lines := congrArg (fun text => (InputStream.ofText text).effectiveLines) same
  rw [effectiveLines_printedText, effectiveLines_printedText] at lines
  simpa [bodies] using congrArg List.length lines

end Texts

section Reading

variable {sys : System} {f : ParseIpAddrFunc P.fast32} {mode : ParseIpType} {filter : IpFilter}
  {netsV4 : List (Ip4Addr P.fast32)} {netsV6 : List Ip6Addr}

/-- What a run prints is printable. -/
theorem printable_nets {g : IpdedupGlobals P.fast32} (sound : f.Sound mode) :
    Printable mode (g.netsV4 sys f) (g.netsV6 sys f) where
  clean := fun _ mem => clean_stageNets mem
  shortV4 := (@canonical_stageNets (v4 P.fast32) _ _ _ _).valid
  shortV6 := (@canonical_stageNets v6 _ _ _ _).valid
  modeV4 := fun other => by
    rw [IpdedupGlobals.netsV4, netsV4_other sound other, netsV4_other sound other, stageNets_nil]
  modeV6 := fun other => by
    rw [IpdedupGlobals.netsV6, netsV6_other sound other, netsV6_other sound other, stageNets_nil]

/-- So is what a filter makes of it. -/
theorem Printable.filtered (printable : Printable mode netsV4 netsV6) (sound : f.Sound mode)
    (filter : IpFilter) (sys : System) :
    Printable mode (filter.netsV4 sys f netsV4) (filter.netsV6 sys f netsV6) where
  clean := fun _ mem => clean_stageNets mem
  shortV4 := (@canonical_stageNets (v4 P.fast32) _ _ _ _).valid
  shortV6 := (@canonical_stageNets v6 _ _ _ _).valid
  modeV4 := fun other => by
    rw [IpFilter.netsV4, printable.modeV4 other, netsV4_other sound other, stageNets_nil]
  modeV6 := fun other => by
    rw [IpFilter.netsV6, printable.modeV6 other, netsV6_other sound other, stageNets_nil]

/-- A printed IPv4 line is read as its network. -/
theorem ip4Line_reads (printable : Printable mode netsV4 netsV6)
    (parser : parseIpFileParser P mode false = some f) {addr : Ip4Addr P.fast32}
    (mem : addr ∈ netsV4) :
    f.Valid (ip4Line addr) ∧ f.netsV4 (ip4Line addr) = [addr] ∧
      f.netsV6 (ip4Line addr) = [] := by
  have own : mode.ipv4 = true := by
    by_contra other
    rw [printable.modeV4 (Bool.not_eq_true _ ▸ other)] at mem
    cases mem
  obtain ⟨good, same, bad⟩ := ip4Line_read (printable.clean addr mem)
    (printable.shortV4 addr mem) .zero .zero ip4AddrInitNull ip6AddrInitNull
  have reads := parseIpFileParser_plain parser (plainLine_ip4 addr).charset
  refine ⟨reads.valid.mpr (Or.inl ⟨own, good⟩), ?_, ?_⟩
  · rw [reads.netsV4, if_pos ⟨own, good⟩, same]
  · rw [reads.netsV6, bad, if_neg (by simp)]

/-- A printed IPv6 line is read as its network if it is readable. -/
theorem ip6Line_reads (printable : Printable mode netsV4 netsV6)
    (parser : parseIpFileParser P mode false = some f) {addr : Ip6Addr} (mem : addr ∈ netsV6) :
    (f.Valid (ip6Line addr) ↔ addr.addr.Readable) ∧ f.netsV4 (ip6Line addr) = [] ∧
      (addr.addr.Readable → f.netsV6 (ip6Line addr) = [addr]) := by
  have own : mode.ipv6 = true := by
    by_contra other
    rw [printable.modeV6 (Bool.not_eq_true _ ▸ other)] at mem
    cases mem
  obtain ⟨bad, good, same⟩ := ip6Line_read (w := P.fast32) (printable.shortV6 addr mem) .zero
    .zero ip4AddrInitNull ip6AddrInitNull
  have reads := parseIpFileParser_plain parser (plainLine_ip6 addr).charset
  refine ⟨?_, ?_, fun readable => ?_⟩
  · rw [reads.valid, bad, good]
    simp [own]
  · rw [reads.netsV4, bad, if_neg (by simp)]
  · rw [reads.netsV6, if_pos ⟨own, good.mpr readable⟩, same readable]

theorem forall_valid_bodies (printable : Printable mode netsV4 netsV6)
    (parser : parseIpFileParser P mode false = some f) :
    (∀ body ∈ bodies netsV4 netsV6, f.Valid body) ↔ ∀ net ∈ netsV6, net.addr.Readable := by
  rw [bodies, List.forall_mem_append, List.forall_mem_map, List.forall_mem_map]
  constructor
  · rintro ⟨-, valid⟩ net mem
    exact (ip6Line_reads printable parser mem).1.mp (valid net mem)
  · intro readable
    exact ⟨fun net mem => (ip4Line_reads printable parser mem).1,
      fun net mem => (ip6Line_reads printable parser mem).1.mpr (readable net mem)⟩

/-- The networks of the printed lines are the printed networks. -/
theorem flatMap_bodies (printable : Printable mode netsV4 netsV6)
    (parser : parseIpFileParser P mode false = some f)
    (readable : ∀ net ∈ netsV6, net.addr.Readable) :
    (bodies netsV4 netsV6).flatMap f.netsV4 = netsV4 ∧
      (bodies netsV4 netsV6).flatMap f.netsV6 = netsV6 := by
  have own4 : netsV4.flatMap (fun net => f.netsV4 (ip4Line net)) = netsV4 :=
    (List.flatMap_congr fun net mem => (ip4Line_reads printable parser mem).2.1).trans
      (List.flatMap_singleton' _)
  have own6 : netsV6.flatMap (fun net => f.netsV6 (ip6Line net)) = netsV6 :=
    (List.flatMap_congr fun net mem =>
      (ip6Line_reads printable parser mem).2.2 (readable net mem)).trans (List.flatMap_singleton' _)
  have other4 : netsV6.flatMap (fun net => f.netsV4 (ip6Line net)) = [] :=
    List.flatMap_eq_nil_iff.mpr fun net mem => (ip6Line_reads printable parser mem).2.1
  have other6 : netsV4.flatMap (fun net => f.netsV6 (ip4Line net)) = [] :=
    List.flatMap_eq_nil_iff.mpr fun net mem => (ip4Line_reads printable parser mem).2.2
  rw [bodies, List.flatMap_append, List.flatMap_append, List.flatMap_map,
    List.flatMap_map, List.flatMap_map, List.flatMap_map, own4, own6, other4, other6,
    List.append_nil, List.nil_append]
  exact ⟨rfl, rfl⟩

/-- Without keep-going mode, a file is read if all its lines are valid. -/
theorem streamRet_strict {stream : InputStream} (whole : stream.broken = false) :
    streamRet f false stream = .success ↔ ∀ line ∈ stream.effectiveLines, f.Valid line := by
  have passes (line : List Char) : f.Passes false line ↔ f.Valid line := by simp [Passes]
  constructor
  · exact fun good line mem => (passes line).mp ((passes_of_streamRet good).2 line mem)
  · intro valid
    rw [streamRet_of_passes fun line mem => (passes line).mpr (valid line mem), whole,
      if_neg Bool.false_ne_true, keepGoingRet]
    cases lines : stream.effectiveLines with
    | nil => exact if_pos (Or.inl rfl)
    | cons line lines' =>
      have first : line ∈ stream.effectiveLines := lines ▸ List.mem_cons_self
      exact if_pos (Or.inr ⟨line, List.mem_cons_self, valid line first⟩)

/-- The text is read if every line of it is valid. -/
theorem pipe_reads_iff (printable : Printable mode netsV4 netsV6)
    (parser : parseIpFileParser P mode false = some f) (reads : filter.Reads sys f) :
    (filter.globals P.fast32 mode).Reads (sys.pipe (printedText netsV4 netsV6)) f ↔
      ∀ net ∈ netsV6, net.addr.Readable := by
  have file : streamRet f false (.ofText (printedText netsV4 netsV6)) = .success ↔ _ :=
    streamRet_strict rfl
  rw [effectiveLines_printedText] at file
  rw [← forall_valid_bodies printable parser, ← file]
  constructor
  · exact fun all => all.inputs stdinName List.mem_cons_self
  · intro good
    refine ⟨List.forall_mem_singleton.mpr good, ?_, not_asksStdinTwice_single _ _, ?_⟩
    · -- the other files are the same, whatever `stdin` is
      intro name mem
      obtain ⟨other, read⟩ := reads name mem
      exact (fileRet_other other).trans read
    · intro twice
      obtain ⟨before, after, cut, -⟩ := twice
      have mem : stdinName ∈ (filter.globals P.fast32 mode).purgeInfiles := by
        rw [cut]
        exact List.mem_append_right _ List.mem_cons_self
      exact (reads stdinName mem).1 rfl

/-- The networks that the run prints are those of the filter. -/
theorem globals_nets (printable : Printable mode netsV4 netsV6)
    (parser : parseIpFileParser P mode false = some f) (reads : filter.Reads sys f)
    (readable : ∀ net ∈ netsV6, net.addr.Readable) :
    (filter.globals P.fast32 mode).netsV4 (sys.pipe (printedText netsV4 netsV6)) f =
        filter.netsV4 sys f netsV4 ∧
      (filter.globals P.fast32 mode).netsV6 (sys.pipe (printedText netsV4 netsV6)) f =
        filter.netsV6 sys f netsV6 := by
  have lines : (filter.globals P.fast32 mode).inputLines
      (sys.pipe (printedText netsV4 netsV6)) = bodies netsV4 netsV6 :=
    (List.append_nil _).trans effectiveLines_printedText
  have purges : (filter.globals P.fast32 mode).purgeLines
      (sys.pipe (printedText netsV4 netsV6)) = filter.purgeLines sys :=
    inputLines_other (fun mem => (reads stdinName mem).1 rfl) _
  obtain ⟨nets4, nets6⟩ := flatMap_bodies printable parser readable
  rw [IpdedupGlobals.netsV4, IpdedupGlobals.netsV6, lines, purges, nets4, nets6]
  exact ⟨rfl, rfl⟩

end Reading

/-! ### Main results -/

section Main

variable {sys : System} {g : IpdedupGlobals P.fast32} {f : ParseIpAddrFunc P.fast32}

/-- A filter reads what a run prints by default. It succeeds exactly if no IPv6 address in it has a
first block that is zero and no adjacent zero blocks, and prints what it makes of the networks. -/
theorem mainRun_filter {mode : ParseIpType} {filter : IpFilter}
    {netsV4 : List (Ip4Addr P.fast32)} {netsV6 : List Ip6Addr}
    (printable : Printable mode netsV4 netsV6) (parser : parseIpFileParser P mode false = some f)
    (reads : filter.Reads sys f) (bufs : ParseBufs P.fast32) :
    ∃ out, mainRun P (sys.pipe (printedText netsV4 netsV6)) (filter.globals P.fast32 mode) bufs
        Mallocs.all = some (out, Mallocs.all) ∧
      (out.ret = 0 ↔ ∀ net ∈ netsV6, net.addr.Readable) ∧
      (out.ret = 0 → out.outstream =
        printedText (filter.netsV4 sys f netsV4) (filter.netsV6 sys f netsV6)) := by
  have made : ipTreeBuilderNew (filter.globals P.fast32 mode).treeMode Mallocs.all =
      some (some (filter.globals P.fast32 mode).treeBuilder, Mallocs.all) :=
    ipTreeBuilderNew_all (parseIpFileParser_valid parser)
  have opens : (filter.globals P.fast32 mode).Opens
      (sys.pipe (printedText netsV4 netsV6)) := fun outfile none => by
    cases none
  obtain ⟨out, run, ret, -⟩ := mainRun_ends made parser rfl bufs
  have success : out.ret = 0 ↔ ∀ net ∈ netsV6, net.addr.Readable := by
    rw [ret, exitCode_eq_zero, pipe_reads_iff printable parser reads]
    exact and_iff_left opens
  refine ⟨out, run, success, fun good => ?_⟩
  have readable := success.mp good
  obtain ⟨again, run', -, -, text⟩ := mainRun_prints
    ⟨made, parser, (pipe_reads_iff printable parser reads).mpr readable, opens, rfl⟩ bufs
  -- this is the run from above
  obtain rfl : again = out := congrArg Prod.fst (Option.some.inj (run'.symm.trans run))
  obtain ⟨nets4, nets6⟩ := globals_nets printable parser reads readable
  rw [text, printedNets_default rfl rfl, nets4, nets6]

/-- A run whose text a filter reads. -/
theorem mainRun_printsText (prints : g.Prints sys f) (short : g.wantLongOutput = false)
    (full : g.wantReduxOutput = false) (bufs : ParseBufs P.fast32) :
    ∃ out f', mainRun P sys g bufs Mallocs.all = some (out, Mallocs.all) ∧
      out.outstream = printedText (g.netsV4 sys f) (g.netsV6 sys f) ∧
      Printable g.treeMode (g.netsV4 sys f) (g.netsV6 sys f) ∧
      parseIpFileParser P g.treeMode false = some f' := by
  obtain ⟨out, run, -, -, text⟩ := mainRun_prints prints bufs
  obtain ⟨parsers, init, -⟩ := Option.map_eq_some_iff.mp prints.parser
  rw [printedNets_default short full] at text
  exact ⟨out, _, run, text, printable_nets (parseIpFileParser_sound prints.parser),
    by rw [parseIpFileParser, init]; rfl⟩

/-- A second run reads what a first one printed in the default form. It succeeds exactly if no
printed IPv6 address has a first block that is zero and no adjacent zero blocks; then it prints the
same text. -/
theorem mainRun_pipe_iff (prints : g.Prints sys f) (short : g.wantLongOutput = false)
    (full : g.wantReduxOutput = false) (bufs bufs' : ParseBufs P.fast32) :
    ∃ out out', mainRun P sys g bufs Mallocs.all = some (out, Mallocs.all) ∧
      mainRun P (sys.pipe out.outstream) (IpFilter.plain.globals P.fast32 g.treeMode) bufs'
        Mallocs.all = some (out', Mallocs.all) ∧
      (out'.ret = 0 ↔ ∀ net ∈ g.netsV6 sys f, net.addr.Readable) ∧
      (out'.ret = 0 → out'.outstream = out.outstream) := by
  obtain ⟨out, f', run, text, printable, parser⟩ := mainRun_printsText prints short full bufs
  have reads : IpFilter.plain.Reads sys f' := List.forall_mem_nil _
  obtain ⟨out', run', success, text'⟩ := mainRun_filter printable parser reads bufs'
  rw [← text] at run'
  refine ⟨out, out', run, run', success, fun good => ?_⟩
  have same4 : IpFilter.plain.netsV4 sys f' (g.netsV4 sys f) = g.netsV4 sys f :=
    stageNets_stageNets
  have same6 : IpFilter.plain.netsV6 sys f' (g.netsV6 sys f) = g.netsV6 sys f :=
    stageNets_stageNets
  rw [text' good, text, same4, same6]

/-- A network of each family, the first one in halves. -/
theorem mainRun_pipe_iff_both :
    let P : Platform := ⟨.bits64, fun x _ => x, fun x _ => x⟩
    let f : ParseIpAddrFunc P.fast32 := parseIpAddrCombined
    let sys : System := ⟨fun _ => none, ⟨["10.128.0.0/9\n".toList, "2001:db8::/32\n".toList,
      "10.0.0.0/9\n".toList], false⟩, fun _ => true⟩
    let g : IpdedupGlobals P.fast32 := ⟨.both, .empty .both, 0, 0, none, none, [], false, false,
      false, false, false, false⟩
    ∃ out out', mainRun P sys g .zero Mallocs.all = some (out, Mallocs.all) ∧
      mainRun P (sys.pipe out.outstream) (IpFilter.plain.globals P.fast32 g.treeMode) .zero
        Mallocs.all = some (out', Mallocs.all) ∧
      (out'.ret = 0 ↔ ∀ net ∈ g.netsV6 sys f, net.addr.Readable) ∧
      (out'.ret = 0 → out'.outstream = out.outstream) := by
  intro P f sys g
  have inputs : ∀ name ∈ g.inputNames, FileRead f g.wantKeepGoing sys.fopen sys.stdin name := by
    unfold FileRead
    decide +kernel
  have prints : g.Prints sys f := by
    refine ⟨ipTreeBuilderNew_all rfl, rfl, ⟨inputs, by simp [g], not_asksStdinTwice_single _ _,
      asksStdinAgain_nil⟩, ?_, rfl⟩
    simp [g, IpdedupGlobals.Opens]
  exact mainRun_pipe_iff prints rfl rfl .zero .zero

/-- Without files to be purged, the networks are those of the input. -/
theorem netsV4_nothing (nothing : g.purgeInfiles = []) :
    g.netsV4 sys f = stageNets (v4 P.fast32) g.collapsePrefixlenV4 g.wantInvert
      ((g.inputLines sys).flatMap f.netsV4) [] := by
  have purges : g.purgeLines sys = [] := by
    rw [IpdedupGlobals.purgeLines, nothing]
    rfl
  rw [IpdedupGlobals.netsV4, purges, List.flatMap_nil]

theorem netsV6_nothing (nothing : g.purgeInfiles = []) :
    g.netsV6 sys f = stageNets v6 g.collapsePrefixlenV6 g.wantInvert
      ((g.inputLines sys).flatMap f.netsV6) [] := by
  have purges : g.purgeLines sys = [] := by
    rw [IpdedupGlobals.purgeLines, nothing]
    rfl
  rw [IpdedupGlobals.netsV6, purges, List.flatMap_nil]

/-- Two runs that invert, the second of which reads what the first one printed, print what one run
does that does not invert, exactly if the input does not cover all addresses of a family. -/
theorem mainRun_pipe_invert_iff (prints : g.Prints sys f) (inverts : g.wantInvert = true)
    (nothing : g.purgeInfiles = []) (short : g.wantLongOutput = false)
    (full : g.wantReduxOutput = false) (bufs : ParseBufs P.fast32) :
    ∃ out out' direct, mainRun P sys g bufs Mallocs.all = some (out, Mallocs.all) ∧
      mainRun P (sys.pipe out.outstream) (IpFilter.invert.globals P.fast32 g.treeMode) bufs
        Mallocs.all = some (out', Mallocs.all) ∧
      mainRun P sys { g with wantInvert := false } bufs Mallocs.all =
        some (direct, Mallocs.all) ∧
      (out'.ret = 0 ↔ ∀ net ∈ g.netsV6 sys f, net.addr.Readable) ∧
      (out'.ret = 0 → (out'.outstream = direct.outstream ↔
        inputSet (v4 P.fast32) g.collapsePrefixlenV4 ((g.inputLines sys).flatMap f.netsV4) ≠
            Set.univ ∧
          inputSet v6 g.collapsePrefixlenV6 ((g.inputLines sys).flatMap f.netsV6) ≠
            Set.univ)) := by
  have sound := parseIpFileParser_sound prints.parser
  obtain ⟨out, f', run, text, printable, parser⟩ := mainRun_printsText prints short full bufs
  have reads : IpFilter.invert.Reads sys f' := List.forall_mem_nil _
  obtain ⟨out', run', success, text'⟩ := mainRun_filter printable parser reads bufs
  rw [← text] at run'
  have plain : ({ g with wantInvert := false } : IpdedupGlobals P.fast32).Prints sys f :=
    ⟨prints.made, prints.parser, ⟨prints.reads.inputs, prints.reads.purges,
      prints.reads.inputsOnce, prints.reads.purgesOnce⟩, prints.opens, prints.plain⟩
  obtain ⟨direct, -, run'', printed, -⟩ := mainRun_printsText plain short full bufs
  refine ⟨out, out', direct, run, run', run'', success, fun good => ?_⟩
  have short4 := short_netsV4 sound (g.inputLines sys)
  have short6 := short_netsV6 sound (g.inputLines sys)
  have direct4 : ({ g with wantInvert := false } : IpdedupGlobals P.fast32).netsV4 sys f =
      stageNets (v4 P.fast32) g.collapsePrefixlenV4 false
        ((g.inputLines sys).flatMap f.netsV4) [] := netsV4_nothing nothing
  have direct6 : ({ g with wantInvert := false } : IpdedupGlobals P.fast32).netsV6 sys f =
      stageNets v6 g.collapsePrefixlenV6 false ((g.inputLines sys).flatMap f.netsV6) [] :=
    netsV6_nothing nothing
  have twice4 : IpFilter.invert.netsV4 sys f' (g.netsV4 sys f) =
      stageNets (v4 P.fast32) 0 true (g.netsV4 sys f) [] := rfl
  have twice6 : IpFilter.invert.netsV6 sys f' (g.netsV6 sys f) =
      stageNets v6 0 true (g.netsV6 sys f) [] := rfl
  rw [text' good, printed, direct4, direct6, twice4, twice6, netsV4_nothing nothing,
    netsV6_nothing nothing, inverts]
  constructor
  · intro same
    -- the texts have as many lines, and no family has more networks than in the direct run
    have count := length_eq_of_printedText_eq same
    have le4 := @stageNets_invert_le (v4 P.fast32) g.collapsePrefixlenV4 _ short4
    have le6 := @stageNets_invert_le v6 g.collapsePrefixlenV6 _ short6
    constructor
    · intro all
      have lt4 := @stageNets_invert_lt (v4 P.fast32) _ _ short4 all
      omega
    · intro all
      have lt6 := @stageNets_invert_lt v6 _ _ short6 all
      omega
  · rintro ⟨part4, part6⟩
    have same4 := @stageNets_invert (v4 P.fast32) _ _ short4 part4
    have same6 := @stageNets_invert v6 _ _ short6 part6
    rw [same4, same6]

/-- One half of the IPv4 addresses, and no IPv6 address. -/
theorem mainRun_pipe_invert_iff_half :
    let P : Platform := ⟨.bits64, fun x _ => x, fun x _ => x⟩
    let f : ParseIpAddrFunc P.fast32 := parseIpAddrCombined
    let sys : System := ⟨fun _ => none, ⟨["0.0.0.0/1\n".toList], false⟩, fun _ => true⟩
    let g : IpdedupGlobals P.fast32 := ⟨.both, .empty .both, 0, 0, none, none, [], true, false,
      false, false, false, false⟩
    ∃ out out' direct, mainRun P sys g .zero Mallocs.all = some (out, Mallocs.all) ∧
      mainRun P (sys.pipe out.outstream) (IpFilter.invert.globals P.fast32 g.treeMode) .zero
        Mallocs.all = some (out', Mallocs.all) ∧
      mainRun P sys { g with wantInvert := false } .zero Mallocs.all =
        some (direct, Mallocs.all) ∧
      (out'.ret = 0 ↔ ∀ net ∈ g.netsV6 sys f, net.addr.Readable) ∧
      (out'.ret = 0 → (out'.outstream = direct.outstream ↔
        inputSet (v4 P.fast32) g.collapsePrefixlenV4 ((g.inputLines sys).flatMap f.netsV4) ≠
            Set.univ ∧
          inputSet v6 g.collapsePrefixlenV6 ((g.inputLines sys).flatMap f.netsV6) ≠
            Set.univ)) := by
  intro P f sys g
  have inputs : ∀ name ∈ g.inputNames, FileRead f g.wantKeepGoing sys.fopen sys.stdin name := by
    unfold FileRead
    decide +kernel
  have prints : g.Prints sys f := by
    refine ⟨ipTreeBuilderNew_all rfl, rfl, ⟨inputs, by simp [g], not_asksStdinTwice_single _ _,
      asksStdinAgain_nil⟩, ?_, rfl⟩
    simp [g, IpdedupGlobals.Opens]
  exact mainRun_pipe_invert_iff prints rfl rfl rfl rfl .zero

end Main

end IpDedup
