import IpDedup.App.Program
import IpDedup.Print.Line

/-!
# Command lines for runs

Whatever a run may be asked to do, there is a command line that asks for it: the
options can set all the variables, in any combination, and two hyphens keep the
names of files from being options.

## Main definitions

* `IpdedupGlobals.Askable`: what a run may be asked to do
* `IpdedupGlobals.render`: a command line that asks for it

## Main results

* `cmdGlobals_render`: the command line is accepted and asks for the run
* `main_render`: the program does what the run does
-/

set_option autoImplicit false

namespace IpDedup

open Getopt

variable {w : UintFast32}

/-! ### Command lines -/

/-- The name of a file that is not a datafile. -/
def PlainName (name : Option (List Char)) : Prop :=
  ∃ c s, name = some (c :: s) ∧ c ≠ '@'

/-- What a run may be asked to do, where no datafiles are named. -/
structure IpdedupGlobals.Askable (g : IpdedupGlobals w) : Prop where
  treeMode : parseIpCheckTypeValid g.treeMode = true
  treeBuilder : g.treeBuilder = .empty g.treeMode
  collapsePrefixlenV4 : g.collapsePrefixlenV4 < 256
  collapsePrefixlenV6 : g.collapsePrefixlenV6 < 256
  outfile : ∀ outfile ∈ g.outfile, outfile ≠ [] ∧ outfile ≠ ['-']
  infiles : ∀ names ∈ g.infiles, names ≠ [] ∧ ∀ name ∈ names, PlainName name
  purgeInfiles : ∀ name ∈ g.purgeInfiles, PlainName name

/-- The option for a mode. -/
def modeOption (mode : ParseIpType) : Char :=
  if mode = .onlyIpv4 then '4' else if mode = .onlyIpv6 then '6' else 'a'

/-- The option for a flag that is set. -/
def flagOption (c : Char) (set : Bool) : List Opt := if set then [⟨c, none⟩] else []

/-- The options for the variables of a run. -/
def IpdedupGlobals.options (g : IpdedupGlobals w) : List Opt :=
  [⟨modeOption g.treeMode, none⟩, ⟨'B', some (fmtDecimal g.collapsePrefixlenV4)⟩,
    ⟨'C', some (fmtDecimal g.collapsePrefixlenV6)⟩] ++
  g.outfile.toList.map (fun outfile => ⟨'o', some outfile⟩) ++
  g.purgeInfiles.map (fun name => ⟨'p', name⟩) ++
  (flagOption 'i' g.wantInvert ++ flagOption 'k' g.wantKeepGoing ++ flagOption 's' g.wantStrict ++
    flagOption 'l' g.wantLongOutput ++ flagOption 'r' g.wantReduxOutput ++
    flagOption 'J' g.wantJsonOutput)

/-- The names of the input files. -/
def IpdedupGlobals.operands (g : IpdedupGlobals w) : List (List Char) :=
  (g.infiles.getD []).map fun name => name.getD []

/-- A command line that asks for a run. -/
def IpdedupGlobals.render (g : IpdedupGlobals w) : List (List Char) :=
  Getopt.render g.options g.operands

/-! ### What it asks for -/

section Render

variable {g : IpdedupGlobals w}

@[simp] theorem filterMap_flagOption {β : Type} {value : Opt → Option β} {c : Char}
    (none : value ⟨c, none⟩ = none) (set : Bool) :
    (flagOption c set).filterMap value = [] := by
  cases set <;> simp [flagOption, none]

@[simp] theorem asked_flagOption (c d : Char) (set : Bool) :
    asked c (flagOption d set) = (set && decide (d = c)) := by
  cases set <;> simp [flagOption, asked]

theorem asked_append (c : Char) (opts opts' : List Opt) :
    asked c (opts ++ opts') = (asked c opts || asked c opts') := List.any_append

/-- Flags and names to be purged set no other variables. -/
theorem lastOf_options {β : Type} {value : Opt → Option β}
    (flags : ['i', 'k', 's', 'l', 'r', 'J'].all fun c => (value ⟨c, none⟩).isNone)
    (purge : ∀ name, value ⟨'p', name⟩ = none) :
    lastOf value g.options = lastOf value
      ([⟨modeOption g.treeMode, none⟩, ⟨'B', some (fmtDecimal g.collapsePrefixlenV4)⟩,
        ⟨'C', some (fmtDecimal g.collapsePrefixlenV6)⟩] ++
      g.outfile.toList.map (fun outfile => ⟨'o', some outfile⟩)) := by
  have names : (g.purgeInfiles.map fun name => (⟨'p', name⟩ : Opt)).filterMap value = [] := by
    rw [List.filterMap_map]
    exact List.filterMap_eq_nil_iff.mpr fun name _ => purge name
  simp only [List.all_cons, Bool.and_eq_true, Option.isNone_iff_eq_none] at flags
  obtain ⟨i, k, s, l, r, j, -⟩ := flags
  rw [lastOf, lastOf, IpdedupGlobals.options, List.filterMap_append, List.filterMap_append, names]
  simp [List.filterMap_append, i, k, s, l, r, j]

theorem modeOf_modeOption {mode : ParseIpType} (valid : parseIpCheckTypeValid mode = true) :
    modeOf ⟨modeOption mode, none⟩ = some mode := by
  obtain ⟨ipv4, ipv6⟩ := mode
  cases ipv4 <;> cases ipv6
  · cases valid
  all_goals rfl

theorem lastOf_modeOf (valid : parseIpCheckTypeValid g.treeMode = true) :
    lastOf modeOf g.options = some g.treeMode := by
  rw [lastOf_options rfl fun _ => rfl]
  have other : (g.outfile.toList.map fun outfile => (⟨'o', some outfile⟩ : Opt)).filterMap modeOf =
      [] := by
    cases g.outfile <;> rfl
  rw [lastOf, List.filterMap_append, other, List.append_nil,
    List.filterMap_cons_some (modeOf_modeOption valid)]
  rfl

theorem modeOption_other (mode : ParseIpType) {c : Char} (other : c ∉ ['4', '6', 'a']) :
    modeOption mode ≠ c := by
  rintro rfl
  apply other
  rw [modeOption]
  split_ifs <;> decide

theorem lastOf_prefixlenV4Of (byte : g.collapsePrefixlenV4 < 256) :
    lastOf prefixlenV4Of g.options = some g.collapsePrefixlenV4 := by
  rw [lastOf_options rfl fun _ => rfl]
  have other : (g.outfile.toList.map fun outfile => (⟨'o', some outfile⟩ : Opt)).filterMap
      prefixlenV4Of = [] := by
    cases g.outfile <;> rfl
  have mode := modeOption_other g.treeMode (c := 'B') (by decide)
  rw [lastOf, List.filterMap_append, other]
  simp [prefixlenV4Of, mode, parseIpReadOctet_fmtDecimal byte]

theorem lastOf_prefixlenV6Of (byte : g.collapsePrefixlenV6 < 256) :
    lastOf prefixlenV6Of g.options = some g.collapsePrefixlenV6 := by
  rw [lastOf_options rfl fun _ => rfl]
  have other : (g.outfile.toList.map fun outfile => (⟨'o', some outfile⟩ : Opt)).filterMap
      prefixlenV6Of = [] := by
    cases g.outfile <;> rfl
  have mode := modeOption_other g.treeMode (c := 'C') (by decide)
  have mode' := modeOption_other g.treeMode (c := 'c') (by decide)
  rw [lastOf, List.filterMap_append, other]
  simp [prefixlenV6Of, mode, mode', parseIpReadOctet_fmtDecimal byte]

theorem lastOf_outfileOf (given : ∀ outfile ∈ g.outfile, outfile ≠ [] ∧ outfile ≠ ['-']) :
    (lastOf outfileOf g.options).getD none = g.outfile := by
  rw [lastOf_options rfl fun _ => rfl]
  have mode := modeOption_other g.treeMode (c := 'o') (by decide)
  rw [lastOf, List.filterMap_append]
  cases own : g.outfile with
  | none => simp [outfileOf, mode]
  | some outfile =>
    -- `-o -` would unset it
    simp [outfileOf, mode, (given outfile own).2]

theorem asked_options {c : Char} (other : c ∉ ['4', '6', 'a', 'B', 'C', 'o', 'p']) :
    asked c g.options = asked c (flagOption 'i' g.wantInvert ++ flagOption 'k' g.wantKeepGoing ++
      flagOption 's' g.wantStrict ++ flagOption 'l' g.wantLongOutput ++
      flagOption 'r' g.wantReduxOutput ++ flagOption 'J' g.wantJsonOutput) := by
  simp only [List.mem_cons, List.not_mem_nil, or_false, not_or] at other
  obtain ⟨four, six, a, b, cc, o, p⟩ := other
  have mode := modeOption_other g.treeMode (c := c) (by simp [four, six, a])
  have outfile : asked c (g.outfile.toList.map fun outfile => (⟨'o', some outfile⟩ : Opt)) =
      false := by
    cases g.outfile <;> simp [asked, Ne.symm o]
  have purges : asked c (g.purgeInfiles.map fun name => (⟨'p', name⟩ : Opt)) = false := by
    simp [asked, Ne.symm p]
  rw [IpdedupGlobals.options, asked_append, asked_append, asked_append, outfile, purges]
  simp [asked, mode, Ne.symm b, Ne.symm cc]

theorem mem_flagOption {c : Char} {set : Bool} {o : Opt} (mem : o ∈ flagOption c set) :
    o = ⟨c, none⟩ := by
  rw [flagOption] at mem
  split_ifs at mem
  · exact List.mem_singleton.mp mem
  · cases mem

/-- An option for a variable, for a name or for a flag. -/
theorem mem_options {o : Opt} (mem : o ∈ g.options) :
    (∃ c ∈ ['4', '6', 'a', 'i', 'k', 's', 'l', 'r', 'J'], o = ⟨c, none⟩) ∨
      (∃ c ∈ ['B', 'C'], ∃ n, o = ⟨c, some (fmtDecimal n)⟩) ∨
      (∃ outfile ∈ g.outfile, o = ⟨'o', some outfile⟩) ∨
      ∃ name ∈ g.purgeInfiles, o = ⟨'p', name⟩ := by
  have mode : modeOption g.treeMode ∈ ['4', '6', 'a', 'i', 'k', 's', 'l', 'r', 'J'] := by
    rw [modeOption]
    split_ifs <;> decide
  simp only [IpdedupGlobals.options, List.mem_append, List.mem_map, Option.mem_toList] at mem
  rcases mem with ((first | ⟨outfile, own, rfl⟩) | ⟨name, own, rfl⟩) | flags
  · simp only [List.mem_cons, List.not_mem_nil, or_false] at first
    rcases first with rfl | rfl | rfl
    · exact Or.inl ⟨_, mode, rfl⟩
    · exact Or.inr (Or.inl ⟨'B', by decide, _, rfl⟩)
    · exact Or.inr (Or.inl ⟨'C', by decide, _, rfl⟩)
  · exact Or.inr (Or.inr (Or.inl ⟨outfile, own, rfl⟩))
  · exact Or.inr (Or.inr (Or.inr ⟨name, own, rfl⟩))
  · -- a flag that is set
    apply Or.inl
    rcases flags with ((((flag | flag) | flag) | flag) | flag) | flag <;>
      exact ⟨_, by decide, mem_flagOption flag⟩

/-- Without options for the data directory, all names are looked up in the same one. -/
theorem purgeNames_eq {opts : List Opt} (same : ∀ o ∈ opts, datadirOf o = none)
    (datadir : Option (List Char)) :
    purgeNames datadir opts = opts.filterMap fun o =>
      if o.opt = 'p' then some ⟨datadir, o.optarg.getD []⟩ else none := by
  induction opts with
  | nil => rfl
  | cons o opts ih =>
    obtain ⟨own, others⟩ := List.forall_mem_cons.mp same
    rw [purgeNames, own, Option.getD_none, ih others, List.filterMap_cons]
    split_ifs <;> rfl

theorem purgeNames_options (datadir : Option (List Char)) :
    purgeNames datadir g.options =
      g.purgeInfiles.map fun name => ⟨datadir, name.getD []⟩ := by
  have same : ∀ o ∈ g.options, datadirOf o = none := by
    intro o mem
    have plain : ∀ c ∈ ['4', '6', 'a', 'i', 'k', 's', 'l', 'r', 'J'], c ≠ 'D' := by simp
    have other : ∀ c ∈ ['B', 'C'], c ≠ 'D' := by simp
    rcases mem_options mem with ⟨c, own, rfl⟩ | ⟨c, own, n, rfl⟩ | ⟨_, -, rfl⟩ | ⟨_, -, rfl⟩
    · exact if_neg (plain c own)
    · exact if_neg (other c own)
    · rfl
    · rfl
  have mode := modeOption_other g.treeMode (c := 'p') (by decide)
  rw [purgeNames_eq same, IpdedupGlobals.options]
  cases g.outfile <;> simp [List.filterMap_append, mode]

/-- The options are declared. -/
theorem takesArg_options (given : ∀ name ∈ g.purgeInfiles, PlainName name) :
    ∀ o ∈ g.options, o.opt ≠ '-' ∧ takesArg progOptions o.opt = some o.optarg.isSome := by
  intro o mem
  have plain : ∀ c ∈ ['4', '6', 'a', 'i', 'k', 's', 'l', 'r', 'J'],
      c ≠ '-' ∧ takesArg progOptions c = some false := by simp [takesArg, progOptions]
  have takes : ∀ c ∈ ['B', 'C', 'o', 'p'], c ≠ '-' ∧ takesArg progOptions c = some true := by
    simp [takesArg, progOptions]
  rcases mem_options mem with ⟨c, own, rfl⟩ | ⟨c, own, n, rfl⟩ | ⟨_, -, rfl⟩ | ⟨name, own, rfl⟩
  · exact plain c own
  · exact takes c (List.mem_append_left ['o', 'p'] own)
  · exact takes 'o' (by decide)
  · obtain ⟨c, s, rfl, -⟩ := given name own
    exact takes 'p' (by decide)

theorem refusal_plain {name : Option (List Char)} (plain : PlainName name)
    (datadir : Option (List Char)) (start : Startup) :
    DataName.refusal ⟨datadir, name.getD []⟩ start = none ∧
      some (DataName.path ⟨datadir, name.getD []⟩) = name := by
  obtain ⟨c, s, rfl, other⟩ := plain
  -- only a name that begins with `@` is looked up
  have notDatafile : ¬ DataName.IsDatafile ⟨datadir, (some (c :: s)).getD []⟩ :=
    fun same => other (Option.some.inj same)
  rw [DataName.refusal, DataName.path, if_pos notDatafile, if_neg notDatafile]
  exact ⟨rfl, rfl⟩

/-- Options that do not end the program. -/
theorem firstStop_eq_none {start : Startup} {opts : List Opt}
    (goesOn : ∀ o ∈ opts, ∀ datadir, stopCode start datadir o = none)
    (datadir : Option (List Char)) : firstStop start datadir opts = none := by
  induction opts generalizing datadir with
  | nil => rfl
  | cons o opts ih =>
    obtain ⟨own, others⟩ := List.forall_mem_cons.mp goesOn
    rw [firstStop, own, ih others]
    rfl

theorem stopCode_options (askable : g.Askable) (start : Startup) :
    ∀ o ∈ g.options, ∀ datadir, stopCode start datadir o = none := by
  intro o mem datadir
  rcases mem_options mem with ⟨c, own, rfl⟩ | ⟨c, own, n, rfl⟩ | ⟨outfile, own, rfl⟩ |
    ⟨name, own, rfl⟩
  · simp only [List.mem_cons, List.not_mem_nil, or_false] at own
    rcases own with rfl | rfl | rfl | rfl | rfl | rfl | rfl | rfl | rfl <;> rfl
  · simp only [List.mem_cons, List.not_mem_nil, or_false] at own
    rcases own with rfl | rfl <;> rfl
  · -- an empty name would be refused
    have given := (askable.outfile outfile own).1
    simp [stopCode, given, progOptions, takesArg]
  · have plain := askable.purgeInfiles name own
    have given := (refusal_plain plain datadir start).1
    obtain ⟨c, s, rfl, -⟩ := plain
    simpa [stopCode] using given

/-- Operands that are accepted. -/
theorem firstRefusal_operands (given : ∀ names ∈ g.infiles, ∀ name ∈ names, PlainName name)
    (start : Startup) (datadir : Option (List Char)) :
    firstRefusal start datadir g.operands = none := by
  rw [IpdedupGlobals.operands]
  cases own : g.infiles with
  | none => rfl
  | some names =>
    have plain := given names own
    clear own
    rw [Option.getD_some]
    induction names with
    | nil => rfl
    | cons name names ih =>
      obtain ⟨first, others⟩ := List.forall_mem_cons.mp plain
      have accepted := (refusal_plain first datadir start).1
      obtain ⟨c, s, rfl, -⟩ := first
      rw [List.map_cons, firstRefusal, accepted, ih others, Option.getD_some,
        if_neg (List.cons_ne_nil c s)]
      rfl

/-- The command line is accepted and asks for the run, whatever the program is called and however
it was built. -/
theorem cmdGlobals_render (askable : g.Askable) (start : Startup) (name : List Char) :
    cmdStop start (g.options, g.operands) = none ∧
      cmdGlobals start name (g.options, g.operands) w = g := by
  have plain : ∀ names ∈ g.infiles, ∀ name ∈ names, PlainName name :=
    fun names own => (askable.infiles names own).2
  have mode : cmdMode name (g.options, g.operands) = g.treeMode := by
    rw [cmdMode, lastOf_modeOf askable.treeMode]
    rfl
  -- plain names are not looked up in any directory
  have paths {names : List (Option (List Char))} (given : ∀ name ∈ names, PlainName name)
      (datadir : Option (List Char)) :
      names.map (fun name => some (DataName.path ⟨datadir, name.getD []⟩)) = names := by
    rw [List.map_congr_left fun name own => (refusal_plain (given name own) datadir start).2]
    exact List.map_id _
  have infiles : cmdInfiles start (g.options, g.operands) = g.infiles := by
    rw [cmdInfiles, IpdedupGlobals.operands]
    cases own : g.infiles with
    | none => rfl
    | some names =>
      have given := (askable.infiles names own).1
      rw [if_neg (by simpa using given), List.map_map]
      exact congrArg some (paths (plain names own) _)
  have purgeInfiles : cmdPurgeInfiles start (g.options, g.operands) = g.purgeInfiles := by
    rw [cmdPurgeInfiles, purgeNames_options, List.map_map]
    exact paths askable.purgeInfiles _
  constructor
  · rw [cmdStop, firstStop_eq_none (stopCode_options askable start),
      firstRefusal_operands plain start]
    rfl
  · rw [cmdGlobals, mode, infiles, purgeInfiles, lastOf_prefixlenV4Of askable.collapsePrefixlenV4,
      lastOf_prefixlenV6Of askable.collapsePrefixlenV6, lastOf_outfileOf askable.outfile,
      asked_options (by decide), asked_options (by decide), asked_options (by decide),
      asked_options (by decide), asked_options (by decide), asked_options (by decide)]
    rw [← askable.treeBuilder]
    simp [asked_append]

/-- Every run that may be asked for is a run of the program: there is a command line with which the
program does what the run does, and ends with its exit code. -/
theorem main_render {P : Platform} {g : IpdedupGlobals P.fast32} (askable : g.Askable)
    (start : Startup) (block : Dynarray NamePtr) (blocks : Blocks P.fast32) (sys : System)
    (bufs : ParseBufs P.fast32) (progPath : List Char)
    (few : (progPath :: g.render).length < 2 ^ 60) :
    ∃ stdout stderr paths,
      main P start block blocks sys bufs (progPath :: g.render) Mallocs.all =
        (mainRunDynarray P blocks sys g bufs Mallocs.all).map fun out =>
          (⟨mainExitCode out.1.ret, stdout, stderr, paths, some out.1⟩, out.2) := by
  obtain ⟨accepted, asks⟩ := cmdGlobals_render askable start (progName (progPath :: g.render))
  have found : cmdLine start (progPath :: g.render) = (g.options, g.operands) :=
    getopt_render start.permutes (takesArg_options askable.purgeInfiles) g.operands
  obtain ⟨stdout, stderr, paths, mem, all, -, ⟨ret, cause, -⟩ | ⟨-, run⟩⟩ :=
    main_cases start block blocks sys bufs few Mallocs.all
  · -- neither the command line nor an allocation ends it early
    rcases cause with stops | ⟨-, short⟩
    · rw [found, accepted] at stops
      cases stops
    · exact absurd rfl short
  · rw [found, asks, all rfl] at run
    exact ⟨stdout, stderr, paths, run⟩

/-- A run that inverts a file whose name looks like an option. -/
theorem main_render_hyphen :
    let P : Platform := ⟨.bits64, fun x _ => x, fun x _ => x⟩
    let g : IpdedupGlobals P.fast32 := ⟨.both, .empty .both, 0, 64, some ['o', 'u', 't'],
      some [some ['-', 'i']], [some ['p']], true, false, true, false, false, true⟩
    let start : Startup :=
      ⟨none, true, fun _ => false, false, fun _ => false, (0, ""), "Cannot allocate memory"⟩
    let sys : System := ⟨fun _ => some ⟨["2001:db8::/32\n".toList], false⟩, ⟨[], false⟩,
      fun _ => true⟩
    let block : Dynarray NamePtr := ⟨none, 0, 0, none⟩
    let blocks : Blocks P.fast32 := ⟨⟨none, 0, 0, none⟩, ⟨none, 0, 0, none⟩⟩
    ∃ stdout stderr paths,
      main P start block blocks sys .zero (['i', 'p'] :: g.render) Mallocs.all =
        (mainRunDynarray P blocks sys g .zero Mallocs.all).map fun out =>
          (⟨mainExitCode out.1.ret, stdout, stderr, paths, some out.1⟩, out.2) := by
  intro P g start sys block blocks
  have askable : g.Askable := by
    refine ⟨rfl, rfl, by decide, by decide, ?_, ?_, ?_⟩
    · rintro _ ⟨⟩
      exact ⟨by decide, by decide⟩
    · rintro _ ⟨⟩
      exact ⟨by decide, List.forall_mem_singleton.mpr ⟨'-', ['i'], rfl, by decide⟩⟩
    · exact List.forall_mem_singleton.mpr ⟨'p', [], rfl, by decide⟩
  exact main_render askable start block blocks sys .zero ['i', 'p'] (by decide)

end Render

end IpDedup
