import IpDedup.App.CommandLine

/-!
# What a command line asks for

Of options that set the same variable the last one counts, and flags are set by
any option. Only names of datafiles depend on what stands before them: they are
looked up in the last data directory. An option, or the name of a datafile that
is not there, may also end the program.

## Main definitions

* `lastOf`, `asked`: the variables after some options
* `DataName`: a name, and the directory for datafiles
* `stopCode`: the exit code of an option that ends the program
* `Settled`: the program has read some options
* `Balanced`: the blocks of paths are owned by the array that is freed in the end

## Main results

* `mainPushInfile_run`, `mainInnerOpt_run`: what a name and an option do, whatever allocations fail
-/

set_option autoImplicit false

namespace IpDedup

open Dynarray Getopt

/-! ### Variables -/

/-- The last of the values that options give. -/
def lastOf {β : Type} (value : Opt → Option β) (opts : List Opt) : Option β :=
  (opts.filterMap value).getLast?

/-- Some option is given. -/
def asked (c : Char) (opts : List Opt) : Bool := opts.any fun o => o.opt = c

theorem lastOf_concat {β : Type} (value : Opt → Option β) (opts : List Opt) (o : Opt) :
    lastOf value (opts ++ [o]) = (value o).or (lastOf value opts) := by
  rw [lastOf, List.filterMap_append, List.getLast?_append]
  cases given : value o <;> simp [given, lastOf]

theorem lastOf_cons {β : Type} (value : Opt → Option β) (o : Opt) (opts : List Opt) :
    lastOf value (o :: opts) = (lastOf value opts).or (value o) := by
  rw [← List.singleton_append, lastOf, List.filterMap_append, List.getLast?_append]
  cases given : value o <;> simp [given, lastOf]

theorem asked_concat (c : Char) (opts : List Opt) (o : Opt) :
    asked c (opts ++ [o]) = (asked c opts || decide (o.opt = c)) := by
  simp [asked]

/-- The mode of an option. -/
def modeOf (o : Opt) : Option ParseIpType :=
  if o.opt = '4' then some .onlyIpv4
  else if o.opt = '6' then some .onlyIpv6
  else if o.opt = 'a' then some .both
  else none

/-- The prefixlen for IPv4 of an option. A value that cannot be read does not count. -/
def prefixlenV4Of (o : Opt) : Option Nat :=
  if o.opt = 'B' then parseIpReadOctet (o.optarg.getD []) 10 else none

/-- The prefixlen for IPv6 of an option. -/
def prefixlenV6Of (o : Opt) : Option Nat :=
  if o.opt = 'C' then parseIpReadOctet (o.optarg.getD []) 10
  else if o.opt = 'c' then some 64
  else none

/-- The data directory of an option, which an empty one unsets. -/
def datadirOf (o : Opt) : Option (Option (List Char)) :=
  if o.opt = 'D' then some (if o.optarg.getD [] = [] then none else o.optarg) else none

/-- The output of an option, where a hyphen is `stdout`. -/
def outfileOf (o : Opt) : Option (Option (List Char)) :=
  if o.opt = 'o' then some (if o.optarg = some ['-'] then none else o.optarg) else none

/-- The data directory after some options. -/
def datadirAfter (datadir : Option (List Char)) (opts : List Opt) : Option (List Char) :=
  (lastOf datadirOf opts).getD datadir

/-- The data directory that the program was built with. -/
def Startup.datadir (start : Startup) : Option (List Char) :=
  if start.ipdedupDatadir.getD [] = [] then none else start.ipdedupDatadir

/-! ### Names -/

/-- A name, and the data directory where it stands. -/
structure DataName where
  datadir : Option (List Char)
  arg : List Char

namespace DataName

variable (name : DataName)

/-- A datafile is asked for. -/
def IsDatafile : Prop := name.arg.head? = some '@'

instance : Decidable name.IsDatafile := inferInstanceAs (Decidable (_ = _))

/-- The path of a datafile; the name of another file. -/
def path : List Char :=
  if name.IsDatafile then datafilePath (name.datadir.getD []) name.arg.tail else name.arg

/-- The exit code if there is no such datafile. -/
def refusal (start : Startup) : Option Int :=
  if ¬ name.IsDatafile then none
  else if name.datadir.getD [] = [] then some exIoerr
  else if name.arg.tail = [] then some exUsage
  else if intMax < name.path.length then some exOserr
  else if start.access name.path then none
  else some exIoerr

end DataName

/-- The names of the files to be purged. -/
def purgeNames (datadir : Option (List Char)) : List Opt → List DataName
  | [] => []
  | o :: opts =>
    (if o.opt = 'p' then [⟨datadir, o.optarg.getD []⟩] else []) ++
      purgeNames ((datadirOf o).getD datadir) opts

theorem purgeNames_append (datadir : Option (List Char)) (opts opts' : List Opt) :
    purgeNames datadir (opts ++ opts') =
      purgeNames datadir opts ++ purgeNames (datadirAfter datadir opts) opts' := by
  induction opts generalizing datadir with
  | nil => rfl
  | cons o opts ih =>
    have next : datadirAfter datadir (o :: opts) =
        datadirAfter ((datadirOf o).getD datadir) opts := by
      rw [datadirAfter, datadirAfter, lastOf_cons]
      cases lastOf datadirOf opts <;> rfl
    rw [List.cons_append, purgeNames, purgeNames, ih, next, List.append_assoc]

/-- The exit code of an option that ends the program. -/
def stopCode (start : Startup) (datadir : Option (List Char)) (o : Opt) : Option Int :=
  if o.opt = 'h' then some 0
  else if o.opt = 'L' then some (mainInnerList start).1
  else if (o.opt = 'o' ∨ o.opt = 'p') ∧ o.optarg.getD [] = [] then some exUsage
  else if o.opt = 'p' then DataName.refusal ⟨datadir, o.optarg.getD []⟩ start
  else if takesArg progOptions o.opt = none then some exUsage
  else none

/-! ### States -/

/-- The blocks in use are those that will be freed in the end. -/
structure Balanced (s : MainState) : Prop where
  paths : ∃ blocks : List Nat, held s.paths 0 0 = some ↑blocks ∧ Left blocks s.g.pileOfShame
  infiles : OnLoan s.g.infiles
  purgeInfiles : OnLoan s.g.purgeInfiles

/-- Some names are on a list of files, and the blocks that were allocated for them and for others
are owned. -/
structure Listed (s : MainState) (infiles : Option (Dynarray NamePtr))
    (others names : List DataName) : Prop where
  infiles : Lends (names.map DataName.path) infiles
  owned : ∃ blocks : List Nat, blocks.length ≤ (others ++ names).length ∧
    held s.paths 0 0 = some ↑blocks ∧ Owns blocks s.g.pileOfShame

theorem Listed.paths {s : MainState} {infiles : Option (Dynarray NamePtr)}
    {others names : List DataName} (listed : Listed s infiles others names) :
    ∃ blocks : List Nat, held s.paths 0 0 = some ↑blocks ∧ Left blocks s.g.pileOfShame := by
  obtain ⟨blocks, -, held, owns⟩ := listed.owned
  exact ⟨blocks, held, Or.inl owns⟩

/-- The variables are what the options ask for. -/
structure SetBy (start : Startup) (opts : List Opt) (g : CmdGlobals) : Prop where
  treeMode : g.treeMode = (lastOf modeOf opts).getD .none
  collapsePrefixlenV4 : g.collapsePrefixlenV4 = (lastOf prefixlenV4Of opts).getD 0
  collapsePrefixlenV6 : g.collapsePrefixlenV6 = (lastOf prefixlenV6Of opts).getD 0
  datadir : g.datadir = datadirAfter start.datadir opts
  outfile : g.outfile = (lastOf outfileOf opts).getD none
  wantInvert : g.wantInvert = asked 'i' opts
  wantKeepGoing : g.wantKeepGoing = asked 'k' opts
  wantStrict : g.wantStrict = asked 's' opts
  wantLongOutput : g.wantLongOutput = asked 'l' opts
  wantReduxOutput : g.wantReduxOutput = asked 'r' opts
  wantJsonOutput : g.wantJsonOutput = asked 'J' opts

/-- The options were read, and none of them ended the program. -/
structure Settled (start : Startup) (opts : List Opt) (s : MainState) : Prop where
  vars : SetBy start opts s.g
  infiles : s.g.infiles = none
  listed : Listed s s.g.purgeInfiles [] (purgeNames start.datadir opts)

/-- So were some operands. -/
structure Named (start : Startup) (opts : List Opt) (names : List DataName) (s : MainState) :
    Prop where
  vars : SetBy start opts s.g
  purgeInfiles : Lends ((purgeNames start.datadir opts).map DataName.path) s.g.purgeInfiles
  listed : Listed s s.g.infiles (purgeNames start.datadir opts) names

/-- What some part of the command line comes to: it is read, or it ends the program, or there is no
memory. -/
inductive Stage (stop : Option Int) (read : MainState → Prop) (mem : Mallocs) :
    Option Int → MainState → Prop where
  | goesOn {s : MainState} : stop = none → read s → Stage stop read mem none s
  | stops {code : Int} {s : MainState} : stop = some code → Balanced s →
    Stage stop read mem (some code) s
  | noMemory {s : MainState} : mem ≠ Mallocs.all → Balanced s →
    Stage stop read mem (some exOserr) s

/-! ### A name -/

section Push

variable {start : Startup} {block : Dynarray NamePtr} {s : MainState}
  {infiles : Option (Dynarray NamePtr)} {others names : List DataName}

/-- What putting a name on a list of files comes to: it is there, or there is no such datafile, or
there is no memory. -/
structure Push (start : Startup) (s : MainState) (others names : List DataName) (name : DataName)
    (mem : Mallocs) (ret : Int) (s' : MainState) (infiles' : Option (Dynarray NamePtr)) :
    Prop where
  frame : ∃ pile, s'.g = { s.g with pileOfShame := pile }
  outcome : (ret = 0 ∧ name.refusal start = none ∧ Listed s' infiles' others (names ++ [name])) ∨
    (ret ≠ 0 ∧ (name.refusal start = some ret ∨ ret = exOserr ∧ mem ≠ Mallocs.all) ∧
      OnLoan infiles' ∧
      ∃ blocks : List Nat, held s'.paths 0 0 = some ↑blocks ∧ Left blocks s'.g.pileOfShame)

theorem mainPushName_run (lends : Lends (names.map DataName.path) infiles)
    (few : (others ++ names).length < 2 ^ 60) (fpath : NamePtr) (mem : Mallocs) :
    ∃ ret infiles' mem', mainPushName s infiles fpath mem = some ((ret, s, infiles'), mem') ∧
      (mem = Mallocs.all → mem' = Mallocs.all) ∧
      ((ret = 0 ∧ Lends (names.map DataName.path ++ [fpath.text]) infiles') ∨
        (ret = exOserr ∧ mem ≠ Mallocs.all ∧ OnLoan infiles')) := by
  cases lends with
  | @live ptrs unused same positive =>
    have length : ptrs.length = names.length := by simpa using congrArg List.length same
    obtain ⟨out, mem', run, all, outcome⟩ :=
      @dynarrayAppend_ends _ (ptrs.map some) unused readonly (by rwa [List.length_map])
        (by rw [List.length_append] at few; rw [List.length_map, length]; omega) (some fpath) mem
    rcases outcome with ⟨unused', rfl⟩ | ⟨rfl, short⟩
    · have cells : ptrs.map some ++ [some fpath] = (ptrs ++ [fpath]).map some := by simp
      rw [cells] at run
      refine ⟨0, some (live ((ptrs ++ [fpath]).map some) unused' readonly), mem', ?_, all,
        Or.inl ⟨rfl, .live ?_ ?_⟩⟩
      · rw [mainPushName, Run.bind_apply, run]
        simp [pathEvents]
      · rw [List.map_append, same, List.map_singleton]
      · rw [List.length_append, List.length_singleton]
        omega
    · refine ⟨exOserr, some (lost readonly), mem', ?_, all, Or.inr ⟨rfl, short, .lost⟩⟩
      rw [mainPushName, Run.bind_apply, run]
      simp [pathEvents_readonly]

/-- A path is built, or there is no such path, or no memory for it. -/
theorem ipdedupGlobalsGetDatafilePath_run {g : CmdGlobals} {name : DataName}
    (datafile : name.IsDatafile) (same : g.datadir = name.datadir) (next : Nat) (mem : Mallocs) :
    ∃ out mem', ipdedupGlobalsGetDatafilePath next g name.arg.tail mem = some (out, mem') ∧
      (mem = Mallocs.all → mem' = Mallocs.all) ∧
      ((out = (.ok ⟨name.path, some next⟩, [.built name.path]) ∧
          ∀ start, name.refusal start = if start.access name.path then none else some exIoerr) ∨
        ∃ errno events, out = (.error errno, events) ∧
          (∀ blocks, held events next blocks = some blocks) ∧
          ((∀ start, name.refusal start = some (errnoExitCode errno)) ∨
            errno = .other ∧ mem ≠ Mallocs.all)) := by
  have refusal (start : Startup) : name.refusal start =
      if name.datadir.getD [] = [] then some exIoerr
      else if name.arg.tail = [] then some exUsage
      else if intMax < name.path.length then some exOserr
      else if start.access name.path then none
      else some exIoerr := by
    rw [DataName.refusal, if_neg (not_not_intro datafile)]
  have path : name.path = datafilePath (name.datadir.getD []) name.arg.tail := if_pos datafile
  rw [ipdedupGlobalsGetDatafilePath, same]
  cases set : name.datadir with
  | none =>
    refine ⟨_, mem, rfl, id, Or.inr ⟨.enoent, [], rfl, fun _ => rfl, Or.inl fun start => ?_⟩⟩
    rw [refusal, set, if_pos (by rfl)]
    rfl
  | some datadir =>
    simp only [set, Option.getD_some] at refusal path ⊢
    by_cases unset : datadir = []
    · refine ⟨_, mem, by rw [if_pos (by simp [unset])]; rfl, id,
        Or.inr ⟨.enoent, [], rfl, fun _ => rfl, Or.inl fun start => ?_⟩⟩
      rw [refusal, if_pos unset]
      rfl
    · have long : ¬ datadir.length < 1 := by simpa [Nat.lt_one_iff] using unset
      rw [if_neg long, getDatafilePathIn, ← path]
      by_cases unnamed : name.arg.tail = []
      · refine ⟨_, mem, by rw [if_pos (by simp [unnamed])]; rfl, id,
          Or.inr ⟨.einval, [], rfl, fun _ => rfl, Or.inl fun start => ?_⟩⟩
        rw [refusal, if_neg unset, if_pos unnamed]
        rfl
      · have named : ¬ name.arg.tail.length < 1 := by
          simpa [Nat.lt_one_iff, -List.length_tail] using unnamed
        rw [if_neg named]
        have rest : mem = Mallocs.all → (fun n => mem (n + 1)) = Mallocs.all := by
          rintro rfl
          rfl
        -- whether there is memory for the path
        cases answer : mem 0 with
        | false =>
          refine ⟨(.error .other, []), fun n => mem (n + 1), by simp [answer], rest,
            Or.inr ⟨.other, [], rfl, fun _ => rfl, Or.inr ⟨rfl, ?_⟩⟩⟩
          rintro rfl
          cases answer
        | true =>
          by_cases fits : name.path.length ≤ intMax
          · refine ⟨(.ok ⟨name.path, some next⟩, [.built name.path]), fun n => mem (n + 1),
              by simp [answer, fits], rest, Or.inl ⟨rfl, fun start => ?_⟩⟩
            rw [refusal, if_neg unset, if_neg unnamed, if_neg (Nat.not_lt.mpr fits)]
          · -- a path that `snprintf` cannot measure is freed at once
            refine ⟨(.error .other, [.built name.path, .freed ⟨name.path, some next⟩]),
              fun n => mem (n + 1), by simp [answer, fits], rest,
              Or.inr ⟨.other, _, rfl, fun blocks => ?_, Or.inl fun start => ?_⟩⟩
            · rw [held]
              exact held_freed rfl _
            · rw [refusal, if_neg unset, if_neg unnamed, if_pos (Nat.lt_of_not_le fits)]
              rfl

variable (start block) in
/-- The path of a datafile that was built is on the list of files and its block is owned, or it is
freed. -/
theorem mainPushDatafile_run {name : DataName} {blocks : List Nat} {n : Nat}
    (lends : Lends (names.map DataName.path) infiles) (owns : Owns blocks s.g.pileOfShame)
    (built : held s.paths 0 0 = some (n ::ₘ ↑blocks))
    (refusal : name.refusal start = if start.access name.path then none else some exIoerr)
    (few : (others ++ names).length < 2 ^ 60) (count : blocks.length ≤ (others ++ names).length)
    (mem : Mallocs) :
    ∃ ret s' infiles' mem',
      mainPushDatafile start block s infiles ⟨name.path, some n⟩ mem =
        some ((ret, s', infiles'), mem') ∧
      (mem = Mallocs.all → mem' = Mallocs.all) ∧
      Push start s others names name mem ret s' infiles' := by
  rw [mainPushDatafile]
  by_cases there : start.access name.path
  · obtain ⟨ret, pile, events, mem₁, run, all, pushed⟩ :=
      @ipdedupGlobalsPileOfShamePush_pushed _ ⟨name.path, some n⟩ _ rfl mem block _ owns
        (count.trans_lt few)
    rw [if_neg (by simp [there]), Run.bind_apply, run, Option.bind_some]
    rw [if_pos there] at refusal
    rcases pushed with ⟨rfl, rfl, owns'⟩ | ⟨rfl, frees, gone, short⟩
    · -- the array owns the block, whether or not the name gets on the list
      have owned : held s.paths 0 0 = some ↑(blocks ++ [n]) := by
        rw [built, ← Multiset.coe_add, Multiset.coe_singleton, Multiset.add_comm,
          Multiset.singleton_add]
      obtain ⟨ret, infiles', mem₂, named, all', outcome⟩ :=
        mainPushName_run (s := { s with g := { s.g with pileOfShame := pile } }) lends few
          ⟨name.path, some n⟩ mem₁
      refine ⟨ret, { s with g := { s.g with pileOfShame := pile } }, infiles', mem₂, ?_,
        fun enough => all' (all enough), ⟨pile, rfl⟩, ?_⟩
      · simpa using named
      · rcases outcome with ⟨rfl, lends'⟩ | ⟨rfl, short, loan⟩
        · refine Or.inl ⟨rfl, refusal, ?_, blocks ++ [n], ?_, owned, owns'⟩
          · rwa [List.map_append, List.map_singleton]
          · simp only [List.length_append, List.length_singleton] at count ⊢
            omega
        · exact Or.inr ⟨by decide, Or.inr ⟨rfl, fun enough => short (all enough)⟩, loan, _, owned,
            Or.inl owns'⟩
    · -- the array is gone with its blocks, and the new one is freed, too
      refine ⟨exOserr, _, infiles, mem₁, rfl, all, ⟨pile, rfl⟩,
        Or.inr ⟨by decide, Or.inr ⟨rfl, short⟩, .live lends, [], ?_, gone⟩⟩
      have split : n ::ₘ (blocks : Multiset Nat) = ↑blocks + {n} := by
        rw [Multiset.add_comm, Multiset.singleton_add]
      rw [held_append, held_append, built, Option.bind_some, split, frees.held, Option.bind_some]
      exact held_freed rfl _
  · -- there is no such file
    rw [if_pos (by simp [there])]
    rw [if_neg there] at refusal
    refine ⟨exIoerr, _, infiles, mem, rfl, id, ⟨s.g.pileOfShame, rfl⟩,
      Or.inr ⟨by decide, Or.inl refusal, .live lends, blocks, ?_, Or.inl owns⟩⟩
    rw [held_append, built, Option.bind_some]
    exact held_freed rfl _

variable (start block) in
/-- A name is on the list of files then, or it is refused, or there is no memory. -/
theorem mainPushInfile_run (listed : Listed s infiles others names)
    (few : (others ++ names).length < 2 ^ 60) (name : DataName) (same : s.g.datadir = name.datadir)
    (mem : Mallocs) :
    ∃ ret s' infiles' mem', mainPushInfile start block s infiles name.arg mem =
        some ((ret, s', infiles'), mem') ∧
      (mem = Mallocs.all → mem' = Mallocs.all) ∧
      Push start s others names name mem ret s' infiles' := by
  obtain ⟨blocks, count, inUse, owns⟩ := listed.owned
  by_cases datafile : name.IsDatafile
  · obtain ⟨out, mem₁, run, all, outcome⟩ :=
      ipdedupGlobalsGetDatafilePath_run datafile same (numBuilt s.paths) mem
    rw [mainPushInfile, if_pos (show _ = _ from datafile), Run.bind_apply, run, Option.bind_some]
    rcases outcome with ⟨rfl, refusal⟩ | ⟨errno, events, rfl, kept, code⟩
    · have built : held (s.paths ++ [.built name.path]) 0 0 =
          some (numBuilt s.paths ::ₘ ↑blocks) := by
        rw [held_append, inUse, Option.bind_some, Nat.zero_add]
        rfl
      obtain ⟨ret, s', infiles', mem₂, pushed, all', push⟩ := mainPushDatafile_run start block
        (s := { s with paths := s.paths ++ [.built name.path] }) listed.infiles owns built
        (refusal start) few count mem₁
      refine ⟨ret, s', infiles', mem₂, pushed, fun enough => all' (all enough), push.frame, ?_⟩
      refine push.outcome.imp_right (And.imp_right (And.imp_left (Or.imp_right (And.imp_right ?_))))
      exact fun short enough => short (all enough)
    · -- no path was built, or none is left
      refine ⟨errnoExitCode errno, _, infiles, mem₁, rfl, all, ⟨s.g.pileOfShame, rfl⟩,
        Or.inr ⟨?_, ?_, .live listed.infiles, blocks, ?_, Or.inl owns⟩⟩
      · cases errno <;> decide
      · refine code.imp (fun refused => refused start) ?_
        rintro ⟨rfl, short⟩
        exact ⟨rfl, short⟩
      · rw [held_append, inUse, Option.bind_some, Nat.zero_add]
        exact kept _
  · -- the name of another file is not on the heap
    obtain ⟨ret, infiles', mem', run, all, outcome⟩ :=
      mainPushName_run (s := s) listed.infiles few ⟨name.arg, none⟩ mem
    have path : name.path = name.arg := if_neg datafile
    rw [mainPushInfile, if_neg (show ¬ _ = _ from datafile)]
    refine ⟨ret, s, infiles', mem', run, all, ⟨s.g.pileOfShame, rfl⟩, ?_⟩
    rcases outcome with ⟨rfl, lends⟩ | ⟨rfl, short, loan⟩
    · refine Or.inl ⟨rfl, if_pos datafile, ?_, blocks, ?_, inUse, owns⟩
      · rwa [List.map_append, List.map_singleton, path]
      · simp only [List.length_append] at count ⊢
        omega
    · exact Or.inr ⟨by decide, Or.inr ⟨rfl, short⟩, loan, listed.paths⟩

end Push

/-! ### An option -/

/-- What an option sets, apart from the names of files. -/
def CmdGlobals.set (g : CmdGlobals) (o : Opt) : CmdGlobals :=
  { g with
    treeMode := (modeOf o).getD g.treeMode
    collapsePrefixlenV4 := (prefixlenV4Of o).getD g.collapsePrefixlenV4
    collapsePrefixlenV6 := (prefixlenV6Of o).getD g.collapsePrefixlenV6
    datadir := (datadirOf o).getD g.datadir
    outfile := (outfileOf o).getD g.outfile
    wantInvert := g.wantInvert || decide (o.opt = 'i')
    wantKeepGoing := g.wantKeepGoing || decide (o.opt = 'k')
    wantStrict := g.wantStrict || decide (o.opt = 's')
    wantLongOutput := g.wantLongOutput || decide (o.opt = 'l')
    wantReduxOutput := g.wantReduxOutput || decide (o.opt = 'r')
    wantJsonOutput := g.wantJsonOutput || decide (o.opt = 'J') }

section Options

variable {start : Startup} {block : Dynarray NamePtr} {s s' : MainState} {opts : List Opt}
  {o : Opt} {datadir : Option (List Char)}

/-- Another option was read. -/
theorem SetBy.concat {g g' : CmdGlobals} (vars : SetBy start opts g)
    {pile purgeInfiles : Option (Dynarray NamePtr)}
    (same : g' = { g.set o with pileOfShame := pile, purgeInfiles := purgeInfiles }) :
    SetBy start (opts ++ [o]) g' := by
  obtain rfl := same
  constructor
  · rw [lastOf_concat, Option.getD_or, ← vars.treeMode]
    rfl
  · rw [lastOf_concat, Option.getD_or, ← vars.collapsePrefixlenV4]
    rfl
  · rw [lastOf_concat, Option.getD_or, ← vars.collapsePrefixlenV6]
    rfl
  · rw [datadirAfter, lastOf_concat, Option.getD_or, ← datadirAfter, ← vars.datadir]
    rfl
  · rw [lastOf_concat, Option.getD_or, ← vars.outfile]
    rfl
  · rw [asked_concat, ← vars.wantInvert]
    rfl
  · rw [asked_concat, ← vars.wantKeepGoing]
    rfl
  · rw [asked_concat, ← vars.wantStrict]
    rfl
  · rw [asked_concat, ← vars.wantLongOutput]
    rfl
  · rw [asked_concat, ← vars.wantReduxOutput]
    rfl
  · rw [asked_concat, ← vars.wantJsonOutput]
    rfl

/-- An option that takes an argument has one. -/
theorem exists_optarg (declared : Declared progOptions o)
    (takes : takesArg progOptions o.opt = some true) : ∃ optarg, o.optarg = some optarg := by
  apply Option.isSome_iff_exists.mp
  rcases declared with rfl | own
  · exact absurd takes (by decide)
  · exact (Option.some.inj (own.symm.trans takes)).symm ▸ rfl

/-- A value is kept if it can be read, whatever is reported. -/
theorem mainInnerPrefixlen_eq (c : Char) (arg : List Char) (max : Nat) (get : CmdGlobals → Nat)
    (set : Nat → CmdGlobals) :
    ∃ stderr, mainInnerPrefixlen s ⟨c, some arg⟩ max get set =
      pure { s with g := (parseIpReadOctet arg 10).elim s.g set, stderr := stderr } := by
  rw [mainInnerPrefixlen, Run.lift_some_bind]
  dsimp only
  split_ifs
  · exact ⟨_, rfl⟩
  · exact ⟨_, rfl⟩

variable (block) in
/-- An option that goes on and names no file sets variables. -/
theorem mainInnerOpt_set (declared : Declared progOptions o) (other : o.opt ≠ 'p')
    (goesOn : stopCode start datadir o = none) :
    ∃ stderr, mainInnerOpt start block s o =
      pure (none, { s with g := s.g.set o, stderr := stderr }) := by
  obtain ⟨c, optarg⟩ := o
  unfold mainInnerOpt
  dsimp only at other ⊢
  split
  case h_4 =>
    -- `-B`
    obtain ⟨arg, given⟩ := exists_optarg declared (show takesArg progOptions 'B' = _ by decide)
    obtain rfl : optarg = some arg := given
    obtain ⟨stderr, own⟩ := mainInnerPrefixlen_eq (s := s) 'B' arg 32
      (fun g => g.collapsePrefixlenV4) fun n => { s.g with collapsePrefixlenV4 := n }
    refine ⟨stderr, ?_⟩
    rw [own, pure_bind]
    cases value : parseIpReadOctet arg 10 <;>
      simp [CmdGlobals.set, modeOf, prefixlenV4Of, prefixlenV6Of, datadirOf, outfileOf, value]
  case h_5 =>
    -- `-C`
    obtain ⟨arg, given⟩ := exists_optarg declared (show takesArg progOptions 'C' = _ by decide)
    obtain rfl : optarg = some arg := given
    obtain ⟨stderr, own⟩ := mainInnerPrefixlen_eq (s := s) 'C' arg 128
      (fun g => g.collapsePrefixlenV6) fun n => { s.g with collapsePrefixlenV6 := n }
    refine ⟨stderr, ?_⟩
    rw [own, pure_bind]
    cases value : parseIpReadOctet arg 10 <;>
      simp [CmdGlobals.set, modeOf, prefixlenV4Of, prefixlenV6Of, datadirOf, outfileOf, value]
  case h_7 =>
    -- `-D`
    exact ⟨s.stderr, by simp [CmdGlobals.set, modeOf, prefixlenV4Of, prefixlenV6Of, datadirOf,
      outfileOf, ipdedupGlobalsSetDatadir]⟩
  case h_8 => cases goesOn
  case h_12 => cases goesOn
  case h_14 =>
    -- `-o`, whose argument is not empty
    have given : optarg.getD [] ≠ [] := by
      intro empty
      simp [stopCode, empty] at goesOn
    rw [if_neg given]
    refine ⟨s.stderr, ?_⟩
    split_ifs with stdout <;>
      simp [CmdGlobals.set, modeOf, prefixlenV4Of, prefixlenV6Of, datadirOf, outfileOf, stdout]
  case h_15 => exact absurd rfl other
  case h_18 =>
    -- no option of the switch, so it is not declared
    have unknown : takesArg progOptions c = none := by
      by_contra takes
      obtain ⟨mem, colon⟩ := mem_of_takesArg takes
      rw [progOptions] at mem
      repeat
        rcases List.mem_cons.mp mem with own | mem
        · contradiction
      exact absurd mem List.not_mem_nil
    dsimp only [stopCode] at goesOn
    rw [if_neg ‹_›, if_neg ‹_›, if_neg (by rintro ⟨own | own, -⟩ <;> contradiction), if_neg ‹_›,
      if_pos unknown] at goesOn
    cases goesOn
  -- modes and flags
  all_goals
    exact ⟨s.stderr, by simp [CmdGlobals.set, modeOf, prefixlenV4Of, prefixlenV6Of, datadirOf,
      outfileOf]⟩

variable (block) in
/-- An option that ends the program leaves the variables as they are. -/
theorem mainInnerOpt_stop (other : o.opt ≠ 'p') {code : Int}
    (stops : stopCode start datadir o = some code) :
    ∃ stdout stderr, mainInnerOpt start block s o =
      pure (some code, { s with stdout := stdout, stderr := stderr }) := by
  obtain ⟨c, optarg⟩ := o
  unfold mainInnerOpt
  dsimp only at other ⊢
  split
  case h_8 =>
    -- `-h`
    obtain rfl := Option.some.inj stops
    exact ⟨_, _, rfl⟩
  case h_12 =>
    -- `-L`
    obtain rfl := Option.some.inj stops
    exact ⟨_, _, rfl⟩
  case h_14 =>
    -- `-o`, whose argument is empty
    have empty : optarg.getD [] = [] := by
      by_contra given
      simp [stopCode, given, progOptions, takesArg] at stops
    rw [if_pos empty]
    obtain rfl : exUsage = code := by simpa [stopCode, empty] using stops
    exact ⟨s.stdout, _, rfl⟩
  case h_15 => exact absurd rfl other
  case h_18 =>
    -- no option of the switch
    dsimp only [stopCode] at stops
    rw [if_neg ‹_›, if_neg ‹_›, if_neg (by rintro ⟨own | own, -⟩ <;> contradiction), if_neg ‹_›]
      at stops
    obtain rfl : exUsage = code := by
      split_ifs at stops
      exact Option.some.inj stops
    exact ⟨s.stdout, _, rfl⟩
  -- modes, prefixlens and flags go on
  all_goals simp [stopCode, progOptions, takesArg] at stops

theorem Settled.balanced (settled : Settled start opts s) : Balanced s where
  paths := settled.listed.paths
  infiles := settled.infiles ▸ .null
  purgeInfiles := .live settled.listed.infiles

/-- An option with the name of a file to be purged. -/
theorem mainInnerOpt_purge (settled : Settled start opts s)
    (few : (purgeNames start.datadir opts).length < 2 ^ 60) (own : o.opt = 'p') (mem : Mallocs) :
    ∃ ret s' mem', mainInnerOpt start block s o mem = some ((ret, s'), mem') ∧
      (mem = Mallocs.all → mem' = Mallocs.all) ∧ s'.g.progName = s.g.progName ∧
      Stage (stopCode start (datadirAfter start.datadir opts) o)
        (Settled start (opts ++ [o])) mem ret s' := by
  obtain ⟨c, optarg⟩ := o
  obtain rfl : c = 'p' := own
  by_cases empty : optarg.getD [] = []
  · have stops : stopCode start (datadirAfter start.datadir opts) ⟨'p', optarg⟩ = some exUsage := by
      simp [stopCode, empty]
    refine ⟨some exUsage, { s with stderr := s.stderr ++ [emptyOptarg 'p'] }, mem,
      by simp [mainInnerOpt, empty], id, rfl, .stops stops ⟨?_, ?_, ?_⟩⟩
    · exact settled.balanced.paths
    · exact settled.balanced.infiles
    · exact settled.balanced.purgeInfiles
  · have code : stopCode start (datadirAfter start.datadir opts) ⟨'p', optarg⟩ =
        DataName.refusal ⟨datadirAfter start.datadir opts, optarg.getD []⟩ start := by
      simp [stopCode, empty]
    obtain ⟨ret, s', infiles', mem', run, all, ⟨pile, frame⟩, outcome⟩ :=
      mainPushInfile_run start block settled.listed
        (by rwa [List.nil_append]) ⟨datadirAfter start.datadir opts, optarg.getD []⟩
        settled.vars.datadir mem
    refine ⟨if ret ≠ 0 then some ret else none, { s' with g.purgeInfiles := infiles' }, mem', ?_,
      all, by rw [frame], ?_⟩
    · dsimp only at run
      simp [mainInnerOpt, empty, run]
    · rcases outcome with ⟨rfl, accepted, listed⟩ | ⟨failed, cause, loan, balance⟩
      · -- the name is looked up in the directory that was given last
        rw [if_neg (not_not_intro rfl)]
        have names : purgeNames start.datadir (opts ++ [⟨'p', optarg⟩]) =
            purgeNames start.datadir opts ++
              [⟨datadirAfter start.datadir opts, optarg.getD []⟩] := by
          simp [purgeNames_append, purgeNames]
        have same : { s'.g with purgeInfiles := infiles' } =
            { s.g.set ⟨'p', optarg⟩ with pileOfShame := pile, purgeInfiles := infiles' } := by
          rw [frame]
          simp [CmdGlobals.set, modeOf, prefixlenV4Of, prefixlenV6Of, datadirOf, outfileOf]
        rw [← names] at listed
        refine .goesOn (code.trans accepted) ⟨settled.vars.concat same, ?_,
          ⟨listed.infiles, listed.owned⟩⟩
        rw [frame]
        exact settled.infiles
      · have balanced : Balanced { s' with g.purgeInfiles := infiles' } := by
          refine ⟨balance, ?_, loan⟩
          rw [frame]
          exact settled.balanced.infiles
        rw [if_pos failed]
        rcases cause with refused | ⟨rfl, short⟩
        · exact .stops (code.trans refused) balanced
        · exact .noMemory short balanced

variable (block) in
/-- What an option does, whatever allocations fail. -/
theorem mainInnerOpt_run (declared : Declared progOptions o) (settled : Settled start opts s)
    (few : (purgeNames start.datadir opts).length < 2 ^ 60) (mem : Mallocs) :
    ∃ ret s' mem', mainInnerOpt start block s o mem = some ((ret, s'), mem') ∧
      (mem = Mallocs.all → mem' = Mallocs.all) ∧ s'.g.progName = s.g.progName ∧
      Stage (stopCode start (datadirAfter start.datadir opts) o)
        (Settled start (opts ++ [o])) mem ret s' := by
  by_cases own : o.opt = 'p'
  · exact mainInnerOpt_purge settled few own mem
  · cases stop : stopCode start (datadirAfter start.datadir opts) o with
    | none =>
      -- an option that goes on leaves the lists of names alone
      obtain ⟨stderr, run⟩ := mainInnerOpt_set block (s := s) declared own stop
      have same : s.g.set o = { s.g.set o with
          pileOfShame := s.g.pileOfShame
          purgeInfiles := s.g.purgeInfiles } := rfl
      have names : purgeNames start.datadir (opts ++ [o]) = purgeNames start.datadir opts := by
        simp [purgeNames_append, purgeNames, own]
      have listed := settled.listed
      rw [← names] at listed
      rw [run]
      exact ⟨none, { s with g := s.g.set o, stderr := stderr }, mem, rfl, id, rfl,
        .goesOn rfl ⟨settled.vars.concat same, settled.infiles,
          ⟨listed.infiles, listed.owned⟩⟩⟩
    | some code =>
      obtain ⟨stdout, stderr, run⟩ := mainInnerOpt_stop block (s := s) own stop
      have balanced := settled.balanced
      rw [run]
      exact ⟨some code, { s with stdout := stdout, stderr := stderr }, mem, rfl, id, rfl,
        .stops rfl ⟨balanced.paths, balanced.infiles, balanced.purgeInfiles⟩⟩

end Options

end IpDedup
