import IpDedup.App.ArrayStages
import IpDedup.App.Globals
import IpDedup.Lib.Getopt

/-!
# The command line

`main`, `main_inner` and what they call, in `app/ip-dedup/main.c`: the options
set global variables one after the other, or end the program. What is left names
the input files. Then the builder is made, and the run starts.

## Main definitions

* `Startup`: what the program finds when it starts
* `mainPushInfile`: a name is put on a list of files
* `mainInnerOpt`, `mainInnerLoop`, `mainInnerArgs`: options and operands
* `mainInner`, `main`
-/

set_option autoImplicit false

namespace IpDedup

open Getopt

/-! ### The start -/

/-- What the program finds when it starts: the data directory that it was built with, whether
`getopt` goes on behind operands, which files exist, and, for `-L`, whether there is a shell,
whether it can change to a directory, and what `system` returns and writes there. `enomem` is how
`strerror` puts the lack of memory. -/
structure Startup where
  ipdedupDatadir : Option (List Char)
  permutes : Bool
  access : List Char → Bool
  shell : Bool
  chdir : List Char → Bool
  listing : Int × String
  enomem : String

/-- Where the program stands: the global variables, what it wrote, and what happened to paths. -/
structure MainState where
  g : CmdGlobals
  stdout : List String
  stderr : List String
  paths : List PathEvent

/-! ### Names -/

/-- The loop of `get_prog_name`, which keeps what stands behind the last slash. -/
def getProgNameLoop (progPath progName : List Char) : List Char → List Char
  | [] => if progName = [] then progPath else progName
  | c :: s => getProgNameLoop progPath (if c = '/' then s else progName) s

def getProgName (progPath : List Char) : List Char :=
  getProgNameLoop progPath progPath progPath

/-- The digit behind `ip` or `ipv`. -/
def guessTreeMode (progName : List Char) : ParseIpType :=
  match progName with
  | 'i' :: 'p' :: s =>
    let s := if s.head? = some 'v' then s.tail else s
    if s.head? = some '4' then .onlyIpv4
    else if s.head? = some '6' then .onlyIpv6
    else .both
  | _ => .both

/-! ### Help -/

/-- A number, right-aligned in three columns. -/
def fmtExitCode (code : Int) : String :=
  let digits := toString code
  String.ofList (List.replicate (3 - digits.length) ' ') ++ digits

/-- `MAIN_HELP_OPT_L` -/
def mainHelpOptL (start : Startup) : String :=
  if start.ipdedupDatadir.isSome then "  -L           list default datadir include files\n"
  else "  -L           (feature not available)\n"

def printUsage (start : Startup) (g : CmdGlobals) : List String :=
  let progName := String.ofList g.progName
  ["Usage:\n",
    "  ", progName, " \x7b-4|-6|-a|-B <N>|-C <N>|-c|-D <DIR>|-h|-i|-k|-L|-l|",
    "-o <FILE>|-p <FILE>|-s|-r\x7d [<FILE>...]\n",
    "\n",
    "Options:\n",
    "  -4           IPv4 mode\n",
    "  -6           IPv6 mode\n",
    "  -a           IPv4/IPv6 mixed mode\n",
    "  -B <N>       collapse IPv4 input networks with a prefixlen\n",
    "               greater than <N> to a /<N> network\n",
    "               (if <N> greater than zero)\n",
    "  -C <N>       collapse IPv6 input networks with a prefixlen\n",
    "               greater than <N> to a /<N> network\n",
    "               (if <N> greater than zero)\n",
    "  -c           collapse IPv6 at prefixlen 64 (same as -C 64)\n",
    "  -D <DIR>     look up all following @name input files in <DIR>\n",
    "  -h           print this help message and exit\n",
    "  -i           invert networks\n",
    "  -J           JSON output format\n",
    "  -k           skip invalid input instead of exiting with non-zero code\n",
    mainHelpOptL start,
    "  -l           long output form (currently only affects IPv6 addresses)\n",
    "  -o <FILE>    write output to <FILE> instead of stdout\n",
    "  -p <FILE>    read network excludes from <FILE>\n",
    "               can be specified more than once\n",
    "  -r           reduced output format (omit /32, /128 suffix)\n",
    "  -s           verify that no host bits are set in parsed addresses\n",
    "               By default, lax rules are applied and network addresses\n",
    "               get silently truncated to their prefix length.\n",
    "\n",
    "Positional Arguments:\n",
    "  FILE...      read networks from files instead of stdin\n",
    "\n",
    "Exit Codes:\n",
    "  ", fmtExitCode 0, "          success\n",
    "  ", fmtExitCode exitFailure, "          unspecified error\n",
    "  ", fmtExitCode exUsage, "          usage error\n",
    "  ", fmtExitCode exDataerr, "          failed to parse input network specification\n",
    "  ", fmtExitCode exSoftware, "          software logic broken\n",
    "  ", fmtExitCode exOserr, "          failed to get system resources\n",
    "  ", fmtExitCode exCantcreat, "          failed to open output file\n",
    "  ", fmtExitCode exIoerr, "          failed to open input file\n",
    "\n",
    "Notes:\n",
    "  Input and exclude file names starting with a '@' char are looked up\n",
    "  in the data directory after removing the prefix char.\n",
    "  (currently ", (g.datadir.map String.ofList).getD "<unset>", ")\n",
    "\n",
    "  For each line in the input (files),\n",
    "  leading and trailing whitespace is removed.\n",
    "  Empty lines, possibly caused by this conversion, are silently ignored.\n",
    "  Likewise, lines starting with a '#' char are ignored, too.\n",
    "\n",
    "  The keep-going mode (-k) allows for invalid input.\n",
    "  However, if no input network specification could be parsed\n",
    "  but at least one was seen, then ", progName, " exits non-zero (", toString exDataerr, ").\n",
    "  This rule applies to each individual input file.\n"]

def printDescription (start : Startup) (g : CmdGlobals) : List String :=
  ["ip-dedup 0.10\n",
    "\n",
    "  Merges and aggregates IPv4/IPv6 addresses/networks and writes\n",
    "  the resulting networks in <addr>/<prefixlen> notation to stdout.\n",
    "  Networks can be excluded from the final result by using the purge option.\n",
    "\n",
    "  The output will be sorted. When operating in mixed mode,\n",
    "  IPv4 networks will be written before any IPv6 networks.\n",
    "\n",
    "  The input format is one network address per line,\n",
    "  optionally followed by a slash char '/' and a prefixlen.\n",
    "  If omitted, the prefixlen is guessed based on the number\n",
    "  of non-zero blocks in the network address.\n",
    "\n"] ++ printUsage start g

/-! ### Files -/

/-- A name is put on a list of files, which must be there. -/
def mainPushName (s : MainState) (infiles : Option (Dynarray NamePtr)) (fpath : NamePtr) :
    Run (Int × MainState × Option (Dynarray NamePtr)) := do
  let out ← dynarrayAppend infiles (some fpath)
  pure (if out.ret ≠ 0 then exOserr else 0,
    { s with paths := s.paths ++ pathEvents out.events }, out.pDarr)

/-- The path of a datafile that was built is put on a list of files, unless there is no such
file. -/
def mainPushDatafile (start : Startup) (block : Dynarray NamePtr) (s : MainState)
    (infiles : Option (Dynarray NamePtr)) (buf : NamePtr) :
    Run (Int × MainState × Option (Dynarray NamePtr)) :=
  if !start.access buf.text then
    pure (exIoerr, { s with
      stderr := s.stderr ++ ["Error: datafile missing: " ++ String.ofList buf.text ++ "\n"]
      paths := s.paths ++ [.freed buf] }, infiles)
  else do
    let pushed ← ipdedupGlobalsPileOfShamePush block s.g buf
    let s := { s with g := pushed.2.1, paths := s.paths ++ pushed.2.2 }
    -- the path has no other owner then
    if pushed.1 ≠ 0 then pure (exOserr, { s with paths := s.paths ++ [.freed buf] }, infiles)
    else mainPushName s infiles buf

/-- The exit code for the `errno` of a path that could not be built. -/
def errnoExitCode : Errno → Int
  | .einval => exUsage
  | .enoent => exIoerr
  | .other => exOserr

/-- The exit code, and the list of files. The name is not empty. -/
def mainPushInfile (start : Startup) (block : Dynarray NamePtr) (s : MainState)
    (infiles : Option (Dynarray NamePtr)) (arg : List Char) :
    Run (Int × MainState × Option (Dynarray NamePtr)) :=
  if arg.head? = some '@' then do
    let path ← ipdedupGlobalsGetDatafilePath (numBuilt s.paths) s.g arg.tail
    let s := { s with paths := s.paths ++ path.2 }
    match path.1 with
    | .error errno => pure (errnoExitCode errno, s, infiles)
    | .ok buf => mainPushDatafile start block s infiles buf
  -- the program does not own the arguments that it was given
  else mainPushName s infiles ⟨arg, none⟩

/-! ### Options -/

/-- `PROG_OPTIONS`: `46aB:C:cD:hiJkLlo:p:rs` -/
def progOptions : List Char :=
  ['4', '6', 'a', 'B', ':', 'C', ':', 'c', 'D', ':', 'h', 'i', 'J', 'k', 'L', 'l', 'o', ':', 'p',
    ':', 'r', 's']

/-- An option with a value for a prefixlen: it is kept if it can be read, but an error is reported
for a value above `max`, too. -/
def mainInnerPrefixlen (s : MainState) (found : Opt) (max : Nat) (get : CmdGlobals → Nat)
    (set : Nat → CmdGlobals) : Run MainState := do
  let optarg ← found.optarg
  let value := parseIpReadOctet optarg 10
  -- the variable is not written if there is nothing to read
  let g := value.elim s.g set
  if value = none ∨ get g > max then
    pure { s with
      g := g
      stderr := s.stderr ++ ["Error: -" ++ toString found.opt ++ " needs a number between 0 and " ++
        toString max ++ "\n"] }
  else pure { s with g := g }

/-- `-L`: the exit code, and what is written to `stdout` and `stderr`. -/
def mainInnerList (start : Startup) : Int × List String × List String :=
  match start.ipdedupDatadir with
  | none => (exUsage, [], ["Error: feature not available.\n"])
  | some datadir =>
    if !start.shell then (exOserr, [], [])
    else if !start.chdir datadir then (exitFailure, [], [])
    else (if start.listing.1 < 0 then exOserr else start.listing.1, [start.listing.2], [])

/-- The message for an option whose argument is empty. -/
def emptyOptarg (opt : Char) : String :=
  "Error: -" ++ toString opt ++ " option needs a non-empty argument.\n"

/-- One round of the loop over the options: what `main_inner` returns if it does, and where it
stands. -/
def mainInnerOpt (start : Startup) (block : Dynarray NamePtr) (s : MainState) (found : Opt) :
    Run (Option Int × MainState) :=
  match found.opt with
  | '4' => pure (none, { s with g.treeMode := .onlyIpv4 })
  | '6' => pure (none, { s with g.treeMode := .onlyIpv6 })
  | 'a' => pure (none, { s with g.treeMode := .both })
  | 'B' => do
    let s ← mainInnerPrefixlen s found 32 (fun g => g.collapsePrefixlenV4) fun n =>
      { s.g with collapsePrefixlenV4 := n }
    pure (none, s)
  | 'C' => do
    let s ← mainInnerPrefixlen s found 128 (fun g => g.collapsePrefixlenV6) fun n =>
      { s.g with collapsePrefixlenV6 := n }
    pure (none, s)
  | 'c' => pure (none, { s with g.collapsePrefixlenV6 := 64 })
  -- names that were looked up before keep their directory
  | 'D' => pure (none, { s with g := ipdedupGlobalsSetDatadir s.g found.optarg })
  | 'h' => pure (some 0, { s with stdout := s.stdout ++ printDescription start s.g })
  | 'i' => pure (none, { s with g.wantInvert := true })
  | 'J' => pure (none, { s with g.wantJsonOutput := true })
  | 'k' => pure (none, { s with g.wantKeepGoing := true })
  | 'L' =>
    let out := mainInnerList start
    pure (some out.1, { s with stdout := s.stdout ++ out.2.1, stderr := s.stderr ++ out.2.2 })
  | 'l' => pure (none, { s with g.wantLongOutput := true })
  | 'o' =>
    if found.optarg.getD [] = [] then
      pure (some exUsage, { s with stderr := s.stderr ++ [emptyOptarg found.opt] })
    -- back to `stdout`
    else if found.optarg = some ['-'] then pure (none, { s with g.outfile := none })
    else pure (none, { s with g.outfile := found.optarg })
  | 'p' =>
    if found.optarg.getD [] = [] then
      pure (some exUsage, { s with stderr := s.stderr ++ [emptyOptarg found.opt] })
    else do
      let out ← mainPushInfile start block s s.g.purgeInfiles (found.optarg.getD [])
      let s := { out.2.1 with g.purgeInfiles := out.2.2 }
      pure (if out.1 ≠ 0 then some out.1 else none, s)
  | 'r' => pure (none, { s with g.wantReduxOutput := true })
  | 's' => pure (none, { s with g.wantStrict := true })
  -- an unknown option, or one that lacks its argument
  | _ => pure (some exUsage, { s with stderr := s.stderr ++ printUsage start s.g })

/-- The options, up to the one that makes `main_inner` return. -/
def mainInnerLoop (start : Startup) (block : Dynarray NamePtr) :
    List Opt → MainState → Run (Option Int × MainState)
  | [], s => pure (none, s)
  | found :: opts, s => do
    let out ← mainInnerOpt start block s found
    match out.1 with
    | some ret => pure (some ret, out.2)
    -- `break` of the switch
    | none => mainInnerLoop start block opts out.2

/-- The operands, which name the input files. -/
def mainInnerArgs (start : Startup) (block : Dynarray NamePtr) :
    List (List Char) → MainState → Run (Option Int × MainState)
  | [], s => pure (none, s)
  | arg :: args, s =>
    if arg = [] then
      pure (some exUsage, { s with
        stderr := s.stderr ++ ["Error: expected a non-empty positional argument.\n"] })
    else do
      let out ← mainPushInfile start block s s.g.infiles arg
      let s := { out.2.1 with g.infiles := out.2.2 }
      if out.1 ≠ 0 then pure (some out.1, s) else mainInnerArgs start block args s

/-! ### The program -/

/-- What the program leaves: its exit code, what it wrote before the run, what happened to paths,
and what the run left if there was one. -/
structure ProgramOut (w : UintFast32) where
  ret : Int
  stdout : List String
  stderr : List String
  paths : List PathEvent
  run : Option (MainOut w)

/-- The globals once there is a builder, as far as `main_run` reads them. -/
def CmdGlobals.withBuilder {w : UintFast32} (g : CmdGlobals) (treeBuilder : IpTreeBuildData w)
    (infiles : Option (List (Option (List Char)))) (purgeInfiles : List (Option (List Char))) :
    IpdedupGlobals w where
  treeMode := g.treeMode
  treeBuilder := treeBuilder
  collapsePrefixlenV4 := g.collapsePrefixlenV4
  collapsePrefixlenV6 := g.collapsePrefixlenV6
  outfile := g.outfile
  infiles := infiles
  purgeInfiles := purgeInfiles
  wantInvert := g.wantInvert
  wantKeepGoing := g.wantKeepGoing
  wantStrict := g.wantStrict
  wantLongOutput := g.wantLongOutput
  wantReduxOutput := g.wantReduxOutput
  wantJsonOutput := g.wantJsonOutput

/-- The names on the list of input files, if there is one. -/
def listedInfiles : Option (Dynarray NamePtr) → Option (Option (List (Option (List Char))))
  | none => some none
  | some darr => (dynarrayNames darr).map some

/-- What `main_inner` returns, where the program stands, and what the run left if there was one. -/
structure MainInnerOut (w : UintFast32) where
  ret : Int
  state : MainState
  run : Option (MainOut w)

/-- The name of the program. -/
def progName (argv : List (List Char)) : List Char :=
  argv.head?.elim "ip-dedup".toList getProgName

section Program

variable (P : Platform) (start : Startup) (block : Dynarray NamePtr) (blocks : Blocks P.fast32)
  (sys : System) (bufs : ParseBufs P.fast32)

/-- The part of `main_inner` that makes the builder and starts the run. -/
def mainInnerRun (s : MainState) : Run (MainInnerOut P.fast32) := do
  let s := if s.g.treeMode = .none then { s with g.treeMode := guessTreeMode s.g.progName } else s
  match ← ipTreeBuilderNew s.g.treeMode with
  -- an invalid mode would end here as well
  | none =>
    pure ⟨exOserr, { s with
      stderr := s.stderr ++
        ["Failed to initialize ip tree data structures: " ++ start.enomem ++ "\n"] }, none⟩
  | some treeBuilder =>
    let infiles ← listedInfiles s.g.infiles
    let purgeInfiles ← s.g.purgeInfiles.bind dynarrayNames
    let out ← mainRunDynarray P blocks sys (s.g.withBuilder treeBuilder infiles purgeInfiles) bufs
    pure ⟨out.ret, s, some out⟩

/-- The part of `main_inner` behind the options. -/
def mainInnerOperands (operands : List (List Char)) (s : MainState) :
    Run (MainInnerOut P.fast32) := do
  if operands = [] then mainInnerRun P start blocks sys bufs s
  else
    match ← newDynarray block operands.length with
    | none => pure ⟨exOserr, s, none⟩
    | some infiles =>
      let s := { s with g.infiles := dynarraySetDataReadonly (some infiles) }
      let out ← mainInnerArgs start block operands s
      match out.1 with
      | some ret => pure ⟨ret, out.2, none⟩
      | none => mainInnerRun P start blocks sys bufs out.2

/-- `argv` does not end with a null pointer here. -/
def mainInner (argv : List (List Char)) (s : MainState) : Run (MainInnerOut P.fast32) := do
  let s := { s with g.progName := progName argv }
  match ← newDynarray block 1 with
  | none => pure ⟨exOserr, s, none⟩
  | some purgeInfiles =>
    let s := { s with g.purgeInfiles := dynarraySetDataReadonly (some purgeInfiles) }
    let cmd := getopt progOptions start.permutes argv.tail
    let out ← mainInnerLoop start block cmd.1 s
    match out.1 with
    | some ret => pure ⟨ret, out.2, none⟩
    | none => mainInnerOperands P start block blocks sys bufs cmd.2 out.2

/-- The exit code for what `main_inner` returned. -/
def mainExitCode (ret : Int) : Int :=
  if ret = 0 then 0 else if ret < 0 then exSoftware else ret

def main (argv : List (List Char)) : Run (ProgramOut P.fast32) := do
  let out ← mainInner P start block blocks sys bufs argv
    ⟨ipdedupGlobalsInit start.ipdedupDatadir, [], [], []⟩
  let freed ← ipdedupGlobalsFree out.state.g
  pure ⟨mainExitCode out.ret, out.state.stdout, out.state.stderr, out.state.paths ++ freed,
    out.run⟩

end Program

end IpDedup
