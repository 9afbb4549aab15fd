import IpDedup.App.TreeStage
import IpDedup.Parse.Parsefile

/-!
# The tree builder

`ip_tree_io/builder.c`: networks are read from a stream, or from one file after
the other, and inserted into the trees of the builder.

## Main definitions

* `IpTreeBuildData`: the builder
* `ipTreeBuilderParseStreamDoInsert`, `ipTreeBuilderParseFilesDoInsert`
* `IpTreeBuildData.Usable`, `Inserted`: builders before and after networks are inserted

## Main results

* `ipTreeBuilderNew_all`: a new builder is usable
* `ipTreeBuilderProcessParsedInsert_usable`: the networks of a record are inserted
-/

set_option autoImplicit false

namespace IpDedup

variable {w : UintFast32}

/-! ### The builder -/

/-- `struct ip_tree_build_data`; `none` is `NULL`. -/
structure IpTreeBuildData (w : UintFast32) where
  v4 : Option (IpTree (Ip4Addr w))
  v6 : Option (IpTree Ip6Addr)
  treeMode : ParseIpType
  didReadStdin : Bool

def ipTreeBuildDataNewEmpty : Run (Option (IpTreeBuildData w)) := do
  if ← malloc then pure (some ⟨none, none, .none, false⟩) else pure none

def ipTreeBuildDataInitV4 (obj : IpTreeBuildData w) : Run (Int × IpTreeBuildData w) := do
  let v4 ← ipTreeNew (ip4TreeNodeOps w)
  pure (if v4.isSome then 0 else -1, { obj with v4 := v4 })

def ipTreeBuildDataInitV6 (obj : IpTreeBuildData w) : Run (Int × IpTreeBuildData w) := do
  let v6 ← ipTreeNew ip6TreeNodeOps
  pure (if v6.isSome then 0 else -1, { obj with v6 := v6 })

def ipTreeBuilderNew (treeMode : ParseIpType) : Run (Option (IpTreeBuildData w)) := do
  if !parseIpCheckTypeValid treeMode then pure none
  else
    let empty ← ipTreeBuildDataNewEmpty
    match empty with
    | none => pure none
    | some obj =>
      let obj := { obj with treeMode := treeMode }
      let init ← (if treeMode.ipv4 then ipTreeBuildDataInitV4 obj else pure (0, obj))
      if init.1 ≠ 0 then pure none
      else
        let init ← (if treeMode.ipv6 then ipTreeBuildDataInitV6 init.2 else pure (0, init.2))
        if init.1 ≠ 0 then pure none else pure (some init.2)

/-- `ip4_tree_insert`, `ip6_tree_insert`; the tree must not be `NULL`. -/
def ipTreeInsertInto {α : Type} (tree : Option (IpTree α)) (addr : α) :
    Run (Int × Option (IpTree α)) := do
  let tree ← tree
  let out ← ipTreeInsert tree addr
  pure (out.1, some out.2)

def ipTreeBuilderProcessParsedInsert (obj : IpTreeBuildData w) (vaddr : ParseIpAddrData w) :
    Run (Int × IpTreeBuildData w) := do
  let out ← (if vaddr.addrType.ipv4 then ipTreeInsertInto obj.v4 vaddr.addrV4
    else pure (0, obj.v4))
  let obj := { obj with v4 := out.2 }
  if out.1 ≠ 0 then pure (-1, obj)
  else
    let out ← (if vaddr.addrType.ipv6 then ipTreeInsertInto obj.v6 vaddr.addrV6
      else pure (0, obj.v6))
    let obj := { obj with v6 := out.2 }
    if out.1 ≠ 0 then pure (-1, obj) else pure (0, obj)

/-! ### Streams -/

/-- `ip_tree_build_process_parsed_func` -/
abbrev IpTreeBuildProcessParsedFunc (w : UintFast32) :=
  IpTreeBuildData w → ParseIpAddrData w → Run (Int × IpTreeBuildData w)

/-- What a call leaves: the return code, the builder, the stream and the static buffers. -/
structure BuilderOut (w : UintFast32) where
  ret : Int
  obj : IpTreeBuildData w
  stream : Option InputStream
  bufs : ParseBufs w

/-- The rounds of `ip_tree_builder_parse_stream_do`, one for each parsed network. -/
def ipTreeBuilderParseStreamDoLoop (fProcessParsed : IpTreeBuildProcessParsedFunc w)
    (obj : IpTreeBuildData w) (pfileState : ParseIpFileState w) (bufs : ParseBufs w) :
    Run (BuilderOut w) :=
  let next := parseIpFileNext pfileState bufs
  if _found : next.1 = .success then do
    let out ← fProcessParsed obj next.2.1.addr
    if out.1 ≠ ParseIpRet.success.code then pure ⟨out.1, out.2, some next.2.1.file, next.2.2⟩
    else ipTreeBuilderParseStreamDoLoop fProcessParsed out.2 next.2.1 next.2.2
  else if next.1 = .eof then
    -- in keep-going mode, a file with invalid lines only is an error
    pure ⟨(parseIpFileEofEvalKeepGoingStatus next.2.1).code, obj, some next.2.1.file, next.2.2⟩
  else pure ⟨next.1.code, obj, some next.2.1.file, next.2.2⟩
termination_by pfileState.file.lines.length
decreasing_by exact parseIpFileNext_lines _found

/-- `isStdin` says whether the stream is `stdin`. -/
def ipTreeBuilderParseStreamDo (P : Platform)
    (fProcessParsed : IpTreeBuildProcessParsedFunc P.fast32) (obj : IpTreeBuildData P.fast32)
    (inputStream : Option InputStream) (isStdin keepGoing strictNetaddr : Bool)
    (bufs : ParseBufs P.fast32) : Run (BuilderOut P.fast32) :=
  if isStdin ∧ obj.didReadStdin then
    -- will not read stdin twice
    pure ⟨ParseIpRet.badInfileDup.code, obj, inputStream, bufs⟩
  else
    match parseIpFileInitStream P inputStream obj.treeMode with
    | none => pure ⟨-1, obj, inputStream, bufs⟩
    | some pfileState =>
      let pfileState := { pfileState with cfg := ⟨keepGoing, strictNetaddr⟩ }
      let obj := if isStdin then { obj with didReadStdin := true } else obj
      ipTreeBuilderParseStreamDoLoop fProcessParsed obj pfileState bufs

def ipTreeBuilderParseStreamDoInsert (P : Platform) :=
  ipTreeBuilderParseStreamDo P ipTreeBuilderProcessParsedInsert

/-! ### Files -/

/-- One round of `ip_tree_builder_parse_files_do`, after which `stream` is what is left of
`stdin`. -/
def ipTreeBuilderParseFile (P : Platform)
    (fProcessParsed : IpTreeBuildProcessParsedFunc P.fast32)
    (fopen : List Char → Option InputStream) (keepGoing strictNetaddr : Bool)
    (inputFile : Option (List Char)) (out : BuilderOut P.fast32) : Run (BuilderOut P.fast32) :=
  match inputFile with
  | none => pure { out with ret := ParseIpRet.badInfile.code }
  | some name =>
    if name = [] then pure { out with ret := ParseIpRet.badInfile.code }
    else if name = ['-'] then
      ipTreeBuilderParseStreamDo P fProcessParsed out.obj out.stream true keepGoing strictNetaddr
        out.bufs
    else
      match fopen name with
      | none => pure { out with ret := ParseIpRet.readErr.code }
      | some inputStream => do
        -- what is left of `stdin` is left alone
        let file ← ipTreeBuilderParseStreamDo P fProcessParsed out.obj (some inputStream) false
          keepGoing strictNetaddr out.bufs
        pure { file with stream := out.stream }

/-- The rounds of `ip_tree_builder_parse_files_do`, up to the first failure. -/
def ipTreeBuilderParseFilesDoLoop (P : Platform)
    (fProcessParsed : IpTreeBuildProcessParsedFunc P.fast32)
    (fopen : List Char → Option InputStream) (keepGoing strictNetaddr : Bool) :
    List (Option (List Char)) → BuilderOut P.fast32 → Run (BuilderOut P.fast32)
  | [], out => pure out
  | inputFile :: inputFiles, out =>
    if out.ret ≠ ParseIpRet.success.code then pure out
    else do
      let out ← ipTreeBuilderParseFile P fProcessParsed fopen keepGoing strictNetaddr inputFile out
      ipTreeBuilderParseFilesDoLoop P fProcessParsed fopen keepGoing strictNetaddr inputFiles out

/-- The list of names may be `NULL`, and so may each name. -/
def ipTreeBuilderParseFilesDo (P : Platform)
    (fProcessParsed : IpTreeBuildProcessParsedFunc P.fast32) (obj : IpTreeBuildData P.fast32)
    (fopen : List Char → Option InputStream) (stdin : InputStream)
    (inputFiles : Option (List (Option (List Char)))) (keepGoing strictNetaddr : Bool)
    (bufs : ParseBufs P.fast32) : Run (BuilderOut P.fast32) :=
  match inputFiles with
  | none => pure ⟨ParseIpRet.badInfile.code, obj, some stdin, bufs⟩
  | some inputFiles =>
    ipTreeBuilderParseFilesDoLoop P fProcessParsed fopen keepGoing strictNetaddr inputFiles
      ⟨ParseIpRet.success.code, obj, some stdin, bufs⟩

def ipTreeBuilderParseFilesDoInsert (P : Platform) :=
  ipTreeBuilderParseFilesDo P ipTreeBuilderProcessParsedInsert

/-! ### Inserting -/

section Inserting

variable {α : Type} {tdesc : IpTreeTypedesc α}

/-- There is a tree, and it has a root. All operations lead to such trees. -/
def IpTreeTypedesc.Lawful.Rooted (laws : tdesc.Lawful) (tree? : Option (IpTree α)) : Prop :=
  ∃ n s, s ≠ .nil ∧ tree? = some (laws.tree [] n s)

/-- Networks are inserted into a tree, one after the other; where there is no tree there must be
no network. -/
def InsertedInto (nets : List α) : Option (IpTree α) → Option (IpTree α) → Prop
  | some tree, some tree' =>
    ipTreeInsertAll tree nets Mallocs.all = some ((0, tree'), Mallocs.all)
  | none, none => nets = []
  | _, _ => False

variable {laws : tdesc.Lawful} {tree : IpTree α} {nets nets' : List α}
  {tree? tree?' tree?'' : Option (IpTree α)}

theorem insertedInto_nil (tree? : Option (IpTree α)) : InsertedInto [] tree? tree? := by
  cases tree? with
  | none => rfl
  | some tree => rfl

/-- Inserting goes on where it left off. -/
theorem ipTreeInsertAll_append {mem mem' : Mallocs} {tree' : IpTree α}
    (first : ipTreeInsertAll tree nets mem = some ((0, tree'), mem')) (nets' : List α) :
    ipTreeInsertAll tree (nets ++ nets') mem = ipTreeInsertAll tree' nets' mem' := by
  induction nets generalizing tree mem with
  | nil =>
    obtain ⟨rfl, rfl⟩ : tree = tree' ∧ mem = mem' := by simpa [ipTreeInsertAll] using first
    rfl
  | cons net nets ih =>
    rw [List.cons_append, ipTreeInsertAll, Run.bind_apply]
    rw [ipTreeInsertAll, Run.bind_apply] at first
    cases own : ipTreeInsert tree net mem with
    | none => simp [own] at first
    | some out =>
      -- a failure would have ended the first run as well
      simp only [own, Option.bind_some] at first ⊢
      split_ifs at first ⊢
      · simp at first
      · exact ih first

theorem InsertedInto.append (first : InsertedInto nets tree? tree?')
    (second : InsertedInto nets' tree?' tree?'') :
    InsertedInto (nets ++ nets') tree? tree?'' := by
  match tree?, tree?', tree?'' with
  | some tree, some tree', some tree'' => exact (ipTreeInsertAll_append first nets').trans second
  | none, none, none =>
    obtain rfl : nets = [] := first
    exact second

/-- The part of `ip_tree_builder_process_parsed__insert` for one family inserts the network that
was found, if there is one. -/
theorem ipTreeInsertInto_found {found : Bool} {addr : α}
    (rooted : found = true → laws.Rooted tree?)
    (short : found = true → tdesc.fGetAddrPrefixlen addr ≤ tdesc.maxPrefixlen) :
    ∃ tree?', (if found then ipTreeInsertInto tree? addr else pure (0, tree?)) Mallocs.all =
        some ((0, tree?'), Mallocs.all) ∧
      InsertedInto (if found then [addr] else []) tree? tree?' ∧
      (laws.Rooted tree? → laws.Rooted tree?') := by
  cases found with
  | false => exact ⟨tree?, rfl, insertedInto_nil tree?, id⟩
  | true =>
    obtain ⟨n, s, root, rfl⟩ := rooted rfl
    have ends := ipTreeInsert_label laws [] n (short rfl) (Nat.zero_le _) root
    obtain ⟨s', root', run⟩ : ∃ s', s' ≠ .nil ∧
        ipTreeInsert (laws.tree [] n s) addr Mallocs.all =
          some ((0, laws.tree [] n s'), Mallocs.all) :=
      ⟨_, BitTrie.insert_ne_nil root, ends.run_all trivial⟩
    refine ⟨some (laws.tree [] n s'), ?_, ?_, fun _ => ⟨n, s', root', rfl⟩⟩
    · simp [ipTreeInsertInto, run]
    · simp [InsertedInto, ipTreeInsertAll, run]

end Inserting

/-! ### Processing parsed records -/

/-- The builder has a tree for each family of its mode. -/
structure IpTreeBuildData.Usable (obj : IpTreeBuildData w) : Prop where
  v4 : obj.treeMode.ipv4 = true → (ip4TreeNodeOps_lawful w).Rooted obj.v4
  v6 : obj.treeMode.ipv6 = true → ip6TreeNodeOps_lawful.Rooted obj.v6

section New

variable {mode : ParseIpType}

/-- A builder with an empty tree for each family of its mode. -/
def IpTreeBuildData.empty (mode : ParseIpType) : IpTreeBuildData w where
  v4 := if mode.ipv4 then some ((IpFamily.v4 w).tree 0 (.empty (IpFamily.v4 w).width_pos)) else none
  v6 := if mode.ipv6 then some (IpFamily.v6.tree 0 (.empty IpFamily.v6.width_pos)) else none
  treeMode := mode
  didReadStdin := false

theorem ipTreeBuilderNew_all (valid : parseIpCheckTypeValid mode = true) :
    ipTreeBuilderNew mode Mallocs.all =
      some (some (IpTreeBuildData.empty (w := w) mode), Mallocs.all) := by
  have new : ipTreeBuildDataNewEmpty (w := w) Mallocs.all =
      some (some ⟨none, none, .none, false⟩, Mallocs.all) := rfl
  have v4 (obj : IpTreeBuildData w) : ipTreeBuildDataInitV4 obj Mallocs.all =
      some ((0, { obj with
        v4 := some ((IpFamily.v4 w).tree 0 (.empty (IpFamily.v4 w).width_pos)) }),
        Mallocs.all) := by
    have tree : ipTreeNew (ip4TreeNodeOps w) Mallocs.all = _ := (IpFamily.v4 w).ipTreeNew_all
    rw [ipTreeBuildDataInitV4, Run.bind_apply, tree]
    rfl
  have v6 (obj : IpTreeBuildData w) : ipTreeBuildDataInitV6 obj Mallocs.all =
      some ((0, { obj with v6 := some (IpFamily.v6.tree 0 (.empty IpFamily.v6.width_pos)) }),
        Mallocs.all) := by
    have tree : ipTreeNew ip6TreeNodeOps Mallocs.all = _ := IpFamily.v6.ipTreeNew_all
    rw [ipTreeBuildDataInitV6, Run.bind_apply, tree]
    rfl
  rw [ipTreeBuilderNew, valid]
  simp only [Bool.not_true, Bool.false_eq_true, reduceIte, Run.bind_apply, new, Option.bind_some]
  obtain ⟨ipv4, ipv6⟩ := mode
  cases ipv4 <;> cases ipv6 <;>
    simp only [Bool.false_eq_true, reduceIte, Run.bind_apply, Run.pure_apply, v4, v6,
      Option.bind_some, ne_eq, not_true_eq_false, IpTreeBuildData.empty]

theorem IpTreeBuildData.empty_usable (mode : ParseIpType) :
    (IpTreeBuildData.empty (w := w) mode).Usable where
  v4 ipv4 := ⟨0, _, by simp [Subnets.empty], if_pos ipv4⟩
  v6 ipv6 := ⟨0, _, by simp [Subnets.empty], if_pos ipv6⟩

end New

/-- The second builder is what the first one is after some networks were inserted. -/
structure Inserted (netsV4 : List (Ip4Addr w)) (netsV6 : List Ip6Addr)
    (obj obj' : IpTreeBuildData w) : Prop where
  v4 : InsertedInto netsV4 obj.v4 obj'.v4
  v6 : InsertedInto netsV6 obj.v6 obj'.v6
  treeMode : obj'.treeMode = obj.treeMode

section Processing

variable {obj obj' obj'' : IpTreeBuildData w} {netsV4 netsV4' : List (Ip4Addr w)}
  {netsV6 netsV6' : List Ip6Addr}

theorem inserted_nil (obj : IpTreeBuildData w) : Inserted [] [] obj obj :=
  ⟨insertedInto_nil _, insertedInto_nil _, rfl⟩

theorem Inserted.append (first : Inserted netsV4 netsV6 obj obj')
    (second : Inserted netsV4' netsV6' obj' obj'') :
    Inserted (netsV4 ++ netsV4') (netsV6 ++ netsV6') obj obj'' :=
  ⟨first.v4.append second.v4, first.v6.append second.v6, second.treeMode.trans first.treeMode⟩

/-- The networks of a record are inserted if there are trees for them. -/
theorem ipTreeBuilderProcessParsedInsert_usable (usable : obj.Usable) (vaddr : ParseIpAddrData w)
    (shortV4 : ∀ net ∈ vaddr.netsV4,
      obj.treeMode.ipv4 = true ∧ net.prefixlen ≤ ip4MaxPrefixlen)
    (shortV6 : ∀ net ∈ vaddr.netsV6,
      obj.treeMode.ipv6 = true ∧ net.prefixlen ≤ ip6MaxPrefixlen) :
    ∃ obj', ipTreeBuilderProcessParsedInsert obj vaddr Mallocs.all =
        some ((0, obj'), Mallocs.all) ∧
      Inserted vaddr.netsV4 vaddr.netsV6 obj obj' ∧ obj'.Usable ∧
      obj'.didReadStdin = obj.didReadStdin := by
  have ipv4 (found : vaddr.addrType.ipv4 = true) := shortV4 vaddr.addrV4
    (by simp [ParseIpAddrData.netsV4, found])
  have ipv6 (found : vaddr.addrType.ipv6 = true) := shortV6 vaddr.addrV6
    (by simp [ParseIpAddrData.netsV6, found])
  obtain ⟨tree4, run4, inserted4, rooted4⟩ := ipTreeInsertInto_found
    (fun found => usable.v4 (ipv4 found).1) (fun found => (ipv4 found).2)
  obtain ⟨tree6, run6, inserted6, rooted6⟩ := ipTreeInsertInto_found
    (fun found => usable.v6 (ipv6 found).1) (fun found => (ipv6 found).2)
  refine ⟨{ obj with v4 := tree4, v6 := tree6 }, ?_, ⟨inserted4, inserted6, rfl⟩,
    ⟨fun mode => rooted4 (usable.v4 mode), fun mode => rooted6 (usable.v6 mode)⟩, rfl⟩
  simp only [ipTreeBuilderProcessParsedInsert, Run.bind_apply, run4, run6, Option.bind_some,
    ne_eq, not_true_eq_false, reduceIte, Run.pure_apply]

end Processing

end IpDedup
