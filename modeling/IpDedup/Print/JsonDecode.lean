import IpDedup.Lib.Json
import IpDedup.Print.Reread
import IpDedup.Print.Tree

/-!
# The JSON document

What `fprint_ip_tree_json` writes for two trees is a JSON object with a list for
each of them, of one object for each network, in the order of the networks.

## Main definitions

* `ip4Json`, `ip6Json`: the objects for networks
* `ipTreeJson`: the whole document

## Main results

* `fprintIpTreeJson_decode`: the text decodes to the document
-/

set_option autoImplicit false

open Json

namespace IpDedup

variable {w : UintFast32}

/-! ### Objects -/

/-- An address in compact format. -/
def ip6CompactText (bits : Ip6AddrData) : List Char := (ip6AddrDataIntoStr bits).getD []

/-- The object for an IPv4 network, whose netmask must be defined. -/
def ip4Json (addr : Ip4Addr w) : Option Json := do
  let fields ← ip4AddrJsonFields addr
  pure (.obj [("network".toList, .str (ip4Line addr)),
    ("address".toList, .str (ip4AddrFmt (ip4AddrFmtArgs addr.addr))),
    ("netmask".toList, .str (ip4AddrFmt (ip4AddrFmtArgs fields.netmask))),
    ("first".toList, .str (ip4AddrFmt (ip4AddrFmtArgs fields.firstAddr))),
    ("last".toList, .str (ip4AddrFmt (ip4AddrFmtArgs fields.lastAddr))),
    ("prefixlen".toList, .num addr.prefixlen)])

/-- The object for an IPv6 network, whose netmask must be defined. -/
def ip6Json (addr : Ip6Addr) : Option Json := do
  let fields ← ip6AddrJsonFields addr
  pure (.obj [("network".toList, .str (ip6Line addr)),
    ("address".toList, .str (ip6CompactText addr.addr)),
    ("netmask".toList, .str (ip6CompactText fields.netmask)),
    ("network_exploded".toList, .str (ip6NetFmt (ip6AddrFmtArgs addr.addr) addr.prefixlen)),
    ("address_exploded".toList, .str (ip6AddrFmt (ip6AddrFmtArgs addr.addr))),
    ("netmask_exploded".toList, .str (ip6AddrFmt (ip6AddrFmtArgs fields.netmask))),
    ("first".toList, .str (ip6CompactText fields.firstAddr)),
    ("last".toList, .str (ip6CompactText fields.lastAddr)),
    ("prefixlen".toList, .num addr.prefixlen)])

section Attributes

variable (name : List Char) {value more : List Char} {members : List (List Char × Json)}

/-- The characters of addresses stand for themselves in a string. -/
theorem isPlain_of_addrChar {c : Char} (known : AddrChar c) : isPlain c = true := by
  have quote : c ≠ '"' := by
    rintro rfl
    revert known
    unfold AddrChar
    decide
  have backslash : c ≠ '\\' := by
    rintro rfl
    revert known
    unfold AddrChar
    decide
  have visible : 0x20 ≤ c.toNat := by
    rcases known with digit | mark
    · unfold Numeral.isDigit Numeral.digit? at digit
      grind
    · have cases : c = '.' ∨ c = ':' ∨ c = '/' := by simpa using mark
      rcases cases with rfl | rfl | rfl <;> decide
  simp [isPlain, quote, backslash, visible]

/-- A string attribute is a member of the object. -/
theorem readsMembers_strAttr (plainName : Plain name)
    (charset : ∀ c ∈ value, AddrChar c) (others : ReadsMembers more members) :
    ReadsMembers (fprintJsonStrAttr name value ++ more) ((name, .str value) :: members) := by
  have own := (Reads.str fun c mem => isPlain_of_addrChar (charset c mem)).blank
    (show Blank [' '] by decide)
  have rest := others.blank (show Blank ['\n'] by decide)
  have member := ReadsMembers.cons name plainName own (show Blank [] by decide) rest
  -- three indents stand before each attribute
  have indented := member.blank (show Blank (List.replicate 6 ' ') by decide)
  convert indented using 1
  simp [fprintJsonStrAttr, fprintJsonAttr, printIpTreeJsonIndent, List.replicate]

/-- The last attribute is the prefixlen. -/
theorem readsMembers_prefixlen (plainName : Plain name) (n : Nat) :
    ReadsMembers (fprintJsonAttr name (fmtDecimal n) ['\n'] ++
      (printIpTreeJsonIndent ++ (printIpTreeJsonIndent ++ ['\x7d']))) [(name, .num n)] := by
  have own := (Reads.num n).blank (show Blank [' '] by decide)
  have member := ReadsMembers.last name plainName own (show Blank "\n    ".toList by decide)
  have indented := member.blank (show Blank (List.replicate 6 ' ') by decide)
  convert indented using 1
  simp [fprintJsonAttr, printIpTreeJsonIndent, fmtDecimal, List.replicate]

end Attributes

section Networks

theorem addrChar_of_mem_ip6CompactText (bits : Ip6AddrData) :
    ∀ c ∈ ip6CompactText bits, AddrChar c := by
  obtain ⟨start, len, text, out, -, read⟩ := exists_compactRead bits
  rw [ip6CompactText, read.printed]
  exact read.shape.addrChar

/-- Every address is written in compact format. -/
theorem fprintJsonCompactAttr_eq (name : List Char) (bits : Ip6AddrData) :
    fprintJsonCompactAttr name bits = fprintJsonStrAttr name (ip6CompactText bits) := by
  obtain ⟨start, len, text, out, -, read⟩ := exists_compactRead bits
  rw [fprintJsonCompactAttr, ip6CompactText, read.printed]
  rfl

theorem addrChar_ip6AddrFmt (bits : Ip6AddrData) :
    ∀ c ∈ ip6AddrFmt (ip6AddrFmtArgs bits), AddrChar c := (hexText_fmtArgs bits).addrChar

theorem addrChar_ip6NetFmt (addr : Ip6Addr) :
    ∀ c ∈ ip6NetFmt (ip6AddrFmtArgs addr.addr) addr.prefixlen, AddrChar c :=
  addrChar_of_mem_net (addrChar_ip6AddrFmt addr.addr)

theorem addrChar_ip4AddrFmt (addr : Ip4AddrData w) :
    ∀ c ∈ ip4AddrFmt (ip4AddrFmtArgs addr), AddrChar c := fun _ => addrChar_of_mem_ip4AddrFmt

/-- What is written for an IPv4 network is read as its object. -/
theorem reads_fprintIp4AddrJson {addr : Ip4Addr w} {json : List Char}
    (printed : fprintIp4AddrJson addr = some json) :
    ∃ v, ip4Json addr = some v ∧ Reads json v := by
  rw [fprintIp4AddrJson] at printed
  obtain ⟨fields, calculated, text⟩ := Option.bind_eq_some_iff.mp printed
  refine ⟨_, by rw [ip4Json, calculated]; rfl, ?_⟩
  obtain rfl := Option.some.inj text
  -- the attributes in their order, the last one without a comma
  have members := readsMembers_strAttr "network".toList (by decide) (plainLine_ip4 addr).charset
    (readsMembers_strAttr "address".toList (by decide) (addrChar_ip4AddrFmt addr.addr)
    (readsMembers_strAttr "netmask".toList (by decide) (addrChar_ip4AddrFmt fields.netmask)
    (readsMembers_strAttr "first".toList (by decide) (addrChar_ip4AddrFmt fields.firstAddr)
    (readsMembers_strAttr "last".toList (by decide) (addrChar_ip4AddrFmt fields.lastAddr)
    (readsMembers_prefixlen "prefixlen".toList (by decide) addr.prefixlen)))))
  have object := (Reads.obj (members.blank (show Blank ['\n'] by decide))).blank
    (show Blank (List.replicate 4 ' ') by decide)
  convert object using 1
  simp only [List.append_assoc]
  rfl

/-- What is written for an IPv6 network is read as its object. -/
theorem reads_fprintIp6AddrJson {addr : Ip6Addr} {json : List Char}
    (printed : fprintIp6AddrJson addr (ip6CompactText addr.addr) = some json) :
    ∃ v, ip6Json addr = some v ∧ Reads json v := by
  rw [fprintIp6AddrJson] at printed
  obtain ⟨fields, calculated, text⟩ := Option.bind_eq_some_iff.mp printed
  refine ⟨_, by rw [ip6Json, calculated]; rfl, ?_⟩
  obtain rfl := Option.some.inj text
  have members := readsMembers_strAttr "network".toList (by decide) (plainLine_ip6 addr).charset
    (readsMembers_strAttr "address".toList (by decide)
      (addrChar_of_mem_ip6CompactText addr.addr)
    (readsMembers_strAttr "netmask".toList (by decide)
      (addrChar_of_mem_ip6CompactText fields.netmask)
    (readsMembers_strAttr "network_exploded".toList (by decide) (addrChar_ip6NetFmt addr)
    (readsMembers_strAttr "address_exploded".toList (by decide) (addrChar_ip6AddrFmt addr.addr)
    (readsMembers_strAttr "netmask_exploded".toList (by decide)
      (addrChar_ip6AddrFmt fields.netmask)
    (readsMembers_strAttr "first".toList (by decide)
      (addrChar_of_mem_ip6CompactText fields.firstAddr)
    (readsMembers_strAttr "last".toList (by decide)
      (addrChar_of_mem_ip6CompactText fields.lastAddr)
    (readsMembers_prefixlen "prefixlen".toList (by decide) addr.prefixlen))))))))
  have object := (Reads.obj (members.blank (show Blank ['\n'] by decide))).blank
    (show Blank (List.replicate 4 ' ') by decide)
  convert object using 1
  simp only [List.append_assoc, fprintJsonCompactAttr_eq]
  rfl

end Networks

/-! ### Lists -/

section Lists

/-- Objects with commas between them, and the end of the last line. -/
def printedList : List (List Char) → List Char
  | [] => []
  | json :: jsons => json ++ jsons.flatMap (fun json => ',' :: ['\n'] ++ json) ++ ['\n']

theorem fprintIp4TreeJsonLoop_succ (k : Nat) (darr : List (Ip4Addr w)) :
    fprintIp4TreeJsonLoop (k + 1) darr =
      (darr.mapM fprintIp4AddrJson).map
        fun jsons => jsons.flatMap fun json => ',' :: ['\n'] ++ json := by
  induction darr generalizing k with
  | nil => rfl
  | cons addr darr ih =>
    rw [fprintIp4TreeJsonLoop, List.mapM_cons, ih]
    cases fprintIp4AddrJson addr with
    | none => rfl
    | some json => cases darr.mapM fprintIp4AddrJson <;> rfl

theorem fprintIp4TreeJson_eq (tree : IpTree (Ip4Addr w)) :
    fprintIp4TreeJson tree = ((ipTreeCollectAddr tree).mapM fprintIp4AddrJson).map printedList := by
  rw [fprintIp4TreeJson]
  cases ipTreeCollectAddr tree with
  | nil => rfl
  | cons addr darr =>
    rw [fprintIp4TreeJsonLoop, List.mapM_cons, fprintIp4TreeJsonLoop_succ]
    cases fprintIp4AddrJson addr with
    | none => rfl
    | some json => cases darr.mapM fprintIp4AddrJson <;> rfl

/-- What is written for an IPv6 network of a list. -/
def printedIp6Json (addr : Ip6Addr) : Option (List Char) :=
  fprintIp6AddrJson addr (ip6CompactText addr.addr)

theorem fprintIp6TreeJsonLoop_cons (k : Nat) (addr : Ip6Addr) (darr : List Ip6Addr) :
    fprintIp6TreeJsonLoop k (addr :: darr) =
      (printedIp6Json addr).bind fun json =>
        (fprintIp6TreeJsonLoop (k + 1) darr).bind fun out =>
          some (out.1, fprintJsonSep k ++ json ++ out.2) := by
  obtain ⟨start, len, text, out, -, read⟩ := exists_compactRead addr.addr
  rw [fprintIp6TreeJsonLoop, printedIp6Json, ip6CompactText, read.printed]
  rfl

theorem fprintIp6TreeJsonLoop_succ (k : Nat) (darr : List Ip6Addr) :
    fprintIp6TreeJsonLoop (k + 1) darr =
      (darr.mapM printedIp6Json).map
        fun jsons => (0, jsons.flatMap fun json => ',' :: ['\n'] ++ json) := by
  induction darr generalizing k with
  | nil => rfl
  | cons addr darr ih =>
    rw [fprintIp6TreeJsonLoop_cons, List.mapM_cons, ih]
    cases printedIp6Json addr with
    | none => rfl
    | some json => cases darr.mapM printedIp6Json <;> rfl

theorem fprintIp6TreeJson_eq (tree : IpTree Ip6Addr) :
    (fprintIp6TreeJson tree).map Prod.snd =
      ((ipTreeCollectAddr tree).mapM printedIp6Json).map printedList := by
  rw [fprintIp6TreeJson]
  cases ipTreeCollectAddr tree with
  | nil => rfl
  | cons addr darr =>
    rw [fprintIp6TreeJsonLoop_cons, List.mapM_cons, fprintIp6TreeJsonLoop_succ]
    cases printedIp6Json addr with
    | none => rfl
    | some json => cases darr.mapM printedIp6Json <;> rfl

/-- What is written for some networks is read as their objects. -/
theorem reads_mapM {α : Type} {print : α → Option (List Char)} {object : α → Option Json}
    (reads : ∀ addr json, print addr = some json → ∃ v, object addr = some v ∧ Reads json v)
    {darr : List α} {jsons : List (List Char)} (printed : darr.mapM print = some jsons) :
    ∃ vs, darr.mapM object = some vs ∧ List.Forall₂ Reads jsons vs := by
  induction darr generalizing jsons with
  | nil =>
    obtain rfl : [] = jsons := by simpa using printed
    exact ⟨[], rfl, .nil⟩
  | cons addr darr ih =>
    rw [List.mapM_cons] at printed
    obtain ⟨json, first, printed⟩ := Option.bind_eq_some_iff.mp printed
    obtain ⟨others, rest, printed⟩ := Option.bind_eq_some_iff.mp printed
    obtain rfl := Option.some.inj printed
    obtain ⟨v, own, read⟩ := reads addr json first
    obtain ⟨vs, objects, readOthers⟩ := ih rest
    exact ⟨v :: vs, by rw [List.mapM_cons, own, objects]; rfl, .cons read readOthers⟩

/-- A list is an array of its objects. -/
theorem reads_printedList {jsons : List (List Char)} {vs : List Json}
    (reads : List.Forall₂ Reads jsons vs) :
    Reads ('[' :: '\n' :: (printedList jsons ++ printIpTreeJsonIndent ++ [']'])) (.arr vs) := by
  cases reads with
  | nil => exact Reads.arr_nil (show Blank ('\n' :: printIpTreeJsonIndent) by decide)
  | cons first others =>
    have items := ReadsItems.separated first others (show Blank ['\n'] by decide)
      (show Blank ('\n' :: printIpTreeJsonIndent) by decide)
    have array := Reads.arr (items.blank (show Blank ['\n'] by decide))
    convert array using 1
    simp [printedList]

end Lists

/-! ### The document -/

/-- The document for two lists of networks, whose netmasks must be defined. -/
def ipTreeJson (netsV4 : List (Ip4Addr w)) (netsV6 : List Ip6Addr) : Option Json := do
  let objectsV4 ← netsV4.mapM ip4Json
  let objectsV6 ← netsV6.mapM ip6Json
  pure (.obj [("inet".toList, .arr objectsV4), ("inet6".toList, .arr objectsV6)])

/-- The document is an object of two arrays. -/
theorem decode_printedJson {textV4 textV6 : List Char} {vs4 vs6 : List Json}
    (reads4 : Reads ('[' :: '\n' :: (textV4 ++ printIpTreeJsonIndent ++ [']'])) (.arr vs4))
    (reads6 : Reads ('[' :: '\n' :: (textV6 ++ printIpTreeJsonIndent ++ [']'])) (.arr vs6)) :
    decode (printedJson textV4 textV6) =
      some (.obj [("inet".toList, .arr vs4), ("inet6".toList, .arr vs6)]) := by
  -- from the inner texts outwards, with the blanks around each of them
  have last := ReadsMembers.last "inet6".toList (by decide)
    (reads6.blank (show Blank [' '] by decide)) (show Blank ['\n'] by decide)
  have first := ReadsMembers.cons "inet".toList (by decide)
    (reads4.blank (show Blank [' '] by decide)) (show Blank [] by decide)
    (last.blank (show Blank ('\n' :: printIpTreeJsonIndent) by decide))
  have object := Reads.obj (first.blank (show Blank ('\n' :: printIpTreeJsonIndent) by decide))
  have whole := object.decode (show Blank ['\n'] by decide)
  convert whole using 2
  simp [printedJson]

/-- The texts of the lists are there if the netmasks are defined, and are read as the objects. -/
theorem reads_elim_mapM {α : Type} {tree? : Option (IpTree α)}
    {list : IpTree α → Option (List Char)} {print : α → Option (List Char)}
    {object : α → Option Json} {text : List Char}
    (list_eq : ∀ tree, list tree = ((ipTreeCollectAddr tree).mapM print).map printedList)
    (reads : ∀ addr json, print addr = some json → ∃ v, object addr = some v ∧ Reads json v)
    (printed : tree?.elim (some []) list = some text) :
    ∃ vs, (tree?.elim [] ipTreeCollectAddr).mapM object = some vs ∧
      Reads ('[' :: '\n' :: (text ++ printIpTreeJsonIndent ++ [']'])) (.arr vs) := by
  cases tree? with
  | none =>
    obtain rfl := Option.some.inj printed
    exact ⟨[], rfl, reads_printedList .nil⟩
  | some tree =>
    obtain ⟨jsons, texts, rfl⟩ := Option.map_eq_some_iff.mp ((list_eq tree).symm.trans printed)
    obtain ⟨vs, objects, read⟩ := reads_mapM reads texts
    exact ⟨vs, objects, reads_printedList read⟩

/-- What is written for two trees decodes to the document of their networks. -/
theorem fprintIpTreeJson_decode {treeV4 : Option (IpTree (Ip4Addr w))}
    {treeV6 : Option (IpTree Ip6Addr)} {text : List Char}
    (printed : fprintIpTreeJson treeV4 treeV6 = some text) :
    ∃ doc, ipTreeJson (treeV4.elim [] ipTreeCollectAddr) (treeV6.elim [] ipTreeCollectAddr) =
      some doc ∧ decode text = some doc := by
  rw [fprintIpTreeJson_eq] at printed
  obtain ⟨textV4, printedV4, printed⟩ := Option.bind_eq_some_iff.mp printed
  obtain ⟨textV6, printedV6, printed⟩ := Option.bind_eq_some_iff.mp printed
  obtain rfl := Option.some.inj printed
  obtain ⟨vs4, objectsV4, reads4⟩ :=
    reads_elim_mapM fprintIp4TreeJson_eq (fun _ _ => reads_fprintIp4AddrJson) printedV4
  obtain ⟨vs6, objectsV6, reads6⟩ :=
    reads_elim_mapM fprintIp6TreeJson_eq (fun _ _ => reads_fprintIp6AddrJson) printedV6
  refine ⟨_, ?_, decode_printedJson reads4 reads6⟩
  rw [ipTreeJson, objectsV4, objectsV6]
  rfl

/-- Two trees are written unless the netmask of some network is undefined. -/
theorem fprintIpTreeJson_eq_none {treeV4 : Option (IpTree (Ip4Addr w))}
    {treeV6 : Option (IpTree Ip6Addr)}
    (short : ∀ net ∈ treeV4.elim [] ipTreeCollectAddr, net.prefixlen ≤ ip4MaxPrefixlen) :
    fprintIpTreeJson treeV4 treeV6 = none ↔
      (∃ net ∈ treeV4.elim [] ipTreeCollectAddr, net.prefixlen = 0) ∨
        ∃ net ∈ treeV6.elim [] ipTreeCollectAddr, net.prefixlen = 0 ∨ net.prefixlen = 64 := by
  have listV4 : treeV4.elim (some []) fprintIp4TreeJson = none ↔
      ∃ net ∈ treeV4.elim [] ipTreeCollectAddr, net.prefixlen = 0 := by
    cases treeV4 with
    | none => simp
    | some tree =>
      rw [Option.elim_some, ← Option.not_isSome_iff_eq_none, fprintIp4TreeJson_isSome]
      simp only [Option.elim_some] at short ⊢
      simp only [List.all_eq_true, decide_eq_true_eq, not_forall]
      constructor
      · rintro ⟨net, mem, undefined⟩
        -- a longer prefix would make the shift width negative, but there is none
        have := short net mem
        exact ⟨net, mem, by omega⟩
      · rintro ⟨net, mem, zero⟩
        exact ⟨net, mem, by omega⟩
  have listV6 : (treeV6.elim (some []) fun tree => (fprintIp6TreeJson tree).map Prod.snd) = none ↔
      ∃ net ∈ treeV6.elim [] ipTreeCollectAddr, net.prefixlen = 0 ∨ net.prefixlen = 64 := by
    cases treeV6 with
    | none => simp
    | some tree =>
      rw [Option.elim_some, Option.map_eq_none_iff, ← Option.not_isSome_iff_eq_none,
        fprintIp6TreeJson_isSome]
      simp [or_iff_not_imp_left]
  rw [fprintIpTreeJson_eq, ← listV4, ← listV6]
  cases treeV4.elim (some []) fprintIp4TreeJson with
  | none => simp
  | some textV4 =>
    rw [Option.bind_some, Option.bind_eq_none_iff]
    cases treeV6.elim (some []) fun tree => (fprintIp6TreeJson tree).map Prod.snd <;> simp

end IpDedup
