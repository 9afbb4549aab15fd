import IpDedup.Ip.Ip4
import IpDedup.Parse.Common

/-!
# Parsing IPv4 addresses

`util/parse_ip/ip4.c`. The parser writes null chars into the line, over the
dots; `parseIp4AddrSplit` also gives the memory that it leaves.

## Main definitions

* `parseIp4AddrSplitReadBlocks`: the loop over the blocks of an address
* `parseIp4AddrSplit`, `parseIp4Addr`, `parseIp4NetAddr`

## Main results

* `parseIp4AddrSplit_success`: blocks and a prefixlen that are read make an address
* `parseIp4AddrSplit_foreign`: a foreign char in the first block makes parsing fail
-/

set_option autoImplicit false

open Numeral

namespace IpDedup

/-- `PARSE_IP4_BLOCK_COUNT` -/
def parseIp4BlockCount : Nat := 4

/-- `PARSE_IP4_BLOCK_BASE` -/
def parseIp4BlockBase : Nat := 8

/-- `struct parse_ip4_data`, with the `num_blocks` blocks that were written. -/
structure ParseIp4Data where
  blocks : List Nat
  prefixlen : Nat
deriving DecidableEq, Repr

/-- The static buffer at program start. -/
def ParseIp4Data.zero : ParseIp4Data := ⟨[], 0⟩

def ParseIp4Data.numBlocks (buf : ParseIp4Data) : Nat := buf.blocks.length

def parseIp4DataInit (obj : ParseIp4Data) : ParseIp4Data :=
  { obj with blocks := [], prefixlen := 0 }

def parseIp4DataAppend (obj : ParseIp4Data) (block : Nat) : ParseIp4Data :=
  { obj with blocks := obj.blocks ++ [block] }

variable {w : UintFast32}

/-- The blocks from index `k` on are shifted into place. -/
def parseIp4AddrSplitMakeAddrLoop (bits : Ip4AddrData w) (k : Nat) : List Nat → Ip4AddrData w
  | [] => bits
  | block :: blocks =>
    let chunk := BitVec.ofNat w.width block <<< ((parseIp4BlockCount - k - 1) * parseIp4BlockBase)
    parseIp4AddrSplitMakeAddrLoop (bits ||| chunk) (k + 1) blocks

def parseIp4AddrSplitMakeAddr (buf : ParseIp4Data) (addr : Ip4Addr w) : Ip4Addr w :=
  ⟨buf.prefixlen, parseIp4AddrSplitMakeAddrLoop addr.addr 0 buf.blocks⟩

/-- Hexadecimal addresses are missing functionality. -/
def parseIp4AddrSplitReadHex (buf : ParseIp4Data) (addrStr : List Char) :
    ParseIpRet × ParseIp4Data × List Char :=
  (.notImplemented, buf, addrStr)

/-- The loop over the blocks; it leaves a null char behind each block that a dot ends. -/
def parseIp4AddrSplitReadBlocks (buf : ParseIp4Data) (addrStrRem : List Char) :
    ParseIpRet × ParseIp4Data × List Char :=
  if addrStrRem = [] then
    (if buf.numBlocks = 0 then .invalid else .success, buf, [])
  else if buf.numBlocks ≥ parseIp4BlockCount then
    (.invalid, buf, addrStrRem)
  else
    match _found : strchr '.' addrStrRem with
    | none =>
      match parseIpReadOctet addrStrRem 10 with
      | none => (.invalid, buf, addrStrRem)
      | some block =>
        let buf := parseIp4DataAppend buf block
        (if buf.numBlocks = 0 then .invalid else .success, buf, addrStrRem)
    | some (blockStr, rest) =>
      -- a dot at the end is allowed if at least one more block is missing
      if rest = [] ∧ parseIp4BlockCount - buf.numBlocks < 2 then
        (.invalid, buf, blockStr ++ nul :: rest)
      -- two dots in a row, and a dot in front of the first block
      else if rest.head? = some '.' then
        (.invalid, buf, blockStr ++ nul :: rest)
      else if blockStr = [] then
        (.invalid, buf, blockStr ++ nul :: rest)
      else
        match parseIpReadOctet blockStr 10 with
        | none => (.invalid, buf, blockStr ++ nul :: rest)
        | some block =>
          let (ret, buf, rest) := parseIp4AddrSplitReadBlocks (parseIp4DataAppend buf block) rest
          (ret, buf, blockStr ++ nul :: rest)
termination_by addrStrRem.length
decreasing_by exact length_lt_of_strchr ‹_›

def parseIp4AddrSplitReadPrefixlen (buf : ParseIp4Data) (prefixlenStr : Option (List Char)) :
    ParseIpRet × ParseIp4Data :=
  match prefixlenStr with
  | none => (.success, { buf with prefixlen := uintFast8 (buf.numBlocks * parseIp4BlockBase) })
  | some prefixlenStr =>
    match parseIpReadOctet prefixlenStr 10 with
    | none => (.invalid, buf)
    | some octet =>
      let buf := { buf with prefixlen := octet }
      if octet > ip4MaxPrefixlen then (.invalid, buf) else (.success, buf)

/-- What a call leaves: the return code, the address record and the static buffer. -/
structure ParsedIp4 (w : UintFast32) where
  ret : ParseIpRet
  addr : Ip4Addr w
  buf : ParseIp4Data

/-- `parse_ip4_addr_split`, and the memory at `addr_str` afterwards. -/
def parseIp4AddrSplit (buf : ParseIp4Data) (addrStr : List Char)
    (prefixlenStr : Option (List Char)) : ParsedIp4 w × List Char :=
  let buf := parseIp4DataInit buf
  let addr := ip4AddrInitNull
  let (ret, buf, mem) :=
    if addrStr = [] then (.invalid, buf, addrStr)
    else if addrStr[0]? = some '0' ∧ addrStr[1]? = some 'x' then
      parseIp4AddrSplitReadHex buf addrStr
    else parseIp4AddrSplitReadBlocks buf addrStr
  if ret = .success then
    let (ret, buf) := parseIp4AddrSplitReadPrefixlen buf prefixlenStr
    if ret = .success then (⟨ret, parseIp4AddrSplitMakeAddr buf addr, buf⟩, mem)
    else (⟨ret, addr, buf⟩, mem)
  else (⟨ret, addr, buf⟩, mem)

def parseIp4Addr (buf : ParseIp4Data) (line : List Char) (addr : Ip4Addr w) : ParsedIp4 w :=
  match parseIpSplitPrefixlen line with
  | none => ⟨.invalid, addr, buf⟩
  | some (addrStr, prefixlenStr) => (parseIp4AddrSplit buf addrStr prefixlenStr).1

def parseIp4NetAddr (P : Platform) (buf : ParseIp4Data) (line : List Char)
    (addr : Ip4Addr P.fast32) : ParsedIp4 P.fast32 :=
  let out := parseIp4Addr buf line addr
  if out.ret ≠ .success then out
  else if ip4AddrIsNet P out.addr then out
  else { out with ret := .invalidNet }

/-! ### The loop over the blocks -/

section ReadBlocks

variable {buf : ParseIp4Data} {s a rest : List Char} {block : Nat}

/-- The last block of an address. -/
theorem parseIp4AddrSplitReadBlocks_last (nonempty : s ≠ []) (fresh : '.' ∉ s)
    (room : buf.blocks.length < 4) :
    parseIp4AddrSplitReadBlocks buf s =
      match parseIpReadOctet s 10 with
      | none => (.invalid, buf, s)
      | some block => (.success, parseIp4DataAppend buf block, s) := by
  have free : ¬ buf.numBlocks ≥ parseIp4BlockCount := Nat.not_le.mpr room
  rw [parseIp4AddrSplitReadBlocks, if_neg nonempty, if_neg free]
  split
  · split <;> simp [parseIp4DataAppend, ParseIp4Data.numBlocks, *]
  · next found => simp [strchr_of_not_mem fresh] at found

/-- A block that a dot ends, with another block behind it. -/
theorem parseIp4AddrSplitReadBlocks_dot (nonempty : a ≠ []) (fresh : '.' ∉ a)
    (room : buf.blocks.length < 4) (more : rest ≠ []) (single : rest.head? ≠ some '.')
    (read : parseIpReadOctet a 10 = some block) :
    parseIp4AddrSplitReadBlocks buf (a ++ '.' :: rest) =
      let out := parseIp4AddrSplitReadBlocks (parseIp4DataAppend buf block) rest
      (out.1, out.2.1, a ++ nul :: out.2.2) := by
  have free : ¬ buf.numBlocks ≥ parseIp4BlockCount := Nat.not_le.mpr room
  rw [parseIp4AddrSplitReadBlocks, if_neg (by simp), if_neg free]
  split
  · next found => simp [strchr_append fresh] at found
  · next found =>
    rw [strchr_append fresh] at found
    cases found
    simp [more, single, nonempty, read]

/-- The memory at the start of the address ends at the first dot. -/
theorem cstr_parseIp4AddrSplitReadBlocks (nonempty : s ≠ []) (clean : nul ∉ s)
    (room : buf.blocks.length < 4) :
    cstr (parseIp4AddrSplitReadBlocks buf s).2.2 = s.takeWhile (· ≠ '.') := by
  have free : ¬ buf.numBlocks ≥ parseIp4BlockCount := Nat.not_le.mpr room
  rw [parseIp4AddrSplitReadBlocks, if_neg nonempty, if_neg free]
  rcases strchr_cases '.' s with ⟨missing, fresh⟩ | ⟨a, rest, here, rfl, fresh⟩
  · rw [takeWhile_ne_of_not_mem fresh]
    split
    · split <;> exact cstr_of_not_mem clean
    · next found => simp [missing] at found
  · -- the dot is overwritten, whatever becomes of the block in front of it
    have front : nul ∉ a := fun mem => clean (by simp [mem])
    rw [takeWhile_ne_append fresh]
    split
    · next found => simp [here] at found
    · next found =>
      rw [here] at found
      cases found
      split_ifs
      · exact cstr_append_nul front _
      · exact cstr_append_nul front _
      · exact cstr_append_nul front _
      · split <;> exact cstr_append_nul front _

/-- A char in the first block that belongs to no decimal number. -/
theorem parseIp4AddrSplitReadBlocks_foreign {c : Char} (fresh : '.' ∉ a) (other : c ≠ '.')
    (foreign : ForeignChar 10 c) :
    (parseIp4AddrSplitReadBlocks buf (a ++ c :: rest)).1 = .invalid := by
  rw [parseIp4AddrSplitReadBlocks, if_neg (by simp)]
  split_ifs with full
  · rfl
  · split
    · have mem : c ∈ a ++ c :: rest := by simp
      rw [parseIpReadOctet_foreign (by decide) mem foreign]
    · next blockStr tail found =>
      have mem : c ∈ blockStr := mem_of_strchr fresh other found
      split_ifs <;> simp [parseIpReadOctet_foreign (by decide) mem foreign]

theorem parseIp4AddrSplitReadBlocks_ret (buf : ParseIp4Data) (s : List Char) :
    (parseIp4AddrSplitReadBlocks buf s).1 = .success ∨
      (parseIp4AddrSplitReadBlocks buf s).1 = .invalid := by
  fun_induction parseIp4AddrSplitReadBlocks buf s <;> grind

/-- A block that is read, on its own or in front of a dot. -/
structure Ip4Block (s : List Char) (value : Nat) : Prop where
  nonempty : s ≠ []
  fresh : '.' ∉ s
  read : parseIpReadOctet s 10 = some value

/-- The loop reads up to four blocks with dots between them. -/
theorem parseIp4AddrSplitReadBlocks_blocks (buf : ParseIp4Data) {groups : List (List Char)}
    {values : List Nat} (valid : List.Forall₂ Ip4Block groups values) (nonempty : groups ≠ [])
    (room : buf.blocks.length + groups.length ≤ 4) :
    ∃ mem, parseIp4AddrSplitReadBlocks buf (['.'].intercalate groups) =
      (.success, { buf with blocks := buf.blocks ++ values }, mem) := by
  induction valid generalizing buf with
  | nil => exact absurd rfl nonempty
  | @cons g value gs values first rest ih =>
    have free : buf.blocks.length < 4 := by
      rw [List.length_cons] at room
      omega
    cases rest with
    | nil =>
      refine ⟨g, ?_⟩
      rw [List.intercalate_singleton,
        parseIp4AddrSplitReadBlocks_last first.nonempty first.fresh free, first.read]
      rfl
    | @cons g' value' gs values second rest =>
      -- the dot behind the first block is overwritten, and the rest is read into what it leaves
      have room' : (parseIp4DataAppend buf value).blocks.length + (g' :: gs).length ≤ 4 := by
        simp only [parseIp4DataAppend, List.length_append, List.length_cons, List.length_nil] at *
        omega
      obtain ⟨mem, run⟩ := ih _ (by simp) room'
      refine ⟨g ++ nul :: mem, ?_⟩
      have single : (['.'].intercalate (g' :: gs)).head? ≠ some '.' := by
        rw [head?_intercalate second.nonempty]
        exact fun dot => second.fresh (List.mem_of_head? dot)
      have dot := parseIp4AddrSplitReadBlocks_dot first.nonempty first.fresh free
        (intercalate_ne_nil second.nonempty gs) single first.read
      rw [List.intercalate_cons_cons, List.append_assoc, List.singleton_append, dot, run]
      simp [parseIp4DataAppend]

end ReadBlocks

/-! ### Whole addresses -/

section Split

variable {buf : ParseIp4Data} {addrStr : List Char} {prefixlenStr : Option (List Char)}

/-- Nothing of the static buffer is left when an address is parsed. -/
theorem parseIp4AddrSplit_buf (buf buf' : ParseIp4Data) (addrStr : List Char)
    (prefixlenStr : Option (List Char)) :
    parseIp4AddrSplit (w := w) buf addrStr prefixlenStr =
      parseIp4AddrSplit buf' addrStr prefixlenStr := rfl

theorem parseIp4AddrSplitReadPrefixlen_ret (buf : ParseIp4Data)
    (prefixlenStr : Option (List Char)) :
    (parseIp4AddrSplitReadPrefixlen buf prefixlenStr).1 = .success ∨
      (parseIp4AddrSplitReadPrefixlen buf prefixlenStr).1 = .invalid := by
  cases prefixlenStr with
  | none => exact Or.inl rfl
  | some prefixlenStr =>
    rw [parseIp4AddrSplitReadPrefixlen]
    split
    · exact Or.inr rfl
    · dsimp only
      split_ifs
      · exact Or.inr rfl
      · exact Or.inl rfl

theorem parseIp4AddrSplit_nil (buf : ParseIp4Data) (prefixlenStr : Option (List Char)) :
    (parseIp4AddrSplit (w := w) buf [] prefixlenStr).1.ret = .invalid := rfl

/-- The outcome of a plain address depends on its blocks and on the prefixlen. -/
theorem parseIp4AddrSplit_plain (nonempty : addrStr ≠ []) (plain : PlainAddr addrStr) :
    (parseIp4AddrSplit (w := w) buf addrStr prefixlenStr).2 =
        (parseIp4AddrSplitReadBlocks ⟨[], 0⟩ addrStr).2.2 ∧
      (parseIp4AddrSplit (w := w) buf addrStr prefixlenStr).1.ret =
        if (parseIp4AddrSplitReadBlocks ⟨[], 0⟩ addrStr).1 = .success then
          (parseIp4AddrSplitReadPrefixlen (parseIp4AddrSplitReadBlocks ⟨[], 0⟩ addrStr).2.1
            prefixlenStr).1
        else (parseIp4AddrSplitReadBlocks ⟨[], 0⟩ addrStr).1 := by
  unfold PlainAddr at plain
  simp only [parseIp4AddrSplit, parseIp4DataInit, if_neg nonempty, if_neg plain]
  split_ifs <;> simp_all

/-- Hexadecimal addresses are not implemented. -/
theorem parseIp4AddrSplit_hex (hex : ¬ PlainAddr addrStr) :
    (parseIp4AddrSplit (w := w) buf addrStr prefixlenStr).1.ret = .notImplemented ∧
      (parseIp4AddrSplit (w := w) buf addrStr prefixlenStr).2 = addrStr := by
  have mark := not_not.mp hex
  have nonempty : addrStr ≠ [] := by
    rintro rfl
    simp at mark
  simp [parseIp4AddrSplit, nonempty, mark, parseIp4AddrSplitReadHex]

theorem parseIp4AddrSplit_ret (buf : ParseIp4Data) (prefixlenStr : Option (List Char))
    (plain : PlainAddr addrStr) :
    (parseIp4AddrSplit (w := w) buf addrStr prefixlenStr).1.ret = .success ∨
      (parseIp4AddrSplit (w := w) buf addrStr prefixlenStr).1.ret = .invalid := by
  by_cases nonempty : addrStr = []
  · subst nonempty
    exact Or.inr rfl
  · rw [(parseIp4AddrSplit_plain nonempty plain).2]
    split_ifs
    · exact parseIp4AddrSplitReadPrefixlen_ret _ _
    · exact parseIp4AddrSplitReadBlocks_ret _ _

/-- The memory at the start of the address ends at the first dot. -/
theorem cstr_parseIp4AddrSplit (buf : ParseIp4Data) (prefixlenStr : Option (List Char))
    (nonempty : addrStr ≠ []) (plain : PlainAddr addrStr) (clean : nul ∉ addrStr) :
    cstr (parseIp4AddrSplit (w := w) buf addrStr prefixlenStr).2 =
      addrStr.takeWhile (· ≠ '.') := by
  rw [(parseIp4AddrSplit_plain nonempty plain).1]
  exact cstr_parseIp4AddrSplitReadBlocks nonempty clean (by simp)

/-- A foreign char in the first block is an error. -/
theorem parseIp4AddrSplit_foreign {a rest : List Char} {c : Char}
    (plain : PlainAddr (a ++ c :: rest)) (fresh : '.' ∉ a) (other : c ≠ '.')
    (foreign : ForeignChar 10 c) :
    (parseIp4AddrSplit (w := w) buf (a ++ c :: rest) prefixlenStr).1.ret = .invalid := by
  rw [(parseIp4AddrSplit_plain (by simp) plain).2,
    parseIp4AddrSplitReadBlocks_foreign fresh other foreign, if_neg (by decide)]

/-- Blocks and a prefixlen that are read make an address. -/
theorem parseIp4AddrSplit_success {values : List Nat} {prefixlen : Nat} {mem : List Char}
    (nonempty : addrStr ≠ []) (plain : PlainAddr addrStr)
    (blocks : parseIp4AddrSplitReadBlocks ⟨[], 0⟩ addrStr = (.success, ⟨values, 0⟩, mem))
    (suffix : parseIp4AddrSplitReadPrefixlen ⟨values, 0⟩ prefixlenStr =
      (.success, ⟨values, prefixlen⟩)) :
    parseIp4AddrSplit (w := w) buf addrStr prefixlenStr =
      (⟨.success, ⟨prefixlen, parseIp4AddrSplitMakeAddrLoop 0 0 values⟩, ⟨values, prefixlen⟩⟩,
        mem) := by
  unfold PlainAddr at plain
  simp [parseIp4AddrSplit, parseIp4DataInit, nonempty, plain, blocks, suffix,
    parseIp4AddrSplitMakeAddr, ip4AddrInitNull]

/-- At most four blocks are written. -/
theorem parseIp4AddrSplitReadBlocks_numBlocks (room : buf.numBlocks ≤ 4) :
    (parseIp4AddrSplitReadBlocks buf addrStr).2.1.numBlocks ≤ 4 := by
  fun_induction parseIp4AddrSplitReadBlocks buf addrStr <;>
    grind [ParseIp4Data.numBlocks, parseIp4DataAppend, parseIp4BlockCount]

theorem parseIp4AddrSplitReadPrefixlen_le (few : buf.numBlocks ≤ 4)
    (good : (parseIp4AddrSplitReadPrefixlen buf prefixlenStr).1 = .success) :
    (parseIp4AddrSplitReadPrefixlen buf prefixlenStr).2.prefixlen ≤ 32 := by
  cases prefixlenStr with
  | none =>
    have small : buf.numBlocks * parseIp4BlockBase ≤ 32 := by
      unfold parseIp4BlockBase
      omega
    simp only [parseIp4AddrSplitReadPrefixlen]
    rw [uintFast8]
    omega
  | some prefixlenStr =>
    cases read : parseIpReadOctet prefixlenStr 10 with
    | none => simp [parseIp4AddrSplitReadPrefixlen, read] at good
    | some octet =>
      simp only [parseIp4AddrSplitReadPrefixlen, read] at good ⊢
      split_ifs at good ⊢ with long
      exact Nat.le_of_not_lt long

theorem parseIp4AddrSplit_prefixlen_le
    (good : (parseIp4AddrSplit (w := w) buf addrStr prefixlenStr).1.ret = .success) :
    (parseIp4AddrSplit (w := w) buf addrStr prefixlenStr).1.addr.prefixlen ≤ 32 := by
  by_cases nonempty : addrStr = []
  · subst nonempty
    simp [parseIp4AddrSplit_nil] at good
  by_cases plain : PlainAddr addrStr
  · have few : (parseIp4AddrSplitReadBlocks ⟨[], 0⟩ addrStr).2.1.numBlocks ≤ 4 :=
      parseIp4AddrSplitReadBlocks_numBlocks (Nat.zero_le 4)
    unfold PlainAddr at plain
    simp only [parseIp4AddrSplit, parseIp4DataInit, if_neg nonempty, if_neg plain] at good ⊢
    split_ifs at good ⊢ with blocks suffix
    · exact parseIp4AddrSplitReadPrefixlen_le few suffix
    · exact Nat.zero_le 32
    · exact Nat.zero_le 32
  · rw [(parseIp4AddrSplit_hex plain).1] at good
    cases good

end Split

/-! ### Lines -/

section Lines

variable {line : List Char} (buf buf' : ParseIp4Data) (addr addr' : Ip4Addr w)

/-- Neither the static buffer nor the record has a say in what is parsed. -/
theorem parseIp4Addr_fresh :
    (parseIp4Addr buf line addr).ret = (parseIp4Addr buf' line addr').ret ∧
      ((parseIp4Addr buf line addr).ret = .success →
        (parseIp4Addr buf line addr).addr = (parseIp4Addr buf' line addr').addr) := by
  unfold parseIp4Addr
  cases parseIpSplitPrefixlen line with
  | none => exact ⟨rfl, fun good => by cases good⟩
  | some parts =>
    -- the static buffer is cleared, and so is the record
    exact ⟨rfl, fun _ => rfl⟩

/-- A line is an address, or it is invalid, or it is in hexadecimal notation. -/
theorem parseIp4Addr_ret :
    (HexNotation line ∧ (parseIp4Addr buf line addr).ret = .notImplemented) ∨
      (¬ HexNotation line ∧ ((parseIp4Addr buf line addr).ret = .success ∨
        (parseIp4Addr buf line addr).ret = .invalid)) := by
  rw [hexNotation_iff]
  unfold parseIp4Addr
  cases parseIpSplitPrefixlen line with
  | none => exact Or.inr ⟨by simp, Or.inr rfl⟩
  | some parts =>
    obtain ⟨addrStr, prefixlenStr⟩ := parts
    by_cases plain : PlainAddr addrStr
    · refine Or.inr ⟨?_, parseIp4AddrSplit_ret buf prefixlenStr plain⟩
      rintro ⟨_, _, same, hex⟩
      cases same
      exact hex plain
    · exact Or.inl ⟨⟨_, _, rfl, plain⟩, (parseIp4AddrSplit_hex plain).1⟩

theorem parseIp4Addr_prefixlen_le (good : (parseIp4Addr buf line addr).ret = .success) :
    (parseIp4Addr buf line addr).addr.prefixlen ≤ 32 := by
  unfold parseIp4Addr at *
  cases split : parseIpSplitPrefixlen line with
  | none => simp [split] at good
  | some parts =>
    simp only [split] at good ⊢
    exact parseIp4AddrSplit_prefixlen_le good

end Lines

/-! ### Networks -/

theorem parseIp4NetAddr_addr (P : Platform) (buf : ParseIp4Data) (line : List Char)
    (addr : Ip4Addr P.fast32) :
    (parseIp4NetAddr P buf line addr).addr = (parseIp4Addr buf line addr).addr := by
  unfold parseIp4NetAddr
  dsimp only
  split_ifs <;> rfl

theorem parseIp4NetAddr_invalidNet {P : Platform} {buf : ParseIp4Data} {line : List Char}
    {addr : Ip4Addr P.fast32} (good : (parseIp4Addr buf line addr).ret = .success)
    (host : ¬ ip4AddrIsNet P (parseIp4Addr buf line addr).addr = true) :
    (parseIp4NetAddr P buf line addr).ret = .invalidNet := by
  unfold parseIp4NetAddr
  dsimp only
  rw [if_neg (not_not.mpr good), if_neg host]

theorem parseIp4NetAddr_success (P : Platform) (buf : ParseIp4Data) (line : List Char)
    (addr : Ip4Addr P.fast32) :
    (parseIp4NetAddr P buf line addr).ret = .success ↔
      (parseIp4Addr buf line addr).ret = .success ∧
        ip4AddrIsNet P (parseIp4Addr buf line addr).addr = true := by
  unfold parseIp4NetAddr
  dsimp only
  split_ifs <;> simp_all

end IpDedup
