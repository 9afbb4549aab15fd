import IpDedup.Ip.Ip6
import IpDedup.Parse.Common

/-!
# Parsing IPv6 addresses

`util/parse_ip/ip6.c`. The parser overwrites colons of the line with null
chars, too, but nothing reads the line after it, so the memory that it leaves
is not modelled.

## Main definitions

* `parseIp6AddrSplitReadBlocks`: the loop over the blocks of an address
* `parseIp6AddrSplit`, `parseIp6Addr`, `parseIp6NetAddr`

## Main results

* `parseIp6AddrSplitReadBlocks_blocks`, `parseIp6AddrSplitReadBlocks_doubleColon`: what the loop
  reads from hexadecimal blocks
* `parseIp6AddrSplitReadBlocks_foreign`: a foreign char in the first block makes parsing fail
-/

set_option autoImplicit false

open Numeral

namespace IpDedup

/-- `PARSE_IP6_BLOCK_COUNT` -/
def parseIp6BlockCount : Nat := 8

/-- `PARSE_IP6_BLOCK_BASE` -/
def parseIp6BlockBase : Nat := 16

/-- `struct parse_ip6_data`, with the `num_blocks` blocks that were written.
`onRight` says that `p_num_lr_blocks` points to `num_right_blocks`. -/
structure ParseIp6Data where
  numLeftBlocks : Nat
  numRightBlocks : Nat
  onRight : Bool
  blocks : List Nat
  prefixlen : Nat
deriving DecidableEq, Repr

/-- The static buffer at program start. -/
def ParseIp6Data.zero : ParseIp6Data := ⟨0, 0, false, [], 0⟩

def ParseIp6Data.numBlocks (buf : ParseIp6Data) : Nat := buf.blocks.length

def parseIp6DataInit (obj : ParseIp6Data) : ParseIp6Data :=
  { obj with numLeftBlocks := 0, numRightBlocks := 0, onRight := false, blocks := [],
             prefixlen := 0 }

def parseIp6DataAppend (obj : ParseIp6Data) (block : Nat) : ParseIp6Data :=
  if obj.onRight then
    { obj with blocks := obj.blocks ++ [block], numRightBlocks := obj.numRightBlocks + 1 }
  else
    { obj with blocks := obj.blocks ++ [block], numLeftBlocks := obj.numLeftBlocks + 1 }

/-- Fails if `::` was seen before. -/
def parseIp6DataSwitchToRight (obj : ParseIp6Data) : Option ParseIp6Data :=
  if obj.onRight then none else some { obj with onRight := true }

def parseIp6DataHasDoubleColon (obj : ParseIp6Data) : Bool := obj.onRight

/-- Shift blocks into place, the first of them at `numBlocksRemaining - 1` from the right. -/
def parseIp6AddrSplitMakeAddrConsume (bits : Ip6AddrData) (numBlocksRemaining : Nat) :
    List Nat → Ip6AddrData
  | [] => bits
  | block :: blocks =>
    let remaining := numBlocksRemaining - 1
    let chunk : Ip6AddrDataChunk :=
      BitVec.ofNat 64 block <<< ((remaining % 4) * parseIp6BlockBase)
    let bits : Ip6AddrData :=
      if remaining < 4 then { bits with low := bits.low ||| chunk }
      else { bits with high := bits.high ||| chunk }
    parseIp6AddrSplitMakeAddrConsume bits remaining blocks

def parseIp6AddrSplitMakeAddr (buf : ParseIp6Data) (addr : Ip6Addr) : Ip6Addr :=
  let left := buf.blocks.take buf.numLeftBlocks
  let right := (buf.blocks.drop buf.numLeftBlocks).take buf.numRightBlocks
  let bits := parseIp6AddrSplitMakeAddrConsume addr.addr parseIp6BlockCount left
  ⟨buf.prefixlen, parseIp6AddrSplitMakeAddrConsume bits buf.numRightBlocks right⟩

/-- Hexadecimal addresses are missing functionality. -/
def parseIp6AddrSplitReadHex (buf : ParseIp6Data) : ParseIpRet × ParseIp6Data :=
  (.notImplemented, buf)

/-- An empty block counts as zero. -/
def parseIp6AddrSplitReadBlock (blockStr : List Char) : Option Nat :=
  if blockStr = [] then some 0 else parseIpReadDoubleOctet blockStr 16

/-- The checks after the loop. -/
def parseIp6AddrSplitCheckBlocks (buf : ParseIp6Data) : ParseIpRet :=
  if buf.numBlocks = 0 then .invalid
  -- there should be at least one block missing when "::" was specified
  else if parseIp6DataHasDoubleColon buf ∧ buf.numBlocks ≥ parseIp6BlockCount then .invalid
  else .success

/-- The loop over the blocks. -/
def parseIp6AddrSplitReadBlocks (buf : ParseIp6Data) (addrStrRem : List Char) :
    ParseIpRet × ParseIp6Data :=
  if addrStrRem = [] then
    (parseIp6AddrSplitCheckBlocks buf, buf)
  else if buf.numBlocks ≥ parseIp6BlockCount then
    (.invalid, buf)
  else
    match _found : strchr ':' addrStrRem with
    | none =>
      match parseIp6AddrSplitReadBlock addrStrRem with
      | none => (.invalid, buf)
      | some block =>
        let buf := parseIp6DataAppend buf block
        (parseIp6AddrSplitCheckBlocks buf, buf)
    | some (blockStr, rest) =>
      -- nothing follows the colon
      if rest = [] then (.invalid, buf)
      else
        -- a second colon follows: the other blocks are those on the right
        let switchToRblocks := rest.head? == some ':'
        let addrStrRem := if switchToRblocks then rest.tail else rest
        if switchToRblocks ∧ addrStrRem.head? = some ':' then (.invalid, buf)
        else
          match parseIp6AddrSplitReadBlock blockStr with
          | none => (.invalid, buf)
          | some block =>
            let buf := parseIp6DataAppend buf block
            match (if switchToRblocks then parseIp6DataSwitchToRight buf else some buf) with
            | none => (.invalid, buf)
            | some buf => parseIp6AddrSplitReadBlocks buf addrStrRem
termination_by addrStrRem.length
decreasing_by
  have shorter := length_lt_of_strchr ‹_›
  split
  · rw [List.length_tail]
    omega
  · exact shorter

def parseIp6AddrSplitReadPrefixlen (buf : ParseIp6Data) (prefixlenStr : Option (List Char)) :
    ParseIpRet × ParseIp6Data :=
  match prefixlenStr with
  | none =>
    let prefixlen :=
      if buf.numRightBlocks > 0 then ip6MaxPrefixlen
      -- 16 bits for each block that was written
      else uintFast8 (buf.numBlocks * parseIp6BlockBase)
    (.success, { buf with prefixlen := prefixlen })
  | some prefixlenStr =>
    match parseIpReadOctet prefixlenStr 10 with
    | none => (.invalid, buf)
    | some octet =>
      let buf := { buf with prefixlen := octet }
      if octet > ip6MaxPrefixlen then (.invalid, buf) else (.success, buf)

/-- What a call leaves: the return code, the address record and the static buffer. -/
structure ParsedIp6 where
  ret : ParseIpRet
  addr : Ip6Addr
  buf : ParseIp6Data

def parseIp6AddrSplit (buf : ParseIp6Data) (addrStr : List Char)
    (prefixlenStr : Option (List Char)) : ParsedIp6 :=
  let buf := parseIp6DataInit buf
  let addr := ip6AddrInitNull
  let (ret, buf) :=
    if addrStr = [] then (.invalid, buf)
    else if addrStr[0]? = some '0' ∧ addrStr[1]? = some 'x' then parseIp6AddrSplitReadHex buf
    else parseIp6AddrSplitReadBlocks buf addrStr
  if ret = .success then
    let (ret, buf) := parseIp6AddrSplitReadPrefixlen buf prefixlenStr
    if ret = .success then ⟨ret, parseIp6AddrSplitMakeAddr buf addr, buf⟩ else ⟨ret, addr, buf⟩
  else ⟨ret, addr, buf⟩

def parseIp6Addr (buf : ParseIp6Data) (line : List Char) (addr : Ip6Addr) : ParsedIp6 :=
  match parseIpSplitPrefixlen line with
  | none => ⟨.invalid, addr, buf⟩
  | some (addrStr, prefixlenStr) => parseIp6AddrSplit buf addrStr prefixlenStr

def parseIp6NetAddr (P : Platform) (buf : ParseIp6Data) (line : List Char) (addr : Ip6Addr) :
    ParsedIp6 :=
  let out := parseIp6Addr buf line addr
  if out.ret ≠ .success then out
  else if ip6AddrIsNet P out.addr then out
  else { out with ret := .invalidNet }

/-! ### The loop over the blocks -/

section ReadBlocks

variable {buf : ParseIp6Data} {s a rest : List Char} {block : Nat}

/-- The last block of an address. -/
theorem parseIp6AddrSplitReadBlocks_last (nonempty : s ≠ []) (fresh : ':' ∉ s)
    (room : buf.blocks.length < 8) (read : parseIp6AddrSplitReadBlock s = some block) :
    parseIp6AddrSplitReadBlocks buf s =
      (parseIp6AddrSplitCheckBlocks (parseIp6DataAppend buf block),
        parseIp6DataAppend buf block) := by
  have free : ¬ buf.numBlocks ≥ parseIp6BlockCount := Nat.not_le.mpr room
  rw [parseIp6AddrSplitReadBlocks, if_neg nonempty, if_neg free]
  split
  · rw [read]
  · next found => simp [strchr_of_not_mem fresh] at found

/-- A block that a single colon ends. -/
theorem parseIp6AddrSplitReadBlocks_colon (fresh : ':' ∉ a) (room : buf.blocks.length < 8)
    (more : rest ≠ []) (single : rest.head? ≠ some ':')
    (read : parseIp6AddrSplitReadBlock a = some block) :
    parseIp6AddrSplitReadBlocks buf (a ++ ':' :: rest) =
      parseIp6AddrSplitReadBlocks (parseIp6DataAppend buf block) rest := by
  have free : ¬ buf.numBlocks ≥ parseIp6BlockCount := Nat.not_le.mpr room
  rw [parseIp6AddrSplitReadBlocks, if_neg (by simp), if_neg free]
  split
  · next found => simp [strchr_append fresh] at found
  · next found =>
    rw [strchr_append fresh] at found
    cases found
    simp [more, single, read]

/-- A block that the first double colon ends. -/
theorem parseIp6AddrSplitReadBlocks_colons (fresh : ':' ∉ a) (room : buf.blocks.length < 8)
    (left : buf.onRight = false) (single : rest.head? ≠ some ':')
    (read : parseIp6AddrSplitReadBlock a = some block) :
    parseIp6AddrSplitReadBlocks buf (a ++ ':' :: ':' :: rest) =
      parseIp6AddrSplitReadBlocks { parseIp6DataAppend buf block with onRight := true } rest := by
  have free : ¬ buf.numBlocks ≥ parseIp6BlockCount := Nat.not_le.mpr room
  rw [parseIp6AddrSplitReadBlocks, if_neg (by simp), if_neg free]
  split
  · next found => simp [strchr_append fresh] at found
  · next found =>
    rw [strchr_append fresh] at found
    cases found
    simp [single, read, parseIp6DataSwitchToRight, parseIp6DataAppend, left]

/-- A char in the first block that belongs to no hexadecimal number. -/
theorem parseIp6AddrSplitReadBlocks_foreign {c : Char} (fresh : ':' ∉ a) (other : c ≠ ':')
    (foreign : ForeignChar 16 c) :
    (parseIp6AddrSplitReadBlocks buf (a ++ c :: rest)).1 = .invalid := by
  have unread {blockStr : List Char} (mem : c ∈ blockStr) :
      parseIp6AddrSplitReadBlock blockStr = none := by
    rw [parseIp6AddrSplitReadBlock, if_neg (List.ne_nil_of_mem mem)]
    exact parseIpReadDoubleOctet_foreign (by decide) mem foreign
  rw [parseIp6AddrSplitReadBlocks, if_neg (by simp)]
  split_ifs with full
  · rfl
  · split
    · rw [unread (by simp)]
    · next blockStr tail found =>
      -- the first separator comes after the char, which is in the first block
      have mem : c ∈ blockStr := mem_of_strchr fresh other found
      simp only [unread mem]
      split_ifs <;> rfl

theorem parseIp6AddrSplitCheckBlocks_ret (buf : ParseIp6Data) :
    parseIp6AddrSplitCheckBlocks buf = .success ∨
      parseIp6AddrSplitCheckBlocks buf = .invalid := by
  unfold parseIp6AddrSplitCheckBlocks
  split_ifs <;> simp

theorem parseIp6AddrSplitReadBlocks_ret (buf : ParseIp6Data) (s : List Char) :
    (parseIp6AddrSplitReadBlocks buf s).1 = .success ∨
      (parseIp6AddrSplitReadBlocks buf s).1 = .invalid := by
  fun_induction parseIp6AddrSplitReadBlocks buf s <;> grind [parseIp6AddrSplitCheckBlocks_ret]

/-- A block that is read; it may be empty. -/
structure Ip6Block (s : List Char) (value : Nat) : Prop where
  fresh : ':' ∉ s
  read : parseIp6AddrSplitReadBlock s = some value

/-- The buffer after some more blocks. -/
def ParseIp6Data.appendAll (buf : ParseIp6Data) (values : List Nat) : ParseIp6Data :=
  values.foldl parseIp6DataAppend buf

@[simp] theorem parseIp6DataAppend_onRight (buf : ParseIp6Data) (block : Nat) :
    (parseIp6DataAppend buf block).onRight = buf.onRight := by
  unfold parseIp6DataAppend
  split_ifs <;> rfl

@[simp] theorem parseIp6DataAppend_blocks (buf : ParseIp6Data) (block : Nat) :
    (parseIp6DataAppend buf block).blocks = buf.blocks ++ [block] := by
  unfold parseIp6DataAppend
  split_ifs <;> rfl

theorem ParseIp6Data.appendAll_left (left : buf.onRight = false) (values : List Nat) :
    buf.appendAll values = { buf with blocks := buf.blocks ++ values,
                                      numLeftBlocks := buf.numLeftBlocks + values.length } := by
  induction values generalizing buf with
  | nil => simp [appendAll]
  | cons value values ih =>
    have step : (parseIp6DataAppend buf value).appendAll values = _ := ih (by simpa using left)
    rw [appendAll] at step ⊢
    rw [List.foldl_cons, step]
    simp [parseIp6DataAppend, left]
    omega

theorem ParseIp6Data.appendAll_right (right : buf.onRight = true) (values : List Nat) :
    buf.appendAll values = { buf with blocks := buf.blocks ++ values,
                                      numRightBlocks := buf.numRightBlocks + values.length } := by
  induction values generalizing buf with
  | nil => simp [appendAll]
  | cons value values ih =>
    have step : (parseIp6DataAppend buf value).appendAll values = _ := ih (by simpa using right)
    rw [appendAll] at step ⊢
    rw [List.foldl_cons, step]
    simp [parseIp6DataAppend, right]
    omega

variable {groups : List (List Char)} {values : List Nat}

/-- One round of the loop on several blocks with colons between them. -/
theorem parseIp6AddrSplitReadBlocks_next {g g' : List Char} {value : Nat}
    (gs : List (List Char)) (tail : List Char) (first : Ip6Block g value) (nonempty : g' ≠ [])
    (fresh : ':' ∉ g') (room : buf.blocks.length < 8) :
    parseIp6AddrSplitReadBlocks buf ([':'].intercalate (g :: g' :: gs) ++ tail) =
      parseIp6AddrSplitReadBlocks (parseIp6DataAppend buf value)
        ([':'].intercalate (g' :: gs) ++ tail) := by
  have more : [':'].intercalate (g' :: gs) ++ tail ≠ [] := by
    simp [intercalate_ne_nil nonempty gs]
  have single : ([':'].intercalate (g' :: gs) ++ tail).head? ≠ some ':' := by
    rw [List.head?_append_of_ne_nil _ (intercalate_ne_nil nonempty gs),
      head?_intercalate nonempty]
    exact fun colon => fresh (List.mem_of_head? colon)
  rw [List.intercalate_cons_cons, List.append_assoc, List.append_assoc, List.singleton_append]
  exact parseIp6AddrSplitReadBlocks_colon first.fresh room more single first.read

/-- The loop reads up to eight blocks with colons between them. -/
theorem parseIp6AddrSplitReadBlocks_blocks (valid : List.Forall₂ Ip6Block groups values)
    (nonempty : groups ≠ []) (filled : ∀ g ∈ groups, g ≠ [])
    (room : buf.blocks.length + groups.length ≤ 8) :
    parseIp6AddrSplitReadBlocks buf ([':'].intercalate groups) =
      (parseIp6AddrSplitCheckBlocks (buf.appendAll values), buf.appendAll values) := by
  induction valid generalizing buf with
  | nil => exact absurd rfl nonempty
  | @cons g value gs values first rest ih =>
    rw [List.length_cons] at room
    obtain ⟨front, filled⟩ := List.forall_mem_cons.mp filled
    cases rest with
    | nil =>
      rw [List.intercalate_singleton]
      exact parseIp6AddrSplitReadBlocks_last front first.fresh (by omega) first.read
    | @cons g' value' gs values second rest =>
      have step := parseIp6AddrSplitReadBlocks_next gs [] first
        (filled g' List.mem_cons_self) second.fresh (show buf.blocks.length < 8 by omega)
      have room' : (parseIp6DataAppend buf value).blocks.length + (g' :: gs).length ≤ 8 := by
        rw [parseIp6DataAppend_blocks, List.length_append, List.length_singleton]
        omega
      have run := ih (by simp) filled room'
      rw [List.append_nil, List.append_nil] at step
      rw [step, run]
      rfl

/-- The loop reads blocks up to the first double colon. -/
theorem parseIp6AddrSplitReadBlocks_doubleColon (valid : List.Forall₂ Ip6Block groups values)
    (nonempty : groups ≠ []) (filled : ∀ g ∈ groups.tail, g ≠ [])
    (room : buf.blocks.length + groups.length ≤ 8) (left : buf.onRight = false)
    (single : rest.head? ≠ some ':') :
    parseIp6AddrSplitReadBlocks buf ([':'].intercalate groups ++ ':' :: ':' :: rest) =
      parseIp6AddrSplitReadBlocks { buf.appendAll values with onRight := true } rest := by
  induction valid generalizing buf with
  | nil => exact absurd rfl nonempty
  | @cons g value gs values first others ih =>
    rw [List.length_cons] at room
    cases others with
    | nil =>
      -- the round that switches to the right
      rw [List.intercalate_singleton]
      exact parseIp6AddrSplitReadBlocks_colons first.fresh (by omega) left single first.read
    | @cons g' value' gs values second others =>
      obtain ⟨front, filled⟩ := List.forall_mem_cons.mp (List.tail_cons ▸ filled)
      have step := parseIp6AddrSplitReadBlocks_next gs (':' :: ':' :: rest) first
        front second.fresh (show buf.blocks.length < 8 by omega)
      have room' : (parseIp6DataAppend buf value).blocks.length + (g' :: gs).length ≤ 8 := by
        rw [parseIp6DataAppend_blocks, List.length_append, List.length_singleton]
        omega
      have run := ih (by simp) filled room' (by simpa using left)
      rw [step, run]
      rfl

end ReadBlocks

/-! ### Whole addresses -/

section Split

variable {buf : ParseIp6Data} {addrStr : List Char} {prefixlenStr : Option (List Char)}

/-- Nothing of the static buffer is left when an address is parsed. -/
theorem parseIp6AddrSplit_buf (buf buf' : ParseIp6Data) (addrStr : List Char)
    (prefixlenStr : Option (List Char)) :
    parseIp6AddrSplit buf addrStr prefixlenStr =
      parseIp6AddrSplit buf' addrStr prefixlenStr := rfl

theorem parseIp6AddrSplitReadPrefixlen_ret (buf : ParseIp6Data)
    (prefixlenStr : Option (List Char)) :
    (parseIp6AddrSplitReadPrefixlen buf prefixlenStr).1 = .success ∨
      (parseIp6AddrSplitReadPrefixlen buf prefixlenStr).1 = .invalid := by
  cases prefixlenStr with
  | none => exact Or.inl rfl
  | some prefixlenStr =>
    rw [parseIp6AddrSplitReadPrefixlen]
    split
    · exact Or.inr rfl
    · dsimp only
      split_ifs
      · exact Or.inr rfl
      · exact Or.inl rfl

theorem parseIp6AddrSplit_nil (buf : ParseIp6Data) (prefixlenStr : Option (List Char)) :
    (parseIp6AddrSplit buf [] prefixlenStr).ret = .invalid := rfl

/-- The outcome of a plain address depends on its blocks and on the prefixlen. -/
theorem parseIp6AddrSplit_plain (nonempty : addrStr ≠ []) (plain : PlainAddr addrStr) :
    (parseIp6AddrSplit buf addrStr prefixlenStr).ret =
      if (parseIp6AddrSplitReadBlocks ⟨0, 0, false, [], 0⟩ addrStr).1 = .success then
        (parseIp6AddrSplitReadPrefixlen
          (parseIp6AddrSplitReadBlocks ⟨0, 0, false, [], 0⟩ addrStr).2 prefixlenStr).1
      else (parseIp6AddrSplitReadBlocks ⟨0, 0, false, [], 0⟩ addrStr).1 := by
  unfold PlainAddr at plain
  simp only [parseIp6AddrSplit, parseIp6DataInit, if_neg nonempty, if_neg plain]
  split_ifs <;> simp_all

/-- Hexadecimal addresses are not implemented. -/
theorem parseIp6AddrSplit_hex (hex : ¬ PlainAddr addrStr) :
    (parseIp6AddrSplit buf addrStr prefixlenStr).ret = .notImplemented := by
  have mark := not_not.mp hex
  have nonempty : addrStr ≠ [] := by
    rintro rfl
    simp at mark
  simp [parseIp6AddrSplit, nonempty, mark, parseIp6AddrSplitReadHex]

theorem parseIp6AddrSplit_ret (buf : ParseIp6Data) (prefixlenStr : Option (List Char))
    (plain : PlainAddr addrStr) :
    (parseIp6AddrSplit buf addrStr prefixlenStr).ret = .success ∨
      (parseIp6AddrSplit buf addrStr prefixlenStr).ret = .invalid := by
  by_cases nonempty : addrStr = []
  · subst nonempty
    exact Or.inr rfl
  · rw [parseIp6AddrSplit_plain nonempty plain]
    split_ifs
    · exact parseIp6AddrSplitReadPrefixlen_ret _ _
    · exact parseIp6AddrSplitReadBlocks_ret _ _

/-- A foreign char in the first block is an error. -/
theorem parseIp6AddrSplit_foreign {a rest : List Char} {c : Char}
    (plain : PlainAddr (a ++ c :: rest)) (fresh : ':' ∉ a) (other : c ≠ ':')
    (foreign : ForeignChar 16 c) :
    (parseIp6AddrSplit buf (a ++ c :: rest) prefixlenStr).ret = .invalid := by
  rw [parseIp6AddrSplit_plain (by simp) plain,
    parseIp6AddrSplitReadBlocks_foreign fresh other foreign, if_neg (by decide)]

/-- Blocks that are read make an address; the prefixlen is read or guessed. -/
theorem parseIp6AddrSplit_blocks {blocks out : ParseIp6Data} (nonempty : addrStr ≠ [])
    (plain : PlainAddr addrStr)
    (read : parseIp6AddrSplitReadBlocks ⟨0, 0, false, [], 0⟩ addrStr = (.success, blocks))
    (suffix : parseIp6AddrSplitReadPrefixlen blocks prefixlenStr = (.success, out)) :
    parseIp6AddrSplit buf addrStr prefixlenStr =
      ⟨.success, parseIp6AddrSplitMakeAddr out ip6AddrInitNull, out⟩ := by
  unfold PlainAddr at plain
  simp [parseIp6AddrSplit, parseIp6DataInit, nonempty, plain, read, suffix]

/-- At most eight blocks are written. -/
theorem parseIp6AddrSplitReadBlocks_numBlocks (room : buf.numBlocks ≤ 8) :
    (parseIp6AddrSplitReadBlocks buf addrStr).2.numBlocks ≤ 8 := by
  fun_induction parseIp6AddrSplitReadBlocks buf addrStr <;>
    grind [ParseIp6Data.numBlocks, parseIp6DataAppend, parseIp6DataSwitchToRight,
      parseIp6BlockCount]

theorem parseIp6AddrSplitReadPrefixlen_le (few : buf.numBlocks ≤ 8)
    (good : (parseIp6AddrSplitReadPrefixlen buf prefixlenStr).1 = .success) :
    (parseIp6AddrSplitReadPrefixlen buf prefixlenStr).2.prefixlen ≤ 128 := by
  cases prefixlenStr with
  | none =>
    have small : buf.numBlocks * parseIp6BlockBase ≤ 128 := by
      unfold parseIp6BlockBase
      omega
    simp only [parseIp6AddrSplitReadPrefixlen]
    split_ifs
    · exact Nat.le_refl 128
    · rw [uintFast8]
      omega
  | some prefixlenStr =>
    cases read : parseIpReadOctet prefixlenStr 10 with
    | none => simp [parseIp6AddrSplitReadPrefixlen, read] at good
    | some octet =>
      simp only [parseIp6AddrSplitReadPrefixlen, read] at good ⊢
      split_ifs at good ⊢ with long
      exact Nat.le_of_not_lt long

theorem parseIp6AddrSplit_prefixlen_le
    (good : (parseIp6AddrSplit buf addrStr prefixlenStr).ret = .success) :
    (parseIp6AddrSplit buf addrStr prefixlenStr).addr.prefixlen ≤ 128 := by
  by_cases nonempty : addrStr = []
  · subst nonempty
    simp [parseIp6AddrSplit_nil] at good
  by_cases plain : PlainAddr addrStr
  · have few : (parseIp6AddrSplitReadBlocks ⟨0, 0, false, [], 0⟩ addrStr).2.numBlocks ≤ 8 :=
      parseIp6AddrSplitReadBlocks_numBlocks (Nat.zero_le 8)
    unfold PlainAddr at plain
    simp only [parseIp6AddrSplit, parseIp6DataInit, if_neg nonempty, if_neg plain] at good ⊢
    split_ifs at good ⊢ with blocks suffix
    · exact parseIp6AddrSplitReadPrefixlen_le few suffix
    · exact Nat.zero_le 128
    · exact Nat.zero_le 128
  · rw [parseIp6AddrSplit_hex plain] at good
    cases good

end Split

/-! ### Lines -/

section Lines

variable {line : List Char} (buf buf' : ParseIp6Data) (addr addr' : Ip6Addr)

/-- Neither the static buffer nor the record has a say in what is parsed. -/
theorem parseIp6Addr_fresh :
    (parseIp6Addr buf line addr).ret = (parseIp6Addr buf' line addr').ret ∧
      ((parseIp6Addr buf line addr).ret = .success →
        (parseIp6Addr buf line addr).addr = (parseIp6Addr buf' line addr').addr) := by
  unfold parseIp6Addr
  cases parseIpSplitPrefixlen line with
  | none => exact ⟨rfl, fun good => by cases good⟩
  | some parts =>
    -- the static buffer is cleared, and so is the record
    exact ⟨rfl, fun _ => rfl⟩

/-- A line is an address, or it is invalid, or it is in hexadecimal notation. -/
theorem parseIp6Addr_ret :
    (HexNotation line ∧ (parseIp6Addr buf line addr).ret = .notImplemented) ∨
      (¬ HexNotation line ∧ ((parseIp6Addr buf line addr).ret = .success ∨
        (parseIp6Addr buf line addr).ret = .invalid)) := by
  rw [hexNotation_iff]
  unfold parseIp6Addr
  cases parseIpSplitPrefixlen line with
  | none => exact Or.inr ⟨by simp, Or.inr rfl⟩
  | some parts =>
    obtain ⟨addrStr, prefixlenStr⟩ := parts
    by_cases plain : PlainAddr addrStr
    · refine Or.inr ⟨?_, parseIp6AddrSplit_ret buf prefixlenStr plain⟩
      rintro ⟨_, _, same, hex⟩
      cases same
      exact hex plain
    · exact Or.inl ⟨⟨_, _, rfl, plain⟩, parseIp6AddrSplit_hex plain⟩

theorem parseIp6Addr_prefixlen_le (good : (parseIp6Addr buf line addr).ret = .success) :
    (parseIp6Addr buf line addr).addr.prefixlen ≤ 128 := by
  unfold parseIp6Addr at *
  cases split : parseIpSplitPrefixlen line with
  | none => simp [split] at good
  | some parts =>
    simp only [split] at good ⊢
    exact parseIp6AddrSplit_prefixlen_le good

end Lines

/-! ### Networks -/

theorem parseIp6NetAddr_addr (P : Platform) (buf : ParseIp6Data) (line : List Char)
    (addr : Ip6Addr) :
    (parseIp6NetAddr P buf line addr).addr = (parseIp6Addr buf line addr).addr := by
  unfold parseIp6NetAddr
  dsimp only
  split_ifs <;> rfl

theorem parseIp6NetAddr_invalidNet {P : Platform} {buf : ParseIp6Data} {line : List Char}
    {addr : Ip6Addr} (good : (parseIp6Addr buf line addr).ret = .success)
    (host : ¬ ip6AddrIsNet P (parseIp6Addr buf line addr).addr = true) :
    (parseIp6NetAddr P buf line addr).ret = .invalidNet := by
  unfold parseIp6NetAddr
  dsimp only
  rw [if_neg (not_not.mpr good), if_neg host]

theorem parseIp6NetAddr_success (P : Platform) (buf : ParseIp6Data) (line : List Char)
    (addr : Ip6Addr) :
    (parseIp6NetAddr P buf line addr).ret = .success ↔
      (parseIp6Addr buf line addr).ret = .success ∧
        ip6AddrIsNet P (parseIp6Addr buf line addr).addr = true := by
  unfold parseIp6NetAddr
  dsimp only
  split_ifs <;> simp_all

end IpDedup
