import IpDedup.Parse.Ip4
import IpDedup.Parse.Strtol

/-!
# The language of IPv4 addresses

Which lines `util/parse_ip/ip4.c` accepts, and the address that it makes of
them. The groups of an address are what `strtol` takes for numbers, so white
space and signs are allowed where one would expect digits only.

## Main definitions

* `Ip4Group`, `Ip4AddrText`: groups, and addresses made of them
* `ip4AddrOf`: the address of some octets

## Main results

* `parseIp4Addr_iff`: the accepted lines and their addresses
-/

set_option autoImplicit false

open Numeral BitString

namespace IpDedup

variable {w : UintFast32}

/-- A group of an address and its octet. -/
structure Ip4Group (g : List Char) (value : Nat) : Prop where
  numeral : StrtolNumeral 10 g value
  le : value ≤ 0xff

/-- One to four groups with dots between them; with less than four, one more dot may follow. -/
def Ip4AddrText (a : List Char) (values : List Nat) : Prop :=
  ∃ groups, List.Forall₂ Ip4Group groups values ∧ groups ≠ [] ∧ groups.length ≤ 4 ∧
    (a = ['.'].intercalate groups ∨
      groups.length < 4 ∧ a = ['.'].intercalate groups ++ ['.'])

/-- The octets from the most significant one down, with zeros for those that are missing. -/
def ip4AddrOf (values : List Nat) : Ip4AddrData w :=
  BitVec.ofNat w.width (pack 8 (values ++ List.replicate (4 - values.length) 0))

/-! ### Groups -/

section Groups

variable {g : List Char} {value : Nat}

theorem ip4Group_iff (nonempty : g ≠ []) :
    Ip4Group g value ↔ parseIpReadOctet g 10 = some value := by
  rw [parseIpReadOctet_iff (by decide) nonempty]
  exact ⟨fun group => ⟨group.numeral, group.le⟩, fun read => ⟨read.1, read.2⟩⟩

theorem Ip4Group.block (group : Ip4Group g value) : Ip4Block g value where
  nonempty := group.numeral.ne_nil
  fresh := group.numeral.not_mem (by decide) (by decide)
  read := (ip4Group_iff group.numeral.ne_nil).mp group

end Groups

/-! ### The loop over the blocks -/

section ReadBlocks

variable {buf : ParseIp4Data} {s : List Char}

/-- What the loop accepts behind the blocks that were read before. -/
theorem parseIp4AddrSplitReadBlocks_sound (buf : ParseIp4Data) (s : List Char)
    (room : buf.blocks.length ≤ 4)
    (good : (parseIp4AddrSplitReadBlocks buf s).1 = .success) :
    ∃ groups values, List.Forall₂ Ip4Group groups values ∧
      (parseIp4AddrSplitReadBlocks buf s).2.1 = { buf with blocks := buf.blocks ++ values } ∧
      buf.blocks.length + groups.length ≤ 4 ∧
      (groups = [] ∧ s = [] ∨ groups ≠ [] ∧ (s = ['.'].intercalate groups ∨
        buf.blocks.length + groups.length < 4 ∧ s = ['.'].intercalate groups ++ ['.'])) := by
  fun_induction parseIp4AddrSplitReadBlocks buf s with
  | case1 buf => exact ⟨[], [], .nil, by simp, room, Or.inl ⟨rfl, rfl⟩⟩
  | case4 buf s nonempty free missing block read buf' =>
    -- the last block, as no dot follows
    have group := (ip4Group_iff nonempty).mpr read
    refine ⟨[s], [block], .cons group .nil, rfl, Nat.not_le.mp free, Or.inr ⟨by simp, Or.inl ?_⟩⟩
    rw [List.intercalate_singleton]
  | case9 buf s nonempty free a rest found last single front block read ret buf' mem run ih =>
    -- a block in front of a dot, and the loop goes on behind it
    rw [run] at ih
    have group := (ip4Group_iff front).mpr read
    obtain ⟨a', rest', found', rfl, fresh⟩ :=
      (strchr_cases '.' s).resolve_left fun none => by simp [none.1] at found
    obtain ⟨rfl, rfl⟩ : a' = a ∧ rest' = rest := by simpa [found'] using found
    have free' : buf.blocks.length < 4 := Nat.not_le.mp free
    have length : (parseIp4DataAppend buf block).blocks.length = buf.blocks.length + 1 := by
      simp [parseIp4DataAppend]
    obtain ⟨groups, values, valid, blocks, few, text⟩ := ih (by omega) good
    refine ⟨a' :: groups, block :: values, .cons group valid, ?_, ?_, Or.inr ⟨by simp, ?_⟩⟩
    · rw [blocks]
      simp [parseIp4DataAppend]
    · rw [List.length_cons]
      omega
    · rcases text with ⟨rfl, rfl⟩ | ⟨more, rfl | ⟨fewer, rfl⟩⟩
      · -- the address ends with this dot
        have missing : ¬ 4 - buf.blocks.length < 2 := fun full => last ⟨rfl, full⟩
        exact Or.inr ⟨by simp; omega, by simp⟩
      · obtain ⟨g, gs, rfl⟩ := List.exists_cons_of_ne_nil more
        exact Or.inl (by simp)
      · obtain ⟨g, gs, rfl⟩ := List.exists_cons_of_ne_nil more
        exact Or.inr ⟨by rw [List.length_cons]; omega, by simp⟩
  | case2 | case3 | case5 | case6 | case7 | case8 => cases good

theorem Ip4Group.forall₂_block {groups : List (List Char)} {values : List Nat}
    (valid : List.Forall₂ Ip4Group groups values) : List.Forall₂ Ip4Block groups values :=
  valid.imp fun _ _ group => group.block

/-- A block in front of a dot that ends the address. -/
theorem parseIp4AddrSplitReadBlocks_end {g : List Char} {value : Nat} (group : Ip4Group g value)
    (room : buf.blocks.length < 3) :
    parseIp4AddrSplitReadBlocks buf (g ++ ['.']) =
      (.success, parseIp4DataAppend buf value, g ++ [nul]) := by
  have block := group.block
  have free : ¬ buf.numBlocks ≥ parseIp4BlockCount :=
    Nat.not_le.mpr (show buf.blocks.length < 4 by omega)
  have missing : ¬ parseIp4BlockCount - buf.numBlocks < 2 := by
    unfold parseIp4BlockCount ParseIp4Data.numBlocks
    omega
  have done : parseIp4AddrSplitReadBlocks (parseIp4DataAppend buf value) [] =
      (.success, parseIp4DataAppend buf value, []) := by
    rw [parseIp4AddrSplitReadBlocks, if_pos rfl, if_neg (by simp [ParseIp4Data.numBlocks,
      parseIp4DataAppend])]
  rw [parseIp4AddrSplitReadBlocks, if_neg (by simp), if_neg free]
  split
  · next found => simp [strchr_append block.fresh] at found
  · next found =>
    rw [strchr_append block.fresh] at found
    cases found
    simp [missing, block.nonempty, block.read, done]

/-- The loop accepts a dot at the end if at least one more block is missing. -/
theorem parseIp4AddrSplitReadBlocks_blocksEnd {groups : List (List Char)} {values : List Nat}
    (valid : List.Forall₂ Ip4Group groups values) (nonempty : groups ≠ [])
    (room : buf.blocks.length + groups.length < 4) :
    ∃ mem, parseIp4AddrSplitReadBlocks buf (['.'].intercalate groups ++ ['.']) =
      (.success, { buf with blocks := buf.blocks ++ values }, mem) := by
  induction valid generalizing buf with
  | nil => exact absurd rfl nonempty
  | @cons g value gs values first rest ih =>
    rw [List.length_cons] at room
    cases rest with
    | nil =>
      rw [List.intercalate_singleton]
      exact ⟨_, parseIp4AddrSplitReadBlocks_end first (by simp at room; omega)⟩
    | @cons g' value' gs values second rest =>
      have room' : (parseIp4DataAppend buf value).blocks.length + (g' :: gs).length < 4 := by
        simp only [parseIp4DataAppend, List.length_append, List.length_cons, List.length_nil] at *
        omega
      obtain ⟨mem, run⟩ := ih (by simp) room'
      -- the text behind the first dot is neither empty nor another dot
      have more : ['.'].intercalate (g' :: gs) ++ ['.'] ≠ [] := by simp
      have single : (['.'].intercalate (g' :: gs) ++ ['.']).head? ≠ some '.' := by
        rw [List.head?_append_of_ne_nil _ (intercalate_ne_nil second.block.nonempty gs),
          head?_intercalate second.block.nonempty]
        exact fun dot => second.block.fresh (List.mem_of_head? dot)
      have dot := parseIp4AddrSplitReadBlocks_dot first.block.nonempty first.block.fresh
        (show buf.blocks.length < 4 by omega) more single first.block.read
      refine ⟨g ++ nul :: mem, ?_⟩
      rw [List.intercalate_cons_cons, List.append_assoc, List.append_assoc, List.singleton_append,
        dot, run]
      simp [parseIp4DataAppend]

end ReadBlocks

/-! ### Addresses -/

section Address

variable {a : List Char} {values : List Nat}

/-- The chars of an address. -/
theorem Ip4AddrText.mem (text : Ip4AddrText a values) {c : Char} (mem : c ∈ a) :
    c = '.' ∨ ∃ g v, Ip4Group g v ∧ c ∈ g := by
  obtain ⟨groups, valid, -, -, shape⟩ := text
  have inside : c = '.' ∨ c ∈ ['.'].intercalate groups := by
    rcases shape with rfl | ⟨-, rfl⟩
    · exact Or.inr mem
    · simpa [or_comm] using mem
  rcases inside with dot | inside
  · exact Or.inl dot
  · refine (mem_intercalate inside).imp_right ?_
    rintro ⟨g, own, here⟩
    obtain ⟨v, -, group⟩ := exists_mem_of_forall₂ valid own
    exact ⟨g, v, group, here⟩

theorem Ip4AddrText.plain (text : Ip4AddrText a values) : PlainAddr a := by
  rintro ⟨-, mark⟩
  rcases text.mem (List.mem_of_getElem? mark) with dot | ⟨g, v, group, inside⟩
  · exact absurd dot (by decide)
  · exact group.numeral.x_not_mem inside

theorem Ip4AddrText.slash (text : Ip4AddrText a values) : a ≠ [] ∧ '/' ∉ a := by
  constructor
  · obtain ⟨groups, valid, nonempty, -, rfl | ⟨-, rfl⟩⟩ := text
    · cases valid with
      | nil => exact absurd rfl nonempty
      | cons first _ => exact intercalate_ne_nil first.block.nonempty _
    · simp
  · intro mem
    rcases text.mem mem with dot | ⟨g, v, group, inside⟩
    · exact absurd dot (by decide)
    · exact group.numeral.not_mem (by decide) (by decide) inside

/-- The loop reads an address. -/
theorem Ip4AddrText.read (text : Ip4AddrText a values) :
    ∃ mem, parseIp4AddrSplitReadBlocks ⟨[], 0⟩ a = (.success, ⟨values, 0⟩, mem) := by
  obtain ⟨groups, valid, nonempty, few, rfl | ⟨fewer, rfl⟩⟩ := text
  · exact parseIp4AddrSplitReadBlocks_blocks ⟨[], 0⟩ (Ip4Group.forall₂_block valid) nonempty
      (by simpa using few)
  · exact parseIp4AddrSplitReadBlocks_blocksEnd valid nonempty (by simpa using fewer)

/-- The loop reads nothing else. -/
theorem exists_ip4AddrText (nonempty : a ≠ [])
    (good : (parseIp4AddrSplitReadBlocks ⟨[], 0⟩ a).1 = .success) :
    ∃ values, Ip4AddrText a values := by
  obtain ⟨groups, values, valid, -, few, shape⟩ :=
    parseIp4AddrSplitReadBlocks_sound ⟨[], 0⟩ a (Nat.zero_le 4) good
  rw [List.length_nil, Nat.zero_add] at few
  rcases shape with ⟨rfl, rfl⟩ | ⟨more, shape⟩
  · exact absurd rfl nonempty
  · exact ⟨values, groups, valid, more, few, by simpa using shape⟩

/-- The octets are shifted into their places. -/
theorem parseIp4AddrSplitMakeAddrLoop_eq (bits : Ip4AddrData w) {k : Nat}
    (few : k + values.length ≤ 4) (small : ∀ v ∈ values, v < 2 ^ 8) :
    parseIp4AddrSplitMakeAddrLoop bits k values =
      bits ||| BitVec.ofNat w.width (pack 8 values) <<< (8 * (4 - k - values.length)) := by
  induction values generalizing bits k with
  | nil => simp [parseIp4AddrSplitMakeAddrLoop]
  | cons v values ih =>
    obtain ⟨-, others⟩ := List.forall_mem_cons.mp small
    rw [List.length_cons] at few
    -- the first octet goes in front of the others, and of those that are missing
    have place : (parseIp4BlockCount - k - 1) * parseIp4BlockBase =
        8 * (values.length + (4 - k - (v :: values).length)) := by
      rw [List.length_cons]
      unfold parseIp4BlockCount parseIp4BlockBase
      omega
    have rest : 4 - (k + 1) - values.length = 4 - k - (v :: values).length := by
      rw [List.length_cons]
      omega
    rw [parseIp4AddrSplitMakeAddrLoop, ih _ (by omega) others, rest, BitVec.or_assoc,
      shiftLeft_or_pack _ others place]

theorem Ip4AddrText.octets (text : Ip4AddrText a values) :
    1 ≤ values.length ∧ values.length ≤ 4 ∧ ∀ v ∈ values, v < 2 ^ 8 := by
  obtain ⟨groups, valid, nonempty, few, -⟩ := text
  rw [← valid.length_eq]
  refine ⟨List.length_pos_iff.mpr nonempty, few, fun v mem => ?_⟩
  obtain ⟨g, -, group⟩ := exists_mem_of_forall₂ valid.flip mem
  exact Nat.lt_succ_of_le group.le

theorem Ip4AddrText.makeAddr (text : Ip4AddrText a values) :
    parseIp4AddrSplitMakeAddrLoop (0 : Ip4AddrData w) 0 values = ip4AddrOf values := by
  obtain ⟨-, few, small⟩ := text.octets
  rw [parseIp4AddrSplitMakeAddrLoop_eq _ (by omega) small, ip4AddrOf, pack_zeros, ofNat_shiftLeft]
  exact BitVec.zero_or

variable {buf : ParseIp4Data} {t? : Option (List Char)} {prefixlen? : Option Nat}

/-- The prefix length is read, or guessed from the number of octets. -/
theorem ReadsPrefixlen.ip4 (reads : ReadsPrefixlen 32 t? prefixlen?) (few : values.length ≤ 4) :
    parseIp4AddrSplitReadPrefixlen ⟨values, 0⟩ t? =
      (.success, ⟨values, prefixlen?.getD (8 * values.length)⟩) := by
  match t?, prefixlen? with
  | none, none =>
    have guess : uintFast8 (values.length * parseIp4BlockBase : Nat) = 8 * values.length := by
      rw [uintFast8_of_lt, parseIp4BlockBase, Nat.mul_comm]
      unfold parseIp4BlockBase
      omega
    exact congrArg (fun p => (ParseIpRet.success, (⟨values, p⟩ : ParseIp4Data))) guess
  | some t, some p =>
    obtain ⟨-, read, le⟩ := reads
    have fits : ¬ p > ip4MaxPrefixlen := Nat.not_lt.mpr le
    simp [parseIp4AddrSplitReadPrefixlen, read, fits]

theorem exists_readsPrefixlen_ip4 (suffix : ∀ t ∈ t?, t ≠ [])
    (good : (parseIp4AddrSplitReadPrefixlen buf t?).1 = .success) :
    ∃ prefixlen?, ReadsPrefixlen 32 t? prefixlen? := by
  cases t? with
  | none => exact ⟨none, trivial⟩
  | some t =>
    cases read : parseIpReadOctet t 10 with
    | none => simp [parseIp4AddrSplitReadPrefixlen, read] at good
    | some octet =>
      simp only [parseIp4AddrSplitReadPrefixlen, read] at good
      split_ifs at good with long
      exact ⟨some octet, suffix t rfl, read, Nat.le_of_not_lt long⟩

theorem parseIp4AddrSplit_complete (buf : ParseIp4Data) (text : Ip4AddrText a values)
    (reads : ReadsPrefixlen 32 t? prefixlen?) :
    (parseIp4AddrSplit (w := w) buf a t?).1.ret = .success ∧
      (parseIp4AddrSplit (w := w) buf a t?).1.addr =
        ⟨prefixlen?.getD (8 * values.length), ip4AddrOf values⟩ := by
  obtain ⟨mem, blocks⟩ := text.read
  rw [parseIp4AddrSplit_success text.slash.1 text.plain blocks (reads.ip4 text.octets.2.1),
    text.makeAddr]
  exact ⟨rfl, rfl⟩

theorem parseIp4AddrSplit_sound (suffix : ∀ t ∈ t?, t ≠ [])
    (good : (parseIp4AddrSplit (w := w) buf a t?).1.ret = .success) :
    ∃ values prefixlen?, Ip4AddrText a values ∧ ReadsPrefixlen 32 t? prefixlen? := by
  have nonempty : a ≠ [] := by
    rintro rfl
    simp [parseIp4AddrSplit_nil] at good
  have plain : PlainAddr a := by
    by_contra hex
    simp [(parseIp4AddrSplit_hex hex).1] at good
  rw [(parseIp4AddrSplit_plain nonempty plain).2] at good
  split_ifs at good with blocks
  · obtain ⟨values, text⟩ := exists_ip4AddrText nonempty blocks
    obtain ⟨prefixlen?, reads⟩ := exists_readsPrefixlen_ip4 suffix good
    exact ⟨values, prefixlen?, text, reads⟩
  · exact absurd good blocks

end Address

/-! ### Lines -/

/-- An address, and an optional suffix with a prefix length up to 32. -/
def Ip4LineText (line : List Char) (values : List Nat) (prefixlen? : Option Nat) : Prop :=
  ∃ a suffix, line = a ++ suffix ∧ Ip4AddrText a values ∧ PrefixlenText 32 suffix prefixlen?

theorem ip4LineText_iff {line : List Char} (clean : nul ∉ line) {values : List Nat}
    {prefixlen? : Option Nat} :
    Ip4LineText line values prefixlen? ↔ ∃ a t?, parseIpSplitPrefixlen line = some (a, t?) ∧
      Ip4AddrText a values ∧ ReadsPrefixlen 32 t? prefixlen? :=
  exists_text_iff (by decide) clean fun _ text => text.slash

theorem parseIp4Addr_complete (buf : ParseIp4Data) {line : List Char} (addr : Ip4Addr w)
    (clean : nul ∉ line) {values : List Nat} {prefixlen? : Option Nat}
    (text : Ip4LineText line values prefixlen?) :
    (parseIp4Addr buf line addr).ret = .success ∧
      (parseIp4Addr buf line addr).addr =
        ⟨prefixlen?.getD (8 * values.length), ip4AddrOf values⟩ := by
  obtain ⟨a, t?, split, own, reads⟩ := (ip4LineText_iff clean).mp text
  rw [parseIp4Addr, split]
  exact parseIp4AddrSplit_complete buf own reads

theorem parseIp4Addr_sound {buf : ParseIp4Data} {line : List Char} {addr : Ip4Addr w}
    (clean : nul ∉ line) (good : (parseIp4Addr buf line addr).ret = .success) :
    ∃ values prefixlen?, Ip4LineText line values prefixlen? := by
  rw [parseIp4Addr] at good
  cases split : parseIpSplitPrefixlen line with
  | none => simp [split] at good
  | some parts =>
    obtain ⟨a, t?⟩ := parts
    rw [split] at good
    obtain ⟨values, prefixlen?, own, reads⟩ :=
      parseIp4AddrSplit_sound (text_of_parseIpSplitPrefixlen clean split).2 good
    exact ⟨values, prefixlen?, (ip4LineText_iff clean).mpr ⟨a, t?, split, own, reads⟩⟩

/-- The lines that are accepted, and the addresses that are made of them. -/
theorem parseIp4Addr_iff (buf : ParseIp4Data) (line : List Char) (addr : Ip4Addr w)
    (clean : nul ∉ line) :
    ((parseIp4Addr buf line addr).ret = .success ↔
      ∃ values prefixlen?, Ip4LineText line values prefixlen?) ∧
    ∀ values prefixlen?, Ip4LineText line values prefixlen? →
      (parseIp4Addr buf line addr).addr =
        ⟨prefixlen?.getD (8 * values.length), ip4AddrOf values⟩ := by
  refine ⟨⟨parseIp4Addr_sound clean, ?_⟩, ?_⟩
  · rintro ⟨values, prefixlen?, text⟩
    exact (parseIp4Addr_complete buf addr clean text).1
  · intro values prefixlen? text
    exact (parseIp4Addr_complete buf addr clean text).2

/-- Two groups, one of them with a sign and one with a blank in front of it, and a dot behind
them. -/
theorem parseIp4Addr_iff_signed :
    (parseIp4Addr (w := .bits64) .zero "+10. 1./8".toList ⟨0, 0⟩).addr =
      ⟨8, ip4AddrOf [10, 1]⟩ := by
  have text : Ip4LineText "+10. 1./8".toList [10, 1] (some 8) := by
    refine ⟨"+10. 1.".toList, "/8".toList, by decide +kernel, ?_, "8".toList, by decide +kernel,
      .of_parts [] [] [] "8".toList (by decide +kernel), by decide⟩
    refine ⟨["+10".toList, " 1".toList], .cons ⟨?_, by decide⟩ (.cons ⟨?_, by decide⟩ .nil),
      by simp, by decide, Or.inr ⟨by decide, by decide +kernel⟩⟩
    · exact .of_parts [] ['+'] [] "10".toList (by decide +kernel)
    · exact .of_parts [' '] [] [] "1".toList (by decide +kernel)
  exact (parseIp4Addr_iff .zero _ ⟨0, 0⟩ (by decide +kernel)).2 _ _ text

/-- Not only digits are accepted in a group. -/
theorem parseIp4Addr_plus :
    ¬ ∀ line, nul ∉ line →
      ((parseIp4Addr (w := .bits64) .zero line ⟨0, 0⟩).ret = .success ↔
        ∃ groups dot suffix, line = ['.'].intercalate groups ++ (dot ++ suffix) ∧
          1 ≤ groups.length ∧ groups.length ≤ 4 ∧
          (∀ g ∈ groups, g ≠ [] ∧ (∀ c ∈ g, isDigit 10 c = true) ∧ value 10 g ≤ 255) ∧
          (dot = [] ∨ dot = ['.'] ∧ groups.length < 4) ∧
          (suffix = [] ∨ ∃ t, suffix = '/' :: t ∧ t ≠ [] ∧ (∀ c ∈ t, isDigit 10 c = true) ∧
            value 10 t ≤ 32)) := by
  intro claim
  obtain ⟨groups, dot, suffix, cut, -, -, valid, dots, suffixes⟩ :=
    (claim ['+', '1'] (by decide)).mp (by decide +kernel)
  have mem : '+' ∈ ['.'].intercalate groups ++ (dot ++ suffix) := cut ▸ List.mem_cons_self
  rw [List.mem_append, List.mem_append] at mem
  rcases mem with inGroups | inDot | inSuffix
  · rcases mem_intercalate inGroups with other | ⟨g, own, here⟩
    · exact absurd other (by decide)
    · exact absurd ((valid g own).2.1 _ here) (by decide)
  · rcases dots with rfl | ⟨rfl, -⟩ <;> simp at inDot
  · rcases suffixes with rfl | ⟨t, rfl, -, digits, -⟩
    · cases inSuffix
    · rcases List.mem_cons.mp inSuffix with other | here
      · exact absurd other (by decide)
      · exact absurd (digits _ here) (by decide)

end IpDedup
