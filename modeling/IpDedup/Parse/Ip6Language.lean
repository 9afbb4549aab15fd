import IpDedup.Parse.Ip6
import IpDedup.Parse.Strtol

/-!
# The language of IPv6 addresses

Which lines `util/parse_ip/ip6.c` accepts, and the address that it makes of
them. As with IPv4, the groups are what `strtol` takes for numbers. An empty
block at the start of an address counts as a written zero, so the language is
the expected one only for lines without such a block, or where the block that
is counted does no harm.

## Main definitions

* `Ip6Group`, `Ip6AddrText`: groups, and addresses made of them
* `ip6AddrOf`: the address of some groups
* `LeadingColon`: lines that start with a single colon

## Main results

* `parseIp6Addr_iff`: the accepted lines and their addresses
-/

set_option autoImplicit false

open Numeral BitString

namespace IpDedup

/-- A group of an address and its value. -/
structure Ip6Group (g : List Char) (value : Nat) : Prop where
  numeral : StrtolNumeral 16 g value
  le : value ≤ 0xffff

/-- One to eight groups with colons between them, or at most seven groups around a double colon. -/
def Ip6AddrText (a : List Char) (left : List Nat) : Option (List Nat) → Prop
  | none => ∃ groups, List.Forall₂ Ip6Group groups left ∧ 1 ≤ left.length ∧ left.length ≤ 8 ∧
      a = [':'].intercalate groups
  | some right => ∃ groups groups', List.Forall₂ Ip6Group groups left ∧
      List.Forall₂ Ip6Group groups' right ∧ left.length + right.length ≤ 7 ∧
      a = [':'].intercalate groups ++ ':' :: ':' :: [':'].intercalate groups'

/-- The groups on the left, zeros, and the groups on the right. -/
def ip6AddrOf (left : List Nat) (right? : Option (List Nat)) : BitVec 128 :=
  BitVec.ofNat 128 (pack 16
    (left ++ (List.replicate (8 - left.length - (right?.getD []).length) 0 ++ right?.getD [])))

/-- A line that starts with a single colon. -/
def LeadingColon (line : List Char) : Prop :=
  line.head? = some ':' ∧ line.tail.head? ≠ some ':'

/-! ### Groups -/

section Groups

variable {g : List Char} {value : Nat}

theorem ip6Group_iff (nonempty : g ≠ []) :
    Ip6Group g value ↔ parseIp6AddrSplitReadBlock g = some value := by
  rw [parseIp6AddrSplitReadBlock, if_neg nonempty, parseIpReadDoubleOctet_iff (by decide) nonempty]
  exact ⟨fun group => ⟨group.numeral, group.le⟩, fun read => ⟨read.1, read.2⟩⟩

theorem Ip6Group.ne_nil (group : Ip6Group g value) : g ≠ [] := group.numeral.ne_nil

theorem Ip6Group.block (group : Ip6Group g value) : Ip6Block g value where
  fresh := group.numeral.not_mem (by decide) (by decide)
  read := (ip6Group_iff group.ne_nil).mp group

/-- A block is a group, or it is empty and counts as zero. -/
theorem Ip6Block.group (block : Ip6Block g value) : g = [] ∧ value = 0 ∨ Ip6Group g value := by
  by_cases empty : g = []
  · subst empty
    exact Or.inl ⟨rfl, (Option.some.inj block.read).symm⟩
  · exact Or.inr ((ip6Group_iff empty).mpr block.read)

variable {groups : List (List Char)} {values : List Nat}

theorem Ip6Group.forall₂_block (valid : List.Forall₂ Ip6Group groups values) :
    List.Forall₂ Ip6Block groups values ∧ ∀ g ∈ groups, g ≠ [] := by
  refine ⟨valid.imp fun _ _ group => group.block, fun g mem => ?_⟩
  obtain ⟨v, -, group⟩ := exists_mem_of_forall₂ valid mem
  exact group.ne_nil

theorem Ip6Block.forall₂_group (valid : List.Forall₂ Ip6Block groups values)
    (filled : ∀ g ∈ groups, g ≠ []) : List.Forall₂ Ip6Group groups values := by
  induction valid with
  | nil => exact .nil
  | cons first _ ih =>
    obtain ⟨front, filled⟩ := List.forall_mem_cons.mp filled
    exact .cons ((ip6Group_iff front).mpr first.read) (ih filled)

end Groups

/-! ### The loop over the blocks -/

section ReadBlocks

variable {buf : ParseIp6Data} {s : List Char}

/-- What the loop has read when it succeeds: blocks, and more blocks behind a double colon unless
there was one before. -/
def ReadsBlocks (buf : ParseIp6Data) (s : List Char) (out : ParseIp6Data) : Prop :=
  (s = [] ∧ out = buf) ∨
  (s ≠ [] ∧ ∃ groups values, List.Forall₂ Ip6Block groups values ∧ groups ≠ [] ∧
    (∀ g ∈ groups.tail, g ≠ []) ∧ s = [':'].intercalate groups ∧ out = buf.appendAll values) ∨
  (buf.onRight = false ∧ ∃ groups values groups' values',
    List.Forall₂ Ip6Block groups values ∧ groups ≠ [] ∧ (∀ g ∈ groups.tail, g ≠ []) ∧
    List.Forall₂ Ip6Group groups' values' ∧
    s = [':'].intercalate groups ++ ':' :: ':' :: [':'].intercalate groups' ∧
    out = ({ buf.appendAll values with onRight := true } : ParseIp6Data).appendAll values')

/-- Blocks behind a separator are not empty. -/
theorem filled_of_head {groups : List (List Char)} {tail : List Char}
    (filled : ∀ g ∈ groups.tail, g ≠ []) (more : [':'].intercalate groups ++ tail ≠ [])
    (single : ([':'].intercalate groups ++ tail).head? ≠ some ':')
    (colon : tail = [] ∨ tail.head? = some ':') : ∀ g ∈ groups, g ≠ [] := by
  cases groups with
  | nil => simp
  | cons g groups =>
    refine List.forall_mem_cons.mpr ⟨?_, filled⟩
    rintro rfl
    cases groups with
    | nil =>
      rcases colon with rfl | colon
      · simp at more
      · simp [colon] at single
    | cons g' groups => simp at single

variable {a : List Char} {value : Nat} {out : ParseIp6Data}

/-- A block in front of a single colon. -/
theorem ReadsBlocks.colon (block : Ip6Block a value) (more : s ≠ []) (single : s.head? ≠ some ':')
    (rest : ReadsBlocks (parseIp6DataAppend buf value) s out) :
    ReadsBlocks buf (a ++ ':' :: s) out := by
  rcases rest with ⟨rfl, -⟩ | ⟨-, groups, values, valid, nonempty, filled, rfl, rfl⟩ |
      ⟨left, groups, values, groups', values', valid, nonempty, filled, valid', rfl, rfl⟩
  · exact absurd rfl more
  · have all := filled_of_head filled (by rwa [List.append_nil]) (by rwa [List.append_nil])
      (Or.inl rfl)
    obtain ⟨g, gs, rfl⟩ := List.exists_cons_of_ne_nil nonempty
    refine Or.inr (Or.inl ⟨by simp, a :: g :: gs, value :: values, .cons block valid, by simp,
      all, ?_, ?_⟩)
    · simp
    · rfl
  · have all := filled_of_head filled more single (Or.inr rfl)
    obtain ⟨g, gs, rfl⟩ := List.exists_cons_of_ne_nil nonempty
    refine Or.inr (Or.inr ⟨by simpa using left, a :: g :: gs, value :: values, groups', values',
      .cons block valid, by simp, all, valid', ?_, ?_⟩)
    · simp
    · rfl

/-- A block in front of a double colon. -/
theorem ReadsBlocks.colons (block : Ip6Block a value) (left : buf.onRight = false)
    (single : s.head? ≠ some ':')
    (rest : ReadsBlocks { parseIp6DataAppend buf value with onRight := true } s out) :
    ReadsBlocks buf (a ++ ':' :: ':' :: s) out := by
  obtain ⟨groups, values, valid, rfl, rfl⟩ : ∃ groups values,
      List.Forall₂ Ip6Group groups values ∧ s = [':'].intercalate groups ∧
        out = ({ parseIp6DataAppend buf value with onRight := true } : ParseIp6Data).appendAll
          values := by
    rcases rest with ⟨rfl, rfl⟩ | ⟨more, groups, values, valid, -, filled, rfl, rfl⟩ | ⟨right, -⟩
    · exact ⟨[], [], .nil, rfl, rfl⟩
    · have all := filled_of_head filled (by rwa [List.append_nil]) (by rwa [List.append_nil])
        (Or.inl rfl)
      exact ⟨groups, values, Ip6Block.forall₂_group valid all, rfl, rfl⟩
    · cases right
  exact Or.inr (Or.inr ⟨left, [a], [value], groups, values, .cons block .nil, by simp, by simp,
    valid, by simp, rfl⟩)

theorem parseIp6AddrSplitReadBlocks_sound
    (good : (parseIp6AddrSplitReadBlocks buf s).1 = .success) :
    ReadsBlocks buf s (parseIp6AddrSplitReadBlocks buf s).2 ∧
      parseIp6AddrSplitCheckBlocks (parseIp6AddrSplitReadBlocks buf s).2 = .success := by
  fun_induction parseIp6AddrSplitReadBlocks buf s with
  | case1 buf => exact ⟨Or.inl ⟨rfl, rfl⟩, good⟩
  | case4 buf s nonempty free missing block read buf' =>
    -- the last block, as no separator follows
    have fresh : ':' ∉ s := by
      rcases strchr_cases ':' s with ⟨-, fresh⟩ | ⟨a, b, found, -⟩
      · exact fresh
      · simp [missing] at found
    refine ⟨Or.inr (Or.inl ⟨nonempty, [s], [block], .cons ⟨fresh, read⟩ .nil, by simp, by simp, ?_,
      rfl⟩), good⟩
    rw [List.intercalate_singleton]
  | case9 buf s nonempty free a rest found more switch rem single block read buf' buf'' switched
      ih =>
    -- a block in front of one or two colons, and the loop goes on behind them
    obtain ⟨a', rest', found', rfl, fresh⟩ :=
      (strchr_cases ':' s).resolve_left fun none => by simp [none.1] at found
    obtain ⟨rfl, rfl⟩ : a' = a ∧ rest' = rest := by simpa [found'] using found
    obtain ⟨reads, check⟩ := ih good
    refine ⟨?_, check⟩
    have own : Ip6Block a' block := ⟨fresh, read⟩
    by_cases colon : rest'.head? = some ':'
    · have right : switch = true := beq_iff_eq.mpr colon
      obtain ⟨s', rfl⟩ : ∃ s', rest' = ':' :: s' := List.head?_eq_some_iff.mp colon
      have behind : rem = s' := dif_pos right
      rw [dif_pos right] at switched
      obtain ⟨left, onRight⟩ : buf.onRight = false ∧
          { parseIp6DataAppend buf block with onRight := true } = buf'' := by
        simpa [parseIp6DataSwitchToRight, buf'] using switched
      rw [← onRight, behind] at reads ⊢
      exact reads.colons own left fun again => single ⟨right, behind ▸ again⟩
    · have same : switch = false := by simpa [switch] using colon
      have behind : rem = rest' := dif_neg (by rw [same]; decide)
      rw [dif_neg (by rw [same]; decide)] at switched
      obtain rfl : buf' = buf'' := Option.some.inj switched
      rw [behind] at reads ⊢
      exact reads.colon own more colon
  | case2 | case3 | case5 | case6 | case7 | case8 => cases good

end ReadBlocks

/-! ### Addresses -/

/-- The buffer after `left` blocks on the left and `right` blocks on the right. -/
def ip6Blocks (left right : List Nat) (onRight : Bool) : ParseIp6Data :=
  ⟨left.length, right.length, onRight, left ++ right, 0⟩

section Address

variable {a : List Char} {left : List Nat} {right? : Option (List Nat)}

theorem appendAll_left (values : List Nat) :
    ParseIp6Data.zero.appendAll values = ip6Blocks values [] false := by
  rw [ParseIp6Data.appendAll_left rfl]
  simp [ParseIp6Data.zero, ip6Blocks]

theorem appendAll_right (values values' : List Nat) :
    ({ ParseIp6Data.zero.appendAll values with onRight := true } : ParseIp6Data).appendAll values' =
      ip6Blocks values values' true := by
  rw [ParseIp6Data.appendAll_right rfl, appendAll_left]
  simp [ip6Blocks]

/-- The first block is a group, or it is empty in front of a double colon, or the address starts
with a single colon. -/
theorem blocks_cases {groups : List (List Char)} {values : List Nat}
    (valid : List.Forall₂ Ip6Block groups values) (nonempty : groups ≠ [])
    (filled : ∀ g ∈ groups.tail, g ≠ []) (tail : List Char) :
    List.Forall₂ Ip6Group groups values ∨ groups = [[]] ∧ values = [0] ∨
      LeadingColon ([':'].intercalate groups ++ tail) := by
  cases valid with
  | nil => exact absurd rfl nonempty
  | @cons g v groups values first rest =>
    have others := Ip6Block.forall₂_group rest filled
    rcases first.group with ⟨rfl, rfl⟩ | group
    · cases others with
      | nil => exact Or.inr (Or.inl ⟨rfl, rfl⟩)
      | @cons g' v' groups values second _ =>
        -- nothing, a colon and a group, whose first char is no colon
        refine Or.inr (Or.inr ⟨by simp, ?_⟩)
        have shape : ([':'].intercalate ([] :: g' :: groups) ++ tail).tail =
            [':'].intercalate (g' :: groups) ++ tail := by simp
        rw [shape, List.head?_append_of_ne_nil _ (intercalate_ne_nil second.ne_nil groups),
          head?_intercalate second.ne_nil]
        exact fun colon => second.block.fresh (List.mem_of_head? colon)
    · exact Or.inl (.cons group others)

theorem ip6Blocks_check {left right : List Nat}
    (check : parseIp6AddrSplitCheckBlocks (ip6Blocks left right true) = .success) :
    left.length + right.length ≤ 7 := by
  unfold parseIp6AddrSplitCheckBlocks at check
  split_ifs at check with none full
  have room : ¬ 8 ≤ (left ++ right).length := fun many => full ⟨rfl, many⟩
  rw [List.length_append] at room
  omega

/-- What the loop reads is an address, unless it starts with a single colon. -/
theorem exists_ip6AddrText (nonempty : a ≠ []) (single : ¬ LeadingColon a)
    (good : (parseIp6AddrSplitReadBlocks .zero a).1 = .success) :
    ∃ left right?, Ip6AddrText a left right? := by
  obtain ⟨reads, check⟩ := parseIp6AddrSplitReadBlocks_sound good
  have few : (parseIp6AddrSplitReadBlocks .zero a).2.numBlocks ≤ 8 :=
    parseIp6AddrSplitReadBlocks_numBlocks (Nat.zero_le 8)
  rcases reads with ⟨rfl, -⟩ | ⟨-, groups, values, valid, more, filled, rfl, out⟩ |
      ⟨-, groups, values, groups', values', valid, more, filled, valid', rfl, out⟩
  · exact absurd rfl nonempty
  · rw [out, appendAll_left, ParseIp6Data.numBlocks] at few
    simp only [ip6Blocks, List.append_nil] at few
    rcases blocks_cases valid more filled [] with all | ⟨rfl, -⟩ | leading
    · refine ⟨values, none, groups, all, ?_, few, rfl⟩
      rw [← valid.length_eq]
      exact List.length_pos_iff.mpr more
    · exact absurd rfl nonempty
    · rw [List.append_nil] at leading
      exact absurd leading single
  · rw [out, appendAll_right] at check
    have room := ip6Blocks_check check
    rcases blocks_cases valid more filled _ with all | ⟨rfl, rfl⟩ | leading
    · exact ⟨values, some values', groups, groups', all, valid', room, rfl⟩
    · -- the empty block was counted, but it is no group
      rw [List.length_singleton] at room
      exact ⟨[], some values', [], groups', .nil, valid', by rw [List.length_nil]; omega, rfl⟩
    · exact absurd leading single

/-- The blocks that the loop leaves for an address: without a group on the left there is one
nevertheless. -/
def writtenLeft (left : List Nat) (right? : Option (List Nat)) : List Nat :=
  if left = [] ∧ right?.isSome then [0] else left

/-- The loop reads blocks around a double colon. -/
theorem parseIp6AddrSplitReadBlocks_around {groups groups' : List (List Char)}
    {values values' : List Nat} (valid : List.Forall₂ Ip6Block groups values)
    (nonempty : groups ≠ []) (filled : ∀ g ∈ groups.tail, g ≠ [])
    (valid' : List.Forall₂ Ip6Group groups' values')
    (room : values.length + values'.length ≤ 7) :
    parseIp6AddrSplitReadBlocks .zero
        ([':'].intercalate groups ++ ':' :: ':' :: [':'].intercalate groups') =
      (.success, ip6Blocks values values' true) := by
  have length := valid.length_eq
  have length' := valid'.length_eq
  have check : parseIp6AddrSplitCheckBlocks (ip6Blocks values values' true) = .success := by
    have some : 1 ≤ groups.length := List.length_pos_iff.mpr nonempty
    simp only [parseIp6AddrSplitCheckBlocks, ParseIp6Data.numBlocks, ip6Blocks,
      List.length_append, parseIp6BlockCount]
    rw [if_neg (by omega), if_neg (by omega)]
  have single : ([':'].intercalate groups').head? ≠ some ':' := by
    cases valid' with
    | nil => simp
    | cons first _ =>
      rw [head?_intercalate first.ne_nil]
      exact fun colon => first.block.fresh (List.mem_of_head? colon)
  rw [parseIp6AddrSplitReadBlocks_doubleColon valid nonempty filled
    (show ParseIp6Data.zero.blocks.length + groups.length ≤ 8 by
      simp only [ParseIp6Data.zero, List.length_nil]; omega) rfl single]
  cases valid' with
  | nil =>
    -- the double colon ends the text
    have empty := appendAll_right values []
    rw [show ([':'].intercalate [] : List Char) = [] from rfl, parseIp6AddrSplitReadBlocks,
      if_pos rfl]
    rw [ParseIp6Data.appendAll, List.foldl_nil] at empty
    rw [empty, check]
  | cons first rest =>
    obtain ⟨blocks, filled'⟩ := Ip6Group.forall₂_block (.cons first rest)
    have left : (ParseIp6Data.zero.appendAll values).blocks.length = values.length := by
      rw [appendAll_left]
      simp [ip6Blocks]
    rw [parseIp6AddrSplitReadBlocks_blocks blocks (by simp) filled' (by rw [left]; omega),
      appendAll_right, check]

/-- The loop reads an address, except for seven groups behind a double colon. -/
theorem Ip6AddrText.read (text : Ip6AddrText a left right?)
    (room : ¬ (left = [] ∧ (right?.getD []).length = 7)) :
    parseIp6AddrSplitReadBlocks .zero a =
      (.success, ip6Blocks (writtenLeft left right?) (right?.getD []) right?.isSome) := by
  cases right? with
  | none =>
    obtain ⟨groups, valid, some, few, rfl⟩ := text
    obtain ⟨blocks, filled⟩ := Ip6Group.forall₂_block valid
    have length := valid.length_eq
    have nonempty : groups ≠ [] := List.length_pos_iff.mp (by omega)
    have check : parseIp6AddrSplitCheckBlocks (ip6Blocks left [] false) = .success := by
      simp only [parseIp6AddrSplitCheckBlocks, ParseIp6Data.numBlocks, ip6Blocks,
        List.append_nil]
      rw [if_neg (by omega), if_neg (by simp [parseIp6DataHasDoubleColon])]
    rw [parseIp6AddrSplitReadBlocks_blocks blocks nonempty filled
      (show ParseIp6Data.zero.blocks.length + groups.length ≤ 8 by
        simp only [ParseIp6Data.zero, List.length_nil]; omega), appendAll_left, check]
    simp [writtenLeft]
  | some right =>
    obtain ⟨groups, groups', valid, valid', few, rfl⟩ := text
    cases valid with
    | nil =>
      -- the empty block counts as a zero, so there must be room for one more
      have fewer : 1 + right.length ≤ 7 := by
        have other : right.length ≠ 7 := fun seven => room ⟨rfl, seven⟩
        rw [List.length_nil] at few
        omega
      have empty : List.Forall₂ Ip6Block [[]] [0] := .cons ⟨by simp, rfl⟩ .nil
      have read := parseIp6AddrSplitReadBlocks_around empty (by simp) (by simp) valid' fewer
      exact read
    | @cons g v groups left first rest =>
      obtain ⟨blocks, filled⟩ := Ip6Group.forall₂_block (.cons first rest)
      have same : writtenLeft (v :: left) (some right) = v :: left := if_neg (by simp)
      rw [same]
      exact parseIp6AddrSplitReadBlocks_around blocks (by simp)
        (fun g mem => filled g (List.mem_of_mem_tail mem)) valid' few

/-! ### Putting the groups together -/

theorem toBitVec_or_low {high low chunk : BitVec 64} :
    (⟨high, low ||| chunk⟩ : Ip6AddrData).toBitVec =
      (⟨high, low⟩ : Ip6AddrData).toBitVec ||| (0#64 ++ chunk) := by
  rw [Ip6AddrData.toBitVec, Ip6AddrData.toBitVec, BitVec.or_append, BitVec.or_zero]

theorem toBitVec_or_high {high low chunk : BitVec 64} :
    (⟨high ||| chunk, low⟩ : Ip6AddrData).toBitVec =
      (⟨high, low⟩ : Ip6AddrData).toBitVec ||| (chunk ++ 0#64) := by
  rw [Ip6AddrData.toBitVec, Ip6AddrData.toBitVec, BitVec.or_append, BitVec.or_zero]

section Chunk

variable {block place : Nat}

theorem shiftLeft_lt (small : block < 2 ^ 16) (place : Nat) :
    block <<< (16 * place) < 2 ^ (16 * (place + 1)) := by
  rw [Nat.shiftLeft_eq]
  calc block * 2 ^ (16 * place)
      < 2 ^ 16 * 2 ^ (16 * place) := Nat.mul_lt_mul_of_pos_right small (by positivity)
    _ = 2 ^ (16 * (place + 1)) := by rw [← Nat.pow_add]; congr 1; ring

/-- A group in its place in a word that is wide enough. -/
theorem toNat_ofNat_shiftLeft {n : Nat} (small : block < 2 ^ 16) (inside : 16 * (place + 1) ≤ n) :
    (BitVec.ofNat n block <<< (16 * place)).toNat = block <<< (16 * place) := by
  rw [← ofNat_shiftLeft, BitVec.toNat_ofNat, Nat.mod_eq_of_lt]
  exact (shiftLeft_lt small place).trans_le (Nat.pow_le_pow_right (by decide) inside)

theorem zero_append_group (small : block < 2 ^ 16) (inside : place < 4) :
    0#64 ++ BitVec.ofNat 64 block <<< (16 * place) = BitVec.ofNat 128 block <<< (16 * place) := by
  apply BitVec.eq_of_toNat_eq
  rw [BitVec.toNat_append, toNat_ofNat_shiftLeft small (by omega),
    toNat_ofNat_shiftLeft small (by omega)]
  simp

theorem group_append_zero (small : block < 2 ^ 16) (inside : place < 4) :
    BitVec.ofNat 64 block <<< (16 * place) ++ 0#64 =
      BitVec.ofNat 128 block <<< (16 * (place + 4)) := by
  apply BitVec.eq_of_toNat_eq
  rw [BitVec.toNat_append, toNat_ofNat_shiftLeft small (by omega),
    toNat_ofNat_shiftLeft small (by omega), ← Nat.shiftLeft_add, Nat.mul_add]
  simp

end Chunk

/-- The groups are shifted into their places. -/
theorem parseIp6AddrSplitMakeAddrConsume_eq (bits : Ip6AddrData) {remaining : Nat}
    {blocks : List Nat} (room : blocks.length ≤ remaining) (few : remaining ≤ 8)
    (small : ∀ b ∈ blocks, b < 2 ^ 16) :
    (parseIp6AddrSplitMakeAddrConsume bits remaining blocks).toBitVec =
      bits.toBitVec |||
        BitVec.ofNat 128 (pack 16 blocks) <<< (16 * (remaining - blocks.length)) := by
  induction blocks generalizing bits remaining with
  | nil => simp [parseIp6AddrSplitMakeAddrConsume]
  | cons block blocks ih =>
    obtain ⟨first, others⟩ := List.forall_mem_cons.mp small
    rw [List.length_cons] at room
    -- the first group goes `place` groups from the end, and the others follow it
    obtain ⟨place, rfl⟩ : ∃ place, remaining = place + 1 := ⟨remaining - 1, by omega⟩
    have position : 16 * place =
        16 * (blocks.length + (place + 1 - (block :: blocks).length)) := by
      rw [List.length_cons]
      omega
    have rest : place + 1 - (block :: blocks).length = place - blocks.length := by
      rw [List.length_cons]
      omega
    have step (bits' : Ip6AddrData)
        (put : bits'.toBitVec = bits.toBitVec ||| BitVec.ofNat 128 block <<< (16 * place)) :
        (parseIp6AddrSplitMakeAddrConsume bits' place blocks).toBitVec = bits.toBitVec |||
          BitVec.ofNat 128 (pack 16 (block :: blocks)) <<<
            (16 * (place + 1 - (block :: blocks).length)) := by
      rw [ih bits' (by omega) (by omega) others, put, BitVec.or_assoc, ← rest,
        shiftLeft_or_pack _ others position]
    rw [parseIp6AddrSplitMakeAddrConsume]
    apply step
    rw [Nat.add_sub_cancel, parseIp6BlockBase, Nat.mul_comm (place % 4)]
    by_cases low : place < 4
    · rw [if_pos low, Nat.mod_eq_of_lt low, toBitVec_or_low, zero_append_group first low]
    · obtain ⟨place, rfl⟩ : ∃ p, place = p + 4 := ⟨place - 4, by omega⟩
      have inside : place < 4 := by omega
      rw [if_neg low, Nat.add_mod_right, Nat.mod_eq_of_lt inside, toBitVec_or_high,
        group_append_zero first inside]

theorem parseIp6AddrSplitMakeAddr_blocks {left right : List Nat} (onRight : Bool) (prefixlen : Nat)
    (room : left.length + right.length ≤ 8) (small : ∀ b ∈ left ++ right, b < 2 ^ 16) :
    (parseIp6AddrSplitMakeAddr { ip6Blocks left right onRight with prefixlen := prefixlen }
        ip6AddrInitNull).addr.toBitVec =
      BitVec.ofNat 128 (pack 16
        (left ++ (List.replicate (8 - left.length - right.length) 0 ++ right))) := by
  obtain ⟨smallL, smallR⟩ := List.forall_mem_append.mp small
  have zero : ip6AddrInitNull.addr.toBitVec = 0#128 := by decide
  have place : 16 * (List.replicate (8 - left.length - right.length) 0 ++ right).length =
      16 * (8 - left.length) := by
    rw [List.length_append, List.length_replicate]
    omega
  have below : pack 16 right < 2 ^ (16 * (8 - left.length)) :=
    (pack_lt smallR).trans_le (Nat.pow_le_pow_right (by decide) (by omega))
  simp only [parseIp6AddrSplitMakeAddr, ip6Blocks, List.take_left, List.drop_left, List.take_length]
  rw [parseIp6AddrSplitMakeAddrConsume_eq _ (Nat.le_refl _) (by omega) smallR,
    parseIp6AddrSplitMakeAddrConsume_eq _ (by unfold parseIp6BlockCount; omega) (by decide) smallL,
    zero, BitVec.zero_or, Nat.sub_self, Nat.mul_zero, BitVec.shiftLeft_zero, pack_append, place,
    zeros_pack, ← ofNat_shiftLeft, ← BitVec.ofNat_or, ← Nat.shiftLeft_eq,
    Nat.shiftLeft_add_eq_or_of_lt below]
  rfl

/-- An empty block on the left is a zero like those that are missing. -/
theorem ip6AddrOf_writtenLeft (left : List Nat) (right? : Option (List Nat)) :
    BitVec.ofNat 128 (pack 16 (writtenLeft left right? ++ (List.replicate
        (8 - (writtenLeft left right?).length - (right?.getD []).length) 0 ++ right?.getD []))) =
      ip6AddrOf left right? := by
  unfold ip6AddrOf writtenLeft
  split_ifs with empty
  · obtain ⟨rfl, -⟩ := empty
    have one : [0] = List.replicate 1 0 := rfl
    rw [one, zeros_pack, zeros_pack, List.nil_append, zeros_pack]
  · rfl

/-- There is room for the groups, also for one more where none is written on the left. -/
theorem Ip6AddrText.blocks (text : Ip6AddrText a left right?) :
    (writtenLeft left right?).length + (right?.getD []).length ≤ 8 ∧
      ∀ b ∈ writtenLeft left right? ++ right?.getD [], b < 2 ^ 16 := by
  have small {groups : List (List Char)} {values : List Nat}
      (valid : List.Forall₂ Ip6Group groups values) : ∀ b ∈ values, b < 2 ^ 16 := by
    intro b mem
    obtain ⟨g, -, group⟩ := exists_mem_of_forall₂ valid.flip mem
    exact Nat.lt_succ_of_le group.le
  cases right? with
  | none =>
    obtain ⟨groups, valid, -, few, -⟩ := text
    simpa [writtenLeft] using ⟨few, small valid⟩
  | some right =>
    -- a double colon leaves room for a group
    obtain ⟨groups, groups', valid, valid', few, -⟩ := text
    rw [Option.getD_some, writtenLeft]
    split_ifs with none
    · refine ⟨by rw [List.length_singleton]; omega, ?_⟩
      exact List.forall_mem_append.mpr ⟨by simp, small valid'⟩
    · exact ⟨by omega, List.forall_mem_append.mpr ⟨small valid, small valid'⟩⟩

/-- The chars of an address. -/
theorem Ip6AddrText.mem (text : Ip6AddrText a left right?) {c : Char} (mem : c ∈ a) :
    c = ':' ∨ ∃ g v, Ip6Group g v ∧ c ∈ g := by
  have inside {groups : List (List Char)} {values : List Nat}
      (valid : List.Forall₂ Ip6Group groups values) (mem : c ∈ [':'].intercalate groups) :
      c = ':' ∨ ∃ g v, Ip6Group g v ∧ c ∈ g := by
    refine (mem_intercalate mem).imp_right ?_
    rintro ⟨g, own, here⟩
    obtain ⟨v, -, group⟩ := exists_mem_of_forall₂ valid own
    exact ⟨g, v, group, here⟩
  cases right? with
  | none =>
    obtain ⟨groups, valid, -, -, rfl⟩ := text
    exact inside valid mem
  | some right =>
    obtain ⟨groups, groups', valid, valid', -, rfl⟩ := text
    rw [List.mem_append, List.mem_cons, List.mem_cons] at mem
    rcases mem with front | colon | colon | back
    · exact inside valid front
    · exact Or.inl colon
    · exact Or.inl colon
    · exact inside valid' back

theorem Ip6AddrText.slash (text : Ip6AddrText a left right?) : a ≠ [] ∧ '/' ∉ a := by
  constructor
  · cases right? with
    | none =>
      obtain ⟨groups, valid, some, -, rfl⟩ := text
      cases valid with
      | nil => simp at some
      | cons first _ => exact intercalate_ne_nil first.ne_nil _
    | some right =>
      obtain ⟨groups, groups', -, -, -, rfl⟩ := text
      simp
  · intro mem
    rcases text.mem mem with colon | ⟨g, v, group, inside⟩
    · exact absurd colon (by decide)
    · exact group.numeral.not_mem (by decide) (by decide) inside

variable {t? : Option (List Char)} {prefixlen? : Option Nat}

/-- The prefix length is read, or guessed. -/
theorem ReadsPrefixlen.ip6 (reads : ReadsPrefixlen 128 t? prefixlen?) (buf : ParseIp6Data) :
    ∃ prefixlen, parseIp6AddrSplitReadPrefixlen buf t? =
      (.success, { buf with prefixlen := prefixlen }) ∧ ∀ p ∈ prefixlen?, prefixlen = p := by
  match t?, prefixlen? with
  | none, none => exact ⟨_, rfl, by simp⟩
  | some t, some p =>
    obtain ⟨-, read, le⟩ := reads
    have fits : ¬ p > ip6MaxPrefixlen := Nat.not_lt.mpr le
    refine ⟨p, ?_, by simp⟩
    simp [parseIp6AddrSplitReadPrefixlen, read, fits]

theorem exists_readsPrefixlen_ip6 {buf : ParseIp6Data} (suffix : ∀ t ∈ t?, t ≠ [])
    (good : (parseIp6AddrSplitReadPrefixlen buf t?).1 = .success) :
    ∃ prefixlen?, ReadsPrefixlen 128 t? prefixlen? := by
  cases t? with
  | none => exact ⟨none, trivial⟩
  | some t =>
    cases read : parseIpReadOctet t 10 with
    | none => simp [parseIp6AddrSplitReadPrefixlen, read] at good
    | some octet =>
      simp only [parseIp6AddrSplitReadPrefixlen, read] at good
      split_ifs at good with long
      exact ⟨some octet, suffix t rfl, read, Nat.le_of_not_lt long⟩

theorem parseIp6AddrSplit_complete (buf : ParseIp6Data) (plain : PlainAddr a)
    (text : Ip6AddrText a left right?) (room : ¬ (left = [] ∧ (right?.getD []).length = 7))
    (reads : ReadsPrefixlen 128 t? prefixlen?) :
    (parseIp6AddrSplit buf a t?).ret = .success ∧
      (parseIp6AddrSplit buf a t?).addr.addr.toBitVec = ip6AddrOf left right? ∧
      ∀ p ∈ prefixlen?, (parseIp6AddrSplit buf a t?).addr.prefixlen = p := by
  obtain ⟨few, small⟩ := text.blocks
  obtain ⟨prefixlen, suffix, own⟩ :=
    reads.ip6 (ip6Blocks (writtenLeft left right?) (right?.getD []) right?.isSome)
  rw [parseIp6AddrSplit_blocks text.slash.1 plain (text.read room) suffix]
  refine ⟨rfl, ?_, own⟩
  rw [← ip6AddrOf_writtenLeft left right?]
  exact parseIp6AddrSplitMakeAddr_blocks _ prefixlen few small

theorem parseIp6AddrSplit_sound {buf : ParseIp6Data} (single : ¬ LeadingColon a)
    (suffix : ∀ t ∈ t?, t ≠ []) (good : (parseIp6AddrSplit buf a t?).ret = .success) :
    ∃ left right? prefixlen?, PlainAddr a ∧ Ip6AddrText a left right? ∧
      ReadsPrefixlen 128 t? prefixlen? := by
  have nonempty : a ≠ [] := by
    rintro rfl
    simp [parseIp6AddrSplit_nil] at good
  have plain : PlainAddr a := by
    by_contra hex
    simp [parseIp6AddrSplit_hex hex] at good
  rw [parseIp6AddrSplit_plain nonempty plain] at good
  split_ifs at good with blocks
  · obtain ⟨left, right?, text⟩ := exists_ip6AddrText nonempty single blocks
    obtain ⟨prefixlen?, reads⟩ := exists_readsPrefixlen_ip6 suffix good
    exact ⟨left, right?, prefixlen?, plain, text, reads⟩
  · exact absurd good blocks

end Address

/-! ### Lines -/

/-- An address, and an optional suffix with a prefix length up to 128. -/
def Ip6LineText (line : List Char) (left : List Nat) (right? : Option (List Nat))
    (prefixlen? : Option Nat) : Prop :=
  ∃ a suffix, line = a ++ suffix ∧ (PlainAddr a ∧ Ip6AddrText a left right?) ∧
    PrefixlenText 128 suffix prefixlen?

section Lines

variable {line : List Char} {left : List Nat} {right? : Option (List Nat)} {prefixlen? : Option Nat}

theorem ip6LineText_iff (clean : nul ∉ line) :
    Ip6LineText line left right? prefixlen? ↔ ∃ a t?, parseIpSplitPrefixlen line = some (a, t?) ∧
      (PlainAddr a ∧ Ip6AddrText a left right?) ∧ ReadsPrefixlen 128 t? prefixlen? :=
  exists_text_iff (by decide) clean fun _ text => text.2.slash

/-- A single colon at the start of the address is one at the start of the line. -/
theorem LeadingColon.append {a : List Char} (leading : LeadingColon a) (t? : Option (List Char)) :
    LeadingColon (a ++ (t?.elim [] fun t => '/' :: t)) := by
  obtain ⟨first, second⟩ := leading
  obtain ⟨a, rfl⟩ := List.head?_eq_some_iff.mp first
  refine ⟨by simp, ?_⟩
  cases a with
  | nil => cases t? <;> simp
  | cons c a => simpa using second

theorem parseIp6Addr_complete (buf : ParseIp6Data) (addr : Ip6Addr) (clean : nul ∉ line)
    (text : Ip6LineText line left right? prefixlen?)
    (room : ¬ (left = [] ∧ (right?.getD []).length = 7)) :
    (parseIp6Addr buf line addr).ret = .success ∧
      (parseIp6Addr buf line addr).addr.addr.toBitVec = ip6AddrOf left right? ∧
      ∀ p ∈ prefixlen?, (parseIp6Addr buf line addr).addr.prefixlen = p := by
  obtain ⟨a, t?, split, ⟨plain, own⟩, reads⟩ := (ip6LineText_iff clean).mp text
  rw [parseIp6Addr, split]
  exact parseIp6AddrSplit_complete buf plain own room reads

theorem parseIp6Addr_sound {buf : ParseIp6Data} {addr : Ip6Addr} (clean : nul ∉ line)
    (single : ¬ LeadingColon line) (good : (parseIp6Addr buf line addr).ret = .success) :
    ∃ left right? prefixlen?, Ip6LineText line left right? prefixlen? := by
  rw [parseIp6Addr] at good
  cases split : parseIpSplitPrefixlen line with
  | none => simp [split] at good
  | some parts =>
    obtain ⟨a, t?⟩ := parts
    rw [split] at good
    obtain ⟨cut, suffix⟩ := text_of_parseIpSplitPrefixlen clean split
    obtain ⟨left, right?, prefixlen?, plain, own, reads⟩ :=
      parseIp6AddrSplit_sound (fun leading => single (cut ▸ leading.append t?)) suffix good
    exact ⟨left, right?, prefixlen?,
      (ip6LineText_iff clean).mpr ⟨a, t?, split, ⟨plain, own⟩, reads⟩⟩

/-- The lines that are accepted, and the addresses that are made of them, where no empty block is
counted as a written one. -/
theorem parseIp6Addr_iff (buf : ParseIp6Data) (line : List Char) (addr : Ip6Addr)
    (clean : nul ∉ line) (single : ¬ LeadingColon line)
    (room : ¬ ∃ right prefixlen?, right.length = 7 ∧ Ip6LineText line [] (some right) prefixlen?) :
    ((parseIp6Addr buf line addr).ret = .success ↔
      ∃ left right? prefixlen?, Ip6LineText line left right? prefixlen?) ∧
    ∀ left right? prefixlen?, Ip6LineText line left right? prefixlen? →
      (parseIp6Addr buf line addr).addr.addr.toBitVec = ip6AddrOf left right? ∧
      ∀ p ∈ prefixlen?, (parseIp6Addr buf line addr).addr.prefixlen = p := by
  have complete {left : List Nat} {right? : Option (List Nat)} {prefixlen? : Option Nat}
      (text : Ip6LineText line left right? prefixlen?) := by
    refine parseIp6Addr_complete buf addr clean text ?_
    rintro ⟨rfl, seven⟩
    cases right? with
    | none => simp at seven
    | some right => exact room ⟨right, prefixlen?, seven, text⟩
  refine ⟨⟨parseIp6Addr_sound clean single, ?_⟩, ?_⟩
  · rintro ⟨left, right?, prefixlen?, text⟩
    exact (complete text).1
  · intro left right? prefixlen? text
    exact (complete text).2

end Lines

/-- Groups on both sides of a double colon, one of them with a sign. -/
theorem parseIp6Addr_iff_signed :
    (parseIp6Addr .zero "fe80::+1/64".toList ip6AddrInitNull).addr.addr.toBitVec =
        ip6AddrOf [0xfe80] (some [1]) ∧
      ∀ p ∈ some 64,
        (parseIp6Addr .zero "fe80::+1/64".toList ip6AddrInitNull).addr.prefixlen = p := by
  have text : Ip6LineText "fe80::+1/64".toList [0xfe80] (some [1]) (some 64) := by
    refine ⟨"fe80::+1".toList, "/64".toList, by decide +kernel, ⟨by simp [PlainAddr], ?_⟩,
      "64".toList, by decide +kernel, .of_parts [] [] [] "64".toList (by decide +kernel), by decide⟩
    refine ⟨["fe80".toList], ["+1".toList], .cons ⟨?_, by decide⟩ .nil, .cons ⟨?_, by decide⟩ .nil,
      by decide, by decide +kernel⟩
    · exact .of_parts [] [] [] "fe80".toList (by decide +kernel)
    · exact .of_parts [] ['+'] [] "1".toList (by decide +kernel)
  have room : ¬ ∃ right prefixlen?, right.length = 7 ∧
      Ip6LineText "fe80::+1/64".toList [] (some right) prefixlen? := by
    rintro ⟨right, prefixlen?, -, a, suffix, cut, ⟨-, groups, groups', none, -, -, rfl⟩, -⟩
    cases none
    have first := congrArg List.head? cut
    simp at first
  exact (parseIp6Addr_iff .zero _ ip6AddrInitNull (by decide +kernel)
    (fun leading => by simpa using leading.1) room).2 _ _ _ text

/-- Not only digits are accepted in a group. -/
theorem parseIp6Addr_plus :
    ¬ ∀ line, nul ∉ line →
      ((parseIp6Addr .zero line ip6AddrInitNull).ret = .success ↔
        ∃ a suffix, line = a ++ suffix ∧
          ((∃ groups, 1 ≤ groups.length ∧ groups.length ≤ 8 ∧
              (∀ g ∈ groups, g ≠ [] ∧ (∀ c ∈ g, isDigit 16 c = true) ∧ value 16 g ≤ 0xffff) ∧
              a = [':'].intercalate groups) ∨
            ∃ groups groups', groups.length + groups'.length ≤ 7 ∧
              (∀ g ∈ groups ++ groups',
                g ≠ [] ∧ (∀ c ∈ g, isDigit 16 c = true) ∧ value 16 g ≤ 0xffff) ∧
              a = [':'].intercalate groups ++ ':' :: ':' :: [':'].intercalate groups') ∧
          (suffix = [] ∨ ∃ t, suffix = '/' :: t ∧ t ≠ [] ∧ (∀ c ∈ t, isDigit 10 c = true) ∧
            value 10 t ≤ 128)) := by
  intro claim
  obtain ⟨a, suffix, cut, address, suffixes⟩ :=
    (claim ['+', '1'] (by decide)).mp (by decide +kernel)
  -- a plus sign stands nowhere in such a line
  have inside {groups : List (List Char)}
      (valid : ∀ g ∈ groups, g ≠ [] ∧ (∀ c ∈ g, isDigit 16 c = true) ∧ value 16 g ≤ 0xffff) :
      '+' ∉ [':'].intercalate groups := by
    intro mem
    rcases mem_intercalate mem with other | ⟨g, own, here⟩
    · exact absurd other (by decide)
    · exact absurd ((valid g own).2.1 _ here) (by decide)
  have mem : '+' ∈ a ++ suffix := cut ▸ List.mem_cons_self
  rcases List.mem_append.mp mem with inAddress | inSuffix
  · rcases address with ⟨groups, -, -, valid, rfl⟩ | ⟨groups, groups', -, valid, rfl⟩
    · exact inside valid inAddress
    · obtain ⟨left, right⟩ := List.forall_mem_append.mp valid
      rw [List.mem_append, List.mem_cons, List.mem_cons] at inAddress
      rcases inAddress with front | colon | colon | back
      · exact inside left front
      · exact absurd colon (by decide)
      · exact absurd colon (by decide)
      · exact inside right back
  · rcases suffixes with rfl | ⟨t, rfl, -, digits, -⟩
    · cases inSuffix
    · rcases List.mem_cons.mp inSuffix with other | here
      · exact absurd other (by decide)
      · exact absurd (digits _ here) (by decide)

end IpDedup
