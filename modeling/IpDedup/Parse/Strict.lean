import IpDedup.Ip.IsNet
import IpDedup.Parse.Ip4
import IpDedup.Parse.Ip6

/-!
# Strict parsing

The strict parsers accept what the lax ones accept if no host bit is set. The
test for host bits shifts by the operand width for networks of length zero, and
only for those.

## Main definitions

* `parseIp4NetAddr?`, `parseIp6NetAddr?`: the strict parsers, undefined where a shift is
* `StrictOf`: a strict parser refines a lax one
* `ZeroPrefixlen`: the lines with a written prefix length of zero

## Main results

* `parseNetAddr_strictOf_iff`: the strict parsers of both families
-/

set_option autoImplicit false

open BitMask

namespace IpDedup

variable {w : UintFast32}

/-- `parse_ip4_net_addr` without what a platform does beyond the operand width. -/
def parseIp4NetAddr? (buf : ParseIp4Data) (line : List Char) (addr : Ip4Addr w) :
    Option (ParsedIp4 w) :=
  let out := parseIp4Addr buf line addr
  if out.ret ≠ .success then some out
  else do
    let isNet ← ip4AddrIsNet? out.addr
    pure (if isNet then out else { out with ret := .invalidNet })

/-- `parse_ip6_net_addr` without what a platform does beyond the operand width. -/
def parseIp6NetAddr? (buf : ParseIp6Data) (line : List Char) (addr : Ip6Addr) :
    Option ParsedIp6 :=
  let out := parseIp6Addr buf line addr
  if out.ret ≠ .success then some out
  else do
    let isNet ← ip6AddrIsNet? out.addr
    pure (if isNet then out else { out with ret := .invalidNet })

/-- Where strict parsing is defined, no platform has a say. -/
theorem parseIp4NetAddr_of_defined {P : Platform} {buf : ParseIp4Data} {line : List Char}
    {addr : Ip4Addr P.fast32} {out : ParsedIp4 P.fast32}
    (defined : parseIp4NetAddr? buf line addr = some out) :
    parseIp4NetAddr P buf line addr = out := by
  simp only [parseIp4NetAddr?] at defined
  simp only [parseIp4NetAddr]
  split_ifs at defined ⊢ with failed isNet
  · exact Option.some.inj defined
  all_goals
    obtain ⟨b, test, value⟩ := Option.bind_eq_some_iff.mp defined
    rw [ip4AddrIsNet_of_defined test] at isNet
    simpa [isNet] using value

theorem parseIp6NetAddr_of_defined {P : Platform} {buf : ParseIp6Data} {line : List Char}
    {addr : Ip6Addr} {out : ParsedIp6} (defined : parseIp6NetAddr? buf line addr = some out) :
    parseIp6NetAddr P buf line addr = out := by
  simp only [parseIp6NetAddr?] at defined
  simp only [parseIp6NetAddr]
  split_ifs at defined ⊢ with failed isNet
  · exact Option.some.inj defined
  all_goals
    obtain ⟨b, test, value⟩ := Option.bind_eq_some_iff.mp defined
    rw [ip6AddrIsNet_of_defined test] at isNet
    simpa [isNet] using value

/-- What strict parsing makes of the outcome of lax parsing and the host bits, if it is defined. -/
def StrictOf (lax : ParseIpRet) (noHostBits : Prop) (strict : Option ParseIpRet) : Prop :=
  ∃ ret, strict = some ret ∧ (ret = .success ↔ lax = .success ∧ noHostBits) ∧
    (ret = .invalidNet ↔ lax = .success ∧ ¬ noHostBits)

section StrictOf

variable {lax : ParseIpRet} {noHostBits : Prop}

theorem StrictOf.of_failed (failed : lax ≠ .success) (lenient : lax ≠ .invalidNet) :
    StrictOf lax noHostBits (some lax) :=
  ⟨lax, rfl, by simp [failed], by simp [failed, lenient]⟩

theorem StrictOf.of_success [Decidable noHostBits] :
    StrictOf .success noHostBits
      (some (if decide noHostBits = true then .success else .invalidNet)) := by
  refine ⟨_, rfl, ?_, ?_⟩
  · by_cases none : noHostBits <;> simp [none]
  · by_cases none : noHostBits <;> simp [none]

/-- An exact test for host bits refines lax parsing where it is defined. -/
theorem strictOf_iff [Decidable noHostBits] {isNet? : Option Bool} {zero : Prop} [Decidable zero]
    (lenient : lax ≠ .invalidNet)
    (test : lax = .success → isNet? = if zero then none else some (decide noHostBits)) :
    StrictOf lax noHostBits (if lax ≠ .success then some lax
        else isNet?.map fun isNet => if isNet then lax else .invalidNet) ↔
      ¬ (lax = .success ∧ zero) := by
  by_cases good : lax = .success
  · subst good
    rw [if_neg (by simp), test rfl]
    by_cases undefined : zero
    · -- the test shifts by the operand width
      rw [if_pos undefined]
      refine iff_of_false ?_ (by simp [undefined])
      rintro ⟨ret, defined, -⟩
      cases defined
    · rw [if_neg undefined]
      exact iff_of_true .of_success (by simp [undefined])
  · rw [if_pos good]
    exact iff_of_true (.of_failed good lenient) (by simp [good])

end StrictOf

/-- An address that is accepted, and a prefix length that is read as zero. -/
def ZeroPrefixlen (accepts : List Char → Prop) (line : List Char) : Prop :=
  ∃ addrStr prefixlenStr, parseIpSplitPrefixlen line = some (addrStr, some prefixlenStr) ∧
    accepts addrStr ∧ parseIpReadOctet prefixlenStr 10 = some 0

/-! ### IPv4 -/

section Ip4

variable {buf : ParseIp4Data} {line addrStr : List Char} {prefixlenStr : Option (List Char)}

theorem parseIp4AddrSplitReadBlocks_pos
    (good : (parseIp4AddrSplitReadBlocks buf addrStr).1 = .success) :
    0 < (parseIp4AddrSplitReadBlocks buf addrStr).2.1.numBlocks := by
  fun_induction parseIp4AddrSplitReadBlocks buf addrStr <;> grind

theorem parseIp4AddrSplitReadPrefixlen_zero (some : 0 < buf.numBlocks) (few : buf.numBlocks ≤ 4) :
    ((parseIp4AddrSplitReadPrefixlen buf prefixlenStr).1 = .success ∧
        (parseIp4AddrSplitReadPrefixlen buf prefixlenStr).2.prefixlen = 0) ↔
      ∃ t, prefixlenStr = Option.some t ∧ parseIpReadOctet t 10 = Option.some 0 := by
  cases prefixlenStr with
  | none =>
    -- the guess counts at least one block
    have guess : 0 < uintFast8 (buf.numBlocks * parseIp4BlockBase : Nat) := by
      rw [parseIp4BlockBase, uintFast8_of_lt] <;> omega
    simp only [parseIp4AddrSplitReadPrefixlen]
    constructor
    · intro zero
      exact absurd zero.2 guess.ne'
    · rintro ⟨t, missing, -⟩
      cases missing
  | some t =>
    cases read : parseIpReadOctet t 10 with
    | none => simp [parseIp4AddrSplitReadPrefixlen, read]
    | some octet =>
      simp only [parseIp4AddrSplitReadPrefixlen, read]
      by_cases long : octet > ip4MaxPrefixlen
      · -- rejected, and not zero either
        have other : octet ≠ 0 := by
          rw [ip4MaxPrefixlen] at long
          omega
        simp [if_pos long, other, read]
      · simp [if_neg long, read]

/-- Without a prefix length, the blocks decide. -/
theorem parseIp4AddrSplit_none :
    (parseIp4AddrSplit (w := w) buf addrStr none).1.ret = .success ↔ addrStr ≠ [] ∧
      PlainAddr addrStr ∧ (parseIp4AddrSplitReadBlocks ⟨[], 0⟩ addrStr).1 = .success := by
  by_cases nonempty : addrStr = []
  · subst nonempty
    simp [parseIp4AddrSplit_nil]
  by_cases plain : PlainAddr addrStr
  · rw [(parseIp4AddrSplit_plain nonempty plain).2]
    split_ifs with blocks
    · simp [nonempty, plain, blocks, parseIp4AddrSplitReadPrefixlen]
    · simp [blocks]
  · simp [(parseIp4AddrSplit_hex plain).1, plain]

/-- Only a written prefix length is zero. -/
theorem parseIp4AddrSplit_zero (buf : ParseIp4Data) (addrStr : List Char)
    (prefixlenStr : Option (List Char)) :
    ((parseIp4AddrSplit (w := w) buf addrStr prefixlenStr).1.ret = .success ∧
        (parseIp4AddrSplit (w := w) buf addrStr prefixlenStr).1.addr.prefixlen = 0) ↔
      (parseIp4AddrSplit (w := w) .zero addrStr none).1.ret = .success ∧
        ∃ t, prefixlenStr = some t ∧ parseIpReadOctet t 10 = some 0 := by
  rw [parseIp4AddrSplit_none]
  by_cases nonempty : addrStr = []
  · subst nonempty
    simp [parseIp4AddrSplit_nil]
  by_cases plain : PlainAddr addrStr
  · by_cases blocks : (parseIp4AddrSplitReadBlocks ⟨[], 0⟩ addrStr).1 = .success
    · rw [← parseIp4AddrSplitReadPrefixlen_zero (parseIp4AddrSplitReadBlocks_pos blocks)
        (parseIp4AddrSplitReadBlocks_numBlocks (Nat.zero_le 4))]
      have hex := plain
      unfold PlainAddr at hex
      simp only [parseIp4AddrSplit, parseIp4DataInit, if_neg nonempty, if_neg hex, if_pos blocks]
      by_cases suffix : (parseIp4AddrSplitReadPrefixlen
          (parseIp4AddrSplitReadBlocks ⟨[], 0⟩ addrStr).2.1 prefixlenStr).1 = .success
      · simp [suffix, nonempty, plain, blocks, parseIp4AddrSplitMakeAddr]
      · simp [suffix]
    · simp [(parseIp4AddrSplit_plain nonempty plain).2, blocks]
  · simp [(parseIp4AddrSplit_hex plain).1, plain]

/-- The lines that the lax parser reads as networks of length zero. -/
theorem parseIp4Addr_zero (buf : ParseIp4Data) (line : List Char) (addr : Ip4Addr w) :
    ((parseIp4Addr buf line addr).ret = .success ∧
        (parseIp4Addr buf line addr).addr.prefixlen = 0) ↔
      ZeroPrefixlen (fun a => (parseIp4AddrSplit (w := w) .zero a none).1.ret = .success) line := by
  rw [parseIp4Addr, ZeroPrefixlen]
  cases parseIpSplitPrefixlen line with
  | none => simp
  | some parts =>
    obtain ⟨addrStr, prefixlenStr⟩ := parts
    dsimp only
    rw [parseIp4AddrSplit_zero]
    constructor
    · rintro ⟨accepted, t, rfl, zero⟩
      exact ⟨addrStr, t, rfl, accepted, zero⟩
    · rintro ⟨_, t, same, accepted, zero⟩
      cases same
      exact ⟨accepted, t, rfl, zero⟩

/-- The return code of strict parsing. -/
theorem parseIp4NetAddr?_ret (buf : ParseIp4Data) (line : List Char) (addr : Ip4Addr w) :
    (parseIp4NetAddr? buf line addr).map (·.ret) =
      if (parseIp4Addr buf line addr).ret ≠ .success then some (parseIp4Addr buf line addr).ret
      else (ip4AddrIsNet? (parseIp4Addr buf line addr).addr).map fun isNet =>
        if isNet then (parseIp4Addr buf line addr).ret else .invalidNet := by
  simp only [parseIp4NetAddr?]
  split_ifs with failed
  · rfl
  · cases ip4AddrIsNet? (parseIp4Addr buf line addr).addr with
    | none => rfl
    | some isNet => cases isNet <;> rfl

theorem parseIp4NetAddr?_strictOf_iff (buf : ParseIp4Data) (line : List Char) (addr : Ip4Addr w) :
    StrictOf (parseIp4Addr buf line addr).ret
        (LowZero (parseIp4Addr buf line addr).addr.addr
          (32 - (parseIp4Addr buf line addr).addr.prefixlen))
        ((parseIp4NetAddr? buf line addr).map (·.ret)) ↔
      ¬ ZeroPrefixlen (fun a => (parseIp4AddrSplit (w := w) .zero a none).1.ret = .success)
        line := by
  have lenient : (parseIp4Addr buf line addr).ret ≠ .invalidNet := by
    have cases : _ ∨ ¬ HexNotation line ∧ _ := parseIp4Addr_ret buf addr
    rcases cases with ⟨-, ret⟩ | ⟨-, ret | ret⟩ <;> simp [ret]
  rw [← parseIp4Addr_zero buf line addr, parseIp4NetAddr?_ret]
  exact strictOf_iff lenient fun good =>
    ip4AddrIsNet?_eq (parseIp4Addr_prefixlen_le buf addr good)

end Ip4

/-! ### IPv6 -/

section Ip6

variable {buf : ParseIp6Data} {line addrStr : List Char} {prefixlenStr : Option (List Char)}

theorem parseIp6AddrSplitReadBlocks_pos
    (good : (parseIp6AddrSplitReadBlocks buf addrStr).1 = .success) :
    0 < (parseIp6AddrSplitReadBlocks buf addrStr).2.numBlocks := by
  fun_induction parseIp6AddrSplitReadBlocks buf addrStr <;> grind [parseIp6AddrSplitCheckBlocks]

theorem parseIp6AddrSplitReadPrefixlen_zero (some : 0 < buf.numBlocks) (few : buf.numBlocks ≤ 8) :
    ((parseIp6AddrSplitReadPrefixlen buf prefixlenStr).1 = .success ∧
        (parseIp6AddrSplitReadPrefixlen buf prefixlenStr).2.prefixlen = 0) ↔
      ∃ t, prefixlenStr = Option.some t ∧ parseIpReadOctet t 10 = Option.some 0 := by
  cases prefixlenStr with
  | none =>
    -- the guess counts at least one block, or it is the whole address
    have guess : 0 < uintFast8 (buf.numBlocks * parseIp6BlockBase : Nat) := by
      rw [parseIp6BlockBase, uintFast8_of_lt] <;> omega
    have all : 0 < ip6MaxPrefixlen := by decide
    simp only [parseIp6AddrSplitReadPrefixlen]
    constructor
    · intro zero
      refine absurd zero.2 ?_
      split_ifs
      · exact all.ne'
      · exact guess.ne'
    · rintro ⟨t, missing, -⟩
      cases missing
  | some t =>
    cases read : parseIpReadOctet t 10 with
    | none => simp [parseIp6AddrSplitReadPrefixlen, read]
    | some octet =>
      simp only [parseIp6AddrSplitReadPrefixlen, read]
      by_cases long : octet > ip6MaxPrefixlen
      · -- rejected, and not zero either
        have other : octet ≠ 0 := by
          rw [ip6MaxPrefixlen] at long
          omega
        simp [if_pos long, other, read]
      · simp [if_neg long, read]

/-- Without a prefix length, the blocks decide. -/
theorem parseIp6AddrSplit_none :
    (parseIp6AddrSplit buf addrStr none).ret = .success ↔ addrStr ≠ [] ∧ PlainAddr addrStr ∧
      (parseIp6AddrSplitReadBlocks ⟨0, 0, false, [], 0⟩ addrStr).1 = .success := by
  by_cases nonempty : addrStr = []
  · subst nonempty
    simp [parseIp6AddrSplit_nil]
  by_cases plain : PlainAddr addrStr
  · rw [parseIp6AddrSplit_plain nonempty plain]
    split_ifs with blocks
    · simp [nonempty, plain, blocks, parseIp6AddrSplitReadPrefixlen]
    · simp [blocks]
  · simp [parseIp6AddrSplit_hex plain, plain]

/-- Only a written prefix length is zero. -/
theorem parseIp6AddrSplit_zero (buf : ParseIp6Data) (addrStr : List Char)
    (prefixlenStr : Option (List Char)) :
    ((parseIp6AddrSplit buf addrStr prefixlenStr).ret = .success ∧
        (parseIp6AddrSplit buf addrStr prefixlenStr).addr.prefixlen = 0) ↔
      (parseIp6AddrSplit .zero addrStr none).ret = .success ∧
        ∃ t, prefixlenStr = some t ∧ parseIpReadOctet t 10 = some 0 := by
  rw [parseIp6AddrSplit_none]
  by_cases nonempty : addrStr = []
  · subst nonempty
    simp [parseIp6AddrSplit_nil]
  by_cases plain : PlainAddr addrStr
  · by_cases blocks : (parseIp6AddrSplitReadBlocks ⟨0, 0, false, [], 0⟩ addrStr).1 = .success
    · rw [← parseIp6AddrSplitReadPrefixlen_zero (parseIp6AddrSplitReadBlocks_pos blocks)
        (parseIp6AddrSplitReadBlocks_numBlocks (Nat.zero_le 8))]
      have hex := plain
      unfold PlainAddr at hex
      simp only [parseIp6AddrSplit, parseIp6DataInit, if_neg nonempty, if_neg hex, if_pos blocks]
      by_cases suffix : (parseIp6AddrSplitReadPrefixlen
          (parseIp6AddrSplitReadBlocks ⟨0, 0, false, [], 0⟩ addrStr).2 prefixlenStr).1 = .success
      · simp [suffix, nonempty, plain, blocks, parseIp6AddrSplitMakeAddr]
      · simp [suffix]
    · simp [parseIp6AddrSplit_plain nonempty plain, blocks]
  · simp [parseIp6AddrSplit_hex plain, plain]

/-- The lines that the lax parser reads as networks of length zero. -/
theorem parseIp6Addr_zero (buf : ParseIp6Data) (line : List Char) (addr : Ip6Addr) :
    ((parseIp6Addr buf line addr).ret = .success ∧
        (parseIp6Addr buf line addr).addr.prefixlen = 0) ↔
      ZeroPrefixlen (fun a => (parseIp6AddrSplit .zero a none).ret = .success) line := by
  rw [parseIp6Addr, ZeroPrefixlen]
  cases parseIpSplitPrefixlen line with
  | none => simp
  | some parts =>
    obtain ⟨addrStr, prefixlenStr⟩ := parts
    dsimp only
    rw [parseIp6AddrSplit_zero]
    constructor
    · rintro ⟨accepted, t, rfl, zero⟩
      exact ⟨addrStr, t, rfl, accepted, zero⟩
    · rintro ⟨_, t, same, accepted, zero⟩
      cases same
      exact ⟨accepted, t, rfl, zero⟩

/-- The return code of strict parsing. -/
theorem parseIp6NetAddr?_ret (buf : ParseIp6Data) (line : List Char) (addr : Ip6Addr) :
    (parseIp6NetAddr? buf line addr).map (·.ret) =
      if (parseIp6Addr buf line addr).ret ≠ .success then some (parseIp6Addr buf line addr).ret
      else (ip6AddrIsNet? (parseIp6Addr buf line addr).addr).map fun isNet =>
        if isNet then (parseIp6Addr buf line addr).ret else .invalidNet := by
  simp only [parseIp6NetAddr?]
  split_ifs with failed
  · rfl
  · cases ip6AddrIsNet? (parseIp6Addr buf line addr).addr with
    | none => rfl
    | some isNet => cases isNet <;> rfl

theorem parseIp6NetAddr?_strictOf_iff (buf : ParseIp6Data) (line : List Char) (addr : Ip6Addr) :
    StrictOf (parseIp6Addr buf line addr).ret
        (LowZero (parseIp6Addr buf line addr).addr.addr.toBitVec
          (128 - (parseIp6Addr buf line addr).addr.prefixlen))
        ((parseIp6NetAddr? buf line addr).map (·.ret)) ↔
      ¬ ZeroPrefixlen (fun a => (parseIp6AddrSplit .zero a none).ret = .success) line := by
  have lenient : (parseIp6Addr buf line addr).ret ≠ .invalidNet := by
    have cases : _ ∨ ¬ HexNotation line ∧ _ := parseIp6Addr_ret buf addr
    rcases cases with ⟨-, ret⟩ | ⟨-, ret | ret⟩ <;> simp [ret]
  rw [← parseIp6Addr_zero buf line addr, parseIp6NetAddr?_ret]
  exact strictOf_iff lenient fun good =>
    ip6AddrIsNet?_eq (parseIp6Addr_prefixlen_le buf addr good)

end Ip6

/-- Strict parsing refines lax parsing exactly where no prefix length is written as zero. -/
theorem parseNetAddr_strictOf_iff (line : List Char) :
    (∀ (buf : ParseIp4Data) (addr : Ip4Addr w),
      StrictOf (parseIp4Addr buf line addr).ret
          (LowZero (parseIp4Addr buf line addr).addr.addr
            (32 - (parseIp4Addr buf line addr).addr.prefixlen))
          ((parseIp4NetAddr? buf line addr).map (·.ret)) ↔
        ¬ ZeroPrefixlen (fun a => (parseIp4AddrSplit (w := w) .zero a none).1.ret = .success)
          line) ∧
    ∀ (buf : ParseIp6Data) (addr : Ip6Addr),
      StrictOf (parseIp6Addr buf line addr).ret
          (LowZero (parseIp6Addr buf line addr).addr.addr.toBitVec
            (128 - (parseIp6Addr buf line addr).addr.prefixlen))
          ((parseIp6NetAddr? buf line addr).map (·.ret)) ↔
        ¬ ZeroPrefixlen (fun a => (parseIp6AddrSplit .zero a none).ret = .success) line :=
  ⟨fun buf addr => parseIp4NetAddr?_strictOf_iff buf line addr,
    fun buf addr => parseIp6NetAddr?_strictOf_iff buf line addr⟩

/-- A network of length zero with host bits, where the shift leaves the operand alone. -/
theorem parseIp4NetAddr_overshift :
    (parseIp4NetAddr ⟨.bits64, fun x count => x <<< (count % 32), fun x count => x <<< (count % 64)⟩
        .zero "10.0.0.0/0".toList ⟨0, 0⟩).ret = .success ∧
      ¬ StrictOf (parseIp4Addr (w := .bits64) .zero "10.0.0.0/0".toList ⟨0, 0⟩).ret
          (LowZero (parseIp4Addr (w := .bits64) .zero "10.0.0.0/0".toList ⟨0, 0⟩).addr.addr
            (32 - (parseIp4Addr (w := .bits64) .zero "10.0.0.0/0".toList ⟨0, 0⟩).addr.prefixlen))
          ((parseIp4NetAddr? (w := .bits64) .zero "10.0.0.0/0".toList ⟨0, 0⟩).map (·.ret)) := by
  refine ⟨by decide +kernel, ?_⟩
  have undefined : (parseIp4NetAddr? (w := .bits64) .zero "10.0.0.0/0".toList ⟨0, 0⟩).map (·.ret) =
      none := by decide +kernel
  rw [undefined]
  rintro ⟨ret, defined, -⟩
  cases defined

end IpDedup
