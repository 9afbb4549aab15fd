import IpDedup.Ip.Ip4
import IpDedup.Ip.Ip6
import IpDedup.Lib.BitMask

/-!
# The test for host bits

`ip4_addr_is_net` and `ip6_addr_is_net`, once more with a shift that is out of
range as `none`. Arithmetic on `int` wraps: only shift counts are looked at.

## Main results

* `ip4AddrIsNet?_eq`, `ip6AddrIsNet?_eq`: the tests are exact, and they are undefined for the
  networks of length zero
-/

set_option autoImplicit false

open BitMask

namespace IpDedup

section Ip4

variable {w : UintFast32}

/-- `ip4_addr_is_net` without what a platform does beyond the operand width. -/
def ip4AddrIsNet? (obj : Ip4Addr w) : Option Bool :=
  if obj.prefixlen > ip4MaxPrefixlen then
    some false
  else do
    let shifted ← shiftLeft? 1#32 (ip4MaxPrefixlen - obj.prefixlen)
    pure (obj.addr &&& (shifted - 1).signExtend w.width == 0)

/-- Where the test is defined, no platform has a say. -/
theorem ip4AddrIsNet_of_defined {P : Platform} {obj : Ip4Addr P.fast32} {b : Bool}
    (defined : ip4AddrIsNet? obj = some b) : ip4AddrIsNet P obj = b := by
  rw [ip4AddrIsNet?] at defined
  rw [ip4AddrIsNet]
  split_ifs at defined ⊢ with long
  · exact Option.some.inj defined
  · obtain ⟨shifted, shift, test⟩ := Option.bind_eq_some_iff.mp defined
    simp only [shift, Option.getD_some]
    exact Option.some.inj test

/-- The mask of an `int` has no sign to extend. -/
theorem getLsbD_ip4Mask {count : Nat} (inside : count < 32) {i : Nat} (fits : i < w.width) :
    ((1#32 <<< count - 1).signExtend w.width).getLsbD i = decide (i < count) := by
  have width := w.le_width
  have bits (j : Nat) : (1#32 <<< count - 1).getLsbD j = decide (j < count) :=
    getLsbD_shiftLeft_one_sub_one inside j
  rw [BitVec.getLsbD_signExtend, decide_eq_true fits, Bool.true_and, BitVec.msb_eq_getLsbD_last,
    bits, bits]
  split_ifs with low
  · rfl
  · rw [decide_eq_false (by omega), decide_eq_false (by omega)]

theorem ip4AddrIsNet?_eq {obj : Ip4Addr w} (fits : obj.prefixlen ≤ 32) :
    ip4AddrIsNet? obj = if obj.prefixlen = 0 then none
      else some (decide (LowZero obj.addr (32 - obj.prefixlen))) := by
  have width := w.le_width
  rw [ip4AddrIsNet?, if_neg (show ¬ obj.prefixlen > ip4MaxPrefixlen by
    rw [ip4MaxPrefixlen]; omega), shiftLeft?, ip4MaxPrefixlen]
  split_ifs with inside zero zero
  · omega
  · have test := and_eq_zero_iff_lowZero obj.addr (show 32 - obj.prefixlen ≤ w.width by omega)
      fun i bound => getLsbD_ip4Mask inside bound
    simp only [Option.bind_eq_bind, Option.bind_some, Option.pure_def, Option.some.injEq, ← test]
    exact beq_eq_decide _ _
  · rfl
  · omega

end Ip4

/-! ### IPv6 -/

/-- The mask of `count` low bits of a chunk, where the shift is defined. -/
def ip6AddrIsNetSetMask? (count : Nat) : Option Ip6AddrDataChunk := do
  let shifted ← shiftLeft? 1#64 count
  pure (shifted - 1)

/-- `ip6_addr_is_net` without what a platform does beyond the operand width. -/
def ip6AddrIsNet? (obj : Ip6Addr) : Option Bool :=
  if obj.prefixlen > ip6MaxPrefixlen then
    some false
  else if obj.prefixlen > ip6DataChunkSize then do
    let mask ← ip6AddrIsNetSetMask? (ip6MaxPrefixlen - obj.prefixlen)
    pure (obj.addr.low &&& mask == 0)
  else do
    let mask ← ip6AddrIsNetSetMask? (ip6DataChunkSize - obj.prefixlen)
    pure (obj.addr.low == 0 && obj.addr.high &&& mask == 0)

theorem ip6AddrIsNetSetMask_of_defined {P : Platform} {count : Nat} {mask : Ip6AddrDataChunk}
    (defined : ip6AddrIsNetSetMask? count = some mask) : ip6AddrIsNetSetMask P count = mask := by
  obtain ⟨shifted, shift, value⟩ := Option.bind_eq_some_iff.mp defined
  rw [ip6AddrIsNetSetMask, shift, Option.getD_some]
  exact Option.some.inj value

theorem ip6AddrIsNet_of_defined {P : Platform} {obj : Ip6Addr} {b : Bool}
    (defined : ip6AddrIsNet? obj = some b) : ip6AddrIsNet P obj = b := by
  rw [ip6AddrIsNet?] at defined
  rw [ip6AddrIsNet]
  split_ifs at defined ⊢ with long low
  · exact Option.some.inj defined
  all_goals
    obtain ⟨mask, shift, test⟩ := Option.bind_eq_some_iff.mp defined
    rw [ip6AddrIsNetSetMask_of_defined shift]
    exact Option.some.inj test

theorem ip6AddrIsNetSetMask?_of_lt {count : Nat} (inside : count < 64) :
    ip6AddrIsNetSetMask? count = some (1#64 <<< count - 1) := by
  rw [ip6AddrIsNetSetMask?, shiftLeft?_of_lt _ inside]
  rfl

theorem ip6AddrIsNet?_eq {obj : Ip6Addr} (fits : obj.prefixlen ≤ 128) :
    ip6AddrIsNet? obj = if obj.prefixlen = 0 then none
      else some (decide (LowZero obj.addr.toBitVec (128 - obj.prefixlen))) := by
  rw [ip6AddrIsNet?, if_neg (show ¬ obj.prefixlen > ip6MaxPrefixlen by
    rw [ip6MaxPrefixlen]; omega), Ip6AddrData.toBitVec]
  by_cases low : obj.prefixlen > ip6DataChunkSize
  · -- the prefix covers the high chunk
    rw [if_pos low]
    rw [ip6DataChunkSize] at low
    have inside : 128 - obj.prefixlen < 64 := by omega
    rw [ip6MaxPrefixlen, ip6AddrIsNetSetMask?_of_lt inside, if_neg (by omega)]
    simp only [Option.bind_eq_bind, Option.bind_some, Option.pure_def, Option.some.injEq,
      lowZero_append_of_le inside.le, ← and_shiftLeft_one_sub_one_eq_zero_iff obj.addr.low inside]
    exact beq_eq_decide _ _
  · rw [if_neg low]
    rw [ip6DataChunkSize] at low ⊢
    by_cases zero : obj.prefixlen = 0
    · rw [if_pos zero, zero]
      rfl
    · have inside : 64 - obj.prefixlen < 64 := by omega
      have split : 128 - obj.prefixlen = 64 + (64 - obj.prefixlen) := by omega
      rw [if_neg zero, ip6AddrIsNetSetMask?_of_lt inside, split]
      simp only [Option.bind_eq_bind, Option.bind_some, Option.pure_def, Option.some.injEq,
        lowZero_append_add, ← and_shiftLeft_one_sub_one_eq_zero_iff obj.addr.high inside,
        Bool.decide_and]
      rfl

end IpDedup
