import IpDedup.Lib.BitMask
import IpDedup.Print.Ip6

/-!
# IPv6 networks as JSON objects

`ip6_calc_netmask` of `ip/ip6/base.c`, and the object that `fprint_ip6_addr_json`
of `ip_tree_io/print_json.c` writes for a network. The netmask of a chunk is
shifted from the right, so its shift is out of range where the chunk has no bit
of the prefix.

## Main definitions

* `ip6CalcNetmask`, `ip6AddrJsonFields`, `fprintIp6AddrJson`
* `Ip6JsonFields.Exact`: what the netmask, the first and the last address should be

## Main results

* `ip6AddrJsonFields_exact_iff`: the fields are exact for all lengths but two
-/

set_option autoImplicit false

open BitMask

namespace IpDedup

/-! ### The netmask -/

/-- `IP6_DATA_CHUNK_MAX` -/
def ip6DataChunkMax : Ip6AddrDataChunk := 0xffffffffffffffff

def ip6CalcNetmask (prefixlen : Nat) : Option Ip6AddrData :=
  if prefixlen ≥ ip6DataChunkSize then
    if prefixlen ≥ ip6MaxPrefixlen then
      some ⟨ip6DataChunkMax, ip6DataChunkMax⟩
    else do
      let rem := uintFast8 ((prefixlen : Int) - ip6DataChunkSize)
      let shifted ← shiftLeft? ip6DataChunkMax (ip6DataChunkSize - rem)
      pure ⟨ip6DataChunkMax, ip6DataChunkMax &&& shifted⟩
  else do
    let shifted ← shiftLeft? ip6DataChunkMax (ip6DataChunkSize - prefixlen)
    pure ⟨ip6DataChunkMax &&& shifted, 0x0⟩

/-! ### The object -/

/-- The addresses that `fprint_ip6_addr_json` calculates. -/
structure Ip6JsonFields where
  netmask : Ip6AddrData
  firstAddr : Ip6AddrData
  lastAddr : Ip6AddrData
deriving DecidableEq, Repr

def ip6AddrJsonFields (addr : Ip6Addr) : Option Ip6JsonFields := do
  let netmask ← ip6CalcNetmask addr.prefixlen
  if addr.prefixlen ≥ ip6MaxPrefixlen then
    pure ⟨netmask, addr.addr, addr.addr⟩
  else if addr.prefixlen ≥ ip6DataChunkSize then
    pure ⟨netmask, addr.addr, addr.addr.high, addr.addr.low ||| ~~~netmask.low⟩
  else
    pure ⟨netmask, addr.addr, addr.addr.high ||| ~~~netmask.high, ip6DataChunkMax⟩

/-- `PRINT_IP_TREE_JSON_INDENT` -/
def printIpTreeJsonIndent : List Char := [' ', ' ']

/-- An attribute of an object. -/
def fprintJsonAttr (name value eol : List Char) : List Char :=
  printIpTreeJsonIndent ++ printIpTreeJsonIndent ++ printIpTreeJsonIndent ++
    '"' :: name ++ ['"', ':', ' '] ++ value ++ eol

/-- A string attribute, with another attribute behind it. -/
def fprintJsonStrAttr (name value : List Char) : List Char :=
  fprintJsonAttr name ('"' :: value ++ ['"']) [',', '\n']

/-- An attribute in compact format, which is left out where there is none. -/
def fprintJsonCompactAttr (name : List Char) (bits : Ip6AddrData) : List Char :=
  match ip6AddrDataIntoStr bits with
  | some addrStr => fprintJsonStrAttr name addrStr
  | none => []

def fprintIp6AddrJson (addr : Ip6Addr) (compactAddrStr : List Char) : Option (List Char) := do
  let fields ← ip6AddrJsonFields addr
  pure (printIpTreeJsonIndent ++ printIpTreeJsonIndent ++ ['\x7b', '\n'] ++
    fprintJsonStrAttr "network".toList (compactAddrStr ++ '/' :: fmtDecimal addr.prefixlen) ++
    fprintJsonStrAttr "address".toList compactAddrStr ++
    fprintJsonCompactAttr "netmask".toList fields.netmask ++
    fprintJsonStrAttr "network_exploded".toList
      (ip6NetFmt (ip6AddrFmtArgs addr.addr) addr.prefixlen) ++
    fprintJsonStrAttr "address_exploded".toList (ip6AddrFmt (ip6AddrFmtArgs addr.addr)) ++
    fprintJsonStrAttr "netmask_exploded".toList (ip6AddrFmt (ip6AddrFmtArgs fields.netmask)) ++
    fprintJsonCompactAttr "first".toList fields.firstAddr ++
    fprintJsonCompactAttr "last".toList fields.lastAddr ++
    fprintJsonAttr "prefixlen".toList (fmtDecimal addr.prefixlen) ['\n'] ++
    printIpTreeJsonIndent ++ printIpTreeJsonIndent ++ ['\x7d'])

/-! ### Exactness -/

/-- The netmask is the prefix, the first address is the network and the last address has all host
bits set. -/
structure Ip6JsonFields.Exact (fields : Ip6JsonFields) (addr : Ip6Addr) : Prop where
  netmask : ∀ i < 128, fields.netmask.toBitVec.getMsbD i = decide (i < addr.prefixlen)
  firstAddr : fields.firstAddr = addr.addr
  lastAddr : ∀ i < 128, fields.lastAddr.toBitVec.getMsbD i =
    (addr.addr.toBitVec.getMsbD i || decide (addr.prefixlen ≤ i))

theorem Ip6AddrData.getMsbD_toBitVec (bits : Ip6AddrData) (i : Nat) :
    bits.toBitVec.getMsbD i =
      if 64 ≤ i then bits.low.getMsbD (i - 64) else bits.high.getMsbD i := by
  rw [toBitVec, BitVec.getMsbD_append]

/-- The mask of a chunk, where it is defined. -/
theorem ip6ChunkMask_eq {count : Nat} (fits : count ≤ 64) :
    (count = 0 ∧ shiftLeft? ip6DataChunkMax (ip6DataChunkSize - count) = none) ∨
    (count ≠ 0 ∧ ∃ mask, shiftLeft? ip6DataChunkMax (ip6DataChunkSize - count) = some mask ∧
      ∀ i < 64, (ip6DataChunkMax &&& mask).getMsbD i = decide (i < count)) := by
  rw [ip6DataChunkSize]
  by_cases zero : count = 0
  · subst zero
    exact Or.inl ⟨rfl, rfl⟩
  · refine Or.inr ⟨zero, _, shiftLeft?_of_lt _ (by omega), ?_⟩
    intro i inside
    have all : ip6DataChunkMax = BitVec.allOnes 64 := rfl
    rw [all, BitVec.allOnes_and, getMsbD_allOnes_shiftLeft fits inside]

theorem getMsbD_ip6DataChunkMax {i : Nat} (inside : i < 64) : ip6DataChunkMax.getMsbD i = true := by
  have all : ip6DataChunkMax = BitVec.allOnes 64 := rfl
  rw [all, BitVec.getMsbD_allOnes, decide_eq_true inside]

/-- The netmask is exact where it is defined. -/
theorem ip6CalcNetmask_cases (prefixlen : Nat) :
    ((prefixlen = 0 ∨ prefixlen = 64) ∧ ip6CalcNetmask prefixlen = none) ∨
    (¬ (prefixlen = 0 ∨ prefixlen = 64) ∧ ∃ netmask, ip6CalcNetmask prefixlen = some netmask ∧
      ∀ i < 128, netmask.toBitVec.getMsbD i = decide (i < prefixlen)) := by
  rw [ip6CalcNetmask]
  by_cases long : prefixlen ≥ ip6DataChunkSize
  · -- the high chunk is full
    rw [if_pos long]
    rw [ip6DataChunkSize] at long
    by_cases whole : prefixlen ≥ ip6MaxPrefixlen
    · rw [if_pos whole]
      rw [ip6MaxPrefixlen] at whole
      refine Or.inr ⟨by omega, _, rfl, fun i inside => ?_⟩
      rw [Ip6AddrData.getMsbD_toBitVec, decide_eq_true (by omega)]
      split_ifs with low
      · exact getMsbD_ip6DataChunkMax (by omega)
      · exact getMsbD_ip6DataChunkMax (by omega)
    · rw [if_neg whole]
      rw [ip6MaxPrefixlen] at whole
      have rem : uintFast8 ((prefixlen : Int) - ip6DataChunkSize) = prefixlen - 64 := by
        rw [uintFast8, ip6DataChunkSize]
        omega
      simp only [rem]
      rcases ip6ChunkMask_eq (show prefixlen - 64 ≤ 64 by omega) with
        ⟨zero, undefined⟩ | ⟨more, mask, shift, bits⟩
      · exact Or.inl ⟨by omega, by rw [undefined]; rfl⟩
      · refine Or.inr ⟨by omega, _, by rw [shift]; rfl, fun i inside => ?_⟩
        rw [Ip6AddrData.getMsbD_toBitVec]
        split_ifs with low
        · rw [bits (i - 64) (by omega)]
          exact decide_eq_decide.mpr (by omega)
        · rw [decide_eq_true (by omega)]
          exact getMsbD_ip6DataChunkMax (by omega)
  · -- the low chunk is empty
    rw [if_neg long]
    rw [ip6DataChunkSize] at long
    rcases ip6ChunkMask_eq (show prefixlen ≤ 64 by omega) with
      ⟨zero, undefined⟩ | ⟨more, mask, shift, bits⟩
    · exact Or.inl ⟨Or.inl zero, by rw [undefined]; rfl⟩
    · refine Or.inr ⟨by omega, _, by rw [shift]; rfl, fun i inside => ?_⟩
      rw [Ip6AddrData.getMsbD_toBitVec]
      split_ifs with low
      · rw [decide_eq_false (by omega)]
        exact BitVec.getMsbD_zero
      · exact bits i (by omega)

/-- The host bits of a chunk are set where the mask has no bit. -/
theorem getMsbD_or_not_mask {chunk mask : BitVec 64} {i j prefixlen : Nat} (inside : i < 64)
    (own : mask.getMsbD i = decide (j < prefixlen)) :
    (chunk ||| ~~~mask).getMsbD i = (chunk.getMsbD i || decide (prefixlen ≤ j)) := by
  rw [BitVec.getMsbD_or, BitVec.getMsbD_not, own, decide_eq_true inside, Bool.true_and,
    ← decide_not]
  congr 1
  exact decide_eq_decide.mpr Nat.not_lt

/-- With an exact netmask, the last address is exact. -/
theorem ip6AddrJsonFields_exact {addr : Ip6Addr} {netmask : Ip6AddrData}
    (mask : ip6CalcNetmask addr.prefixlen = some netmask)
    (bits : ∀ i < 128, netmask.toBitVec.getMsbD i = decide (i < addr.prefixlen)) :
    ∃ fields, ip6AddrJsonFields addr = some fields ∧ fields.Exact addr := by
  simp only [ip6AddrJsonFields, mask, Option.bind_eq_bind, Option.bind_some]
  split_ifs with whole long
  · rw [ip6MaxPrefixlen] at whole
    refine ⟨_, rfl, bits, rfl, fun i inside => ?_⟩
    rw [decide_eq_false (by omega), Bool.or_false]
  · rw [ip6MaxPrefixlen] at whole
    rw [ip6DataChunkSize] at long
    refine ⟨_, rfl, bits, rfl, fun i inside => ?_⟩
    have own := bits i inside
    rw [Ip6AddrData.getMsbD_toBitVec] at own
    simp only [Ip6AddrData.getMsbD_toBitVec]
    split_ifs at own ⊢ with low
    · exact getMsbD_or_not_mask (by omega) own
    · -- the high chunk belongs to the network
      rw [decide_eq_false (by omega), Bool.or_false]
  · rw [ip6DataChunkSize] at long
    refine ⟨_, rfl, bits, rfl, fun i inside => ?_⟩
    have own := bits i inside
    rw [Ip6AddrData.getMsbD_toBitVec] at own
    simp only [Ip6AddrData.getMsbD_toBitVec]
    split_ifs at own ⊢ with low
    · -- the low chunk consists of host bits
      rw [getMsbD_ip6DataChunkMax (by omega), decide_eq_true (by omega), Bool.or_true]
    · exact getMsbD_or_not_mask (by omega) own

theorem ip6AddrJsonFields_cases (addr : Ip6Addr) :
    ((addr.prefixlen = 0 ∨ addr.prefixlen = 64) ∧ ip6AddrJsonFields addr = none) ∨
    (¬ (addr.prefixlen = 0 ∨ addr.prefixlen = 64) ∧
      ∃ fields, ip6AddrJsonFields addr = some fields ∧ fields.Exact addr) := by
  rcases ip6CalcNetmask_cases addr.prefixlen with ⟨chunk, undefined⟩ | ⟨other, mask, defined, bits⟩
  · exact Or.inl ⟨chunk, by simp [ip6AddrJsonFields, undefined]⟩
  · exact Or.inr ⟨other, ip6AddrJsonFields_exact defined bits⟩

/-- The fields are defined and exact, except where a chunk of the netmask has no bit. -/
theorem ip6AddrJsonFields_exact_iff (addr : Ip6Addr) :
    (∃ fields, ip6AddrJsonFields addr = some fields ∧ fields.Exact addr) ↔
      addr.prefixlen ≠ 0 ∧ addr.prefixlen ≠ 64 := by
  rw [← not_or]
  rcases ip6AddrJsonFields_cases addr with ⟨chunk, undefined⟩ | ⟨other, exact⟩
  · refine iff_of_false ?_ (not_not.mpr chunk)
    rintro ⟨fields, calculated, -⟩
    rw [undefined] at calculated
    cases calculated
  · exact iff_of_true exact other

/-- A network of length 64. -/
theorem ip6AddrJsonFields_half :
    ¬ ∃ fields, ip6AddrJsonFields ⟨64, 0x20010db800000000, 0⟩ = some fields ∧
      fields.Exact ⟨64, 0x20010db800000000, 0⟩ := by
  rintro ⟨fields, calculated, -⟩
  have undefined : ip6AddrJsonFields ⟨64, 0x20010db800000000, 0⟩ = none := by decide
  rw [undefined] at calculated
  cases calculated

/-- The object is written wherever its fields are defined. -/
theorem fprintIp6AddrJson_isSome (addr : Ip6Addr) (compactAddrStr : List Char) :
    (fprintIp6AddrJson addr compactAddrStr).isSome =
      decide (¬ (addr.prefixlen = 0 ∨ addr.prefixlen = 64)) := by
  rw [fprintIp6AddrJson]
  rcases ip6AddrJsonFields_cases addr with ⟨chunk, undefined⟩ | ⟨other, fields, calculated, -⟩
  · simp [undefined, chunk]
  · simp [calculated, other]

end IpDedup
