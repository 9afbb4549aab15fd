import IpDedup.Print.Ip4
import IpDedup.Print.Ip6Json

/-!
# IPv4 networks as JSON objects

`ip4_calc_netmask` of `ip/ip4/base.c`, and the object that `fprint_ip4_addr_json`
of `ip_tree_io/print_json.c` writes for a network. The netmask is shifted as an
`unsigned int`, so its shift is out of range where it has no bit.

## Main definitions

* `ip4CalcNetmask`, `ip4AddrJsonFields`, `fprintIp4AddrJson`
* `Ip4JsonFields.Exact`: what the netmask, the first and the last address should be

## Main results

* `fprintIp4AddrJson_isSome`: the networks for which the object is written
* `ip4AddrJsonFields_exact_iff`: the fields are exact for all lengths but one
-/

set_option autoImplicit false

open BitString BitMask

namespace IpDedup

variable {w : UintFast32}

/-! ### The netmask -/

/-- `IP4_MAX_ADDR`, an `unsigned int` -/
def ip4MaxAddr : BitVec 32 := 0xffffffff

def ip4CalcNetmask (prefixlen : Nat) : Option (Ip4AddrData w) :=
  -- beyond 32 the shift count is negative
  if prefixlen > ip4MaxPrefixlen then none
  else do
    let shifted ← shiftLeft? ip4MaxAddr (ip4MaxPrefixlen - prefixlen)
    pure ((ip4MaxAddr &&& shifted).setWidth w.width)

/-! ### The object -/

/-- The addresses that `fprint_ip4_addr_json` calculates. -/
structure Ip4JsonFields (w : UintFast32) where
  netmask : Ip4AddrData w
  firstAddr : Ip4AddrData w
  lastAddr : Ip4AddrData w
deriving DecidableEq, Repr

def ip4AddrJsonFields (addr : Ip4Addr w) : Option (Ip4JsonFields w) := do
  let netmask ← ip4CalcNetmask addr.prefixlen
  if addr.prefixlen ≥ ip4MaxPrefixlen then
    pure ⟨netmask, addr.addr, addr.addr⟩
  else if addr.prefixlen + 1 = ip4MaxPrefixlen then
    pure ⟨netmask, addr.addr, addr.addr + 1⟩
  else
    pure ⟨netmask, addr.addr + 1, (addr.addr ||| ~~~netmask) - 1⟩

def fprintIp4AddrJson (addr : Ip4Addr w) : Option (List Char) := do
  let fields ← ip4AddrJsonFields addr
  pure (printIpTreeJsonIndent ++ printIpTreeJsonIndent ++ ['\x7b', '\n'] ++
    fprintJsonStrAttr "network".toList (ip4NetFmt (ip4AddrFmtArgs addr.addr) addr.prefixlen) ++
    fprintJsonStrAttr "address".toList (ip4AddrFmt (ip4AddrFmtArgs addr.addr)) ++
    fprintJsonStrAttr "netmask".toList (ip4AddrFmt (ip4AddrFmtArgs fields.netmask)) ++
    fprintJsonStrAttr "first".toList (ip4AddrFmt (ip4AddrFmtArgs fields.firstAddr)) ++
    fprintJsonStrAttr "last".toList (ip4AddrFmt (ip4AddrFmtArgs fields.lastAddr)) ++
    fprintJsonAttr "prefixlen".toList (fmtDecimal addr.prefixlen) ['\n'] ++
    printIpTreeJsonIndent ++ printIpTreeJsonIndent ++ ['\x7d'])

theorem ip4CalcNetmask_isSome (prefixlen : Nat) :
    (ip4CalcNetmask (w := w) prefixlen).isSome = decide (0 < prefixlen ∧ prefixlen ≤ 32) := by
  unfold ip4CalcNetmask
  rw [ip4MaxPrefixlen]
  split_ifs with long
  · simp [Nat.not_le.mpr long]
  · by_cases none : prefixlen = 0
    · simp [none, shiftLeft?]
    · have shifts : 32 - prefixlen < 32 := by omega
      rw [shiftLeft?_of_lt _ shifts]
      simp [Nat.pos_of_ne_zero none, Nat.not_lt.mp long]

/-- The object is written wherever the netmask is defined. -/
theorem fprintIp4AddrJson_isSome (addr : Ip4Addr w) :
    (fprintIp4AddrJson addr).isSome =
      decide (0 < addr.prefixlen ∧ addr.prefixlen ≤ ip4MaxPrefixlen) := by
  rw [fprintIp4AddrJson, ip4AddrJsonFields, ip4MaxPrefixlen, ← ip4CalcNetmask_isSome (w := w)]
  cases ip4CalcNetmask (w := w) addr.prefixlen with
  | none => rfl
  | some netmask =>
    simp only [Option.bind_eq_bind, Option.bind_some]
    split_ifs <;> rfl

/-! ### Exactness

The object holds addresses as they are written. A `uint_fast32_t` of 64 bits has ones above the
address in `~netmask`, and so in the last address, but they are not written. -/

/-- The number that a written address stands for. -/
def ip4Written (addr : Ip4AddrData w) : Nat := pack 8 ((ip4AddrFmtArgs addr).map BitVec.toNat)

/-- The number of the network itself. -/
def Ip4Addr.networkAddr (addr : Ip4Addr w) : Nat := addr.word.toNat

/-- The number that has all host bits set. -/
def Ip4Addr.broadcastAddr (addr : Ip4Addr w) : Nat :=
  addr.networkAddr + (2 ^ (32 - addr.prefixlen) - 1)

/-- The netmask has the bits of the prefix, and the first and the last address are those between
the network and the broadcast address, where the network has these two. -/
structure Ip4JsonFields.Exact (fields : Ip4JsonFields w) (addr : Ip4Addr w) : Prop where
  netmask : ∀ i, fields.netmask.getLsbD i = decide (32 - addr.prefixlen ≤ i ∧ i < 32)
  firstAddr : ip4Written fields.firstAddr =
    if addr.prefixlen ≤ 30 then addr.networkAddr + 1 else addr.networkAddr
  lastAddr : ip4Written fields.lastAddr =
    if addr.prefixlen ≤ 30 then addr.broadcastAddr - 1 else addr.broadcastAddr
  ordered : ip4Written fields.firstAddr ≤ ip4Written fields.lastAddr
  inside : addr.networkAddr ≤ ip4Written fields.firstAddr ∧
    ip4Written fields.lastAddr ≤ addr.broadcastAddr

/-- What is written are the low 32 bits. -/
theorem ip4Written_eq (addr : Ip4AddrData w) : ip4Written addr = addr.toNat % 2 ^ 32 := by
  simp only [ip4Written, ip4AddrFmtArgs, ip4BlockA, ip4BlockB, ip4BlockC, ip4BlockD, List.map_cons,
    List.map_nil, pack, List.foldl_cons, List.foldl_nil, BitVec.toNat_and,
    BitVec.toNat_ushiftRight]
  have byte : (0xff : Ip4AddrData w).toNat = 2 ^ 8 - 1 := by
    cases w <;> rfl
  simp only [byte, Nat.and_two_pow_sub_one_eq_mod, Nat.shiftRight_eq_div_pow]
  omega

/-- The netmask is exact where it is defined. -/
theorem ip4CalcNetmask_cases {prefixlen : Nat} (short : prefixlen ≤ 32) :
    (prefixlen = 0 ∧ ip4CalcNetmask (w := w) prefixlen = none) ∨
    (0 < prefixlen ∧ ∃ netmask, ip4CalcNetmask (w := w) prefixlen = some netmask ∧
      ∀ i, netmask.getLsbD i = decide (32 - prefixlen ≤ i ∧ i < 32)) := by
  have width := w.le_width
  rw [ip4CalcNetmask, ip4MaxPrefixlen, if_neg (Nat.not_lt.mpr short)]
  rcases Nat.eq_zero_or_pos prefixlen with rfl | more
  · exact Or.inl ⟨rfl, rfl⟩
  · refine Or.inr ⟨more, _, by rw [shiftLeft?_of_lt _ (by omega)]; rfl, fun i => ?_⟩
    have all : ip4MaxAddr = BitVec.allOnes 32 := rfl
    rw [all, BitVec.allOnes_and, BitVec.getLsbD_setWidth]
    by_cases inside : i < 32
    · rw [getLsbD_allOnes_shiftLeft inside, decide_eq_true (show i < w.width by omega)]
      simp [inside]
    · rw [BitVec.getLsbD_of_ge _ _ (by omega)]
      simp [inside]

section Network

variable {addr : Ip4Addr w}

/-- A block of addresses ends before the next multiple of its size. -/
theorem broadcastAddr_lt (short : addr.prefixlen ≤ 32)
    (net : 2 ^ (32 - addr.prefixlen) ∣ addr.networkAddr) :
    addr.networkAddr + 2 ^ (32 - addr.prefixlen) ≤ 2 ^ 32 := by
  obtain ⟨front, eq⟩ := net
  have small : addr.networkAddr < 2 ^ 32 := addr.word.isLt
  have whole : 2 ^ (32 - addr.prefixlen) * 2 ^ addr.prefixlen = 2 ^ 32 := by
    rw [← pow_add, Nat.sub_add_cancel short]
  rw [eq, ← whole] at small
  have next : front + 1 ≤ 2 ^ addr.prefixlen := Nat.lt_of_mul_lt_mul_left small
  calc addr.networkAddr + 2 ^ (32 - addr.prefixlen)
      = 2 ^ (32 - addr.prefixlen) * (front + 1) := by rw [eq]; ring
    _ ≤ 2 ^ (32 - addr.prefixlen) * 2 ^ addr.prefixlen := Nat.mul_le_mul_left _ next
    _ = 2 ^ 32 := whole

/-- Setting the bits that an exact netmask lacks leads to the broadcast address. -/
theorem ip4Written_or_not_netmask {netmask : Ip4AddrData w}
    (net : 2 ^ (32 - addr.prefixlen) ∣ addr.networkAddr)
    (mask : ∀ i, netmask.getLsbD i = decide (32 - addr.prefixlen ≤ i ∧ i < 32)) :
    ip4Written (addr.addr ||| ~~~netmask) = addr.broadcastAddr := by
  have width := w.le_width
  obtain ⟨front, eq⟩ := net
  have hosts : 2 ^ (32 - addr.prefixlen) - 1 < 2 ^ (32 - addr.prefixlen) := by
    have positive := Nat.two_pow_pos (32 - addr.prefixlen)
    omega
  rw [ip4Written_eq]
  apply Nat.eq_of_testBit_eq
  intro i
  have own : addr.networkAddr.testBit i = (decide (i < 32) && addr.addr.getLsbD i) := by
    rw [Ip4Addr.networkAddr, Ip4Addr.word, BitVec.testBit_toNat, BitVec.getLsbD_setWidth]
  rw [Ip4Addr.broadcastAddr, eq, Nat.two_pow_add_eq_or_of_lt hosts, ← eq, Nat.testBit_or, own,
    Nat.testBit_two_pow_sub_one, Nat.testBit_mod_two_pow, BitVec.testBit_toNat, BitVec.getLsbD_or,
    BitVec.getLsbD_not, mask]
  by_cases inside : i < 32
  · have host : (!decide (32 - addr.prefixlen ≤ i ∧ i < 32)) =
        decide (i < 32 - addr.prefixlen) := by
      rw [← decide_not]
      exact decide_eq_decide.mpr (by omega)
    rw [host, decide_eq_true inside, decide_eq_true (show i < w.width by omega)]
    simp only [Bool.true_and]
  · simp [inside]
    omega

theorem ip4Written_add_one {bits : Ip4AddrData w} (small : ip4Written bits + 1 < 2 ^ 32) :
    ip4Written (bits + 1) = ip4Written bits + 1 := by
  rw [ip4Written_eq] at small ⊢
  rw [ip4Written_eq, BitVec.toNat_add]
  cases w <;> simp [UintFast32.width] at small ⊢ <;> omega

theorem ip4Written_sub_one {bits : Ip4AddrData w} (positive : 0 < ip4Written bits) :
    ip4Written (bits - 1) = ip4Written bits - 1 := by
  rw [ip4Written_eq] at positive ⊢
  rw [ip4Written_eq, BitVec.toNat_sub]
  cases w <;> simp [UintFast32.width] at positive ⊢ <;> omega

/-- With an exact netmask, the other fields are exact. -/
theorem ip4AddrJsonFields_exact {netmask : Ip4AddrData w} (short : addr.prefixlen ≤ 32)
    (net : 2 ^ (32 - addr.prefixlen) ∣ addr.networkAddr)
    (calculated : ip4CalcNetmask addr.prefixlen = some netmask)
    (mask : ∀ i, netmask.getLsbD i = decide (32 - addr.prefixlen ≤ i ∧ i < 32)) :
    ∃ fields, ip4AddrJsonFields addr = some fields ∧ fields.Exact addr := by
  have own : ip4Written addr.addr = addr.networkAddr := by
    rw [ip4Written_eq, Ip4Addr.networkAddr, Ip4Addr.word, BitVec.toNat_setWidth]
  have within := broadcastAddr_lt short net
  have broadcast : addr.broadcastAddr = addr.networkAddr + (2 ^ (32 - addr.prefixlen) - 1) := rfl
  simp only [ip4AddrJsonFields, calculated, Option.bind_eq_bind, Option.bind_some]
  rw [ip4MaxPrefixlen]
  split_ifs with whole pair
  · -- one address, which is both
    have size : 32 - addr.prefixlen = 0 := by omega
    rw [size] at broadcast
    refine ⟨_, rfl, mask, ?_, ?_, Nat.le_refl _, ?_, ?_⟩
    · rw [own, if_neg (by omega)]
    · rw [own, if_neg (by omega), broadcast]
      rfl
    · exact own.ge
    · rw [own, broadcast]
      exact Nat.le_add_right _ _
  · -- two addresses, which are all there are
    have size : 32 - addr.prefixlen = 1 := by omega
    rw [size] at broadcast within
    have second : ip4Written (addr.addr + 1) = addr.broadcastAddr := by
      rw [ip4Written_add_one (by rw [own]; omega), own, broadcast]
      rfl
    refine ⟨_, rfl, mask, ?_, ?_, ?_, ?_, ?_⟩
    · rw [own, if_neg (by omega)]
    · rw [second, if_neg (by omega)]
    · rw [own, second, broadcast]
      exact Nat.le_add_right _ _
    · exact own.ge
    · exact second.le
  · -- between the network and the broadcast address
    have size : 4 ≤ 2 ^ (32 - addr.prefixlen) :=
      Nat.pow_le_pow_right (n := 2) (by decide) (show 2 ≤ 32 - addr.prefixlen by omega)
    have first : ip4Written (addr.addr + 1) = addr.networkAddr + 1 := by
      rw [ip4Written_add_one (by rw [own]; omega), own]
    have last : ip4Written ((addr.addr ||| ~~~netmask) - 1) = addr.broadcastAddr - 1 := by
      rw [ip4Written_sub_one, ip4Written_or_not_netmask net mask]
      rw [ip4Written_or_not_netmask net mask]
      omega
    refine ⟨_, rfl, mask, ?_, ?_, ?_, ?_, ?_⟩
    · rw [first, if_pos (by omega)]
    · rw [last, if_pos (by omega)]
    · rw [first, last]
      omega
    · rw [first]
      omega
    · rw [last]
      omega

/-- The fields are defined and exact for every network but that of all addresses. -/
theorem ip4AddrJsonFields_exact_iff (addr : Ip4Addr w) (short : addr.prefixlen ≤ 32)
    (net : 2 ^ (32 - addr.prefixlen) ∣ addr.networkAddr) :
    (∃ fields, ip4AddrJsonFields addr = some fields ∧ fields.Exact addr) ↔
      0 < addr.prefixlen := by
  rcases ip4CalcNetmask_cases (w := w) short with ⟨zero, undefined⟩ | ⟨more, mask, defined, bits⟩
  · refine iff_of_false ?_ (by omega)
    rintro ⟨fields, calculated, -⟩
    rw [ip4AddrJsonFields, undefined] at calculated
    cases calculated
  · exact iff_of_true (ip4AddrJsonFields_exact short net defined bits) more

/-- `10.0.0.0/8` -/
theorem ip4AddrJsonFields_exact_iff_private :
    (∃ fields, ip4AddrJsonFields (w := .bits64) ⟨8, 0x0a000000⟩ = some fields ∧
      fields.Exact ⟨8, 0x0a000000⟩) ↔ 0 < 8 :=
  ip4AddrJsonFields_exact_iff ⟨8, 0x0a000000⟩ (show 8 ≤ 32 by decide) ⟨10, by decide⟩

/-- The network of all addresses. -/
theorem ip4AddrJsonFields_all :
    ¬ ∃ fields, ip4AddrJsonFields (w := .bits64) ⟨0, 0⟩ = some fields ∧ fields.Exact ⟨0, 0⟩ := by
  rintro ⟨fields, calculated, -⟩
  have undefined : ip4AddrJsonFields (w := .bits64) ⟨0, 0⟩ = none := by decide
  rw [undefined] at calculated
  cases calculated

end Network

end IpDedup
