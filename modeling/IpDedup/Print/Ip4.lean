import IpDedup.Print.Line

/-!
# Printing IPv4 addresses

The IPv4 half of `util/print_ip.c`.

## Main results

* `fprintIp4_readBack`: a printed line is read back as the network it was printed from
-/

set_option autoImplicit false

open BitString Numeral

namespace IpDedup

variable {w : UintFast32}

/-! ### `ip4_block_<POS>` for POS in a.b.c.d -/

def ip4BlockA (addr : Ip4AddrData w) : Ip4AddrData w := (addr >>> 24) &&& 0xff

def ip4BlockB (addr : Ip4AddrData w) : Ip4AddrData w := (addr >>> 16) &&& 0xff

def ip4BlockC (addr : Ip4AddrData w) : Ip4AddrData w := (addr >>> 8) &&& 0xff

def ip4BlockD (addr : Ip4AddrData w) : Ip4AddrData w := addr &&& 0xff

/-- `ip4_addr_fmt_args` -/
def ip4AddrFmtArgs (addr : Ip4AddrData w) : List (Ip4AddrData w) :=
  [ip4BlockA addr, ip4BlockB addr, ip4BlockC addr, ip4BlockD addr]

/-- `IP4_ADDR_FMT`: decimal numbers with dots between them. -/
def ip4AddrFmt (args : List (Ip4AddrData w)) : List Char :=
  ['.'].intercalate (args.map fun arg => fmtDecimal arg.toNat)

/-- `IP4_NET_FMT` -/
def ip4NetFmt (args : List (Ip4AddrData w)) (prefixlen : Nat) : List Char :=
  ip4AddrFmt args ++ '/' :: fmtDecimal prefixlen

/-! ### `print_ip.c` -/

def fprintIp4Addr (addr : Ip4Addr w) : List Char :=
  ip4AddrFmt (ip4AddrFmtArgs addr.addr) ++ ['\n']

def fprintIp4Net (addr : Ip4Addr w) : List Char :=
  ip4NetFmt (ip4AddrFmtArgs addr.addr) addr.prefixlen ++ ['\n']

def fprintIp4AddrOrNet (addr : Ip4Addr w) : List Char :=
  if addr.prefixlen = ip4MaxPrefixlen then fprintIp4Addr addr else fprintIp4Net addr

/-! ### Reading back -/

/-- The octets of an address make up the address. -/
theorem makeAddrLoop_fmtArgs (x : BitVec 32) :
    parseIp4AddrSplitMakeAddrLoop (0 : Ip4AddrData w) 0
      ((ip4AddrFmtArgs (x.setWidth w.width)).map BitVec.toNat) = x.setWidth w.width := by
  simp only [ip4AddrFmtArgs, List.map_cons, List.map_nil, parseIp4AddrSplitMakeAddrLoop,
    BitVec.ofNat_toNat, BitVec.setWidth_eq, ip4BlockA, ip4BlockB, ip4BlockC, ip4BlockD,
    parseIp4BlockCount, parseIp4BlockBase]
  apply BitVec.eq_of_getLsbD_eq
  intro i inside
  have high : (x.setWidth w.width).getLsbD i = true → i < 32 := by
    intro set
    rw [BitVec.getLsbD_setWidth, Bool.and_eq_true] at set
    exact BitVec.lt_of_getLsbD set.2
  have a := getLsbD_field (x.setWidth w.width) 24 8 i
  have b := getLsbD_field (x.setWidth w.width) 16 8 i
  have c := getLsbD_field (x.setWidth w.width) 8 8 i
  have d := getLsbD_field (x.setWidth w.width) 0 8 i
  generalize x.setWidth w.width = y at *
  simp at a b c d
  simp [a, b, c, d]
  grind

theorem ip4Block_fmtDecimal {n : Nat} (byte : n < 256) : Ip4Block (fmtDecimal n) n where
  nonempty := Nat.toDigits_ne_nil
  fresh := not_mem_fmtDecimal (by decide)
  read := parseIpReadOctet_fmtDecimal byte

theorem toNat_and_0xff_lt (x : Ip4AddrData w) : (x &&& 0xff).toNat < 256 := by
  have small : (0xff : Ip4AddrData w).toNat = 255 := by cases w <;> decide
  have le : (x &&& 0xff).toNat ≤ (0xff : Ip4AddrData w).toNat := by
    rw [BitVec.toNat_and]
    exact Nat.and_le_right
  omega

/-- The printed octets are blocks that the parser reads. -/
theorem ip4Block_fmtArgs (addr : Ip4AddrData w) :
    List.Forall₂ Ip4Block ((ip4AddrFmtArgs addr).map fun arg => fmtDecimal arg.toNat)
      ((ip4AddrFmtArgs addr).map BitVec.toNat) := by
  rw [List.forall₂_map_left_iff, List.forall₂_map_right_iff, List.forall₂_same]
  intro arg mem
  apply ip4Block_fmtDecimal
  simp only [ip4AddrFmtArgs, List.mem_cons, List.not_mem_nil, or_false] at mem
  rcases mem with rfl | rfl | rfl | rfl <;> exact toNat_and_0xff_lt _

theorem parseIp4AddrSplitReadPrefixlen_fmtDecimal {p : Nat} (short : p ≤ 32)
    (buf : ParseIp4Data) :
    parseIp4AddrSplitReadPrefixlen buf (some (fmtDecimal p)) =
      (.success, { buf with prefixlen := p }) := by
  have small : ¬ p > ip4MaxPrefixlen := Nat.not_lt.mpr short
  simp [parseIp4AddrSplitReadPrefixlen, parseIpReadOctet_fmtDecimal (show p < 256 by omega), small]

/-- A printed address is made of digits and dots. -/
theorem mem_ip4AddrFmt {args : List (Ip4AddrData w)} {c : Char} (mem : c ∈ ip4AddrFmt args) :
    c = '.' ∨ isDigit 10 c = true := by
  refine (mem_intercalate mem).imp_right ?_
  rintro ⟨g, own, inside⟩
  obtain ⟨arg, -, rfl⟩ := List.mem_map.mp own
  exact isDigit_of_mem_fmtDecimal inside

theorem addrChar_of_mem_ip4AddrFmt {args : List (Ip4AddrData w)} {c : Char}
    (mem : c ∈ ip4AddrFmt args) : AddrChar c := by
  rcases mem_ip4AddrFmt mem with rfl | digit
  · exact Or.inr (by decide)
  · exact Or.inl (isDigit_mono (by decide) digit)

theorem slash_not_mem_ip4AddrFmt (args : List (Ip4AddrData w)) : '/' ∉ ip4AddrFmt args := by
  intro mem
  rcases mem_ip4AddrFmt mem with dot | digit
  · exact absurd dot (by decide)
  · exact absurd digit (by decide)

theorem ip4AddrFmt_fmtArgs_ne_nil (addr : Ip4AddrData w) :
    ip4AddrFmt (ip4AddrFmtArgs addr) ≠ [] :=
  intercalate_ne_nil Nat.toDigits_ne_nil _

/-- The IPv4 parser reads a printed address, with the prefixlen that is given or guessed. -/
theorem parseIp4AddrSplit_fmtArgs (x : BitVec 32) {prefixlenStr : Option (List Char)}
    {prefixlen : Nat} (buf : ParseIp4Data)
    (suffix : ∀ buf : ParseIp4Data, buf.numBlocks = 4 →
      parseIp4AddrSplitReadPrefixlen buf prefixlenStr =
        (.success, { buf with prefixlen := prefixlen })) :
    (parseIp4AddrSplit (w := w) buf (ip4AddrFmt (ip4AddrFmtArgs (x.setWidth w.width)))
        prefixlenStr).1.ret = .success ∧
      (parseIp4AddrSplit (w := w) buf (ip4AddrFmt (ip4AddrFmtArgs (x.setWidth w.width)))
        prefixlenStr).1.addr = ⟨prefixlen, x.setWidth w.width⟩ := by
  have plain : PlainAddr (ip4AddrFmt (ip4AddrFmtArgs (x.setWidth w.width))) :=
    plainAddr_of_addrChar fun c => addrChar_of_mem_ip4AddrFmt
  obtain ⟨mem, blocks⟩ := parseIp4AddrSplitReadBlocks_blocks ⟨[], 0⟩
    (ip4Block_fmtArgs (x.setWidth w.width)) (by simp [ip4AddrFmtArgs]) (by simp [ip4AddrFmtArgs])
  have read := suffix ⟨(ip4AddrFmtArgs (x.setWidth w.width)).map BitVec.toNat, 0⟩ rfl
  rw [parseIp4AddrSplit_success (ip4AddrFmt_fmtArgs_ne_nil _) plain blocks read]
  exact ⟨rfl, congrArg (Ip4Addr.mk prefixlen) (makeAddrLoop_fmtArgs x)⟩

/-- The IPv6 parser does not read a printed IPv4 address. -/
theorem parseIp6AddrSplit_fmtArgs (addr : Ip4AddrData w) (buf : ParseIp6Data)
    (prefixlenStr : Option (List Char)) :
    (parseIp6AddrSplit buf (ip4AddrFmt (ip4AddrFmtArgs addr)) prefixlenStr).ret = .invalid := by
  have plain : PlainAddr (ip4AddrFmt (ip4AddrFmtArgs addr)) :=
    plainAddr_of_addrChar fun c => addrChar_of_mem_ip4AddrFmt
  obtain ⟨rest, shape⟩ : ∃ rest, ip4AddrFmt (ip4AddrFmtArgs addr) =
      fmtDecimal (ip4BlockA addr).toNat ++ '.' :: rest := by
    simp [ip4AddrFmt, ip4AddrFmtArgs]
  rw [shape] at plain ⊢
  exact parseIp6AddrSplit_foreign plain (not_mem_fmtDecimal (by decide)) (by decide)
    (by unfold ForeignChar; decide)

/-- A line is read as the given network, by the parser for IPv4 and by the one for both families,
which takes it for nothing else. -/
def ReadsAsIp4 (text : List Char) (addr : Ip4Addr w) : Prop :=
  ∀ (bufs : ParseBufs w) (addrV4 : Ip4Addr w) (addrV6 : Ip6Addr),
    let ip4 := parseIp4Addr bufs.ip4 (strStrip text) addrV4
    let mixed := parseIpMixedAddr bufs (strStrip text) addrV4 addrV6
    (ip4.ret = .success ∧ ip4.addr = addr) ∧
      mixed.ret = .success ∧ mixed.typeResult = .onlyIpv4 ∧ mixed.addrV4 = addr

/-- What the parsers make of the parts of a line is what they make of the line. -/
theorem readsAsIp4_of_split {line : List Char} {addr : Ip4Addr w} {addrStr : List Char}
    {prefixlenStr : Option (List Char)} (charset : ∀ c ∈ line, AddrChar c)
    (split : parseIpSplitPrefixlen line = some (addrStr, prefixlenStr))
    (ip4 : ∀ buf : ParseIp4Data,
      (parseIp4AddrSplit (w := w) buf addrStr prefixlenStr).1.ret = .success ∧
        (parseIp4AddrSplit (w := w) buf addrStr prefixlenStr).1.addr = addr)
    (ip6 : ∀ buf : ParseIp6Data, (parseIp6AddrSplit buf addrStr prefixlenStr).ret = .invalid) :
    ReadsAsIp4 (line ++ ['\n']) addr := by
  intro bufs addrV4 addrV6
  have solid : ∀ c ∈ line, isWhitespace c = false := fun c mem =>
    not_isWhitespace_of_addrChar (charset c mem)
  -- the mixed parser does what the two others do, and only that for IPv4 succeeds
  have agrees := parseIpMixedAddr_agrees_lax bufs bufs.ip4 bufs.ip6 addrV4 addrV6 addrV4 addrV6
    charset
  have own : parseIp4Addr bufs.ip4 line addrV4 =
      (parseIp4AddrSplit bufs.ip4 addrStr prefixlenStr).1 := by
    rw [parseIp4Addr, split]
  have other : (parseIp6Addr bufs.ip6 line addrV6).ret = .invalid := by
    rw [parseIp6Addr, split]
    exact ip6 bufs.ip6
  obtain ⟨good, same⟩ := ip4 bufs.ip4
  rw [← own] at good same
  simp only [strStrip_newline solid]
  refine ⟨⟨good, same⟩, agrees.ret.mpr (Or.inl good), ?_, (agrees.addrV4 good).trans same⟩
  have ipv4 := agrees.ipv4.mpr good
  have ipv6 := agrees.ipv6.not.mpr (by rw [other]; decide)
  rw [Bool.not_eq_true] at ipv6
  show _ = ParseIpType.mk true false
  rw [← ipv4, ← ipv6]

/-- A printed IPv4 line is read back as the network it was printed from; it has a suffix unless
it is printed in reduced form and the network is a single address. -/
theorem fprintIp4_readBack (x : BitVec 32) {p : Nat} (short : p ≤ 32) :
    ReadsAsIp4 (fprintIp4Net (w := w) ⟨p, x.setWidth w.width⟩) ⟨p, x.setWidth w.width⟩ ∧
      ReadsAsIp4 (fprintIp4AddrOrNet (w := w) ⟨p, x.setWidth w.width⟩) ⟨p, x.setWidth w.width⟩ ∧
      ('/' ∉ fprintIp4AddrOrNet (w := w) ⟨p, x.setWidth w.width⟩ ↔ p = 32) := by
  have nonempty := ip4AddrFmt_fmtArgs_ne_nil (x.setWidth w.width)
  have charset : ∀ c ∈ ip4AddrFmt (ip4AddrFmtArgs (x.setWidth w.width)), AddrChar c :=
    fun c => addrChar_of_mem_ip4AddrFmt
  have fresh := slash_not_mem_ip4AddrFmt (ip4AddrFmtArgs (x.setWidth w.width))
  have net : ReadsAsIp4 (fprintIp4Net (w := w) ⟨p, x.setWidth w.width⟩) ⟨p, x.setWidth w.width⟩ :=
    readsAsIp4_of_split (addrChar_of_mem_net charset) (parseIpSplitPrefixlen_net charset)
      (fun buf => parseIp4AddrSplit_fmtArgs x buf fun buf _ =>
        parseIp4AddrSplitReadPrefixlen_fmtDecimal short buf)
      (fun buf => parseIp6AddrSplit_fmtArgs _ buf _)
  refine ⟨net, ?_, ?_⟩
  · unfold fprintIp4AddrOrNet
    split_ifs with host
    · obtain rfl : p = 32 := host
      exact readsAsIp4_of_split charset (parseIpSplitPrefixlen_addr nonempty charset fresh)
        (fun buf => parseIp4AddrSplit_fmtArgs x buf fun buf four => by
          rw [parseIp4AddrSplitReadPrefixlen, four]
          rfl)
        (fun buf => parseIp6AddrSplit_fmtArgs _ buf _)
    · exact net
  · unfold fprintIp4AddrOrNet fprintIp4Addr fprintIp4Net ip4NetFmt
    split_ifs with host
    · have host : p = 32 := host
      simp [fresh, host]
    · have network : p ≠ 32 := host
      simp [network]

/-- A private network is printed and read back. -/
theorem fprintIp4_readBack_private :
    fprintIp4Net (w := .bits64) ⟨16, 0xc0a80000⟩ = "192.168.0.0/16\n".toList ∧
      ReadsAsIp4 (w := .bits64) "192.168.0.0/16\n".toList ⟨16, 0xc0a80000⟩ := by
  have text : fprintIp4Net (w := .bits64) ⟨16, 0xc0a80000⟩ = "192.168.0.0/16\n".toList := by decide
  have reads := (fprintIp4_readBack (w := .bits64) 0xc0a80000 (p := 16) (by decide)).1
  exact ⟨text, text ▸ reads⟩

end IpDedup
