import IpDedup.Parse.Mixed

/-!
# Parsing into an address record

`util/parse_ip/combined.c`: the parsers for one family and for both families
write into the same kind of record.

## Main definitions

* `ParseIpAddrData`: the record
* `ParseIpAddrFunc`: the type of the six parsers
* `ParseIpAddrFunc.Sound`: what a caller relies on

## Main results

* `parseIp4AddrCombined_sound` and so on: all six parsers are sound
-/

set_option autoImplicit false

namespace IpDedup

variable {w : UintFast32}

/-- `struct parse_ip_addr_data` -/
structure ParseIpAddrData (w : UintFast32) where
  addrType : ParseIpType
  addrV4 : Ip4Addr w
  addrV6 : Ip6Addr

def parseIpAddrDataInitNull : ParseIpAddrData w := ⟨.none, ip4AddrInitNull, ip6AddrInitNull⟩

/-- What a call leaves: the return code, the record and the static buffers. -/
structure ParsedCombined (w : UintFast32) where
  ret : ParseIpRet
  pstate : ParseIpAddrData w
  bufs : ParseBufs w

/-- `parse_ip_addr_func` -/
abbrev ParseIpAddrFunc (w : UintFast32) :=
  ParseBufs w → List Char → ParseIpAddrData w → ParsedCombined w

/-! ### The parsers -/

/-- An IPv4 parser that sets the family before it parses. -/
def ip4Combined (parse : ParseIp4Data → List Char → Ip4Addr w → ParsedIp4 w) :
    ParseIpAddrFunc w := fun bufs line pstate =>
  let out := parse bufs.ip4 line pstate.addrV4
  ⟨out.ret, { pstate with addrType := .onlyIpv4, addrV4 := out.addr },
    { bufs with ip4 := out.buf }⟩

/-- An IPv6 parser that sets the family before it parses. -/
def ip6Combined (parse : ParseIp6Data → List Char → Ip6Addr → ParsedIp6) :
    ParseIpAddrFunc w := fun bufs line pstate =>
  let out := parse bufs.ip6 line pstate.addrV6
  ⟨out.ret, { pstate with addrType := .onlyIpv6, addrV6 := out.addr },
    { bufs with ip6 := out.buf }⟩

/-- A parser for both families, which sets the family itself. -/
def mixedCombined
    (parse : ParseBufs w → List Char → Ip4Addr w → Ip6Addr → ParsedMixed w) :
    ParseIpAddrFunc w := fun bufs line pstate =>
  let out := parse bufs line pstate.addrV4 pstate.addrV6
  ⟨out.ret, ⟨out.typeResult, out.addrV4, out.addrV6⟩, out.bufs⟩

def parseIp4AddrCombined : ParseIpAddrFunc w := ip4Combined parseIp4Addr

def parseIp6AddrCombined : ParseIpAddrFunc w := ip6Combined parseIp6Addr

def parseIpAddrCombined : ParseIpAddrFunc w := mixedCombined parseIpMixedAddr

def parseIp4NetAddrCombined (P : Platform) : ParseIpAddrFunc P.fast32 :=
  ip4Combined (parseIp4NetAddr P)

def parseIp6NetAddrCombined (P : Platform) : ParseIpAddrFunc P.fast32 :=
  ip6Combined (parseIp6NetAddr P)

def parseIpNetAddrCombined (P : Platform) : ParseIpAddrFunc P.fast32 :=
  mixedCombined (parseIpMixedNetAddr P)

/-! ### What a parser is relied on for -/

/-- The IPv4 networks of a record. -/
def ParseIpAddrData.netsV4 (vaddr : ParseIpAddrData w) : List (Ip4Addr w) :=
  if vaddr.addrType.ipv4 then [vaddr.addrV4] else []

/-- The IPv6 networks of a record. -/
def ParseIpAddrData.netsV6 (vaddr : ParseIpAddrData w) : List Ip6Addr :=
  if vaddr.addrType.ipv6 then [vaddr.addrV6] else []

namespace ParseIpAddrFunc

/-- A parser run with buffers and a record that nothing was written to. -/
def fresh (f : ParseIpAddrFunc w) (line : List Char) : ParsedCombined w :=
  f .zero line parseIpAddrDataInitNull

/-- A line that a fresh parse accepts. -/
def Valid (f : ParseIpAddrFunc w) (line : List Char) : Prop := (f.fresh line).ret = .success

instance (f : ParseIpAddrFunc w) : DecidablePred f.Valid :=
  fun line => inferInstanceAs (Decidable ((f.fresh line).ret = .success))

/-- The IPv4 networks that a fresh parse yields. -/
def netsV4 (f : ParseIpAddrFunc w) (line : List Char) : List (Ip4Addr w) :=
  if f.Valid line then (f.fresh line).pstate.netsV4 else []

/-- The IPv6 networks that a fresh parse yields. -/
def netsV6 (f : ParseIpAddrFunc w) (line : List Char) : List Ip6Addr :=
  if f.Valid line then (f.fresh line).pstate.netsV6 else []

/-- A parser for some families: what it yields does not depend on earlier calls, its networks are
of these families and have a prefix length in range, and only lines in hexadecimal notation are
neither accepted nor invalid. -/
structure Sound (f : ParseIpAddrFunc w) (mode : ParseIpType) : Prop where
  ret : ∀ bufs line pstate, (f bufs line pstate).ret = (f.fresh line).ret
  netsV4 : ∀ bufs line pstate, f.Valid line → (f bufs line pstate).pstate.netsV4 = f.netsV4 line
  netsV6 : ∀ bufs line pstate, f.Valid line → (f bufs line pstate).pstate.netsV6 = f.netsV6 line
  shortV4 : ∀ line, ∀ net ∈ f.netsV4 line, mode.ipv4 = true ∧ net.prefixlen ≤ ip4MaxPrefixlen
  shortV6 : ∀ line, ∀ net ∈ f.netsV6 line, mode.ipv6 = true ∧ net.prefixlen ≤ ip6MaxPrefixlen
  outcome : ∀ line, HexNotation line ∧ (f.fresh line).ret = .notImplemented ∨
    ¬ HexNotation line ∧ (f.Valid line ∨ (f.fresh line).ret = .invalid ∨
      (f.fresh line).ret = .invalidNet)

end ParseIpAddrFunc

/-! ### The parsers for addresses -/

theorem parseIp4AddrCombined_sound :
    ParseIpAddrFunc.Sound (w := w) parseIp4AddrCombined .onlyIpv4 where
  ret bufs line pstate := (parseIp4Addr_fresh _ _ _ _).1
  netsV4 bufs line pstate valid := by
    have same := (parseIp4Addr_fresh .zero bufs.ip4 ip4AddrInitNull pstate.addrV4).2 valid
    rw [ParseIpAddrFunc.netsV4, if_pos valid]
    exact congrArg (fun addr => [addr]) same.symm
  netsV6 bufs line pstate valid := by
    rw [ParseIpAddrFunc.netsV6, if_pos valid]
    rfl
  shortV4 line net mem := by
    rw [ParseIpAddrFunc.netsV4] at mem
    split_ifs at mem with valid
    · obtain rfl := List.mem_singleton.mp mem
      exact ⟨rfl, parseIp4Addr_prefixlen_le _ _ valid⟩
    · cases mem
  shortV6 line net mem := by
    rw [ParseIpAddrFunc.netsV6] at mem
    split_ifs at mem <;> cases mem
  outcome line := by
    refine (parseIp4Addr_ret .zero ip4AddrInitNull).imp_right ?_
    exact fun ⟨plain, ret⟩ => ⟨plain, ret.imp_right Or.inl⟩

theorem parseIp6AddrCombined_sound :
    ParseIpAddrFunc.Sound (w := w) parseIp6AddrCombined .onlyIpv6 where
  ret bufs line pstate := (parseIp6Addr_fresh _ _ _ _).1
  netsV4 bufs line pstate valid := by
    rw [ParseIpAddrFunc.netsV4, if_pos valid]
    rfl
  netsV6 bufs line pstate valid := by
    have same := (parseIp6Addr_fresh .zero bufs.ip6 ip6AddrInitNull pstate.addrV6).2 valid
    rw [ParseIpAddrFunc.netsV6, if_pos valid]
    exact congrArg (fun addr => [addr]) same.symm
  shortV4 line net mem := by
    rw [ParseIpAddrFunc.netsV4] at mem
    split_ifs at mem <;> cases mem
  shortV6 line net mem := by
    rw [ParseIpAddrFunc.netsV6] at mem
    split_ifs at mem with valid
    · obtain rfl := List.mem_singleton.mp mem
      exact ⟨rfl, parseIp6Addr_prefixlen_le _ _ valid⟩
    · cases mem
  outcome line := by
    refine (parseIp6Addr_ret .zero ip6AddrInitNull).imp_right ?_
    exact fun ⟨plain, ret⟩ => ⟨plain, ret.imp_right Or.inl⟩

/-- Two calls that find the same networks leave records with the same networks. -/
theorem SameMixed.nets {out out' : ParsedMixed w} (same : SameMixed out out') :
    ParseIpAddrData.netsV4 ⟨out.typeResult, out.addrV4, out.addrV6⟩ =
        ParseIpAddrData.netsV4 ⟨out'.typeResult, out'.addrV4, out'.addrV6⟩ ∧
      ParseIpAddrData.netsV6 ⟨out.typeResult, out.addrV4, out.addrV6⟩ =
        ParseIpAddrData.netsV6 ⟨out'.typeResult, out'.addrV4, out'.addrV6⟩ := by
  simp only [ParseIpAddrData.netsV4, ParseIpAddrData.netsV6, ← same.typeResult]
  constructor
  · split_ifs with ipv4
    · rw [same.addrV4 ipv4]
    · rfl
  · split_ifs with ipv6
    · rw [same.addrV6 ipv6]
    · rfl

theorem parseIpAddrCombined_sound :
    ParseIpAddrFunc.Sound (w := w) parseIpAddrCombined .both where
  ret bufs line pstate := (parseIpMixedAddr_fresh _ _ _ _ _ _ line).ret
  netsV4 bufs line pstate valid := by
    rw [ParseIpAddrFunc.netsV4, if_pos valid]
    exact (parseIpMixedAddr_fresh _ _ _ _ _ _ line).nets.1
  netsV6 bufs line pstate valid := by
    rw [ParseIpAddrFunc.netsV6, if_pos valid]
    exact (parseIpMixedAddr_fresh _ _ _ _ _ _ line).nets.2
  shortV4 line net mem := by
    rw [ParseIpAddrFunc.netsV4, ParseIpAddrData.netsV4] at mem
    split_ifs at mem with valid ipv4
    · obtain rfl := List.mem_singleton.mp mem
      exact ⟨rfl, parseIpMixedAddr_ipv4_le _ _ _ ipv4⟩
    · cases mem
    · cases mem
  shortV6 line net mem := by
    rw [ParseIpAddrFunc.netsV6, ParseIpAddrData.netsV6] at mem
    split_ifs at mem with valid ipv6
    · obtain rfl := List.mem_singleton.mp mem
      exact ⟨rfl, parseIpMixedAddr_ipv6_le _ _ _ ipv6⟩
    · cases mem
    · cases mem
  outcome line := by
    refine (parseIpMixedAddr_ret .zero ip4AddrInitNull ip6AddrInitNull line).imp_right ?_
    exact fun ⟨plain, ret⟩ => ⟨plain, ret.imp_right Or.inl⟩

/-! ### The parsers for networks -/

/-- A parser that drops the addresses with host bits, and fails if none is left. -/
structure ParseIpAddrFunc.NetCheck (P : Platform) (f g : ParseIpAddrFunc P.fast32) : Prop where
  bad : ∀ bufs line pstate, (f bufs line pstate).ret ≠ .success →
    (g bufs line pstate).ret = (f bufs line pstate).ret
  good : ∀ bufs line pstate, (f bufs line pstate).ret = .success →
    (g bufs line pstate).ret =
      if (f bufs line pstate).pstate.netsV4.filter (ip4AddrIsNet P) = [] ∧
          (f bufs line pstate).pstate.netsV6.filter (ip6AddrIsNet P) = []
        then .invalidNet else .success
  netsV4 : ∀ bufs line pstate, (g bufs line pstate).ret = .success →
    (g bufs line pstate).pstate.netsV4 =
      (f bufs line pstate).pstate.netsV4.filter (ip4AddrIsNet P)
  netsV6 : ∀ bufs line pstate, (g bufs line pstate).ret = .success →
    (g bufs line pstate).pstate.netsV6 =
      (f bufs line pstate).pstate.netsV6.filter (ip6AddrIsNet P)

namespace ParseIpAddrFunc

variable {P : Platform} {f g : ParseIpAddrFunc P.fast32} {mode : ParseIpType}

theorem NetCheck.valid (check : NetCheck P f g) {line : List Char} (valid : g.Valid line) :
    f.Valid line := by
  by_contra bad
  exact bad ((check.bad _ line _ bad).symm.trans valid)

/-- With the check of the host bits, a sound parser is still sound. -/
theorem Sound.net (sound : Sound f mode) (check : NetCheck P f g) : Sound g mode := by
  have filtered4 (bufs line pstate) (valid : f.Valid line) :
      (f bufs line pstate).pstate.netsV4 = (f.fresh line).pstate.netsV4 := by
    rw [sound.netsV4 bufs line pstate valid, ParseIpAddrFunc.netsV4, if_pos valid]
  have filtered6 (bufs line pstate) (valid : f.Valid line) :
      (f bufs line pstate).pstate.netsV6 = (f.fresh line).pstate.netsV6 := by
    rw [sound.netsV6 bufs line pstate valid, ParseIpAddrFunc.netsV6, if_pos valid]
  -- the check only depends on the networks, and these on nothing but the line
  have ret (bufs line pstate) : (g bufs line pstate).ret = (g.fresh line).ret := by
    by_cases valid : f.Valid line
    · have own := (sound.ret bufs line pstate).trans valid
      rw [check.good _ _ _ own, fresh, check.good _ _ _ valid, filtered4 _ _ _ valid,
        filtered6 _ _ _ valid]
      rfl
    · have own : (f bufs line pstate).ret ≠ .success := sound.ret bufs line pstate ▸ valid
      rw [check.bad _ _ _ own, fresh, check.bad _ _ _ valid]
      exact sound.ret bufs line pstate
  refine ⟨ret, ?_, ?_, ?_, ?_, ?_⟩
  · intro bufs line pstate valid
    rw [check.netsV4 _ _ _ ((ret _ _ _).trans valid), filtered4 _ _ _ (check.valid valid),
      ParseIpAddrFunc.netsV4, if_pos valid]
    exact (check.netsV4 _ _ _ valid).symm
  · intro bufs line pstate valid
    rw [check.netsV6 _ _ _ ((ret _ _ _).trans valid), filtered6 _ _ _ (check.valid valid),
      ParseIpAddrFunc.netsV6, if_pos valid]
    exact (check.netsV6 _ _ _ valid).symm
  · intro line net mem
    rw [ParseIpAddrFunc.netsV4] at mem
    split_ifs at mem with valid
    · apply sound.shortV4 line net
      rw [ParseIpAddrFunc.netsV4, if_pos (check.valid valid)]
      rw [fresh, check.netsV4 _ _ _ valid] at mem
      exact List.mem_of_mem_filter mem
    · cases mem
  · intro line net mem
    rw [ParseIpAddrFunc.netsV6] at mem
    split_ifs at mem with valid
    · apply sound.shortV6 line net
      rw [ParseIpAddrFunc.netsV6, if_pos (check.valid valid)]
      rw [fresh, check.netsV6 _ _ _ valid] at mem
      exact List.mem_of_mem_filter mem
    · cases mem
  · intro line
    -- the check turns a success into `PARSE_IP_RET_INVALID_NET` at most
    rcases sound.outcome line with ⟨hex, ret⟩ | ⟨plain, valid | bad⟩
    · refine Or.inl ⟨hex, (check.bad _ _ _ ?_).trans ret⟩
      rw [show (f .zero line parseIpAddrDataInitNull).ret = _ from ret]
      decide
    · refine Or.inr ⟨plain, ?_⟩
      rw [Valid, fresh, check.good _ _ _ valid]
      split_ifs
      · exact Or.inr (Or.inr rfl)
      · exact Or.inl rfl
    · refine Or.inr ⟨plain, Or.inr ?_⟩
      have failed : (f.fresh line).ret ≠ .success := by
        rcases bad with bad | bad <;> rw [bad] <;> decide
      rw [fresh, check.bad _ _ _ failed]
      exact bad

end ParseIpAddrFunc

theorem parseIp4NetAddrCombined_sound (P : Platform) :
    ParseIpAddrFunc.Sound (parseIp4NetAddrCombined P) .onlyIpv4 := by
  have success (bufs : ParseBufs P.fast32) (line) (pstate : ParseIpAddrData P.fast32) :=
    parseIp4NetAddr_success P bufs.ip4 line pstate.addrV4
  have nets (bufs : ParseBufs P.fast32) (line pstate) :
      (parseIp4AddrCombined bufs line pstate).pstate.netsV4 =
        [(parseIp4Addr bufs.ip4 line pstate.addrV4).addr] := rfl
  refine parseIp4AddrCombined_sound.net ⟨?_, ?_, ?_, ?_⟩
  · intro bufs line pstate bad
    exact congrArg ParsedIp4.ret (if_pos bad)
  · intro bufs line pstate good
    rw [nets]
    by_cases isNet : ip4AddrIsNet P (parseIp4Addr bufs.ip4 line pstate.addrV4).addr = true
    · rw [List.filter_cons_of_pos isNet, if_neg (by simp)]
      exact (success bufs line pstate).mpr ⟨good, isNet⟩
    · rw [List.filter_cons_of_neg isNet, if_pos ⟨rfl, rfl⟩]
      exact parseIp4NetAddr_invalidNet good isNet
  · intro bufs line pstate good
    rw [nets, List.filter_cons_of_pos ((success bufs line pstate).mp good).2]
    exact congrArg (fun addr => [addr]) (parseIp4NetAddr_addr P bufs.ip4 line pstate.addrV4)
  · intro bufs line pstate good
    rfl

theorem parseIp6NetAddrCombined_sound (P : Platform) :
    ParseIpAddrFunc.Sound (parseIp6NetAddrCombined P) .onlyIpv6 := by
  have success (bufs : ParseBufs P.fast32) (line) (pstate : ParseIpAddrData P.fast32) :=
    parseIp6NetAddr_success P bufs.ip6 line pstate.addrV6
  have nets (bufs : ParseBufs P.fast32) (line pstate) :
      (parseIp6AddrCombined bufs line pstate).pstate.netsV6 =
        [(parseIp6Addr bufs.ip6 line pstate.addrV6).addr] := rfl
  refine parseIp6AddrCombined_sound.net ⟨?_, ?_, ?_, ?_⟩
  · intro bufs line pstate bad
    exact congrArg ParsedIp6.ret (if_pos bad)
  · intro bufs line pstate good
    rw [nets]
    by_cases isNet : ip6AddrIsNet P (parseIp6Addr bufs.ip6 line pstate.addrV6).addr = true
    · rw [List.filter_cons_of_pos isNet, if_neg (by simp)]
      exact (success bufs line pstate).mpr ⟨good, isNet⟩
    · rw [List.filter_cons_of_neg isNet, if_pos ⟨rfl, rfl⟩]
      exact parseIp6NetAddr_invalidNet good isNet
  · intro bufs line pstate good
    rfl
  · intro bufs line pstate good
    rw [nets, List.filter_cons_of_pos ((success bufs line pstate).mp good).2]
    exact congrArg (fun addr => [addr]) (parseIp6NetAddr_addr P bufs.ip6 line pstate.addrV6)

theorem parseIpNetAddrCombined_sound (P : Platform) :
    ParseIpAddrFunc.Sound (parseIpNetAddrCombined P) .both := by
  have netsV4 (out : ParsedMixed P.fast32) :
      ParseIpAddrData.netsV4 ⟨⟨out.typeResult.ipv4 && ip4AddrIsNet P out.addrV4,
          out.typeResult.ipv6 && ip6AddrIsNet P out.addrV6⟩, out.addrV4, out.addrV6⟩ =
        (ParseIpAddrData.netsV4 ⟨out.typeResult, out.addrV4, out.addrV6⟩).filter
          (ip4AddrIsNet P) := by
    simp only [ParseIpAddrData.netsV4]
    cases out.typeResult.ipv4 with
    | false => rfl
    | true => simp [List.filter_cons]
  have netsV6 (out : ParsedMixed P.fast32) :
      ParseIpAddrData.netsV6 ⟨⟨out.typeResult.ipv4 && ip4AddrIsNet P out.addrV4,
          out.typeResult.ipv6 && ip6AddrIsNet P out.addrV6⟩, out.addrV4, out.addrV6⟩ =
        (ParseIpAddrData.netsV6 ⟨out.typeResult, out.addrV4, out.addrV6⟩).filter
          (ip6AddrIsNet P) := by
    simp only [ParseIpAddrData.netsV6]
    cases out.typeResult.ipv6 with
    | false => rfl
    | true => simp [List.filter_cons]
  have own (bufs : ParseBufs P.fast32) (line) (pstate : ParseIpAddrData P.fast32)
      (good : (parseIpNetAddrCombined P bufs line pstate).ret = .success) :
      (parseIpMixedAddr bufs line pstate.addrV4 pstate.addrV6).ret = .success := by
    by_contra bad
    exact bad ((congrArg ParsedMixed.ret (parseIpMixedNetAddr_of_ne bad)).symm.trans good)
  -- the strict parser fails where the other one does, and where it leaves no family
  refine parseIpAddrCombined_sound.net ⟨?_, ?_, ?_, ?_⟩
  · intro bufs line pstate bad
    exact congrArg ParsedMixed.ret (parseIpMixedNetAddr_of_ne bad)
  · intro bufs line pstate good
    refine (congrArg ParsedMixed.ret (parseIpMixedNetAddr_of_success good)).trans ?_
    rw [parseIpAddrCombined, mixedCombined, ← netsV4, ← netsV6]
    generalize parseIpMixedAddr bufs line pstate.addrV4 pstate.addrV6 = out
    simp only [ParseIpAddrData.netsV4, ParseIpAddrData.netsV6]
    cases (out.typeResult.ipv4 && ip4AddrIsNet P out.addrV4) <;>
      cases (out.typeResult.ipv6 && ip6AddrIsNet P out.addrV6) <;> simp
  · intro bufs line pstate good
    have checked := parseIpMixedNetAddr_of_success (P := P) (own bufs line pstate good)
    rw [parseIpNetAddrCombined, mixedCombined, checked]
    exact netsV4 _
  · intro bufs line pstate good
    have checked := parseIpMixedNetAddr_of_success (P := P) (own bufs line pstate good)
    rw [parseIpNetAddrCombined, mixedCombined, checked]
    exact netsV6 _

end IpDedup
