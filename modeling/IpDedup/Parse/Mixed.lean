import IpDedup.Parse.Ip4
import IpDedup.Parse.Ip6

/-!
# Parsing addresses of either family

`util/parse_ip/mixed.c`. The family is guessed from the first telling char of
the address. If both are possible, the IPv6 parser reads the buffer that the
IPv4 parser has written to.

## Main definitions

* `parseIpMixedGuessType`
* `parseIpMixedAddrSplit`, `parseIpMixedAddr`, `parseIpMixedNetAddr`

## Main results

* `parseIpMixedAddr_agrees`: on lines of hex digits, dots, colons and slashes, parsing both
  families is the same as running each parser on a line of its own
-/

set_option autoImplicit false

open Numeral

namespace IpDedup

variable {w : UintFast32}

/-- `union _ip_addr_variant_t`, with the member that was written last. -/
inductive IpAddrVariant (w : UintFast32) where
  | v4 (addr : Ip4Addr w)
  | v6 (addr : Ip6Addr)

/-- The static buffers of the parsers. -/
structure ParseBufs (w : UintFast32) where
  ip4 : ParseIp4Data
  ip6 : ParseIp6Data
  mixed : IpAddrVariant w

/-- The static buffers at program start. -/
def ParseBufs.zero : ParseBufs w := ⟨.zero, .zero, .v4 ⟨0, 0⟩⟩

/-- What a call leaves: the return code, the families that were found, the address records
and the static buffers. -/
structure ParsedMixed (w : UintFast32) where
  ret : ParseIpRet
  typeResult : ParseIpType
  addrV4 : Ip4Addr w
  addrV6 : Ip6Addr
  bufs : ParseBufs w

/-- The scan for the first telling char. -/
def parseIpMixedGuessTypeLoop (digitsSeen : Bool) : List Char → ParseIpRet × ParseIpType
  | [] => if digitsSeen then (.success, .both) else (.invalid, .none)
  | c :: s =>
    if c = '/' then (if digitsSeen then (.success, .both) else (.invalid, .none))
    else if c = '.' then (.success, .onlyIpv4)
    else if c = ':' then (.success, .onlyIpv6)
    else if isDigit 10 c then parseIpMixedGuessTypeLoop true s
    else if isDigit 16 c then (.success, .onlyIpv6)
    else (.invalid, .none)

def parseIpMixedGuessType (line : List Char) : ParseIpRet × ParseIpType :=
  if (line)[0]? = some '0' ∧ (line)[1]? = some 'x' then (.success, .both)
  else parseIpMixedGuessTypeLoop false line

/-- The IPv4 half of `parse_ip_mixed_addr_split`, and the memory at `addr_str` afterwards. -/
def parseIpMixedTryIp4 (guessed : Bool) (bufs : ParseBufs w) (addrStr : List Char)
    (prefixlenStr : Option (List Char)) (addrV4 : Ip4Addr w) :
    ParseIpRet × Ip4Addr w × ParseBufs w × List Char :=
  if guessed then
    let (out, mem) := parseIp4AddrSplit bufs.ip4 addrStr prefixlenStr
    let bufs := { bufs with ip4 := out.buf, mixed := .v4 out.addr }
    (out.ret, if out.ret = .success then out.addr else addrV4, bufs, mem)
  else (.didNotTry, addrV4, bufs, addrStr)

/-- The IPv6 half of `parse_ip_mixed_addr_split`. -/
def parseIpMixedTryIp6 (guessed : Bool) (bufs : ParseBufs w) (addrStr : List Char)
    (prefixlenStr : Option (List Char)) (addrV6 : Ip6Addr) :
    ParseIpRet × Ip6Addr × ParseBufs w :=
  if guessed then
    let out := parseIp6AddrSplit bufs.ip6 addrStr prefixlenStr
    let bufs := { bufs with ip6 := out.buf, mixed := .v6 out.addr }
    (out.ret, if out.ret = .success then out.addr else addrV6, bufs)
  else (.didNotTry, addrV6, bufs)

def parseIpMixedAddrSplit (bufs : ParseBufs w) (addrStr : List Char)
    (prefixlenStr : Option (List Char)) (addrV4 : Ip4Addr w) (addrV6 : Ip6Addr) :
    ParsedMixed w :=
  let (retGuess, guessedType) := parseIpMixedGuessType addrStr
  if retGuess ≠ .success then ⟨retGuess, .none, addrV4, addrV6, bufs⟩
  else
    let (retV4, addrV4, bufs, mem) :=
      parseIpMixedTryIp4 guessedType.ipv4 bufs addrStr prefixlenStr addrV4
    let (retV6, addrV6, bufs) :=
      parseIpMixedTryIp6 guessedType.ipv6 bufs (cstr mem) prefixlenStr addrV6
    -- the lower return code wins
    ⟨if retV4.code < retV6.code then retV4 else retV6,
      ⟨retV4 == .success, retV6 == .success⟩, addrV4, addrV6, bufs⟩

def parseIpMixedAddr (bufs : ParseBufs w) (line : List Char) (addrV4 : Ip4Addr w)
    (addrV6 : Ip6Addr) : ParsedMixed w :=
  match parseIpSplitPrefixlen line with
  | none => ⟨.invalid, .none, addrV4, addrV6, bufs⟩
  | some (addrStr, prefixlenStr) =>
    parseIpMixedAddrSplit bufs addrStr prefixlenStr addrV4 addrV6

def parseIpMixedNetAddr (P : Platform) (bufs : ParseBufs P.fast32) (line : List Char)
    (addrV4 : Ip4Addr P.fast32) (addrV6 : Ip6Addr) : ParsedMixed P.fast32 :=
  let out := parseIpMixedAddr bufs line addrV4 addrV6
  if out.ret ≠ .success then out
  else
    -- a family whose address has host bits set is dropped
    let typeResult : ParseIpType :=
      ⟨out.typeResult.ipv4 && ip4AddrIsNet P out.addrV4,
        out.typeResult.ipv6 && ip6AddrIsNet P out.addrV6⟩
    let ret := if typeResult.ipv4 || typeResult.ipv6 then .success else .invalidNet
    { out with ret := ret, typeResult := typeResult }

/-! ### The guess -/

section Guess

variable {ds t : List Char}

/-- The scan runs over leading decimal digits. -/
theorem parseIpMixedGuessTypeLoop_digits (digits : ∀ c ∈ ds, isDigit 10 c = true) (seen : Bool) :
    parseIpMixedGuessTypeLoop seen (ds ++ t) =
      parseIpMixedGuessTypeLoop (seen || !ds.isEmpty) t := by
  induction ds generalizing seen with
  | nil => simp
  | cons c ds ih =>
    obtain ⟨first, rest⟩ := List.forall_mem_cons.mp digits
    have slash : c ≠ '/' := by
      rintro rfl
      simp [isDigit, digit?] at first
    have dot : c ≠ '.' := by
      rintro rfl
      simp [isDigit, digit?] at first
    have colon : c ≠ ':' := by
      rintro rfl
      simp [isDigit, digit?] at first
    rw [List.cons_append, parseIpMixedGuessTypeLoop, if_neg slash, if_neg dot, if_neg colon,
      if_pos first, ih rest]
    simp

/-- The chars of the lines that the parsers agree on. -/
def AddrChar (c : Char) : Prop := isDigit 16 c = true ∨ c ∈ ['.', ':', '/']

instance : DecidablePred AddrChar :=
  fun c => inferInstanceAs (Decidable (isDigit 16 c = true ∨ c ∈ ['.', ':', '/']))

theorem not_addrChar_nul : ¬ AddrChar nul := by
  unfold AddrChar
  decide

theorem plainAddr_of_addrChar {s : List Char} (charset : ∀ c ∈ s, AddrChar c) : PlainAddr s := by
  rintro ⟨-, mark⟩
  have other : ¬ AddrChar 'x' := by
    unfold AddrChar
    decide
  exact other (charset 'x' (List.mem_of_getElem? mark))

theorem foreignChar_letter {c : Char} (hex : isDigit 16 c = true) (letter : isDigit 10 c = false) :
    ForeignChar 10 c := by
  refine ⟨not_isspace_of_isDigit hex, ?_, letter⟩
  intro mem
  simp only [List.mem_cons, List.not_mem_nil, or_false] at mem
  rcases mem with rfl | rfl | rfl | rfl <;> simp [isDigit, digit?] at hex

/-- How an address looks, and the family that is guessed for it. -/
inductive GuessCase : List Char → ParseIpRet × ParseIpType → Prop where
  | empty : GuessCase [] (.invalid, .none)
  | leadingSlash (t : List Char) : GuessCase ('/' :: t) (.invalid, .none)
  | digits (ds : List Char) (nonempty : ds ≠ []) (digits : ∀ c ∈ ds, isDigit 10 c = true) :
      GuessCase ds (.success, .both)
  | slash (ds t : List Char) (digits : ∀ c ∈ ds, isDigit 10 c = true) :
      GuessCase (ds ++ '/' :: t) (.success, .both)
  | dot (ds t : List Char) (digits : ∀ c ∈ ds, isDigit 10 c = true) :
      GuessCase (ds ++ '.' :: t) (.success, .onlyIpv4)
  | ipv6 (ds : List Char) (c : Char) (t : List Char) (digits : ∀ c ∈ ds, isDigit 10 c = true)
      (foreign : ForeignChar 10 c) (other : c ≠ '.') :
      GuessCase (ds ++ c :: t) (.success, .onlyIpv6)

theorem parseIpMixedGuessType_cases {s : List Char} (charset : ∀ c ∈ s, AddrChar c) :
    GuessCase s (parseIpMixedGuessType s) := by
  have cut : s = s.takeWhile (isDigit 10) ++ s.dropWhile (isDigit 10) :=
    List.takeWhile_append_dropWhile.symm
  have digits : ∀ c ∈ s.takeWhile (isDigit 10), isDigit 10 c = true :=
    fun c => List.mem_takeWhile_imp
  have stop := List.head?_dropWhile_not (isDigit 10) s
  have scan : parseIpMixedGuessType s = parseIpMixedGuessTypeLoop false s :=
    if_neg (plainAddr_of_addrChar charset)
  rw [scan]
  -- leading digits leave the guess open, and the first other character decides it
  generalize s.takeWhile (isDigit 10) = ds at cut digits
  generalize s.dropWhile (isDigit 10) = t at cut stop
  subst cut
  rw [parseIpMixedGuessTypeLoop_digits digits]
  cases t with
  | nil =>
    rw [List.append_nil]
    cases ds with
    | nil => exact .empty
    | cons d ds => exact .digits (d :: ds) (by simp) digits
  | cons c t =>
    have letter : isDigit 10 c = false := by simpa using stop
    have known : AddrChar c := charset c (by simp)
    rcases known with hex | mark
    · have foreign := foreignChar_letter hex letter
      have slash : c ≠ '/' := by
        rintro rfl
        simp [isDigit, digit?] at hex
      have dot : c ≠ '.' := by
        rintro rfl
        simp [isDigit, digit?] at hex
      have colon : c ≠ ':' := by
        rintro rfl
        simp [isDigit, digit?] at hex
      rw [parseIpMixedGuessTypeLoop, if_neg slash, if_neg dot, if_neg colon,
        if_neg (by simp [letter]), if_pos hex]
      exact .ipv6 ds c t digits foreign dot
    · simp only [List.mem_cons, List.not_mem_nil, or_false] at mark
      rcases mark with rfl | rfl | rfl
      · exact .dot ds t digits
      · exact .ipv6 ds ':' t digits (by unfold ForeignChar; decide) (by decide)
      · cases ds with
        | nil => exact .leadingSlash t
        | cons d ds => exact .slash (d :: ds) t digits

end Guess

/-! ### What any line yields -/

section Lines

variable {s : List Char} {prefixlenStr : Option (List Char)}

/-- The scan finds a family, or it fails. -/
theorem parseIpMixedGuessType_ret (s : List Char) :
    parseIpMixedGuessType s = (.invalid, .none) ∨
      (parseIpMixedGuessType s).1 = .success ∧
        ((parseIpMixedGuessType s).2.ipv4 = true ∨ (parseIpMixedGuessType s).2.ipv6 = true) := by
  have loop (seen : Bool) (s : List Char) :
      parseIpMixedGuessTypeLoop seen s = (.invalid, .none) ∨
        (parseIpMixedGuessTypeLoop seen s).1 = .success ∧
          ((parseIpMixedGuessTypeLoop seen s).2.ipv4 = true ∨
            (parseIpMixedGuessTypeLoop seen s).2.ipv6 = true) := by
    fun_induction parseIpMixedGuessTypeLoop seen s <;>
      simp_all [ParseIpType.both, ParseIpType.onlyIpv4, ParseIpType.onlyIpv6]
  unfold parseIpMixedGuessType
  split_ifs
  · exact Or.inr ⟨rfl, Or.inl rfl⟩
  · exact loop false s

theorem parseIpMixedTryIp4_success {guessed : Bool} {bufs : ParseBufs w} {addrV4 : Ip4Addr w}
    (good : (parseIpMixedTryIp4 guessed bufs s prefixlenStr addrV4).1 = .success) :
    (parseIpMixedTryIp4 guessed bufs s prefixlenStr addrV4).2.1 =
        (parseIp4AddrSplit bufs.ip4 s prefixlenStr).1.addr ∧
      (parseIp4AddrSplit (w := w) bufs.ip4 s prefixlenStr).1.ret = .success := by
  cases guessed with
  | false => cases good
  | true =>
    have own : (parseIp4AddrSplit (w := w) bufs.ip4 s prefixlenStr).1.ret = .success := good
    exact ⟨if_pos own, own⟩

theorem parseIpMixedTryIp6_success {guessed : Bool} {bufs : ParseBufs w} {addrV6 : Ip6Addr}
    (good : (parseIpMixedTryIp6 guessed bufs s prefixlenStr addrV6).1 = .success) :
    (parseIpMixedTryIp6 guessed bufs s prefixlenStr addrV6).2.1 =
        (parseIp6AddrSplit bufs.ip6 s prefixlenStr).addr ∧
      (parseIp6AddrSplit bufs.ip6 s prefixlenStr).ret = .success := by
  cases guessed with
  | false => cases good
  | true =>
    have own : (parseIp6AddrSplit bufs.ip6 s prefixlenStr).ret = .success := good
    exact ⟨if_pos own, own⟩

/-- The outcome after a successful guess. -/
theorem parseIpMixedAddrSplit_eq {bufs : ParseBufs w} {addrV4 : Ip4Addr w} {addrV6 : Ip6Addr}
    (good : (parseIpMixedGuessType s).1 = .success) :
    parseIpMixedAddrSplit bufs s prefixlenStr addrV4 addrV6 =
      let guessed := (parseIpMixedGuessType s).2
      let v4 := parseIpMixedTryIp4 guessed.ipv4 bufs s prefixlenStr addrV4
      let v6 := parseIpMixedTryIp6 guessed.ipv6 v4.2.2.1 (cstr v4.2.2.2) prefixlenStr addrV6
      ⟨if v4.1.code < v6.1.code then v4.1 else v6.1, ⟨v4.1 == .success, v6.1 == .success⟩,
        v4.2.1, v6.2.1, v6.2.2⟩ := by
  unfold parseIpMixedAddrSplit
  simp [good]

/-- Two calls that find the same networks. -/
structure SameMixed (out out' : ParsedMixed w) : Prop where
  ret : out.ret = out'.ret
  typeResult : out.typeResult = out'.typeResult
  addrV4 : out.typeResult.ipv4 = true → out.addrV4 = out'.addrV4
  addrV6 : out.typeResult.ipv6 = true → out.addrV6 = out'.addrV6

variable (bufs bufs' : ParseBufs w) (addrV4 addrV4' : Ip4Addr w) (addrV6 addrV6' : Ip6Addr)

theorem parseIpMixedTryIp4_fresh (guessed : Bool) (s : List Char)
    (prefixlenStr : Option (List Char)) :
    (parseIpMixedTryIp4 guessed bufs s prefixlenStr addrV4).1 =
        (parseIpMixedTryIp4 guessed bufs' s prefixlenStr addrV4').1 ∧
      (parseIpMixedTryIp4 guessed bufs s prefixlenStr addrV4).2.2.2 =
        (parseIpMixedTryIp4 guessed bufs' s prefixlenStr addrV4').2.2.2 := by
  cases guessed with
  | false => exact ⟨rfl, rfl⟩
  | true => exact ⟨rfl, rfl⟩

theorem parseIpMixedTryIp6_fresh (guessed : Bool) (s : List Char)
    (prefixlenStr : Option (List Char)) :
    (parseIpMixedTryIp6 guessed bufs s prefixlenStr addrV6).1 =
      (parseIpMixedTryIp6 guessed bufs' s prefixlenStr addrV6').1 := by
  cases guessed with
  | false => rfl
  | true => rfl

theorem parseIpMixedAddrSplit_fresh (s : List Char) (prefixlenStr : Option (List Char)) :
    SameMixed (parseIpMixedAddrSplit bufs s prefixlenStr addrV4 addrV6)
      (parseIpMixedAddrSplit bufs' s prefixlenStr addrV4' addrV6') := by
  rcases parseIpMixedGuessType_ret s with bad | ⟨good, -⟩
  · constructor <;> simp [parseIpMixedAddrSplit, bad, ParseIpType.none]
  · rw [parseIpMixedAddrSplit_eq good, parseIpMixedAddrSplit_eq good]
    generalize (parseIpMixedGuessType s).2 = guessed
    obtain ⟨ret4, mem⟩ :=
      parseIpMixedTryIp4_fresh bufs bufs' addrV4 addrV4' guessed.ipv4 s prefixlenStr
    dsimp only
    rw [← mem]
    generalize cstr _ = rest
    have ret6 := parseIpMixedTryIp6_fresh
      (parseIpMixedTryIp4 guessed.ipv4 bufs s prefixlenStr addrV4).2.2.1
      (parseIpMixedTryIp4 guessed.ipv4 bufs' s prefixlenStr addrV4').2.2.1
      addrV6 addrV6' guessed.ipv6 rest prefixlenStr
    refine ⟨by rw [ret4, ret6], by rw [ret4, ret6], fun ipv4 => ?_, fun ipv6 => ?_⟩
    · have own := eq_of_beq ipv4
      rw [(parseIpMixedTryIp4_success own).1, (parseIpMixedTryIp4_success (ret4 ▸ own)).1]
      rfl
    · have own := eq_of_beq ipv6
      rw [(parseIpMixedTryIp6_success own).1, (parseIpMixedTryIp6_success (ret6 ▸ own)).1]
      rfl

/-- Neither the static buffers nor the records have a say in what is parsed. -/
theorem parseIpMixedAddr_fresh (line : List Char) :
    SameMixed (parseIpMixedAddr bufs line addrV4 addrV6)
      (parseIpMixedAddr bufs' line addrV4' addrV6') := by
  unfold parseIpMixedAddr
  cases parseIpSplitPrefixlen line with
  | none => constructor <;> simp [ParseIpType.none]
  | some parts => exact parseIpMixedAddrSplit_fresh _ _ _ _ _ _ _ _

theorem parseIpMixedAddrSplit_ipv4_le
    (ipv4 : (parseIpMixedAddrSplit bufs s prefixlenStr addrV4 addrV6).typeResult.ipv4 = true) :
    (parseIpMixedAddrSplit bufs s prefixlenStr addrV4 addrV6).addrV4.prefixlen ≤ 32 := by
  rcases parseIpMixedGuessType_ret s with bad | ⟨good, -⟩
  · simp [parseIpMixedAddrSplit, bad, ParseIpType.none] at ipv4
  · rw [parseIpMixedAddrSplit_eq good] at ipv4 ⊢
    obtain ⟨same, own⟩ := parseIpMixedTryIp4_success (eq_of_beq ipv4)
    dsimp only
    rw [same]
    exact parseIp4AddrSplit_prefixlen_le own

theorem parseIpMixedAddrSplit_ipv6_le
    (ipv6 : (parseIpMixedAddrSplit bufs s prefixlenStr addrV4 addrV6).typeResult.ipv6 = true) :
    (parseIpMixedAddrSplit bufs s prefixlenStr addrV4 addrV6).addrV6.prefixlen ≤ 128 := by
  rcases parseIpMixedGuessType_ret s with bad | ⟨good, -⟩
  · simp [parseIpMixedAddrSplit, bad, ParseIpType.none] at ipv6
  · rw [parseIpMixedAddrSplit_eq good] at ipv6 ⊢
    obtain ⟨same, own⟩ := parseIpMixedTryIp6_success (eq_of_beq ipv6)
    dsimp only
    rw [same]
    exact parseIp6AddrSplit_prefixlen_le own

/-- What neither family reads is invalid. -/
theorem lower_eq_invalid {a b : ParseIpRet}
    (ha : a = .success ∨ a = .invalid ∨ a = .didNotTry)
    (hb : b = .success ∨ b = .invalid ∨ b = .didNotTry) (tried : a ≠ .didNotTry ∨ b ≠ .didNotTry) :
    (if a.code < b.code then a else b) = .success ∨
      (if a.code < b.code then a else b) = .invalid := by
  rcases ha with rfl | rfl | rfl <;> rcases hb with rfl | rfl | rfl <;>
    first | decide | exact absurd rfl (tried.resolve_left (not_not.mpr rfl))

theorem parseIpMixedTryIp4_ret (guessed : Bool) (prefixlenStr : Option (List Char))
    (plain : PlainAddr s) :
    ((parseIpMixedTryIp4 guessed bufs s prefixlenStr addrV4).1 = .success ∨
        (parseIpMixedTryIp4 guessed bufs s prefixlenStr addrV4).1 = .invalid ∨
        (parseIpMixedTryIp4 guessed bufs s prefixlenStr addrV4).1 = .didNotTry) ∧
      (guessed = true →
        (parseIpMixedTryIp4 guessed bufs s prefixlenStr addrV4).1 ≠ .didNotTry) := by
  cases guessed with
  | false => exact ⟨Or.inr (Or.inr rfl), fun tried => by cases tried⟩
  | true =>
    rw [parseIpMixedTryIp4, if_pos rfl]
    rcases parseIp4AddrSplit_ret (w := w) bufs.ip4 prefixlenStr plain with own | own <;>
      simp [own]

theorem parseIpMixedTryIp6_ret (guessed : Bool) (prefixlenStr : Option (List Char))
    (plain : PlainAddr s) :
    ((parseIpMixedTryIp6 guessed bufs s prefixlenStr addrV6).1 = .success ∨
        (parseIpMixedTryIp6 guessed bufs s prefixlenStr addrV6).1 = .invalid ∨
        (parseIpMixedTryIp6 guessed bufs s prefixlenStr addrV6).1 = .didNotTry) ∧
      (guessed = true →
        (parseIpMixedTryIp6 guessed bufs s prefixlenStr addrV6).1 ≠ .didNotTry) := by
  cases guessed with
  | false => exact ⟨Or.inr (Or.inr rfl), fun tried => by cases tried⟩
  | true =>
    rw [parseIpMixedTryIp6, if_pos rfl]
    rcases parseIp6AddrSplit_ret bufs.ip6 prefixlenStr plain with own | own <;> simp [own]

/-- The memory that the IPv4 half leaves begins like the address. -/
theorem cstr_parseIpMixedTryIp4 (guessed : Bool) (prefixlenStr : Option (List Char))
    (nonempty : s ≠ []) (plain : PlainAddr s) (clean : nul ∉ s) :
    cstr (parseIpMixedTryIp4 guessed bufs s prefixlenStr addrV4).2.2.2 <+: s := by
  cases guessed with
  | false => exact List.takeWhile_prefix _
  | true =>
    have front := cstr_parseIp4AddrSplit (w := w) bufs.ip4 prefixlenStr nonempty plain clean
    exact front ▸ List.takeWhile_prefix _

/-- An address that is not in hexadecimal notation is read, or it is invalid. -/
theorem parseIpMixedAddrSplit_ret (plain : PlainAddr s) (clean : nul ∉ s) :
    (parseIpMixedAddrSplit bufs s prefixlenStr addrV4 addrV6).ret = .success ∨
      (parseIpMixedAddrSplit bufs s prefixlenStr addrV4 addrV6).ret = .invalid := by
  rcases parseIpMixedGuessType_ret s with bad | ⟨good, found⟩
  · exact Or.inr (by simp [parseIpMixedAddrSplit, bad])
  · have nonempty : s ≠ [] := by
      rintro rfl
      cases good
    rw [parseIpMixedAddrSplit_eq good]
    obtain ⟨ret4, tried4⟩ := parseIpMixedTryIp4_ret bufs addrV4
      (parseIpMixedGuessType s).2.ipv4 prefixlenStr plain
    have front := cstr_parseIpMixedTryIp4 bufs addrV4
      (parseIpMixedGuessType s).2.ipv4 prefixlenStr nonempty plain clean
    obtain ⟨ret6, tried6⟩ := parseIpMixedTryIp6_ret
      (parseIpMixedTryIp4 (parseIpMixedGuessType s).2.ipv4 bufs s prefixlenStr addrV4).2.2.1
      addrV6 (parseIpMixedGuessType s).2.ipv6 prefixlenStr (plain.of_prefix front)
    exact lower_eq_invalid ret4 ret6 (found.imp tried4 tried6)

theorem parseIpMixedAddrSplit_hex (hex : ¬ PlainAddr s) :
    (parseIpMixedAddrSplit bufs s prefixlenStr addrV4 addrV6).ret = .notImplemented := by
  have good : parseIpMixedGuessType s = (.success, .both) := if_pos (not_not.mp hex)
  have again : ¬ PlainAddr (cstr s) := by
    obtain ⟨t, rfl⟩ := not_plainAddr_iff.mp hex
    exact not_plainAddr_iff.mpr ⟨cstr t, rfl⟩
  have ret4 : (parseIp4AddrSplit (w := w) bufs.ip4 s prefixlenStr).1.ret = .notImplemented :=
    (parseIp4AddrSplit_hex hex).1
  have mem : (parseIp4AddrSplit (w := w) bufs.ip4 s prefixlenStr).2 = s :=
    (parseIp4AddrSplit_hex hex).2
  have ret6 : (parseIp6AddrSplit bufs.ip6 (cstr s) prefixlenStr).ret = .notImplemented :=
    parseIp6AddrSplit_hex again
  simp [parseIpMixedAddrSplit, parseIpMixedTryIp4, parseIpMixedTryIp6, good, ParseIpType.both,
    ret4, mem, ret6]

/-- A line is an address, or it is invalid, or it is in hexadecimal notation. -/
theorem parseIpMixedAddr_ret (line : List Char) :
    (HexNotation line ∧ (parseIpMixedAddr bufs line addrV4 addrV6).ret = .notImplemented) ∨
      (¬ HexNotation line ∧ ((parseIpMixedAddr bufs line addrV4 addrV6).ret = .success ∨
        (parseIpMixedAddr bufs line addrV4 addrV6).ret = .invalid)) := by
  rw [hexNotation_iff]
  unfold parseIpMixedAddr
  cases split : parseIpSplitPrefixlen line with
  | none => exact Or.inr ⟨by simp, Or.inr rfl⟩
  | some parts =>
    obtain ⟨addrStr, prefixlenStr⟩ := parts
    by_cases plain : PlainAddr addrStr
    · have clean := (prefix_of_parseIpSplitPrefixlen split).2
      refine Or.inr ⟨?_, parseIpMixedAddrSplit_ret _ _ _ plain clean⟩
      rintro ⟨_, _, same, hex⟩
      cases same
      exact hex plain
    · exact Or.inl ⟨⟨_, _, rfl, plain⟩, parseIpMixedAddrSplit_hex _ _ _ plain⟩

theorem parseIpMixedAddr_ipv4_le {line : List Char}
    (ipv4 : (parseIpMixedAddr bufs line addrV4 addrV6).typeResult.ipv4 = true) :
    (parseIpMixedAddr bufs line addrV4 addrV6).addrV4.prefixlen ≤ 32 := by
  unfold parseIpMixedAddr at *
  cases split : parseIpSplitPrefixlen line with
  | none => simp [split, ParseIpType.none] at ipv4
  | some parts =>
    simp only [split] at ipv4 ⊢
    exact parseIpMixedAddrSplit_ipv4_le _ _ _ ipv4

theorem parseIpMixedAddr_ipv6_le {line : List Char}
    (ipv6 : (parseIpMixedAddr bufs line addrV4 addrV6).typeResult.ipv6 = true) :
    (parseIpMixedAddr bufs line addrV4 addrV6).addrV6.prefixlen ≤ 128 := by
  unfold parseIpMixedAddr at *
  cases split : parseIpSplitPrefixlen line with
  | none => simp [split, ParseIpType.none] at ipv6
  | some parts =>
    simp only [split] at ipv6 ⊢
    exact parseIpMixedAddrSplit_ipv6_le _ _ _ ipv6

end Lines

/-! ### Agreement with the parsers of one family -/

section Agreement

/-- The outcome for both families is the outcome for each of them. -/
structure MixedAgrees (mixed : ParsedMixed w) (ip4 : ParsedIp4 w) (ip6 : ParsedIp6) : Prop where
  ipv4 : mixed.typeResult.ipv4 = true ↔ ip4.ret = .success
  addrV4 : ip4.ret = .success → mixed.addrV4 = ip4.addr
  ipv6 : mixed.typeResult.ipv6 = true ↔ ip6.ret = .success
  addrV6 : ip6.ret = .success → mixed.addrV6 = ip6.addr
  ret : mixed.ret = .success ↔ ip4.ret = .success ∨ ip6.ret = .success

/-- Without a severe error, the lower return code is success if one of the two is. -/
theorem lower_eq_success {a b : ParseIpRet} (ha : 0 ≤ a.code) (hb : 0 ≤ b.code) :
    (if a.code < b.code then a else b) = .success ↔ a = .success ∨ b = .success := by
  cases a <;> cases b <;> first | decide | (exfalso; revert ha hb; decide)

variable {s : List Char} {prefixlenStr : Option (List Char)} (bufs : ParseBufs w)
  (buf4 : ParseIp4Data) (buf6 : ParseIp6Data) (addrV4 : Ip4Addr w) (addrV6 : Ip6Addr)

theorem parseIp4AddrSplit_code (plain : PlainAddr s) (prefixlenStr : Option (List Char)) :
    0 ≤ (parseIp4AddrSplit (w := w) buf4 s prefixlenStr).1.ret.code := by
  rcases parseIp4AddrSplit_ret (w := w) buf4 prefixlenStr plain with ret | ret <;>
    rw [ret] <;> decide

theorem parseIp6AddrSplit_code (plain : PlainAddr s) (prefixlenStr : Option (List Char)) :
    0 ≤ (parseIp6AddrSplit buf6 s prefixlenStr).ret.code := by
  rcases parseIp6AddrSplit_ret buf6 prefixlenStr plain with ret | ret <;> rw [ret] <;> decide

/-- Both parsers reject what the guess rejects. -/
theorem parseIpMixedAddrSplit_agrees_invalid
    (guess : parseIpMixedGuessType s = (.invalid, .none))
    (ip4 : (parseIp4AddrSplit (w := w) buf4 s prefixlenStr).1.ret = .invalid)
    (ip6 : (parseIp6AddrSplit buf6 s prefixlenStr).ret = .invalid) :
    MixedAgrees (parseIpMixedAddrSplit bufs s prefixlenStr addrV4 addrV6)
      (parseIp4AddrSplit buf4 s prefixlenStr).1 (parseIp6AddrSplit buf6 s prefixlenStr) := by
  constructor <;> simp [parseIpMixedAddrSplit, guess, ip4, ip6, ParseIpType.none]

/-- The IPv6 parser rejects what is guessed to be IPv4. -/
theorem parseIpMixedAddrSplit_agrees_ip4 (plain : PlainAddr s)
    (guess : parseIpMixedGuessType s = (.success, .onlyIpv4))
    (ip6 : (parseIp6AddrSplit buf6 s prefixlenStr).ret = .invalid) :
    MixedAgrees (parseIpMixedAddrSplit bufs s prefixlenStr addrV4 addrV6)
      (parseIp4AddrSplit buf4 s prefixlenStr).1 (parseIp6AddrSplit buf6 s prefixlenStr) := by
  rw [parseIp4AddrSplit_buf buf4 bufs.ip4]
  have code := parseIp4AddrSplit_code (w := w) bufs.ip4 plain prefixlenStr
  constructor <;>
    simp +contextual [parseIpMixedAddrSplit, parseIpMixedTryIp4, parseIpMixedTryIp6, guess, ip6,
      ParseIpType.onlyIpv4, lower_eq_success code (show 0 ≤ ParseIpRet.didNotTry.code by decide)]

/-- The IPv4 parser rejects what is guessed to be IPv6. -/
theorem parseIpMixedAddrSplit_agrees_ip6 (plain : PlainAddr s) (clean : nul ∉ s)
    (guess : parseIpMixedGuessType s = (.success, .onlyIpv6))
    (ip4 : (parseIp4AddrSplit (w := w) buf4 s prefixlenStr).1.ret = .invalid) :
    MixedAgrees (parseIpMixedAddrSplit bufs s prefixlenStr addrV4 addrV6)
      (parseIp4AddrSplit buf4 s prefixlenStr).1 (parseIp6AddrSplit buf6 s prefixlenStr) := by
  rw [parseIp6AddrSplit_buf buf6 bufs.ip6]
  have code := parseIp6AddrSplit_code bufs.ip6 plain prefixlenStr
  constructor <;>
    simp +contextual [parseIpMixedAddrSplit, parseIpMixedTryIp4, parseIpMixedTryIp6, guess, ip4,
      ParseIpType.onlyIpv6, cstr_of_not_mem clean,
      lower_eq_success (show 0 ≤ ParseIpRet.didNotTry.code by decide) code]

/-- What the IPv4 parser leaves of the address is as good as the address. -/
theorem parseIpMixedAddrSplit_agrees_both (plain : PlainAddr s) (nonempty : s ≠ [])
    (clean : nul ∉ s) (guess : parseIpMixedGuessType s = (.success, .both))
    (cut : parseIp6AddrSplit bufs.ip6 (s.takeWhile (· ≠ '.')) prefixlenStr =
        parseIp6AddrSplit bufs.ip6 s prefixlenStr ∨
      (parseIp6AddrSplit bufs.ip6 (s.takeWhile (· ≠ '.')) prefixlenStr).ret = .invalid ∧
        (parseIp6AddrSplit bufs.ip6 s prefixlenStr).ret = .invalid) :
    MixedAgrees (parseIpMixedAddrSplit bufs s prefixlenStr addrV4 addrV6)
      (parseIp4AddrSplit buf4 s prefixlenStr).1 (parseIp6AddrSplit buf6 s prefixlenStr) := by
  rw [parseIp4AddrSplit_buf buf4 bufs.ip4, parseIp6AddrSplit_buf buf6 bufs.ip6]
  have mem := cstr_parseIp4AddrSplit (w := w) bufs.ip4 prefixlenStr nonempty plain clean
  have code4 := parseIp4AddrSplit_code (w := w) bufs.ip4 plain prefixlenStr
  have code6 := parseIp6AddrSplit_code bufs.ip6 plain prefixlenStr
  -- the parser for IPv6 reads what the one for IPv4 has left of the buffer
  generalize s.takeWhile (· ≠ '.') = front at mem cut
  rcases cut with same | ⟨rest, whole⟩
  · constructor <;>
      simp +contextual [parseIpMixedAddrSplit, parseIpMixedTryIp4, parseIpMixedTryIp6, guess, mem,
        same, ParseIpType.both, lower_eq_success code4 code6]
  · constructor <;>
      simp +contextual [parseIpMixedAddrSplit, parseIpMixedTryIp4, parseIpMixedTryIp6, guess, mem,
        rest, whole, ParseIpType.both,
        lower_eq_success code4 (show 0 ≤ ParseIpRet.invalid.code by decide)]

/-- On an address part, both families come out as from their own parsers. -/
theorem parseIpMixedAddrSplit_agrees (charset : ∀ c ∈ s, AddrChar c) :
    MixedAgrees (parseIpMixedAddrSplit bufs s prefixlenStr addrV4 addrV6)
      (parseIp4AddrSplit buf4 s prefixlenStr).1 (parseIp6AddrSplit buf6 s prefixlenStr) := by
  have plain := plainAddr_of_addrChar charset
  have clean : nul ∉ s := fun mem => not_addrChar_nul (charset nul mem)
  have noSeparator {ds : List Char} (sep : Char) (digits : ∀ c ∈ ds, isDigit 10 c = true)
      (other : isDigit 10 sep = false) : sep ∉ ds := by
    intro mem
    simp [digits sep mem] at other
  have slash10 : ForeignChar 10 '/' := by unfold ForeignChar; decide
  have slash16 : ForeignChar 16 '/' := by unfold ForeignChar; decide
  have dot16 : ForeignChar 16 '.' := by unfold ForeignChar; decide
  have guess := parseIpMixedGuessType_cases charset
  generalize answer : parseIpMixedGuessType s = guessed at guess
  cases guess with
  | empty => exact parseIpMixedAddrSplit_agrees_invalid _ _ _ _ _ answer rfl rfl
  | leadingSlash t =>
    exact parseIpMixedAddrSplit_agrees_invalid _ _ _ _ _ answer
      (parseIp4AddrSplit_foreign (a := []) plain (by simp) (by decide) slash10)
      (parseIp6AddrSplit_foreign (a := []) plain (by simp) (by decide) slash16)
  | digits _ nonempty digits =>
    -- nothing is overwritten, so both parsers see the whole text
    have whole := takeWhile_ne_of_not_mem (noSeparator '.' digits (by decide))
    refine parseIpMixedAddrSplit_agrees_both _ _ _ _ _ plain nonempty clean answer (Or.inl ?_)
    rw [whole]
  | slash ds t digits =>
    -- the slash is foreign to both, also in what is left after overwriting a dot
    have front : (ds ++ '/' :: t).takeWhile (· ≠ '.') = ds ++ '/' :: t.takeWhile (· ≠ '.') := by
      rw [List.takeWhile_append_of_pos]
      · simp
      · intro c mem
        have dot := noSeparator '.' digits (by decide)
        simpa using fun same : c = '.' => dot (same ▸ mem)
    have plain' : PlainAddr (ds ++ '/' :: t.takeWhile (· ≠ '.')) := by
      rw [← front]
      exact plainAddr_of_addrChar fun c mem => charset c ((List.takeWhile_prefix _).mem mem)
    have colon := noSeparator ':' digits (by decide)
    refine parseIpMixedAddrSplit_agrees_both _ _ _ _ _ plain (by simp) clean answer
      (Or.inr ⟨?_, ?_⟩)
    · rw [front]
      exact parseIp6AddrSplit_foreign plain' colon (by decide) slash16
    · exact parseIp6AddrSplit_foreign plain colon (by decide) slash16
  | dot ds t digits =>
    have colon := noSeparator ':' digits (by decide)
    exact parseIpMixedAddrSplit_agrees_ip4 _ _ _ _ _ plain answer
      (parseIp6AddrSplit_foreign plain colon (by decide) dot16)
  | ipv6 ds c t digits foreign other =>
    have dot := noSeparator '.' digits (by decide)
    exact parseIpMixedAddrSplit_agrees_ip6 _ _ _ _ _ plain clean answer
      (parseIp4AddrSplit_foreign plain dot other foreign)

variable {line : List Char} (a4 : Ip4Addr w) (a6 : Ip6Addr)

theorem parseIpMixedAddr_agrees_lax (charset : ∀ c ∈ line, AddrChar c) :
    MixedAgrees (parseIpMixedAddr bufs line addrV4 addrV6) (parseIp4Addr buf4 line a4)
      (parseIp6Addr buf6 line a6) := by
  unfold parseIpMixedAddr parseIp4Addr parseIp6Addr
  cases split : parseIpSplitPrefixlen line with
  | none => constructor <;> simp [ParseIpType.none]
  | some parts =>
    have mem := (mem_of_parseIpSplitPrefixlen split).1
    exact parseIpMixedAddrSplit_agrees _ _ _ _ _ fun c inAddr => charset c (mem c inAddr)

end Agreement

section Networks

variable {P : Platform} {bufs : ParseBufs P.fast32} {buf4 : ParseIp4Data} {buf6 : ParseIp6Data}
  {addrV4 a4 : Ip4Addr P.fast32} {addrV6 a6 : Ip6Addr} {line : List Char}

theorem parseIpMixedNetAddr_of_ne
    (bad : (parseIpMixedAddr bufs line addrV4 addrV6).ret ≠ .success) :
    parseIpMixedNetAddr P bufs line addrV4 addrV6 = parseIpMixedAddr bufs line addrV4 addrV6 :=
  if_pos bad

theorem parseIpMixedNetAddr_of_success
    (good : (parseIpMixedAddr bufs line addrV4 addrV6).ret = .success) :
    parseIpMixedNetAddr P bufs line addrV4 addrV6 =
      let out := parseIpMixedAddr bufs line addrV4 addrV6
      let typeResult : ParseIpType :=
        ⟨out.typeResult.ipv4 && ip4AddrIsNet P out.addrV4,
          out.typeResult.ipv6 && ip6AddrIsNet P out.addrV6⟩
      let ret := if typeResult.ipv4 || typeResult.ipv6 then .success else .invalidNet
      { out with ret := ret, typeResult := typeResult } :=
  if_neg (not_not.mpr good)

theorem parseIpMixedNetAddr_addrV4 :
    (parseIpMixedNetAddr P bufs line addrV4 addrV6).addrV4 =
      (parseIpMixedAddr bufs line addrV4 addrV6).addrV4 := by
  unfold parseIpMixedNetAddr
  dsimp only
  split_ifs <;> rfl

theorem parseIpMixedNetAddr_addrV6 :
    (parseIpMixedNetAddr P bufs line addrV4 addrV6).addrV6 =
      (parseIpMixedAddr bufs line addrV4 addrV6).addrV6 := by
  unfold parseIpMixedNetAddr
  dsimp only
  split_ifs <;> rfl

/-- If the outcome for both families agrees, it still does after the host bits are checked. -/
theorem MixedAgrees.net
    (agrees : MixedAgrees (parseIpMixedAddr bufs line addrV4 addrV6) (parseIp4Addr buf4 line a4)
      (parseIp6Addr buf6 line a6)) :
    MixedAgrees (parseIpMixedNetAddr P bufs line addrV4 addrV6) (parseIp4NetAddr P buf4 line a4)
      (parseIp6NetAddr P buf6 line a6) := by
  have ret4 := parseIp4NetAddr_success P buf4 line a4
  have ret6 := parseIp6NetAddr_success P buf6 line a6
  by_cases ok : (parseIpMixedAddr bufs line addrV4 addrV6).ret = .success
  · -- each family keeps its bit exactly if its address has no host bits
    have ipv4 : (parseIpMixedNetAddr P bufs line addrV4 addrV6).typeResult.ipv4 = true ↔
        (parseIp4NetAddr P buf4 line a4).ret = .success := by
      rw [ret4, ← agrees.ipv4]
      simp only [parseIpMixedNetAddr, ok, ne_eq, not_true_eq_false, if_false, Bool.and_eq_true]
      refine and_congr_right fun found => ?_
      rw [agrees.addrV4 (agrees.ipv4.mp found)]
    have ipv6 : (parseIpMixedNetAddr P bufs line addrV4 addrV6).typeResult.ipv6 = true ↔
        (parseIp6NetAddr P buf6 line a6).ret = .success := by
      rw [ret6, ← agrees.ipv6]
      simp only [parseIpMixedNetAddr, ok, ne_eq, not_true_eq_false, if_false, Bool.and_eq_true]
      refine and_congr_right fun found => ?_
      rw [agrees.addrV6 (agrees.ipv6.mp found)]
    have ret : (parseIpMixedNetAddr P bufs line addrV4 addrV6).ret = .success ↔
        (parseIpMixedNetAddr P bufs line addrV4 addrV6).typeResult.ipv4 = true ∨
          (parseIpMixedNetAddr P bufs line addrV4 addrV6).typeResult.ipv6 = true := by
      simp only [parseIpMixedNetAddr, ok, ne_eq, not_true_eq_false, if_false]
      rw [← Bool.or_eq_true]
      split_ifs with found <;> simp [found]
    refine ⟨ipv4, fun good => ?_, ipv6, fun good => ?_, ?_⟩
    · rw [parseIpMixedNetAddr_addrV4, parseIp4NetAddr_addr, agrees.addrV4 (ret4.mp good).1]
    · rw [parseIpMixedNetAddr_addrV6, parseIp6NetAddr_addr, agrees.addrV6 (ret6.mp good).1]
    · rw [ret, ipv4, ipv6]
  · -- neither parser succeeds
    have bad := agrees.ret.not.mp ok
    rw [not_or] at bad
    have none4 : (parseIp4NetAddr P buf4 line a4).ret ≠ .success := fun good =>
      bad.1 (ret4.mp good).1
    have none6 : (parseIp6NetAddr P buf6 line a6).ret ≠ .success := fun good =>
      bad.2 (ret6.mp good).1
    rw [parseIpMixedNetAddr_of_ne ok]
    refine ⟨?_, fun good => absurd good none4, ?_, fun good => absurd good none6, ?_⟩
    · simpa [none4] using agrees.ipv4.not.mpr bad.1
    · simpa [none6] using agrees.ipv6.not.mpr bad.2
    · simp [ok, none4, none6]

/-- On lines of hex digits, dots, colons and slashes, parsing both families is the same as running
each parser on a line of its own, with and without the check of the host bits. -/
theorem parseIpMixedAddr_agrees (P : Platform) (bufs : ParseBufs P.fast32) (buf4 : ParseIp4Data)
    (buf6 : ParseIp6Data) (addrV4 a4 : Ip4Addr P.fast32) (addrV6 a6 : Ip6Addr) (line : List Char)
    (charset : ∀ c ∈ line, AddrChar c) :
    MixedAgrees (parseIpMixedAddr bufs line addrV4 addrV6) (parseIp4Addr buf4 line a4)
        (parseIp6Addr buf6 line a6) ∧
      MixedAgrees (parseIpMixedNetAddr P bufs line addrV4 addrV6) (parseIp4NetAddr P buf4 line a4)
        (parseIp6NetAddr P buf6 line a6) := by
  have lax := parseIpMixedAddr_agrees_lax bufs buf4 buf6 addrV4 addrV6 a4 a6 charset
  exact ⟨lax, lax.net⟩

/-- A single octet is an address of both families. -/
theorem parseIpMixedAddr_agrees_octet :
    let P : Platform := ⟨.bits64, fun x _ => x, fun x _ => x⟩
    let mixed := parseIpMixedAddr (w := P.fast32) .zero "10/8".toList ⟨0, 0⟩ ip6AddrInitNull
    mixed.typeResult = .both ∧ mixed.addrV4 = ⟨8, 0x0a000000⟩ ∧
      MixedAgrees mixed (parseIp4Addr .zero "10/8".toList ⟨0, 0⟩)
        (parseIp6Addr .zero "10/8".toList ip6AddrInitNull) := by
  intro P mixed
  have charset : ∀ c ∈ "10/8".toList, AddrChar c := by
    intro c mem
    simp only [String.reduceToList, List.mem_cons, List.not_mem_nil, or_false] at mem
    rcases mem with rfl | rfl | rfl | rfl <;> decide
  exact ⟨by decide +kernel, by decide +kernel,
    (parseIpMixedAddr_agrees P .zero .zero .zero _ ⟨0, 0⟩ _ ip6AddrInitNull _ charset).1⟩

end Networks

end IpDedup
