import IpDedup.Print.Ip4Json
import IpDedup.Print.Ip6ReadBack
import IpDedup.Tree.Operations

/-!
# Printed trees

`ip_tree_io/print.c` and `ip_tree_io/print_json.c`: what is written for the
networks that are collected from a tree.

## Main definitions

* `fprintIp4Tree`, `fprintIp6Tree`, `fprintIp6TreeCompact`: one network on each line
* `fprintIpTreeJson`: the networks of both families in one object

## Main results

* `fprintIp6TreeCompact_ret`: compact output never fails
* `fprintIp4TreeJson_isSome`, `fprintIp6TreeJson_isSome`: the trees that are written as JSON
-/

set_option autoImplicit false

namespace IpDedup

variable {w : UintFast32}

/-! ### Lines -/

def fprintIp4Tree (tree : IpTree (Ip4Addr w)) (redux : Bool) : List Char :=
  (ipTreeCollectAddr tree).flatMap (if redux then fprintIp4AddrOrNet else fprintIp4Net)

def fprintIp6Tree (tree : IpTree Ip6Addr) (redux : Bool) : List Char :=
  (ipTreeCollectAddr tree).flatMap (if redux then fprintIp6AddrOrNet else fprintIp6Net)

/-- The return code, and what is written up to the first error. -/
def fprintIp6TreeCompact (tree : IpTree Ip6Addr) (redux : Bool) : Int × List Char :=
  fprintIp6TreeCompactLoop redux (ipTreeCollectAddr tree)

/-- No address is an error. -/
theorem fprintIp6TreeCompact_ret (tree : IpTree Ip6Addr) (redux : Bool) :
    (fprintIp6TreeCompact tree redux).1 = 0 := by
  obtain ⟨lines, -, loop⟩ := fprintIp6TreeCompactLoop_all redux (ipTreeCollectAddr tree)
  rw [fprintIp6TreeCompact, loop]

/-! ### JSON -/

/-- What stands between the networks, of which `k` were written. -/
def fprintJsonSep (k : Nat) : List Char := if k > 0 then [',', '\n'] else []

/-- The rounds of `fprint_ip4_tree_json`. -/
def fprintIp4TreeJsonLoop (k : Nat) : List (Ip4Addr w) → Option (List Char)
  | [] => some []
  | addr :: darr => do
    let json ← fprintIp4AddrJson addr
    let text ← fprintIp4TreeJsonLoop (k + 1) darr
    pure (fprintJsonSep k ++ json ++ text)

def fprintIp4TreeJson (tree : IpTree (Ip4Addr w)) : Option (List Char) := do
  let darr := ipTreeCollectAddr tree
  let text ← fprintIp4TreeJsonLoop 0 darr
  pure (text ++ if darr.length > 0 then ['\n'] else [])

/-- The rounds of `fprint_ip6_tree_json`, which end with the first error. -/
def fprintIp6TreeJsonLoop (k : Nat) : List Ip6Addr → Option (Int × List Char)
  | [] => some (0, [])
  | addr :: darr =>
    match ip6AddrDataIntoStr addr.addr with
    | none => some (-1, fprintJsonSep k)
    | some compactAddrStr => do
      let json ← fprintIp6AddrJson addr compactAddrStr
      let out ← fprintIp6TreeJsonLoop (k + 1) darr
      pure (out.1, fprintJsonSep k ++ json ++ out.2)

def fprintIp6TreeJson (tree : IpTree Ip6Addr) : Option (Int × List Char) := do
  let darr := ipTreeCollectAddr tree
  let out ← fprintIp6TreeJsonLoop 0 darr
  pure (out.1, out.2 ++ if darr.length > 0 then ['\n'] else [])

/-- The return codes for the two trees are ignored. -/
def fprintIpTreeJson (treeV4 : Option (IpTree (Ip4Addr w))) (treeV6 : Option (IpTree Ip6Addr)) :
    Option (List Char) := do
  let textV4 ← (match treeV4 with
    | some tree => fprintIp4TreeJson tree
    | none => some [])
  let textV6 ← (match treeV6 with
    | some tree => (fprintIp6TreeJson tree).map Prod.snd
    | none => some [])
  pure (['\x7b', '\n'] ++
    printIpTreeJsonIndent ++ "\"inet\": [\n".toList ++ textV4 ++
    printIpTreeJsonIndent ++ "],\n".toList ++
    printIpTreeJsonIndent ++ "\"inet6\": [\n".toList ++ textV6 ++
    printIpTreeJsonIndent ++ "]\n".toList ++
    ['\x7d', '\n'])

theorem fprintIp4TreeJsonLoop_isSome (k : Nat) (darr : List (Ip4Addr w)) :
    (fprintIp4TreeJsonLoop k darr).isSome =
      darr.all fun addr => (fprintIp4AddrJson addr).isSome := by
  induction darr generalizing k with
  | nil => rfl
  | cons addr darr ih =>
    rw [fprintIp4TreeJsonLoop, List.all_cons, ← ih (k + 1)]
    cases fprintIp4AddrJson addr with
    | none => rfl
    | some json => cases fprintIp4TreeJsonLoop (k + 1) darr <;> rfl

/-- A tree is written unless the netmask of some network is undefined. -/
theorem fprintIp4TreeJson_isSome (tree : IpTree (Ip4Addr w)) :
    (fprintIp4TreeJson tree).isSome =
      (ipTreeCollectAddr tree).all fun addr =>
        decide (0 < addr.prefixlen ∧ addr.prefixlen ≤ ip4MaxPrefixlen) := by
  rw [funext fun addr => (fprintIp4AddrJson_isSome addr).symm, ← fprintIp4TreeJsonLoop_isSome 0,
    fprintIp4TreeJson]
  cases fprintIp4TreeJsonLoop 0 (ipTreeCollectAddr tree) <;> rfl

theorem fprintIp6TreeJsonLoop_isSome (k : Nat) (darr : List Ip6Addr) :
    (fprintIp6TreeJsonLoop k darr).isSome =
      darr.all fun addr => decide (¬ (addr.prefixlen = 0 ∨ addr.prefixlen = 64)) := by
  induction darr generalizing k with
  | nil => rfl
  | cons addr darr ih =>
    obtain ⟨start, len, text, out, -, read⟩ := exists_compactRead addr.addr
    rw [fprintIp6TreeJsonLoop, read.printed, List.all_cons, ← ih (k + 1),
      ← fprintIp6AddrJson_isSome addr text]
    dsimp only
    cases fprintIp6AddrJson addr text with
    | none => rfl
    | some json => cases fprintIp6TreeJsonLoop (k + 1) darr <;> rfl

theorem fprintIp6TreeJson_isSome (tree : IpTree Ip6Addr) :
    (fprintIp6TreeJson tree).isSome =
      (ipTreeCollectAddr tree).all fun addr =>
        decide (¬ (addr.prefixlen = 0 ∨ addr.prefixlen = 64)) := by
  rw [← fprintIp6TreeJsonLoop_isSome 0, fprintIp6TreeJson]
  cases fprintIp6TreeJsonLoop 0 (ipTreeCollectAddr tree) <;> rfl

/-- The text around the two lists. -/
def printedJson (textV4 textV6 : List Char) : List Char :=
  ['\x7b', '\n'] ++
    printIpTreeJsonIndent ++ "\"inet\": [\n".toList ++ textV4 ++
    printIpTreeJsonIndent ++ "],\n".toList ++
    printIpTreeJsonIndent ++ "\"inet6\": [\n".toList ++ textV6 ++
    printIpTreeJsonIndent ++ "]\n".toList ++
    ['\x7d', '\n']

/-- The document for the lists of the trees that are there. -/
theorem fprintIpTreeJson_eq (treeV4 : Option (IpTree (Ip4Addr w)))
    (treeV6 : Option (IpTree Ip6Addr)) :
    fprintIpTreeJson treeV4 treeV6 =
      (treeV4.elim (some []) fprintIp4TreeJson).bind fun textV4 =>
        (treeV6.elim (some []) fun tree => (fprintIp6TreeJson tree).map Prod.snd).bind fun textV6 =>
          some (printedJson textV4 textV6) := by
  cases treeV4 <;> cases treeV6 <;> rfl

end IpDedup
