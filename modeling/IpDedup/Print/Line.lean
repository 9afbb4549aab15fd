import IpDedup.Parse.Mixed
import IpDedup.Parse.Readfile

/-!
# Printed lines

Decimal numbers, and what the parsers' first steps make of a printed line: an
address, or an address with a prefixlen behind a slash.

## Main results

* `parseIpReadOctet_fmtDecimal`: a printed number is read back
* `parseIpSplitPrefixlen_addr`, `parseIpSplitPrefixlen_net`: how a printed line is cut
-/

set_option autoImplicit false

open Numeral

namespace IpDedup

/-- A number as `%u` writes it. -/
def fmtDecimal (n : Nat) : List Char := Nat.toDigits 10 n

/-! ### Decimal numbers -/

theorem isDigit_of_mem_fmtDecimal {n : Nat} {c : Char} (mem : c ∈ fmtDecimal n) :
    isDigit 10 c = true :=
  isDigit_of_mem_toDigits (by decide) (by decide) mem

theorem not_mem_fmtDecimal {n : Nat} {c : Char} (other : isDigit 10 c = false) :
    c ∉ fmtDecimal n := by
  intro mem
  simp [isDigit_of_mem_fmtDecimal mem] at other

theorem parseIpReadOctet_fmtDecimal {n : Nat} (byte : n < 256) :
    parseIpReadOctet (fmtDecimal n) 10 = some n := by
  have value : value 10 (fmtDecimal n) = n := value_toDigits (by decide) (by decide)
  have read : parseIpReadOctet (fmtDecimal n) 10 = _ :=
    parseIpReadOctet_numeral (by decide) Nat.toDigits_ne_nil
      (fun c => isDigit_of_mem_fmtDecimal) (by rwa [value])
  rwa [value] at read

/-! ### Lines -/

theorem not_isWhitespace_of_addrChar {c : Char} (known : AddrChar c) : isWhitespace c = false := by
  rw [isWhitespace, decide_eq_false_iff_not]
  intro mem
  simp only [List.mem_cons, List.not_mem_nil, or_false] at mem
  rcases mem with rfl | rfl | rfl | rfl | rfl <;> simp [AddrChar, isDigit, digit?] at known

theorem cstr_of_addrChar {s : List Char} (charset : ∀ c ∈ s, AddrChar c) : cstr s = s :=
  cstr_of_not_mem fun mem => not_addrChar_nul (charset nul mem)

/-- A line that is an address is not cut. -/
theorem parseIpSplitPrefixlen_addr {s : List Char} (nonempty : s ≠ [])
    (charset : ∀ c ∈ s, AddrChar c) (fresh : '/' ∉ s) :
    parseIpSplitPrefixlen s = some (s, none) := by
  have whole := cstr_of_addrChar charset
  rw [parseIpSplitPrefixlen_clean (by rwa [whole]) fresh, whole]

theorem addrChar_of_mem_fmtDecimal {n : Nat} {c : Char} (mem : c ∈ fmtDecimal n) : AddrChar c :=
  Or.inl (isDigit_mono (by decide) (isDigit_of_mem_fmtDecimal mem))

theorem addrChar_of_mem_net {s : List Char} {p : Nat} (charset : ∀ c ∈ s, AddrChar c) :
    ∀ c ∈ s ++ '/' :: fmtDecimal p, AddrChar c := by
  intro c mem
  rw [List.mem_append, List.mem_cons] at mem
  rcases mem with front | rfl | back
  · exact charset c front
  · exact Or.inr (by decide)
  · exact addrChar_of_mem_fmtDecimal back

/-- A line with a prefixlen is cut before it. -/
theorem parseIpSplitPrefixlen_net {s : List Char} {p : Nat} (charset : ∀ c ∈ s, AddrChar c) :
    parseIpSplitPrefixlen (s ++ '/' :: fmtDecimal p) = some (s, some (fmtDecimal p)) := by
  have whole := cstr_of_addrChar (addrChar_of_mem_net (p := p) charset)
  have suffix := cstr_of_addrChar fun c => addrChar_of_mem_fmtDecimal (n := p) (c := c)
  have first : (fmtDecimal p).head?.getD nul ≠ nul := by
    have clean : nul ∉ fmtDecimal p := not_mem_fmtDecimal (by decide)
    obtain ⟨c, t, shape⟩ : ∃ c t, fmtDecimal p = c :: t :=
      List.exists_cons_of_ne_nil Nat.toDigits_ne_nil
    rw [shape] at clean ⊢
    rintro (rfl : c = nul)
    exact clean List.mem_cons_self
  rw [parseIpSplitPrefixlen_slash (by simp [whole]) (not_mem_fmtDecimal (by decide)), if_neg first,
    suffix, cstr_of_addrChar charset]

end IpDedup
