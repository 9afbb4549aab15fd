import IpDedup.Lib.BitString
import IpDedup.Machine

/-!
# IPv4 addresses

The bit helpers of `ip/ip4/base.c` and the address operations of
`ip/ip4/addr.c`. Prefix positions count from the most significant bit,
starting at one.
-/

set_option autoImplicit false

open BitString

namespace IpDedup

/-- `IP4_MAX_PREFIXLEN` -/
def ip4MaxPrefixlen : Nat := 32

/-- `ip4_addr_data_t` is a `uint_fast32_t`; the address is in its low 32 bits. -/
abbrev Ip4AddrData (w : UintFast32) := BitVec w.width

/-- `struct ip4_addr_t` -/
structure Ip4Addr (w : UintFast32) where
  prefixlen : Nat
  addr : Ip4AddrData w
deriving DecidableEq, Repr

variable {w : UintFast32}

/-! ### Bit helpers -/

def ip4CalcBitpos (prefixpos : Nat) : Nat :=
  uintFast8 ((ip4MaxPrefixlen : Int) - prefixpos)

def ip4CalcBit (bpos : Nat) : Option (Ip4AddrData w) :=
  shiftLeft? 1#w.width bpos

def ip4CalcBitAtPrefixpos (prefixpos : Nat) : Option (Ip4AddrData w) :=
  ip4CalcBit (ip4CalcBitpos prefixpos)

def ip4CalcGetBitAtPrefixpos (bits : Ip4AddrData w) (prefixpos : Nat) :
    Option (Ip4AddrData w) := do
  let bit ← ip4CalcBitAtPrefixpos prefixpos
  pure (bits &&& bit)

def ip4CalcBitIsSetAtPrefixpos (bits : Ip4AddrData w) (prefixpos : Nat) : Option Bool := do
  let bit ← ip4CalcGetBitAtPrefixpos bits prefixpos
  pure (bit != 0)

def ip4CalcFlipBitAtPrefixpos (bits : Ip4AddrData w) (prefixpos : Nat) :
    Option (Ip4AddrData w) := do
  let bit ← ip4CalcBitAtPrefixpos prefixpos
  pure (bits ^^^ bit)

def ip4CalcSetBitAtPrefixpos (bits : Ip4AddrData w) (prefixpos : Nat) (bitSet : Bool) :
    Option (Ip4AddrData w) := do
  let bitMask ← ip4CalcBitAtPrefixpos prefixpos
  pure (if bitSet then bits ||| bitMask else bits &&& ~~~bitMask)

/-! ### Address operations -/

def ip4AddrInitNull : Ip4Addr w := ⟨0, 0⟩

def ip4AddrInitChild (src : Ip4Addr w) (subaddrBitIsSet : Bool) : Option (Ip4Addr w) := do
  let prefixlen := uintFast8 (src.prefixlen + 1)
  let addr ← ip4CalcSetBitAtPrefixpos src.addr prefixlen subaddrBitIsSet
  pure ⟨prefixlen, addr⟩

def ip4AddrInitSibling (src : Ip4Addr w) : Option (Ip4Addr w) := do
  let addr ← ip4CalcFlipBitAtPrefixpos src.addr src.prefixlen
  pure ⟨src.prefixlen, addr⟩

def ip4AddrFlipInplace (obj : Ip4Addr w) : Option (Ip4Addr w) := do
  let addr ← ip4CalcFlipBitAtPrefixpos obj.addr obj.prefixlen
  pure { obj with addr := addr }

def ip4AddrBitIsSetAt (obj : Ip4Addr w) (prefixpos : Nat) : Option Bool :=
  ip4CalcBitIsSetAtPrefixpos obj.addr prefixpos

/-- The host mask is computed in `int`, so a count of 32 is out of range and the
platform decides what the operand holds. -/
def ip4AddrIsNet (P : Platform) (obj : Ip4Addr P.fast32) : Bool :=
  if obj.prefixlen > ip4MaxPrefixlen then
    false
  else
    let count := ip4MaxPrefixlen - obj.prefixlen
    let shifted := (shiftLeft? 1#32 count).getD (P.overshift32 1 count)
    -- `int` to `uint_fast32_t`: the value keeps its sign
    let mask := (shifted - 1).signExtend P.fast32.width
    obj.addr &&& mask == 0

/-! ### What the helpers compute

On positions `1..32` no shift reaches the operand width. -/

theorem ip4CalcBitpos_eq {prefixpos : Nat} (h : prefixpos ≤ 32) :
    ip4CalcBitpos prefixpos = 32 - prefixpos :=
  uintFast8_sub h (by decide)

theorem ip4CalcBitAtPrefixpos_eq {prefixpos : Nat} (low : 1 ≤ prefixpos) (high : prefixpos ≤ 32) :
    ip4CalcBitAtPrefixpos (w := w) prefixpos = some (BitVec.twoPow w.width (32 - prefixpos)) := by
  have width := w.le_width
  rw [ip4CalcBitAtPrefixpos, ip4CalcBitpos_eq high, ip4CalcBit,
    shiftLeft?_of_lt _ (by omega), BitVec.twoPow]

/-! ### Addresses as bit strings -/

/-- The 32 bits of an address. -/
def Ip4Addr.word (a : Ip4Addr w) : BitVec 32 := a.addr.setWidth 32

/-- The network that some leading bits stand for. -/
def ip4AddrAt (bits : List Bool) : Ip4Addr w := ⟨bits.length, BitString.word w.width 32 bits⟩

section AddrAt

variable {bits : List Bool} {b : Bool}

theorem word_ip4AddrAt (h : bits.length ≤ 32) :
    (ip4AddrAt (w := w) bits).word = BitString.word 32 32 bits := by
  have width := w.le_width
  apply BitVec.eq_of_getLsbD_eq
  intro i inside
  rw [Ip4Addr.word, BitVec.getLsbD_setWidth, ip4AddrAt, getLsbD_word h inside,
    getLsbD_word h (by omega), decide_eq_true inside, Bool.true_and, Bool.true_and]

theorem ip4AddrBitIsSetAt_eq (a : Ip4Addr w) {prefixpos : Nat} (low : 1 ≤ prefixpos)
    (high : prefixpos ≤ 32) :
    ip4AddrBitIsSetAt a prefixpos = some (a.word.getMsbD (prefixpos - 1)) := by
  have width := w.le_width
  have same : a.word.getMsbD (prefixpos - 1) = a.addr.getLsbD (32 - prefixpos) := by
    rw [BitVec.getMsbD, Ip4Addr.word, BitVec.getLsbD_setWidth, decide_eq_true (by omega),
      decide_eq_true (by omega), Bool.true_and, Bool.true_and]
    congr 1
    omega
  rw [ip4AddrBitIsSetAt, ip4CalcBitIsSetAtPrefixpos, ip4CalcGetBitAtPrefixpos,
    ip4CalcBitAtPrefixpos_eq low high, same, ← and_twoPow_bne_zero a.addr (by omega)]
  rfl

theorem ip4CalcSetBitAtPrefixpos_word (h : bits.length < 32) (b : Bool) :
    ip4CalcSetBitAtPrefixpos (BitString.word w.width 32 bits) (bits.length + 1) b =
      some (BitString.word w.width 32 (bits ++ [b])) := by
  rw [ip4CalcSetBitAtPrefixpos, ip4CalcBitAtPrefixpos_eq (by omega) h]
  simp only [Option.bind_eq_bind, Option.bind_some, Option.pure_def]
  cases b
  · rw [if_neg Bool.false_ne_true, word_and_not_twoPow h]
  · rw [if_pos rfl, word_or_twoPow h]

theorem ip4CalcFlipBitAtPrefixpos_word (h : bits.length < 32) (b : Bool) :
    ip4CalcFlipBitAtPrefixpos (BitString.word w.width 32 (bits ++ [b])) (bits.length + 1) =
      some (BitString.word w.width 32 (bits ++ [!b])) := by
  rw [ip4CalcFlipBitAtPrefixpos, ip4CalcBitAtPrefixpos_eq (by omega) h]
  simp only [Option.bind_eq_bind, Option.bind_some, Option.pure_def]
  rw [word_concat_xor_twoPow h]

theorem ip4AddrInitChild_addrAt (h : bits.length < 32) (b : Bool) :
    ip4AddrInitChild (ip4AddrAt (w := w) bits) b = some (ip4AddrAt (bits ++ [b])) := by
  have small : uintFast8 ((bits.length : Int) + 1) = bits.length + 1 :=
    uintFast8_of_lt (n := bits.length + 1) (by omega)
  simp [ip4AddrInitChild, ip4AddrAt, small, ip4CalcSetBitAtPrefixpos_word h]

theorem ip4AddrInitSibling_addrAt (h : bits.length < 32) (b : Bool) :
    ip4AddrInitSibling (ip4AddrAt (w := w) (bits ++ [b])) = some (ip4AddrAt (bits ++ [!b])) := by
  simp [ip4AddrInitSibling, ip4AddrAt, ip4CalcFlipBitAtPrefixpos_word h]

theorem ip4AddrFlipInplace_addrAt (h : bits.length < 32) (b : Bool) :
    ip4AddrFlipInplace (ip4AddrAt (w := w) (bits ++ [b])) = some (ip4AddrAt (bits ++ [!b])) := by
  simp [ip4AddrFlipInplace, ip4AddrAt, ip4CalcFlipBitAtPrefixpos_word h]

end AddrAt
end IpDedup
