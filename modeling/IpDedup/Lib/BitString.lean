import Mathlib.Data.BitVec
import Mathlib.Data.Nat.Bitwise
import Mathlib.Data.List.Induction
import Mathlib.Data.List.Infix
import Mathlib.Tactic.Ring
import Mathlib.Tactic.Linarith

/-!
# Bit strings and the words they begin

A bit string is read from its most significant bit. It stands for a number, and
for the words of a fixed width that begin with it: these words are one aligned
block, found by shifting.

## Main definitions

* `BitString.value`: the number a bit string stands for
* `BitString.ofNat`: the bits of a number, to a given width
* `BitString.pad`: the first word of a block, the bits followed by zeros
* `BitString.word`: the same in a machine word

## Main results

* `BitString.prefix_ofNat_iff`: beginning with given bits is agreeing after a shift
* `BitString.testBit_pad`: the bits of the first word of a block
* `BitString.pad_concat`: the first words of the halves of a block
* `BitString.word_or_twoPow` and its like: setting, clearing and flipping the last bit
-/

set_option autoImplicit false

namespace BitString

/-- The number that a bit string stands for, most significant bit first. -/
def value (bits : List Bool) : Nat := bits.foldl (fun n b => Nat.bit b n) 0

/-- The `width` low bits of a number, most significant bit first. -/
def ofNat : Nat → Nat → List Bool
  | 0, _ => []
  | width + 1, n => n.testBit width :: ofNat width n

/-- The bits followed by zeros, up to `width` bits, as a number. -/
def pad (width : Nat) (bits : List Bool) : Nat := value bits <<< (width - bits.length)

@[simp] theorem value_nil : value [] = 0 := rfl

@[simp] theorem value_concat (bits : List Bool) (b : Bool) :
    value (bits ++ [b]) = Nat.bit b (value bits) := by
  simp [value]

@[simp] theorem length_ofNat (width n : Nat) : (ofNat width n).length = width := by
  induction width with
  | zero => rfl
  | succ width ih => simp [ofNat, ih]

theorem getElem?_ofNat {width n i : Nat} (h : i < width) :
    (ofNat width n)[i]? = some (n.testBit (width - 1 - i)) := by
  induction width generalizing i with
  | zero => omega
  | succ width ih =>
    cases i with
    | zero => simp [ofNat]
    | succ i =>
      rw [ofNat, List.getElem?_cons_succ, ih (by omega)]
      congr 2
      omega

theorem value_append (front back : List Bool) :
    value (front ++ back) = value front * 2 ^ back.length + value back := by
  induction back using List.reverseRecOn with
  | nil => simp
  | append_singleton back b ih =>
    rw [← List.append_assoc, value_concat, value_concat, ih, List.length_append,
      List.length_singleton, pow_succ, Nat.bit_val, Nat.bit_val]
    ring

theorem value_lt (bits : List Bool) : value bits < 2 ^ bits.length := by
  induction bits using List.reverseRecOn with
  | nil => simp
  | append_singleton bits b ih =>
    rw [value_concat, List.length_append, List.length_singleton, pow_succ, Nat.bit_val]
    have hb : b.toNat ≤ 1 := b.toNat_le
    omega

theorem testBit_value_reverse (bits : List Bool) (i : Nat) :
    (value bits).testBit i = bits.reverse.getD i false := by
  induction bits using List.reverseRecOn generalizing i with
  | nil => simp
  | append_singleton bits b ih =>
    rw [value_concat, List.reverse_append, List.reverse_singleton, List.singleton_append]
    cases i with
    | zero => simp
    | succ i => simpa [Nat.testBit_bit_succ] using ih i

/-- Bits of the same number of digits are determined by their number. -/
theorem value_inj {front back : List Bool} (length : front.length = back.length)
    (h : value front = value back) : front = back := by
  apply List.reverse_injective
  apply List.ext_getElem?
  intro i
  have bits : front.reverse.getD i false = back.reverse.getD i false := by
    rw [← testBit_value_reverse, ← testBit_value_reverse, h]
  by_cases inside : i < front.length
  · rw [List.getElem?_eq_getElem (by simpa using inside),
      List.getElem?_eq_getElem (by simpa [← length] using inside)]
    rw [List.getD_eq_getElem _ _ (by simpa using inside),
      List.getD_eq_getElem _ _ (by simpa [← length] using inside)] at bits
    rw [bits]
  · rw [List.getElem?_eq_none (by simpa using inside),
      List.getElem?_eq_none (by simpa [← length] using inside)]

theorem value_ofNat (width n : Nat) : value (ofNat width n) = n % 2 ^ width := by
  induction width generalizing n with
  | zero => simp [ofNat, Nat.mod_one]
  | succ width ih =>
    rw [ofNat, ← List.singleton_append, value_append, ih, length_ofNat, Nat.mod_pow_succ,
      Nat.add_comm, Nat.mul_comm (2 ^ width)]
    congr 2
    rw [show [n.testBit width] = [] ++ [n.testBit width] from rfl, value_concat, value_nil,
      Nat.bit_val, Nat.mul_zero, Nat.zero_add, Nat.toNat_testBit]

theorem ofNat_value (bits : List Bool) : ofNat bits.length (value bits) = bits := by
  apply value_inj (by simp)
  rw [value_ofNat, Nat.mod_eq_of_lt (value_lt bits)]

theorem take_ofNat {width len : Nat} (h : len ≤ width) (n : Nat) :
    (ofNat width n).take len = ofNat len (n >>> (width - len)) := by
  apply List.ext_getElem?
  intro i
  by_cases inside : i < len
  · rw [List.getElem?_take_of_lt inside, getElem?_ofNat (by omega), getElem?_ofNat inside,
      Nat.testBit_shiftRight]
    congr 2
    omega
  · rw [List.getElem?_eq_none (by simp; omega), List.getElem?_eq_none (by simp; omega)]

theorem prefix_iff_take {front bits : List Bool} :
    front <+: bits ↔ front = bits.take front.length :=
  List.prefix_iff_eq_take

/-- A word begins with the given bits exactly when the shift that removes the
others leaves their number. -/
theorem prefix_ofNat_iff {width n : Nat} {front : List Bool} (h : front.length ≤ width)
    (small : n < 2 ^ width) :
    front <+: ofNat width n ↔ n >>> (width - front.length) = value front := by
  have shifted : n >>> (width - front.length) < 2 ^ front.length := by
    rw [Nat.shiftRight_eq_div_pow, Nat.div_lt_iff_lt_mul (by positivity), ← pow_add]
    convert small using 2
    omega
  rw [prefix_iff_take, take_ofNat h]
  constructor
  · intro same
    have number := congrArg value same
    rw [value_ofNat, Nat.mod_eq_of_lt shifted] at number
    exact number.symm
  · intro same
    apply value_inj (by simp)
    rw [value_ofNat, Nat.mod_eq_of_lt shifted, same]

theorem testBit_pad {width : Nat} {bits : List Bool} (h : bits.length ≤ width) (i : Nat) :
    (pad width bits).testBit i = (decide (i < width) && bits.getD (width - 1 - i) false) := by
  rw [pad, Nat.testBit_shiftLeft, testBit_value_reverse]
  by_cases low : i < width - bits.length
  · rw [List.getD_eq_default _ _ (by omega : bits.length ≤ width - 1 - i)]
    simp; omega
  · by_cases high : i < width
    · have inside : i - (width - bits.length) < bits.length := by omega
      rw [List.getD_eq_getElem _ _ (by simpa using inside), List.getElem_reverse,
        List.getD_eq_getElem _ _ (by omega : width - 1 - i < bits.length)]
      simp only [high, decide_true, Bool.true_and, ge_iff_le]
      rw [decide_eq_true (by omega), Bool.true_and]
      congr 1
      omega
    · rw [List.getD_eq_default _ _ (by simp; omega)]
      simp [high]

theorem pad_lt {width : Nat} {bits : List Bool} (h : bits.length ≤ width) :
    pad width bits < 2 ^ width := by
  rw [pad, Nat.shiftLeft_eq]
  calc value bits * 2 ^ (width - bits.length)
      < 2 ^ bits.length * 2 ^ (width - bits.length) :=
        Nat.mul_lt_mul_of_pos_right (value_lt bits) (by positivity)
    _ = 2 ^ width := by rw [← pow_add]; congr 1; omega

theorem pad_shiftRight {width : Nat} (bits : List Bool) :
    pad width bits >>> (width - bits.length) = value bits := by
  rw [pad, Nat.shiftLeft_shiftRight]

/-- Padding keeps the bits at the front. -/
theorem prefix_ofNat_pad {width : Nat} {bits : List Bool} (h : bits.length ≤ width) :
    bits <+: ofNat width (pad width bits) := by
  rw [prefix_ofNat_iff h (pad_lt h), pad_shiftRight]

/-- One more bit halves a block: a zero keeps its first word, a one goes on half a block later. -/
theorem pad_concat {width : Nat} {bits : List Bool} (h : bits.length < width) (b : Bool) :
    pad width (bits ++ [b]) = pad width bits + b.toNat * 2 ^ (width - (bits.length + 1)) := by
  have size : 2 ^ (width - bits.length) = 2 * 2 ^ (width - (bits.length + 1)) := by
    rw [← pow_succ']
    congr 1
    omega
  rw [pad, pad, Nat.shiftLeft_eq, Nat.shiftLeft_eq, value_concat, Nat.bit_val, size,
    List.length_append, List.length_singleton]
  ring

theorem pad_div {width : Nat} (bits : List Bool) :
    pad width bits / 2 ^ (width - bits.length) = value bits := by
  rw [← Nat.shiftRight_eq_div_pow, pad_shiftRight]

/-- Every multiple of a block's size is the first word of one. -/
theorem exists_pad_eq {width len n : Nat} (short : len ≤ width) (small : n < 2 ^ width)
    (aligned : 2 ^ (width - len) ∣ n) : ∃ bits, bits.length = len ∧ pad width bits = n := by
  have front : n / 2 ^ (width - len) < 2 ^ len := by
    rw [Nat.div_lt_iff_lt_mul (by positivity), ← pow_add]
    convert small using 2
    omega
  refine ⟨ofNat len (n / 2 ^ (width - len)), length_ofNat _ _, ?_⟩
  rw [pad, value_ofNat, length_ofNat, Nat.mod_eq_of_lt front, Nat.shiftLeft_eq,
    Nat.div_mul_cancel aligned]

/-- Of two blocks that part at some bit, the one with the zero comes first. -/
theorem pad_lt_pad {width : Nat} (common zero one : List Bool)
    (hzero : (common ++ false :: zero).length ≤ width)
    (hone : (common ++ true :: one).length ≤ width) :
    pad width (common ++ false :: zero) < pad width (common ++ true :: one) := by
  obtain ⟨rest, rfl⟩ : ∃ rest, width = common.length + (1 + rest) :=
    ⟨width - common.length - 1, by simp at hzero; omega⟩
  have split (b : Bool) (back : List Bool) (hback : back.length ≤ rest) :
      pad (common.length + (1 + rest)) (common ++ b :: back) =
        Nat.bit b (value common) * 2 ^ rest + value back * 2 ^ (rest - back.length) := by
    have total : common.length + (1 + rest) - (common ++ b :: back).length =
        rest - back.length := by simp; omega
    rw [pad, total, Nat.shiftLeft_eq, List.append_cons,
      value_append, value_concat, Nat.add_mul, mul_assoc, ← pow_add]
    congr 3
    omega
  have hzero' : zero.length ≤ rest := by simp at hzero; omega
  have hone' : one.length ≤ rest := by simp at hone; omega
  rw [split false zero hzero', split true one hone']
  -- the bits behind the first difference do not make up for it
  have below : value zero * 2 ^ (rest - zero.length) < 2 ^ rest := by
    calc value zero * 2 ^ (rest - zero.length)
        < 2 ^ zero.length * 2 ^ (rest - zero.length) :=
          Nat.mul_lt_mul_of_pos_right (value_lt zero) (by positivity)
      _ = 2 ^ rest := by rw [← pow_add]; congr 1; omega
  have step : Nat.bit true (value common) * 2 ^ rest =
      Nat.bit false (value common) * 2 ^ rest + 2 ^ rest := by
    simp only [Nat.bit_val, Bool.toNat_true, Bool.toNat_false]
    ring
  omega

/-! ### Machine words

A machine word of `n` bits holds the first word of a block of `width` bits. -/

theorem getD_concat (bits : List Bool) (b : Bool) (i : Nat) :
    (bits ++ [b]).getD i false = if i = bits.length then b else bits.getD i false := by
  rcases lt_trichotomy i bits.length with h | rfl | h
  · rw [List.getD_append _ _ _ _ h, if_neg (by omega)]
  · simp
  · rw [List.getD_eq_default _ _ (by simp; omega), List.getD_eq_default _ _ (by omega),
      if_neg (by omega)]

/-- The first word of a block, in a machine word of `n` bits. -/
def word (n width : Nat) (bits : List Bool) : BitVec n := BitVec.ofNat n (pad width bits)

section Word

variable {n width : Nat} {bits : List Bool} {b : Bool}

theorem getLsbD_word (h : bits.length ≤ width) {i : Nat} (inside : i < n) :
    (word n width bits).getLsbD i = (decide (i < width) && bits.getD (width - 1 - i) false) := by
  rw [word, BitVec.getLsbD_ofNat, testBit_pad h, decide_eq_true inside, Bool.true_and]

theorem and_twoPow_bne_zero (x : BitVec n) {i : Nat} (inside : i < n) :
    (x &&& BitVec.twoPow n i != 0#n) = x.getLsbD i := by
  have nonzero : BitVec.twoPow n i ≠ 0#n := by
    intro zero
    have bit := congrArg (BitVec.getLsbD · i) zero
    simp [inside] at bit
  rw [BitVec.and_twoPow]
  cases x.getLsbD i <;> simp [nonzero]

theorem getD_concat_bitpos (h : bits.length < width) (b : Bool) {i : Nat} (inside : i < width) :
    (bits ++ [b]).getD (width - 1 - i) false =
      if i = width - (bits.length + 1) then b else bits.getD (width - 1 - i) false := by
  rw [getD_concat]
  congr 1
  rw [eq_iff_iff]
  omega

theorem word_or_twoPow (h : bits.length < width) :
    word n width bits ||| BitVec.twoPow n (width - (bits.length + 1)) =
      word n width (bits ++ [true]) := by
  apply BitVec.eq_of_getLsbD_eq
  intro i inside
  rw [BitVec.getLsbD_or, getLsbD_word h.le inside, getLsbD_word (by simp; omega) inside,
    BitVec.getLsbD_twoPow]
  by_cases low : i < width
  · rw [getD_concat_bitpos h true low]
    split_ifs with here
    · simp [low, ← here, inside]
    · simp [low, Ne.symm here]
  · simp [low]; omega

theorem word_and_not_twoPow (h : bits.length < width) :
    word n width bits &&& ~~~BitVec.twoPow n (width - (bits.length + 1)) =
      word n width (bits ++ [false]) := by
  apply BitVec.eq_of_getLsbD_eq
  intro i inside
  rw [BitVec.getLsbD_and, BitVec.getLsbD_not, getLsbD_word h.le inside,
    getLsbD_word (by simp; omega) inside, BitVec.getLsbD_twoPow]
  by_cases low : i < width
  · rw [getD_concat_bitpos h false low]
    split_ifs with here
    · simp [← here, inside]
    · simp [low, Ne.symm here, inside]
  · simp [low]

theorem word_concat_xor_twoPow (h : bits.length < width) (b : Bool) :
    word n width (bits ++ [b]) ^^^ BitVec.twoPow n (width - (bits.length + 1)) =
      word n width (bits ++ [!b]) := by
  apply BitVec.eq_of_getLsbD_eq
  intro i inside
  rw [BitVec.getLsbD_xor, getLsbD_word (by simp; omega) inside,
    getLsbD_word (by simp; omega) inside, BitVec.getLsbD_twoPow]
  by_cases low : i < width
  · rw [getD_concat_bitpos h b low, getD_concat_bitpos h (!b) low]
    split_ifs with here
    · simp [low, ← here, inside]
    · simp [Ne.symm here]
  · simp [low]; omega

end Word

/-! ### Packing blocks -/

/-- Blocks of `size` bits behind each other, as a number, the most significant one first. -/
def pack (size : Nat) (blocks : List Nat) : Nat := blocks.foldl (fun n b => n * 2 ^ size + b) 0

section Pack

variable {size : Nat}

@[simp] theorem pack_nil (size : Nat) : pack size [] = 0 := rfl

theorem pack_concat (front : List Nat) (b : Nat) :
    pack size (front ++ [b]) = pack size front * 2 ^ size + b := by
  simp [pack]

theorem pack_append (front back : List Nat) :
    pack size (front ++ back) = pack size front * 2 ^ (size * back.length) + pack size back := by
  induction back using List.reverseRecOn with
  | nil => simp
  | append_singleton back b ih =>
    rw [← List.append_assoc, pack_concat, pack_concat, ih, List.length_append,
      List.length_singleton, Nat.mul_add, Nat.mul_one, Nat.pow_add]
    ring

theorem pack_cons (b : Nat) (blocks : List Nat) :
    pack size (b :: blocks) = b * 2 ^ (size * blocks.length) + pack size blocks := by
  have single : pack size [b] = b := by simp [pack]
  rw [← List.singleton_append, pack_append, single]

theorem pack_lt {blocks : List Nat} (small : ∀ b ∈ blocks, b < 2 ^ size) :
    pack size blocks < 2 ^ (size * blocks.length) := by
  induction blocks with
  | nil => simp
  | cons b blocks ih =>
    obtain ⟨first, others⟩ := List.forall_mem_cons.mp small
    calc pack size (b :: blocks)
        = b * 2 ^ (size * blocks.length) + pack size blocks := pack_cons b blocks
      _ < b * 2 ^ (size * blocks.length) + 2 ^ (size * blocks.length) :=
          Nat.add_lt_add_left (ih others) _
      _ = (b + 1) * 2 ^ (size * blocks.length) := by ring
      _ ≤ 2 ^ size * 2 ^ (size * blocks.length) := Nat.mul_le_mul_right _ first
      _ = 2 ^ (size * (b :: blocks).length) := by
          rw [← Nat.pow_add, List.length_cons]
          congr 1
          ring

theorem pack_zeros (blocks : List Nat) (len : Nat) :
    pack size (blocks ++ List.replicate len 0) = pack size blocks <<< (size * len) := by
  have none : pack size (List.replicate len 0) = 0 := by
    induction len with
    | zero => rfl
    | succ len ih => rw [List.replicate_succ, pack_cons, ih, Nat.zero_mul]
  rw [pack_append, none, List.length_replicate, Nat.add_zero, Nat.shiftLeft_eq]

theorem zeros_pack (len : Nat) (blocks : List Nat) :
    pack size (List.replicate len 0 ++ blocks) = pack size blocks := by
  induction len with
  | zero => rfl
  | succ len ih => rw [List.replicate_succ, List.cons_append, pack_cons, Nat.zero_mul, ih,
      Nat.zero_add]

theorem ofNat_shiftLeft (n x k : Nat) : BitVec.ofNat n (x <<< k) = BitVec.ofNat n x <<< k := by
  apply BitVec.eq_of_toNat_eq
  rw [BitVec.toNat_shiftLeft, BitVec.toNat_ofNat, BitVec.toNat_ofNat, Nat.shiftLeft_eq,
    Nat.shiftLeft_eq, Nat.mod_mul_mod]

/-- A block that is put in front of packed ones. -/
theorem shiftLeft_or_pack {n b place : Nat} {blocks : List Nat} (j : Nat)
    (small : ∀ b ∈ blocks, b < 2 ^ size) (same : place = size * (blocks.length + j)) :
    BitVec.ofNat n b <<< place ||| BitVec.ofNat n (pack size blocks) <<< (size * j) =
      BitVec.ofNat n (pack size (b :: blocks)) <<< (size * j) := by
  rw [← ofNat_shiftLeft, ← ofNat_shiftLeft, ← ofNat_shiftLeft, ← BitVec.ofNat_or, same, Nat.mul_add,
    Nat.shiftLeft_add, ← Nat.shiftLeft_or_distrib, pack_cons, ← Nat.shiftLeft_eq,
    Nat.shiftLeft_add_eq_or_of_lt (pack_lt small)]

end Pack

/-! ### Fields of a word -/

/-- A field of `len` bits that is cut out of a word. -/
theorem getLsbD_cut {n : Nat} (x : BitVec n) (k len i : Nat) :
    ((x >>> k) &&& BitVec.ofNat n (2 ^ len - 1)).getLsbD i =
      (decide (i < len) && x.getLsbD (k + i)) := by
  rw [BitVec.getLsbD_and, BitVec.getLsbD_ushiftRight, BitVec.getLsbD_ofNat,
    Nat.testBit_two_pow_sub_one]
  by_cases high : i < n
  · simp [high, Bool.and_comm]
  · rw [BitVec.getLsbD_of_ge x _ (by omega), Bool.false_and, Bool.and_false]

/-- A field of `len` bits that is cut out of a word and put back in its place. -/
theorem getLsbD_field {n : Nat} (x : BitVec n) (k len i : Nat) :
    (((x >>> k) &&& BitVec.ofNat n (2 ^ len - 1)) <<< k).getLsbD i =
      (decide (k ≤ i ∧ i < k + len) && x.getLsbD i) := by
  rw [BitVec.getLsbD_shiftLeft, getLsbD_cut]
  by_cases low : k ≤ i
  · have index : k + (i - k) = i := by omega
    have same : i - k < len ↔ i < k + len := by omega
    rw [index]
    by_cases high : i < n
    · simp [low, Nat.not_lt.mpr low, high, same]
    · rw [BitVec.getLsbD_of_ge x _ (by omega), Bool.and_false, Bool.and_false, Bool.and_false]
  · simp [low, Nat.lt_of_not_le low]

end BitString
