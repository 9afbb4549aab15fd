import Mathlib.Data.BitVec
import Mathlib.Tactic.Common

/-!
# The C machine under the program

Undefined behaviour (a shift count that reaches the operand width, a `NULL`
dereference) is `none`. Memory allocation is nondeterministic: a run carries
the answers that `malloc` is going to give, so a statement about every pattern
of allocation failures quantifies over that sequence.

## Main definitions

* `UintFast32`: the two widths of `uint_fast32_t`
* `uintFast8`: conversion to `uint_fast8_t`, the type of prefix lengths
* `shiftLeft?`: a shift that is undefined for counts outside the operand
* `Platform`: what the C standard leaves open
* `Run`: computations that allocate and may be undefined
* `Ends`, `Tries`: what a run comes to whatever allocations fail
-/

set_option autoImplicit false

namespace IpDedup

/-- `uint_fast32_t` has 32 or 64 bits, depending on the C library. -/
inductive UintFast32 where
  | bits32
  | bits64
deriving DecidableEq, Repr

/-- The number of bits of `uint_fast32_t`. -/
def UintFast32.width : UintFast32 → Nat
  | .bits32 => 32
  | .bits64 => 64

theorem UintFast32.le_width (w : UintFast32) : 32 ≤ w.width := by
  cases w <;> decide

/-- Conversion to `uint_fast8_t` (eight bits), which wraps. -/
def uintFast8 (n : Int) : Nat := (n % 256).toNat

theorem uintFast8_of_lt {n : Nat} (h : n < 256) : uintFast8 n = n := by
  unfold uintFast8
  omega

theorem uintFast8_sub {m n : Nat} (h : n ≤ m) (hm : m < 256) :
    uintFast8 ((m : Int) - n) = m - n := by
  unfold uintFast8
  omega

/-- `x << count` on an unsigned operand of `w` bits. -/
def shiftLeft? {w : Nat} (x : BitVec w) (count : Nat) : Option (BitVec w) :=
  if count < w then some (x <<< count) else none

theorem shiftLeft?_of_lt {w : Nat} (x : BitVec w) {count : Nat} (h : count < w) :
    shiftLeft? x count = some (x <<< count) := if_pos h

/-- What C leaves to the platform: the width of `uint_fast32_t`, and the value
an operand holds after a shift whose count is out of range. -/
structure Platform where
  fast32 : UintFast32
  overshift32 : BitVec 32 → Nat → BitVec 32
  overshift64 : BitVec 64 → Nat → BitVec 64

/-- The answers `malloc` gives from now on: `true` is a fresh block, `false` is
`NULL`. -/
abbrev Mallocs := Nat → Bool

/-- Allocation always succeeds. -/
def Mallocs.all : Mallocs := fun _ => true

/-- A computation that allocates memory. `none` is undefined behaviour. -/
abbrev Run := StateT Mallocs Option

/-- Ask for one block of memory. -/
def malloc : Run Bool := fun mem => some (mem 0, fun n => mem (n + 1))

@[simp] theorem malloc_apply (mem : Mallocs) :
    malloc mem = some (mem 0, fun n => mem (n + 1)) := rfl

@[simp] theorem malloc_all : malloc Mallocs.all = some (true, Mallocs.all) := rfl

section Run

variable {β γ : Type} (mem : Mallocs)

@[simp] theorem Run.pure_apply (b : β) : (pure b : Run β) mem = some (b, mem) := rfl

@[simp] theorem Run.bind_apply (x : Run β) (f : β → Run γ) :
    (x >>= f) mem = (x mem).bind fun out => f out.1 out.2 := by
  change (do let (a, s) ← x mem; f a s) = _
  cases x mem <;> rfl

@[simp] theorem Run.map_apply (f : β → γ) (x : Run β) :
    (f <$> x) mem = (x mem).map fun out => (f out.1, out.2) := by
  change (do let (a, s) ← x mem; pure (f a, s)) = _
  cases x mem <;> rfl

@[simp] theorem Run.lift_apply (x : Option β) :
    (liftM x : Run β) mem = x.map fun b => (b, mem) := by
  cases x <;> rfl

@[simp] theorem Run.lift_some_bind (b : β) (f : β → Run γ) :
    ((liftM (some b) : Run β) >>= f) = f b := rfl

@[simp] theorem Run.map_lift_some (f : β → γ) (b : β) :
    f <$> (liftM (some b) : Run β) = pure (f b) := rfl

end Run

/-! ### Assertions

A program with added assertions does what the program does, wherever the
assertions hold. -/

/-- Wherever the first run is defined, the second one does the same. -/
def Run.Le {β : Type} (x y : Run β) : Prop := ∀ mem out, x mem = some out → y mem = some out

section Le

variable {β γ : Type} {x y : Run β}

theorem Run.Le.refl : Run.Le x x := fun _ _ h => h

theorem Run.Le.of_eq (h : x = y) : Run.Le x y := h ▸ Run.Le.refl

theorem Run.Le.map {x y : Run β} (h : Run.Le x y) (f : β → γ) : Run.Le (f <$> x) (f <$> y) := by
  intro mem out eq
  rw [Run.map_apply] at eq ⊢
  obtain ⟨b, hb, rfl⟩ := Option.map_eq_some_iff.mp eq
  rw [h mem b hb, Option.map_some]

theorem Run.Le.bind {f g : β → Run γ} (h : Run.Le x y) (next : ∀ b, Run.Le (f b) (g b)) :
    Run.Le (x >>= f) (y >>= g) := by
  intro mem out eq
  rw [Run.bind_apply] at eq ⊢
  obtain ⟨⟨b, mem'⟩, first, last⟩ := Option.bind_eq_some_iff.mp eq
  rw [h mem _ first]
  exact next b mem' out last

theorem Run.Le.bind_map {δ : Type} {x : Run γ} {m : β → γ} {f : γ → Run δ} {g : β → Run δ}
    (h : Run.Le x (m <$> y)) (next : ∀ b, Run.Le (f (m b)) (g b)) :
    Run.Le (x >>= f) (y >>= g) := by
  intro mem out eq
  rw [Run.bind_apply] at eq ⊢
  obtain ⟨⟨c, mem'⟩, first, last⟩ := Option.bind_eq_some_iff.mp eq
  have mapped := h mem _ first
  rw [Run.map_apply] at mapped
  obtain ⟨⟨b, _⟩, hb, same⟩ := Option.map_eq_some_iff.mp mapped
  obtain ⟨rfl, rfl⟩ := Prod.mk.inj same
  rw [hb]
  exact next b _ out last

theorem Run.Le.lift {a b : Option β} (h : ∀ c, a = some c → b = some c) :
    Run.Le (liftM a) (liftM b) := by
  intro mem out eq
  rw [Run.lift_apply] at eq ⊢
  obtain ⟨c, hc, rfl⟩ := Option.map_eq_some_iff.mp eq
  rw [h c hc, Option.map_some]

/-- An assertion in front of a run. -/
theorem Run.Le.of_assert {a : Option β} {f : β → Run γ} {z : Run γ}
    (next : ∀ b, a = some b → Run.Le (f b) z) : Run.Le (liftM a >>= f) z := by
  cases a with
  | none =>
    intro mem out eq
    simp at eq
  | some b => exact next b rfl

end Le

/-! ### Return codes -/

section Ends

variable {β γ : Type}

/-- Whatever `malloc` answers, the run is defined. Either it returns `0` and
`done`, which takes `ok`, or it returns `-1` and something `failed`. While
allocation succeeds, it fails only for want of `ok`. -/
def Ends (run : Run (Int × β)) (ok : Prop) (done : β) (failed : β → Prop) : Prop :=
  ∀ mem, ∃ mem', (mem = Mallocs.all → mem' = Mallocs.all) ∧
    ((ok ∧ run mem = some ((0, done), mem')) ∨
      ∃ b, failed b ∧ run mem = some ((-1, b), mem') ∧ (mem = Mallocs.all → ¬ ok))

variable {run : Run (Int × β)} {ok ok' : Prop} {done b : β} {failed failed' : β → Prop}

theorem Ends.pure_zero (h : ok) : Ends (pure (0, done)) ok done failed :=
  fun mem => ⟨mem, id, Or.inl ⟨h, rfl⟩⟩

theorem Ends.pure_neg_one (h : failed b) (bad : ¬ ok) : Ends (pure (-1, b)) ok done failed :=
  fun mem => ⟨mem, id, Or.inr ⟨b, h, rfl, fun _ => bad⟩⟩

/-- The code after a call either goes on from success or passes the failure on. -/
theorem Ends.bind {next : Int × β → Run (Int × γ)} {done' : γ} {failed' : γ → Prop}
    (first : Ends run ok done failed) (needs : ok' → ok)
    (goOn : ok → Ends (next (0, done)) ok' done' failed')
    (giveUp : ∀ b, failed b → ∃ c, failed' c ∧ next (-1, b) = pure (-1, c)) :
    Ends (run >>= next) ok' done' failed' := by
  intro mem
  obtain ⟨mem₁, all₁, ⟨h, eq⟩ | ⟨b, hb, eq, bad⟩⟩ := first mem
  · obtain ⟨mem₂, all₂, last⟩ := goOn h mem₁
    refine ⟨mem₂, fun all => all₂ (all₁ all), ?_⟩
    rcases last with ⟨h', eq'⟩ | ⟨c, hc, eq', bad⟩
    · exact Or.inl ⟨h', by simp [eq, eq']⟩
    · exact Or.inr ⟨c, hc, by simp [eq, eq'], fun all => bad (all₁ all)⟩
  · obtain ⟨c, hc, eq'⟩ := giveUp b hb
    exact ⟨mem₁, all₁, Or.inr ⟨c, hc, by simp [eq, eq'], fun all h => bad all (needs h)⟩⟩

/-- What a call leaves behind becomes part of something larger. -/
theorem Ends.wrap (h : Ends run ok done failed) (whole : β → γ) :
    Ends (run >>= fun out => pure (if out.1 ≠ 0 then -1 else 0, whole out.2)) ok (whole done)
      fun c => ∃ b, failed b ∧ c = whole b :=
  h.bind id (fun good => .pure_zero good) fun b hb => ⟨whole b, ⟨b, hb, rfl⟩, rfl⟩

theorem Ends.mono (h : Ends run ok done failed) (weaker : ∀ b, failed b → failed' b) :
    Ends run ok done failed' := by
  intro mem
  obtain ⟨mem', all, last⟩ := h mem
  exact ⟨mem', all, last.imp id fun ⟨b, hb, rest⟩ => ⟨b, weaker b hb, rest⟩⟩

theorem Ends.congr_ok (h : Ends run ok done failed) (same : ok ↔ ok') :
    Ends run ok' done failed := by
  rwa [← propext same]

/-- With enough memory and `ok`, the run succeeds. -/
theorem Ends.run_all (h : Ends run ok done failed) (good : ok) :
    run Mallocs.all = some ((0, done), Mallocs.all) := by
  obtain ⟨mem', all, ⟨-, eq⟩ | ⟨b, -, -, bad⟩⟩ := h Mallocs.all
  · rw [eq, all rfl]
  · exact absurd good (bad rfl)

/-- With enough memory and without `ok`, the run fails. -/
theorem Ends.run_all_of_not (h : Ends run ok done failed) (bad : ¬ ok) :
    ∃ b, failed b ∧ run Mallocs.all = some ((-1, b), Mallocs.all) := by
  obtain ⟨mem', all, ⟨good, -⟩ | ⟨b, hb, eq, -⟩⟩ := h Mallocs.all
  · exact absurd good bad
  · exact ⟨b, hb, by rw [eq, all rfl]⟩

end Ends

/-! ### Trying -/

section Tries

variable {β γ : Type}

/-- With enough memory, the run ends with `done`. Otherwise it does so as well, or ends with
something `failed`. -/
def Tries (run : Run β) (done : β) (failed : β → Prop) : Prop :=
  run Mallocs.all = some (done, Mallocs.all) ∧
    ∀ mem, ∃ out mem', run mem = some (out, mem') ∧ (out = done ∨ failed out)

variable {run : Run β} {done : β} {failed : β → Prop} {done' : γ} {failed' : γ → Prop}

protected theorem Tries.pure (done : β) (failed : β → Prop) : Tries (pure done) done failed :=
  ⟨rfl, fun mem => ⟨done, mem, rfl, Or.inl rfl⟩⟩

/-- There is one outcome with enough memory. -/
theorem Tries.unique (tries : Tries run done failed) {out : β}
    (own : run Mallocs.all = some (out, Mallocs.all)) : out = done :=
  congrArg Prod.fst (Option.some.inj (own.symm.trans tries.1))

/-- The rest of a run goes on from the outcome with enough memory, and fails after a failure. -/
protected theorem Tries.bind {next : β → Run γ} (first : Tries run done failed)
    (goOn : Tries (next done) done' failed')
    (giveUp : ∀ out, failed out → ∀ mem, ∃ out' mem', next out mem = some (out', mem') ∧
      failed' out') :
    Tries (run >>= next) done' failed' := by
  constructor
  · rw [Run.bind_apply, first.1]
    exact goOn.1
  · intro mem
    obtain ⟨out, mem₁, own, rfl | bad⟩ := first.2 mem
    · obtain ⟨out', mem₂, own', outcome⟩ := goOn.2 mem₁
      exact ⟨out', mem₂, by rw [Run.bind_apply, own, Option.bind_some, own'], outcome⟩
    · obtain ⟨out', mem₂, own', bad'⟩ := giveUp out bad mem₁
      exact ⟨out', mem₂, by rw [Run.bind_apply, own, Option.bind_some, own'], Or.inr bad'⟩

/-- What a call returns becomes part of something larger. -/
theorem Tries.wrap {whole : β → γ} (tries : Tries run done failed)
    (bad : ∀ out, failed out → failed' (whole out)) :
    Tries (run >>= fun out => pure (whole out)) (whole done) failed' :=
  tries.bind (.pure _ _) fun out own mem => ⟨whole out, mem, rfl, bad out own⟩

/-- The code after a call goes on from success, and gives up otherwise. -/
theorem Tries.check {run : Run (Int × β)} {code : Int} {next : Int × β → Run γ}
    {abort : Int × β → γ} (first : Tries run (0, done) fun out => out.1 = code) (nonzero : code ≠ 0)
    (goOn : Tries (next (0, done)) done' failed')
    (giveUp : ∀ out, out.1 = code → failed' (abort out)) :
    Tries (run >>= fun out => if out.1 ≠ 0 then pure (abort out) else next out) done' failed' := by
  refine first.bind ?_ ?_
  · rw [if_neg (not_not_intro rfl)]
    exact goOn
  · intro out bad mem
    rw [if_pos (by rwa [bad])]
    exact ⟨abort out, mem, rfl, giveUp out bad⟩

/-- A call with a return code that succeeds with enough memory. -/
theorem Ends.tries {run : Run (Int × β)} {ok : Prop} {failed : β → Prop}
    (ends : Ends run ok done failed) (good : ok) :
    Tries run (0, done) fun out => out.1 = -1 := by
  refine ⟨ends.run_all good, fun mem => ?_⟩
  obtain ⟨mem', -, ⟨-, own⟩ | ⟨b, -, own, -⟩⟩ := ends mem
  · exact ⟨(0, done), mem', own, Or.inl rfl⟩
  · exact ⟨(-1, b), mem', own, Or.inr rfl⟩

theorem malloc_tries : Tries malloc true fun out => out = false := by
  refine ⟨rfl, fun mem => ⟨mem 0, _, rfl, ?_⟩⟩
  cases mem 0
  · exact Or.inr rfl
  · exact Or.inl rfl

end Tries

end IpDedup
