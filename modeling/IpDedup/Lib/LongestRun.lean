import Mathlib.Data.List.Basic
import Mathlib.Tactic.Common

/-!
# Longest runs

The leftmost one of the longest runs of hits, over places that are hits or
misses, found in one scan from left to right.

## Main definitions

* `Longest`: a run that no run exceeds, and none of the same length precedes
* `Scanned`: what a scan knows after some places

## Main results

* `Scanned.hit`, `Scanned.miss`: one step of the scan
* `Scanned.better`: the longest run, at the end of the scan
* `Longest.reaches_end_iff`: when the longest run ends at the last place
-/

set_option autoImplicit false

namespace LongestRun

variable (hits : Nat → Prop)

/-- All `len` places from `start` on are hits. -/
def RunAt (start len : Nat) : Prop := ∀ i, start ≤ i → i < start + len → hits i

/-- The leftmost one of the longest runs among the first `size` places. -/
structure Longest (size start len : Nat) : Prop where
  inside : start + len ≤ size
  run : RunAt hits start len
  longest : ∀ s l, s + l ≤ size → RunAt hits s l → l ≤ len
  leftmost : ∀ s, 0 < len → s + len ≤ size → RunAt hits s len → start ≤ s

/-- After `k` places: the run that is still open, and the best run that is closed. -/
structure Scanned (k curStart curLen start len : Nat) : Prop where
  position : curStart + curLen = k
  current : RunAt hits curStart curLen
  maximal : ∀ i, i + 1 = curStart → ¬ hits i
  closed : start + len ≤ curStart
  best : RunAt hits start len
  covered : ∀ s l, 0 < l → s + l ≤ k → RunAt hits s l →
    curStart ≤ s ∨ l ≤ len ∧ (l = len → start ≤ s)

variable {hits} {size k curStart curLen start len : Nat}

theorem RunAt.hit {s l i : Nat} (run : RunAt hits s l) (low : s ≤ i) (high : i < s + l) : hits i :=
  run i low high

theorem RunAt.sub {s l s' l' : Nat} (run : RunAt hits s l) (low : s ≤ s')
    (high : s' + l' ≤ s + l) : RunAt hits s' l' :=
  fun i hs hl => run i (by omega) (by omega)

theorem runAt_zero (s : Nat) : RunAt hits s 0 := fun i hs hl => absurd hl (by omega)

/-! ### The scan -/

theorem Scanned.init : Scanned hits 0 0 0 0 0 where
  position := rfl
  current := runAt_zero 0
  maximal := by simp
  closed := Nat.le_refl 0
  best := runAt_zero 0
  covered := by omega

/-- A hit makes the open run longer. -/
theorem Scanned.hit (scan : Scanned hits k curStart curLen start len) (here : hits k) :
    Scanned hits (k + 1) curStart (curLen + 1) start len where
  position := by rw [← scan.position]; rfl
  current := by
    intro i low high
    rcases Nat.lt_or_ge i k with before | after
    · exact scan.current i low (by rw [scan.position]; exact before)
    · have position := scan.position
      obtain rfl : i = k := by omega
      exact here
  maximal := scan.maximal
  closed := scan.closed
  best := scan.best
  covered := by
    intro s l pos inside run
    rcases Nat.lt_or_ge k (s + l) with last | short
    · -- the run comes up to here, so it cannot start before the open one
      refine Or.inl (Nat.le_of_not_lt fun earlier => ?_)
      have position := scan.position
      obtain ⟨i, rfl⟩ : ∃ i, curStart = i + 1 := ⟨curStart - 1, by omega⟩
      exact scan.maximal i rfl (run.hit (by omega) (by omega))
    · exact scan.covered s l pos short run

/-- The better one of the closed run and the open one. -/
theorem Scanned.better (scan : Scanned hits k curStart curLen start len) :
    Longest hits k (if curLen > len then curStart else start)
      (if curLen > len then curLen else len) := by
  have position := scan.position
  have closed := scan.closed
  -- a run either ended before the current one, or it is a part of that
  have bound : ∀ s l, 0 < l → s + l ≤ k → RunAt hits s l → curStart ≤ s → l ≤ curLen := by
    intro s l pos inside run low
    omega
  by_cases longer : curLen > len
  · simp only [longer, if_true]
    refine ⟨by omega, scan.current, fun s l inside run => ?_, fun s pos inside run => ?_⟩
    · rcases Nat.eq_zero_or_pos l with rfl | pos
      · omega
      · rcases scan.covered s l pos inside run with low | ⟨short, -⟩ <;> omega
    · rcases scan.covered s curLen pos inside run with low | ⟨short, -⟩ <;> omega
  · simp only [longer, if_false]
    refine ⟨by omega, scan.best, fun s l inside run => ?_, fun s pos inside run => ?_⟩
    · rcases Nat.eq_zero_or_pos l with rfl | pos
      · omega
      · rcases scan.covered s l pos inside run with low | ⟨short, -⟩ <;> omega
    · rcases scan.covered s len pos inside run with low | ⟨-, left⟩
      · omega
      · exact left rfl

/-- A miss closes the open run. -/
theorem Scanned.miss (scan : Scanned hits k curStart curLen start len) (here : ¬ hits k) :
    Scanned hits (k + 1) (k + 1) 0 (if curLen > len then curStart else start)
      (if curLen > len then curLen else len) where
  position := rfl
  current := runAt_zero _
  maximal := by
    intro i same
    obtain rfl : i = k := by omega
    exact here
  closed := Nat.le_succ_of_le scan.better.inside
  best := scan.better.run
  covered := by
    intro s l pos inside run
    have short : s + l ≤ k := by
      refine Nat.le_of_not_lt fun last => here ?_
      exact run.hit (by omega) last
    refine Or.inr ⟨scan.better.longest s l short run, fun same => ?_⟩
    exact scan.better.leftmost s (same ▸ pos) (same ▸ short) (same ▸ run)

/-! ### Where the longest run is -/

/-- The longest run ends at the last place exactly if some run at the end is not matched by an
earlier one. -/
theorem Longest.reaches_end_iff (found : Longest hits size start len) :
    (0 < len ∧ start + len = size) ↔
      ∃ n, 0 < n ∧ n ≤ size ∧ RunAt hits (size - n) n ∧ ∀ j < size - n, ¬ RunAt hits j n := by
  have inside := found.inside
  constructor
  · rintro ⟨pos, ends⟩
    obtain rfl : start = size - len := by omega
    refine ⟨len, pos, by omega, found.run, fun j earlier run => ?_⟩
    have left := found.leftmost j pos (by omega) run
    omega
  · rintro ⟨n, pos, le, run, unmatched⟩
    have long := found.longest (size - n) n (by omega) run
    rcases Nat.lt_or_ge start (size - n) with earlier | late
    · exact absurd (found.run.sub (Nat.le_refl start) (by omega)) (unmatched start earlier)
    · exact ⟨by omega, by omega⟩

end LongestRun
