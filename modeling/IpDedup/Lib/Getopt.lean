import Mathlib.Data.List.Basic
import Mathlib.Tactic.Common

/-!
# getopt

How a command line is taken apart into options and operands. Options are single
characters behind a hyphen, of which the last one may take an argument; two
hyphens end them. Some libraries also end them at the first operand, others go
on behind it.

## Main definitions

* `Getopt.getopt`: the options that are found, and the operands
* `Getopt.render`: a command line for some options and operands

## Main results

* `Getopt.declared_getopt`: what is found is as the option string declares it
* `Getopt.getopt_render`: what was written is found
-/

set_option autoImplicit false

namespace Getopt

/-- An option that was found. -/
structure Opt where
  opt : Char
  optarg : Option (List Char)
deriving DecidableEq, Repr

/-- What is found for an unknown option, and for one that lacks its argument. -/
def unknown : Opt := ⟨'?', none⟩

/-- Whether the option takes an argument, as a colon behind it tells. -/
def takesArg : List Char → Char → Option Bool
  | [], _ => none
  | d :: optstring, c =>
    if c = d ∧ c ≠ ':' then some (decide (optstring.head? = some ':')) else takesArg optstring c

variable (optstring : List Char)

/-- The options of one argument, and the last of them if it takes the next argument. -/
def cluster : List Char → List Opt × Option Char
  | [] => ([], none)
  | c :: cs =>
    match takesArg optstring c with
    | none => (unknown :: (cluster cs).1, (cluster cs).2)
    | some false => (⟨c, none⟩ :: (cluster cs).1, (cluster cs).2)
    | some true => if cs = [] then ([], some c) else ([⟨c, some cs⟩], none)

/-- The rest of a command line, of which an option may be `waiting` for its first argument. -/
def scan (permutes : Bool) : Option Char → List (List Char) → List Opt × List (List Char)
  | none, [] => ([], [])
  | some _, [] => ([unknown], [])
  | some c, arg :: args =>
    (⟨c, some arg⟩ :: (scan permutes none args).1, (scan permutes none args).2)
  | none, arg :: args =>
    -- a single hyphen is an operand
    if arg = ['-', '-'] then ([], args)
    else if arg.head? = some '-' ∧ arg ≠ ['-'] then
      let found := cluster optstring arg.tail
      let out := scan permutes found.2 args
      (found.1 ++ out.1, out.2)
    else if permutes then ((scan permutes none args).1, arg :: (scan permutes none args).2)
    else ([], arg :: args)

/-- The options and the operands. -/
def getopt (permutes : Bool) (args : List (List Char)) : List Opt × List (List Char) :=
  scan optstring permutes none args

variable {optstring}

/-! ### What is found -/

section Found

/-- Only the characters of the option string are options. -/
theorem mem_of_takesArg {c : Char} (takes : takesArg optstring c ≠ none) :
    c ∈ optstring ∧ c ≠ ':' := by
  induction optstring with
  | nil => exact absurd rfl takes
  | cons d optstring ih =>
    rw [takesArg] at takes
    split_ifs at takes with own
    · exact ⟨own.1 ▸ List.mem_cons_self, own.2⟩
    · exact (ih takes).imp_left (List.mem_cons_of_mem d)

/-- An option with an argument if it takes one; or an unknown option. -/
def Declared (optstring : List Char) (o : Opt) : Prop :=
  o = unknown ∨ takesArg optstring o.opt = some o.optarg.isSome

theorem declared_cluster (cs : List Char) :
    (∀ o ∈ (cluster optstring cs).1, Declared optstring o) ∧
      ∀ c ∈ (cluster optstring cs).2, takesArg optstring c = some true := by
  induction cs with
  | nil => simp [cluster]
  | cons c cs ih =>
    rw [cluster]
    cases takes : takesArg optstring c with
    | none => exact ⟨List.forall_mem_cons.mpr ⟨Or.inl rfl, ih.1⟩, ih.2⟩
    | some arg =>
      cases arg with
      | false => exact ⟨List.forall_mem_cons.mpr ⟨Or.inr takes, ih.1⟩, ih.2⟩
      | true =>
        dsimp only
        split_ifs with last
        · refine ⟨List.forall_mem_nil _, fun _ waiting => ?_⟩
          exact Option.some.inj waiting ▸ takes
        · refine ⟨List.forall_mem_singleton.mpr (Or.inr takes), fun _ waiting => ?_⟩
          cases waiting

theorem declared_scan (permutes : Bool) {waiting : Option Char} (args : List (List Char))
    (takes : ∀ c ∈ waiting, takesArg optstring c = some true) :
    ∀ o ∈ (scan optstring permutes waiting args).1, Declared optstring o := by
  induction args generalizing waiting with
  | nil =>
    cases waiting with
    | none => exact List.forall_mem_nil _
    | some c => exact List.forall_mem_singleton.mpr (Or.inl rfl)
  | cons arg args ih =>
    have none : ∀ c ∈ (none : Option Char), takesArg optstring c = some true :=
      fun _ mem => by cases mem
    cases waiting with
    | some c => exact List.forall_mem_cons.mpr ⟨Or.inr (takes c rfl), ih none⟩
    | none =>
      rw [scan]
      split_ifs
      · exact List.forall_mem_nil _
      · obtain ⟨own, last⟩ := @declared_cluster optstring arg.tail
        exact List.forall_mem_append.mpr ⟨own, ih last⟩
      · exact ih none
      · exact List.forall_mem_nil _

/-- What is found is as the option string declares it. -/
theorem declared_getopt (permutes : Bool) (args : List (List Char)) :
    ∀ o ∈ (getopt optstring permutes args).1, Declared optstring o :=
  declared_scan permutes args fun _ mem => by cases mem

/-- The options that have an argument. -/
def withArg (opts : List Opt) : List Opt := opts.filter fun o => o.optarg.isSome

theorem length_withArg_cluster (cs : List Char) :
    (withArg (cluster optstring cs).1).length ≤ 1 := by
  induction cs with
  | nil => simp [cluster, withArg]
  | cons c cs ih =>
    rw [cluster]
    cases takesArg optstring c with
    | none => simpa [withArg, unknown] using ih
    | some arg =>
      cases arg with
      | false => simpa [withArg] using ih
      | true =>
        dsimp only
        split_ifs <;> simp [withArg]

theorem length_scan (permutes : Bool) (waiting : Option Char) (args : List (List Char)) :
    (withArg (scan optstring permutes waiting args).1).length +
      (scan optstring permutes waiting args).2.length ≤ args.length := by
  induction args generalizing waiting with
  | nil => cases waiting <;> simp [scan, withArg, unknown]
  | cons arg args ih =>
    cases waiting with
    | some c =>
      have rest := ih none
      rw [scan]
      simp only [withArg, List.filter_cons, Option.isSome_some, reduceIte,
        List.length_cons] at rest ⊢
      omega
    | none =>
      rw [scan]
      split_ifs
      · simp [withArg]
      · have own := @length_withArg_cluster optstring arg.tail
        have rest := ih (cluster optstring arg.tail).2
        simp only [withArg, List.filter_append, List.length_append, List.length_cons]
          at own rest ⊢
        omega
      · have rest := ih none
        simp only [List.length_cons]
        omega
      · simp [withArg]

/-- There are no more arguments of options and operands than there are arguments. -/
theorem length_getopt (permutes : Bool) (args : List (List Char)) :
    (withArg (getopt optstring permutes args).1).length +
      (getopt optstring permutes args).2.length ≤ args.length :=
  length_scan permutes none args

end Found

/-! ### Round trip -/

section Render

/-- Every option on its own, its argument behind it. -/
def Opt.render (o : Opt) : List (List Char) := ['-', o.opt] :: o.optarg.toList

/-- Two hyphens keep the operands from being options. -/
def render (opts : List Opt) (operands : List (List Char)) : List (List Char) :=
  opts.flatMap Opt.render ++ ['-', '-'] :: operands

/-- What was written is found. -/
theorem getopt_render (permutes : Bool) {opts : List Opt}
    (known : ∀ o ∈ opts, o.opt ≠ '-' ∧ takesArg optstring o.opt = some o.optarg.isSome)
    (operands : List (List Char)) :
    getopt optstring permutes (render opts operands) = (opts, operands) := by
  rw [getopt]
  induction opts with
  | nil => rfl
  | cons o opts ih =>
    obtain ⟨⟨mark, takes⟩, others⟩ := List.forall_mem_cons.mp known
    have rest : scan optstring permutes none (render opts operands) = (opts, operands) := ih others
    have more : render (o :: opts) operands =
        ['-', o.opt] :: (o.optarg.toList ++ render opts operands) := by
      simp [render, Opt.render]
    rw [more, scan, if_neg (by simpa using mark), if_pos (by simp)]
    -- an option that takes an argument waits for the next one
    obtain ⟨c, optarg⟩ := o
    cases optarg with
    | none =>
      have own : cluster optstring [c] = ([⟨c, none⟩], none) := by
        rw [cluster, takes]
        rfl
      simp only [List.tail_cons, own, Option.toList_none, List.nil_append, rest]
      rfl
    | some arg =>
      have own : cluster optstring [c] = ([], some c) := by
        rw [cluster, takes]
        rfl
      simp only [List.tail_cons, own, Option.toList_some, List.singleton_append, scan, rest]
      rfl

end Render

end Getopt
