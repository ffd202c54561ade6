import Redex.Proofs.Nameless.Reduction
import Mathlib.Logic.Relation

/-!
# Standard reductions

Redexes can be contracted in any order, but nothing is gained by it: every reduction can be put in
a standard order, in which a term is first reduced at its head until it has the outermost shape of
the result, and then each part of it in the same way. A standard reduction to a normal form is one
that always contracts the first redex.

* `standard_of_reduces`: every reduction can be made standard.
* `Standard.first`: a standard reduction to a normal form contracts first redexes only.
* `first_of_reduces`: so contracting first redexes finds the normal form, if there is one.
-/

namespace Redex

namespace Nameless

open Relation

/-- Contraction of a redex that is the term itself or what the term applies, however often. -/
inductive HeadStep : Nameless → Nameless → Prop where
  | redex (body argument : Nameless) :
    HeadStep (.app (.abs body) argument) (body.instantiate argument)
  | function {t u : Nameless} (argument : Nameless) :
    HeadStep t u → HeadStep (.app t argument) (.app u argument)

abbrev HeadSteps : Nameless → Nameless → Prop := ReflTransGen HeadStep

/-- Reduction in standard order: head steps to the outermost shape of the result, and then standard
reductions of the parts. -/
inductive Standard : Nameless → Nameless → Prop where
  | bound {t : Nameless} {index : Nat} : HeadSteps t (.bound index) → Standard t (.bound index)
  | free {t : Nameless} {name : String} : HeadSteps t (.free name) → Standard t (.free name)
  | abs {t b c : Nameless} : HeadSteps t (.abs b) → Standard b c → Standard t (.abs c)
  | app {t f g a b : Nameless} :
    HeadSteps t (.app f a) → Standard f g → Standard a b → Standard t (.app g b)

theorem HeadStep.fill {t u : Nameless} (step : HeadStep t u) (terms : Nat → Nameless) :
    HeadStep (t.fill terms) (u.fill terms) := by
  induction step with
  | redex body argument =>
    rw [fill_instantiate]
    exact .redex _ _
  | function argument _ ih => exact .function _ ih

theorem HeadSteps.fill {t u : Nameless} (steps : HeadSteps t u) (terms : Nat → Nameless) :
    HeadSteps (t.fill terms) (u.fill terms) := by
  induction steps with
  | refl => exact .refl
  | tail _ step ih => exact ih.tail (step.fill terms)

theorem HeadSteps.renumber {t u : Nameless} (steps : HeadSteps t u) (numbers : Nat → Nat) :
    HeadSteps (t.renumber numbers) (u.renumber numbers) := by
  rw [renumber_eq_fill, renumber_eq_fill]
  exact HeadSteps.fill steps _

theorem HeadSteps.function {t u : Nameless} (steps : HeadSteps t u) (argument : Nameless) :
    HeadSteps (.app t argument) (.app u argument) := by
  induction steps with
  | refl => exact .refl
  | tail _ step ih => exact ih.tail (.function argument step)

theorem Standard.refl (t : Nameless) : Standard t t := by
  induction t with
  | bound => exact .bound .refl
  | free => exact .free .refl
  | abs _ ih => exact .abs .refl ih
  | app _ _ ihf iha => exact .app .refl ihf iha

/-- Head steps before a standard reduction are part of it. -/
theorem HeadSteps.standard {t u v : Nameless} (steps : HeadSteps t u) (standard : Standard u v) :
    Standard t v := by
  cases standard with
  | bound more => exact .bound (steps.trans more)
  | free more => exact .free (steps.trans more)
  | abs more body => exact .abs (steps.trans more) body
  | app more function argument => exact .app (steps.trans more) function argument

theorem Standard.renumber {t u : Nameless} (standard : Standard t u) (numbers : Nat → Nat) :
    Standard (t.renumber numbers) (u.renumber numbers) := by
  induction standard generalizing numbers with
  | bound head => exact .bound (HeadSteps.renumber head numbers)
  | free head => exact .free (HeadSteps.renumber head numbers)
  | abs head _ ih => exact .abs (HeadSteps.renumber head numbers) (ih _)
  | app head _ _ ihf iha => exact .app (HeadSteps.renumber head numbers) (ihf _) (iha _)

theorem Standard.fill {t u : Nameless} {before after : Nat → Nameless} (standard : Standard t u)
    (each : ∀ i, Standard (before i) (after i)) : Standard (t.fill before) (u.fill after) := by
  induction standard generalizing before after with
  | @bound t index head => exact HeadSteps.standard (head.fill before) (each index)
  | free head => exact .free (head.fill before)
  | abs head _ ih =>
    have inside : ∀ i, Standard (termsInside before i) (termsInside after i) := by
      intro i
      cases i with
      | zero => exact .refl _
      | succ i => exact (each i).renumber _
    exact .abs (head.fill before) (ih inside)
  | app head _ _ ihf iha => exact .app (head.fill before) (ihf each) (iha each)

/-- Standard reductions of body and argument make one of what they come to together. -/
theorem Standard.instantiate {t u a b : Nameless} (body : Standard t u) (argument : Standard a b) :
    Standard (t.instantiate a) (u.instantiate b) := by
  refine body.fill fun i => ?_
  cases i with
  | zero => exact argument
  | succ i => exact .refl _

/-- A redex that a standard reduction ends in can be contracted at the head as soon as it is
there. -/
theorem Standard.contract {t body argument : Nameless}
    (standard : Standard t (.app (.abs body) argument)) :
    Standard t (body.instantiate argument) := by
  cases standard with
  | app head function argument =>
    cases function with
    | abs more body =>
      have steps := (head.trans (HeadSteps.function more _)).tail (.redex _ _)
      exact HeadSteps.standard steps (body.instantiate argument)

/-- One more contraction, wherever it is, can be put in standard order. -/
theorem Standard.then {t u v : Nameless} (standard : Standard t u) (contracts : Contracts u v) :
    Standard t v := by
  obtain ⟨path, contracts⟩ := contracts
  induction contracts generalizing t with
  | redex => exact standard.contract
  | abs _ ih =>
    cases standard with
    | abs head body => exact .abs head (ih body)
  | function _ _ ih =>
    cases standard with
    | app head function argument => exact .app head (ih function) argument
  | argument _ _ ih =>
    cases standard with
    | app head function argument => exact .app head function (ih argument)

/-- Any reduction can be put in standard order. -/
theorem standard_of_reduces {t u : Nameless} (reduces : ReflTransGen Contracts t u) :
    Standard t u := by
  induction reduces with
  | refl => exact .refl t
  | tail _ contracts ih => exact ih.then contracts

abbrev ReducesFirst : Nameless → Nameless → Prop := ReflTransGen ContractsFirst

/-- A head step contracts the redex that is read first. -/
theorem HeadStep.first {t u : Nameless} (step : HeadStep t u) : ContractsFirst t u := by
  induction step with
  | redex body argument => exact contractsFirst_redex body argument
  | function argument step ih =>
    refine contractsFirst_function argument ?_ ih
    rintro body rfl
    cases step

theorem ContractsFirst.abs_inv {t u : Nameless} (first : ContractsFirst (.abs t) u) :
    ∃ body, u = .abs body := by
  obtain ⟨path, contracts⟩ := first.contracts
  cases contracts with
  | abs => exact ⟨_, rfl⟩

/-- Nothing that an abstraction reduces to applies it, so a function that ends up as something
else is no abstraction on the way. -/
theorem ReducesFirst.function {t u : Nameless} (reduces : ReducesFirst t u) (argument : Nameless)
    (notAbs : ∀ body, u ≠ .abs body) :
    ReducesFirst (.app t argument) (.app u argument) := by
  induction reduces with
  | refl => exact .refl
  | @tail v w _ step ih =>
    have before : ∀ body, v ≠ .abs body := by
      rintro body rfl
      obtain ⟨after, same⟩ := step.abs_inv
      exact notAbs after same
    exact (ih before).tail (contractsFirst_function argument before step)

theorem ReducesFirst.argument {function t u : Nameless} (notAbs : ∀ body, function ≠ .abs body)
    (normal : function.IsNormal) (reduces : ReducesFirst t u) :
    ReducesFirst (.app function t) (.app function u) := by
  induction reduces with
  | refl => exact .refl
  | tail _ step ih => exact ih.tail (contractsFirst_argument notAbs normal step)

theorem ReducesFirst.abs {t u : Nameless} (reduces : ReducesFirst t u) :
    ReducesFirst (.abs t) (.abs u) := by
  induction reduces with
  | refl => exact .refl
  | tail _ step ih => exact ih.tail (contractsFirst_abs step)

theorem HeadSteps.first {t u : Nameless} (steps : HeadSteps t u) : ReducesFirst t u := by
  induction steps with
  | refl => exact .refl
  | tail _ step ih => exact ih.tail step.first

/-- Where the result is normal, a standard reduction has contracted first redexes only: what it left
alone has no redex to come back to. -/
theorem Standard.first {t u : Nameless} (standard : Standard t u) (normal : u.IsNormal) :
    ReducesFirst t u := by
  induction standard with
  | bound head => exact HeadSteps.first head
  | free head => exact HeadSteps.first head
  | abs head _ ih =>
    have body := ih (isNormal_abs.1 normal)
    exact (HeadSteps.first head).trans (ReducesFirst.abs body)
  | @app t f g a b head _ _ ihf iha =>
    obtain ⟨notAbs, normalFunction, normalArgument⟩ := isNormal_app.1 normal
    have function := ReducesFirst.function (ihf normalFunction) a notAbs
    have argument := ReducesFirst.argument notAbs normalFunction (iha normalArgument)
    exact ((HeadSteps.first head).trans function).trans argument

/-- First redexes leave no choice, so they lead to one normal form at most. -/
theorem ReducesFirst.normal_unique {t u v : Nameless} (left : ReducesFirst t u)
    (right : ReducesFirst t v) (normalLeft : u.IsNormal) (normalRight : v.IsNormal) : u = v := by
  induction left using ReflTransGen.head_induction_on with
  | refl =>
    cases right.cases_head with
    | inl same => exact same
    | inr more =>
      obtain ⟨w, first, _⟩ := more
      exact absurd first.contracts (normalLeft w)
  | head first _ ih =>
    cases right.cases_head with
    | inl same => exact absurd (same ▸ first.contracts) (normalRight _)
    | inr more =>
      obtain ⟨w, firstToo, rest⟩ := more
      exact ih (first.unique firstToo ▸ rest)

/-- **Leftmost reduction is normalizing.** If a term reduces to a normal form in any way, it does
so by contractions of first redexes. -/
theorem first_of_reduces {t u : Nameless} (reduces : ReflTransGen Contracts t u)
    (normal : u.IsNormal) : ReducesFirst t u := by
  have standard : Standard t u := standard_of_reduces reduces
  exact standard.first normal

end Nameless

end Redex
