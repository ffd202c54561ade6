import Redex.Curried.Reduction
import Redex.Proofs.Curried.Substitution
import Redex.Proofs.Nameless.Reduction
import Mathlib.Data.Option.Basic

/-!
# Steps without names

A step of a named term is the contraction of the first redex of its nameless form. The names that
a step invents do not matter to the steps that come after it.

* `step?_eq_some_iff`: the rules of a step, one for each place where it can be.
* `contractsFirst_of_step?`, `isNormal_of_step?`: what a step does to the nameless form, and what
  it says of it when there is none.
* `step?_simulates`: steps of named terms are contractions of first redexes of nameless terms.
-/

namespace Redex

namespace Curried

/-- The term after so many steps, or nothing if it is normal before that. -/
def steps? : (count : Nat) → (term : Curried) → Option Curried
  | 0, term => some term
  | count + 1, term => term.step?.bind (steps? count)

section

variable {t u : Curried}

theorem namelessIn_ne_abs (notAbs : ∀ x b, t ≠ .abs x b) (scope : List String)
    (body : Nameless) : t.namelessIn scope ≠ .abs body := by
  cases t with
  | var x => exact resolve_ne_abs scope x body
  | abs x b => exact absurd rfl (notAbs x b)
  | app => exact Nameless.noConfusion

theorem exists_abs_or (t : Curried) : (∃ x b, t = .abs x b) ∨ ∀ x b, t ≠ .abs x b := by
  cases t with
  | abs x b => exact .inl ⟨x, b, rfl⟩
  | var | app => exact .inr nofun

theorem contract?_of_not_abs (notAbs : ∀ x b, t ≠ .abs x b) : (app t u).contract? = none := by
  cases t with
  | abs x b => exact absurd rfl (notAbs x b)
  | var | app => rfl

theorem step?_app_eq_some {v : Curried} (notAbs : ∀ x b, t ≠ .abs x b) :
    (app t u).step? = some v ↔
      (∃ t', t.step? = some t' ∧ v = .app t' u) ∨
        t.step? = none ∧ ∃ u', u.step? = some u' ∧ v = .app t u' := by
  rw [step?_app (contract?_of_not_abs notAbs)]
  cases t.step? <;> cases u.step? <;> simp [eq_comm]

theorem step?_app_eq_none (notAbs : ∀ x b, t ≠ .abs x b) :
    (app t u).step? = none ↔ t.step? = none ∧ u.step? = none := by
  rw [step?_app (contract?_of_not_abs notAbs)]
  cases t.step? <;> cases u.step? <;> simp

end

theorem isNormal_of_step? {t : Curried} (done : t.step? = none) (scope : List String) :
    (t.namelessIn scope).IsNormal := by
  induction t generalizing scope with
  | var x =>
    rintro u ⟨path, contracts⟩
    generalize same : (var x).namelessIn scope = v at contracts
    cases contracts with
    | abs => exact resolve_ne_abs scope x _ same
    | redex | function | argument => exact resolve_ne_app scope x _ _ same
  | abs x b ih => exact Nameless.isNormal_abs.2 (ih (Option.map_eq_none_iff.1 done) _)
  | app f a ihf iha =>
    have notAbs : ∀ x b, f ≠ .abs x b := by
      rintro x b rfl
      cases done
    obtain ⟨function, argument⟩ := (step?_app_eq_none notAbs).1 done
    exact Nameless.isNormal_app.2
      ⟨namelessIn_ne_abs notAbs scope, ihf function scope, iha argument scope⟩

/-- The rules of a step: what it contracts in a term of each shape. -/
inductive Step : Curried → Curried → Prop where
  | redex (x : String) (b a : Curried) : Step (.app (.abs x b) a) (b.subst x a)
  | abs (x : String) {b c : Curried} : Step b c → Step (.abs x b) (.abs x c)
  | function {f g : Curried} (a : Curried) :
    (∀ x b, f ≠ .abs x b) → Step f g → Step (.app f a) (.app g a)
  | argument {f a b : Curried} :
    (∀ x b, f ≠ .abs x b) → f.step? = none → Step a b → Step (.app f a) (.app f b)

/-- The rules of a step say all that the search for a redex does. -/
theorem step?_eq_some_iff {t u : Curried} : t.step? = some u ↔ Step t u := by
  constructor
  · intro step
    induction t generalizing u with
    | var x => cases step
    | abs x b ih =>
      obtain ⟨c, inner, rfl⟩ := Option.map_eq_some_iff.1 step
      exact .abs x (ih inner)
    | app f a ihf iha =>
      rcases exists_abs_or f with ⟨x, b, rfl⟩ | notAbs
      · rw [step?_redex] at step
        cases step
        exact .redex x b a
      · rcases (step?_app_eq_some notAbs).1 step with ⟨g, inner, rfl⟩ | ⟨done, b, inner, rfl⟩
        · exact .function a notAbs (ihf inner)
        · exact .argument notAbs done (iha inner)
  · intro step
    induction step with
    | redex x b a => exact step?_redex
    | abs x _ ih => exact Option.map_eq_some_iff.2 ⟨_, ih, rfl⟩
    | function a notAbs _ ih => exact (step?_app_eq_some notAbs).2 (.inl ⟨_, ih, rfl⟩)
    | argument notAbs done _ ih =>
      exact (step?_app_eq_some notAbs).2 (.inr ⟨done, _, ih, rfl⟩)

theorem Step.contractsFirst {t u : Curried} (step : Step t u) (scope : List String) :
    Nameless.ContractsFirst (t.namelessIn scope) (u.namelessIn scope) := by
  induction step generalizing scope with
  | redex x b a =>
    rw [namelessIn_subst]
    exact Nameless.contractsFirst_redex _ _
  | abs x _ ih => exact Nameless.contractsFirst_abs (ih _)
  | function a notAbs _ ih =>
    exact Nameless.contractsFirst_function _ (namelessIn_ne_abs notAbs scope) (ih scope)
  | argument notAbs done _ ih =>
    exact Nameless.contractsFirst_argument (namelessIn_ne_abs notAbs scope)
      (isNormal_of_step? done scope) (ih scope)

theorem contractsFirst_of_step? {t u : Curried} (step : t.step? = some u) :
    Nameless.ContractsFirst t.nameless u.nameless :=
  (step?_eq_some_iff.1 step).contractsFirst []

/-- A term stops where its nameless form has no redex, and nowhere else. -/
theorem step?_eq_none_iff {t : Curried} : t.step? = none ↔ t.nameless.IsNormal := by
  constructor
  · intro done
    exact isNormal_of_step? done []
  · intro normal
    cases step : t.step? with
    | none => rfl
    | some u => exact absurd (contractsFirst_of_step? step).contracts (normal _)

/-- Whatever first redex the nameless form has, a step contracts it. -/
theorem step?_of_contractsFirst {t : Curried} {v : Nameless}
    (first : Nameless.ContractsFirst t.nameless v) : ∃ u, t.step? = some u ∧ u.nameless = v := by
  cases step : t.step? with
  | none => exact absurd first.contracts (step?_eq_none_iff.1 step v)
  | some u => exact ⟨u, rfl, (contractsFirst_of_step? step).unique first⟩

theorem step?_alpha {t t' : Curried} (alpha : Alpha t t') :
    Option.Rel Alpha t.step? t'.step? := by
  have same := alpha_iff.1 alpha
  cases step : t.step? with
  | none =>
    rw [step?_eq_none_iff.2 (same ▸ step?_eq_none_iff.1 step)]
    exact .none
  | some u =>
    have first : Nameless.ContractsFirst t'.nameless u.nameless :=
      same ▸ contractsFirst_of_step? step
    obtain ⟨u', step', same'⟩ := step?_of_contractsFirst first
    rw [step']
    exact .some (alpha_iff.2 same'.symm)

/-- Names of parameters make no difference for any number of steps. -/
theorem steps?_alpha (count : Nat) {t t' : Curried} (alpha : Alpha t t') :
    Option.Rel Alpha (t.steps? count) (t'.steps? count) := by
  induction count generalizing t t' with
  | zero => exact .some alpha
  | succ count ih =>
    have first := step?_alpha alpha
    rw [steps?, steps?]
    generalize t.step? = next at first
    generalize t'.step? = next' at first
    cases first with
    | none => exact .none
    | some alpha => exact ih alpha

/-- **Steps simulate nameless reduction.** A term has no step if and only if its nameless form is
normal, and a step is the contraction of the first redex of the nameless form. So terms that differ
only in names of parameters take the same number of steps and never differ in anything else. -/
theorem step?_simulates (t : Curried) :
    (t.step? = none ↔ t.nameless.IsNormal) ∧
      (∀ u, t.step? = some u →
        ∀ v, Nameless.ContractsFirst t.nameless v ↔ v = u.nameless) ∧
      ∀ t', Alpha t t' → ∀ count, Option.Rel Alpha (t.steps? count) (t'.steps? count) := by
  refine ⟨step?_eq_none_iff, ?_, fun t' alpha count => steps?_alpha count alpha⟩
  intro u step v
  have first := contractsFirst_of_step? step
  constructor
  · intro other
    exact other.unique first
  · rintro rfl
    exact first

end Curried

end Redex
