import Redex.Proofs.Nameless.Basic
import Redex.Proofs.Path

/-!
# Reduction of nameless terms

A redex is an abstraction applied to an argument, and it can be contracted wherever it stands. The
first redex of a term, in the order of reading, is the leftmost of its outermost ones.

* `ContractsFirst.unique`: a term has at most one first redex.
* `contractsFirst_abs`, `contractsFirst_function`, `contractsFirst_argument`: where the first redex
  of a term is, when it is not the term itself.
-/

namespace Redex

namespace Nameless

inductive ContractsAt : Path → Nameless → Nameless → Prop where
  | redex (body argument : Nameless) :
    ContractsAt [] (.app (.abs body) argument) (body.instantiate argument)
  | abs {path : Path} {t u : Nameless} :
    ContractsAt path t u → ContractsAt (0 :: path) (.abs t) (.abs u)
  | function {path : Path} {t u : Nameless} (argument : Nameless) :
    ContractsAt path t u → ContractsAt (0 :: path) (.app t argument) (.app u argument)
  | argument {path : Path} (function : Nameless) {t u : Nameless} :
    ContractsAt path t u → ContractsAt (1 :: path) (.app function t) (.app function u)

def Contracts (t u : Nameless) : Prop := ∃ path, ContractsAt path t u

def IsNormal (t : Nameless) : Prop := ∀ u, ¬ Contracts t u

/-- Contraction of the redex before which there is no other. -/
def ContractsFirst (t u : Nameless) : Prop :=
  ∃ path, ContractsAt path t u ∧ ∀ other v, ContractsAt other t v → path.NotAfter other

/-- There is one redex at a path, and one way to contract it. -/
theorem ContractsAt.unique {path : Path} {t u v : Nameless} (left : ContractsAt path t u)
    (right : ContractsAt path t v) : u = v := by
  induction left generalizing v with
  | redex => cases right; rfl
  | abs _ ih =>
    cases right with
    | abs right => rw [ih right]
  | function _ _ ih =>
    cases right with
    | function _ right => rw [ih right]
  | argument _ _ ih =>
    cases right with
    | argument _ right => rw [ih right]

/-- First contraction is a function: two paths that are read first are one path. -/
theorem ContractsFirst.unique {t u v : Nameless} (left : ContractsFirst t u)
    (right : ContractsFirst t v) : u = v := by
  obtain ⟨path, atPath, first⟩ := left
  obtain ⟨other, atOther, firstOther⟩ := right
  have same : path = other := (first other v atOther).antisymm (firstOther path u atPath)
  subst same
  exact atPath.unique atOther

theorem ContractsFirst.contracts {t u : Nameless} (first : ContractsFirst t u) : Contracts t u := by
  obtain ⟨path, atPath, _⟩ := first
  exact ⟨path, atPath⟩

theorem contractsFirst_redex (body argument : Nameless) :
    ContractsFirst (.app (.abs body) argument) (body.instantiate argument) :=
  ⟨[], .redex body argument, fun other _ _ => .outside other⟩

theorem contractsFirst_abs {t u : Nameless} (first : ContractsFirst t u) :
    ContractsFirst (.abs t) (.abs u) := by
  obtain ⟨path, atPath, least⟩ := first
  refine ⟨0 :: path, .abs atPath, ?_⟩
  intro other v contracts
  cases contracts with
  | abs contracts => exact .inside 0 (least _ _ contracts)

theorem contractsFirst_function {t u : Nameless} (argument : Nameless)
    (notAbs : ∀ body, t ≠ .abs body) (first : ContractsFirst t u) :
    ContractsFirst (.app t argument) (.app u argument) := by
  obtain ⟨path, atPath, least⟩ := first
  refine ⟨0 :: path, .function argument atPath, ?_⟩
  intro other v contracts
  cases contracts with
  | redex body => exact absurd rfl (notAbs body)
  | function _ contracts => exact .inside 0 (least _ _ contracts)
  | argument => exact .earlier path _ Nat.zero_lt_one

/-- The argument has its turn when the function is normal, and is no abstraction that would make a
redex with it. -/
theorem contractsFirst_argument {function t u : Nameless} (notAbs : ∀ body, function ≠ .abs body)
    (normal : function.IsNormal) (first : ContractsFirst t u) :
    ContractsFirst (.app function t) (.app function u) := by
  obtain ⟨path, atPath, least⟩ := first
  refine ⟨1 :: path, .argument function atPath, ?_⟩
  intro other v contracts
  cases contracts with
  | redex body => exact absurd rfl (notAbs body)
  | function _ contracts => exact absurd ⟨_, contracts⟩ (normal _)
  | argument _ contracts => exact .inside 1 (least _ _ contracts)

theorem isNormal_abs {t : Nameless} : (abs t).IsNormal ↔ t.IsNormal := by
  constructor
  · rintro normal u ⟨path, contracts⟩
    exact normal (.abs u) ⟨_, .abs contracts⟩
  · rintro normal u ⟨path, contracts⟩
    cases contracts with
    | abs contracts => exact normal _ ⟨_, contracts⟩

theorem isNormal_app {t u : Nameless} :
    (app t u).IsNormal ↔ (∀ body, t ≠ .abs body) ∧ t.IsNormal ∧ u.IsNormal := by
  constructor
  · intro normal
    refine ⟨?_, ?_, ?_⟩
    · rintro body rfl
      exact normal _ ⟨[], .redex body u⟩
    · rintro v ⟨path, contracts⟩
      exact normal _ ⟨_, .function u contracts⟩
    · rintro v ⟨path, contracts⟩
      exact normal _ ⟨_, .argument t contracts⟩
  · rintro ⟨notAbs, left, right⟩ v ⟨path, contracts⟩
    cases contracts with
    | redex body => exact notAbs body rfl
    | function _ contracts => exact left _ ⟨_, contracts⟩
    | argument _ contracts => exact right _ ⟨_, contracts⟩

end Nameless

end Redex
