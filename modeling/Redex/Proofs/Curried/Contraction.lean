import Redex.Proofs.Curried.Simulation
import Redex.Proofs.Path

/-!
# Contraction in any place

A redex of a named term can be contracted wherever it stands, by a substitution in its body. What
this does to the nameless form is a contraction at the same place.

* `ContractsAt.namelessIn`: a contraction goes over to the nameless form.
* `Step.contracts`: a step is one of the contractions that a term has.
-/

namespace Redex

namespace Curried

inductive ContractsAt : Path → Curried → Curried → Prop where
  | redex (x : String) (b a : Curried) : ContractsAt [] (.app (.abs x b) a) (b.subst x a)
  | abs {path : Path} (x : String) {t u : Curried} :
    ContractsAt path t u → ContractsAt (0 :: path) (.abs x t) (.abs x u)
  | function {path : Path} {t u : Curried} (a : Curried) :
    ContractsAt path t u → ContractsAt (0 :: path) (.app t a) (.app u a)
  | argument {path : Path} (f : Curried) {t u : Curried} :
    ContractsAt path t u → ContractsAt (1 :: path) (.app f t) (.app f u)

def Contracts (t u : Curried) : Prop := ∃ path, ContractsAt path t u

def IsNormal (t : Curried) : Prop := ∀ u, ¬ Contracts t u

/-- A contraction is one of the nameless terms at the same path: no name in it is captured. -/
theorem ContractsAt.namelessIn {path : Path} {t u : Curried} (contracts : ContractsAt path t u)
    (scope : List String) :
    Nameless.ContractsAt path (t.namelessIn scope) (u.namelessIn scope) := by
  induction contracts generalizing scope with
  | redex x b a =>
    rw [namelessIn_subst]
    exact .redex _ _
  | abs x _ ih => exact .abs (ih _)
  | function a _ ih => exact .function _ (ih scope)
  | argument f _ ih => exact .argument _ (ih scope)

theorem Step.contracts {t u : Curried} (step : Step t u) : Contracts t u := by
  induction step with
  | redex x b a => exact ⟨_, .redex x b a⟩
  | abs x _ ih =>
    obtain ⟨path, contracts⟩ := ih
    exact ⟨_, .abs x contracts⟩
  | function a _ _ ih =>
    obtain ⟨path, contracts⟩ := ih
    exact ⟨_, .function a contracts⟩
  | argument _ _ _ ih =>
    obtain ⟨path, contracts⟩ := ih
    exact ⟨_, .argument _ contracts⟩

/-- A term without a redex has no step to take. -/
theorem IsNormal.step? {t : Curried} (normal : t.IsNormal) : t.step? = none := by
  cases step : t.step? with
  | none => rfl
  | some u => exact absurd (step?_eq_some_iff.1 step).contracts (normal u)

end Curried

end Redex
