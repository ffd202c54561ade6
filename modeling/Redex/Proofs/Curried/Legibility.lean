import Redex.Proofs.Curried.Simulation
import Redex.Proofs.Name

/-!
# Legible terms

A term is legible if all its names can be written, those of its parameters as well as those of its
variables. Steps keep it so: the only names that they invent are numbered ones.

* `IsLegible.subst`: a substitution of legible terms is legible.
* `IsLegible.steps?`: so is every term that steps lead to from a legible one.
-/

namespace Redex

namespace Curried

def names : Curried → List String
  | .var name => [name]
  | .abs parameter body => parameter :: body.names
  | .app function argument => function.names ++ argument.names

def IsLegible (term : Curried) : Prop := ∀ name ∈ term.names, IsName name

section

variable {x : String} {t u : Curried}

@[simp] theorem isLegible_var : (var x).IsLegible ↔ IsName x := by simp [IsLegible, names]

@[simp] theorem isLegible_abs : (abs x t).IsLegible ↔ IsName x ∧ t.IsLegible := by
  simp [IsLegible, names]

@[simp] theorem isLegible_app : (app t u).IsLegible ↔ t.IsLegible ∧ u.IsLegible := by
  simp [IsLegible, names, or_imp, forall_and]

end

/-- The names that a substitution puts in can be written, as they are names with a number behind
them. -/
theorem IsLegible.subst {t s : Curried} (x : String) (legible : t.IsLegible)
    (replacement : s.IsLegible) : (t.subst x s).IsLegible := by
  induction t, x, s using subst_induction with
  | var y x s =>
    rw [subst_var]
    split
    · exact replacement
    · exact legible
  | app t u x s iht ihu =>
    obtain ⟨left, right⟩ := isLegible_app.1 legible
    rw [subst_app]
    exact isLegible_app.2 ⟨iht left replacement, ihu right replacement⟩
  | bound t x s =>
    rw [subst_abs_self]
    exact legible
  | inside y t x s ne unused ih =>
    obtain ⟨parameter, body⟩ := isLegible_abs.1 legible
    rw [subst_abs_of_not_mem ne unused]
    exact isLegible_abs.2 ⟨parameter, ih body replacement⟩
  | renamed y t x s ne free ihy ihx =>
    obtain ⟨parameter, body⟩ := isLegible_abs.1 legible
    have other : IsName (freshParameter y t x s) := parameter.fresh _
    rw [subst_abs_of_mem ne free]
    exact isLegible_abs.2 ⟨other, ihx (ihy body (isLegible_var.2 other)) replacement⟩

theorem IsLegible.step {t u : Curried} (legible : t.IsLegible) (step : Step t u) :
    u.IsLegible := by
  induction step with
  | redex x b a =>
    obtain ⟨function, argument⟩ := isLegible_app.1 legible
    exact (isLegible_abs.1 function).2.subst x argument
  | abs x _ ih =>
    obtain ⟨parameter, body⟩ := isLegible_abs.1 legible
    exact isLegible_abs.2 ⟨parameter, ih body⟩
  | function a _ _ ih =>
    obtain ⟨function, argument⟩ := isLegible_app.1 legible
    exact isLegible_app.2 ⟨ih function, argument⟩
  | argument _ _ _ ih =>
    obtain ⟨function, argument⟩ := isLegible_app.1 legible
    exact isLegible_app.2 ⟨function, ih argument⟩

/-- Whatever a term becomes, it can be written if the term could. -/
theorem IsLegible.steps? {t u : Curried} (legible : t.IsLegible) {count : Nat}
    (steps : t.steps? count = some u) : u.IsLegible := by
  induction count generalizing t with
  | zero =>
    cases steps
    exact legible
  | succ count ih =>
    rw [Curried.steps?] at steps
    obtain ⟨next, step, rest⟩ := Option.bind_eq_some_iff.1 steps
    exact ih (legible.step (step?_eq_some_iff.1 step)) rest

end Curried

end Redex
