import Redex.Proofs.Curried.Contraction
import Redex.Proofs.Nameless.Standardization

/-!
# Steps find normal forms

Steps are taken in one order only, that of the first redex, and a term can have parts that go on
for ever. Still no normal form is missed: if one can be found by contracting redexes in any order
at all, steps find it, and there is no other.

* `steps?_normalizes`: steps reach the normal form of every term that has one.
-/

namespace Redex

namespace Curried

open Relation

/-- A contraction anywhere in a term, or a change of the names of its parameters. -/
def Moves (t u : Curried) : Prop := Alpha t u ∨ Contracts t u

/-- A change of names is no move of the nameless term at all. -/
theorem reduces_nameless {t u : Curried} (reduces : ReflTransGen Moves t u) :
    ReflTransGen Nameless.Contracts t.nameless u.nameless := by
  induction reduces with
  | refl => exact .refl
  | tail _ move ih =>
    rcases move with alpha | ⟨path, contracts⟩
    · exact alpha_iff.1 alpha ▸ ih
    · exact ih.tail ⟨path, contracts.namelessIn []⟩

/-- Every contraction of a first redex of the nameless term is a step of the term. -/
theorem steps?_of_reducesFirst {t : Curried} {v : Nameless}
    (reduces : Nameless.ReducesFirst t.nameless v) :
    ∃ count u, t.steps? count = some u ∧ u.nameless = v := by
  generalize same : t.nameless = w at reduces
  induction reduces using ReflTransGen.head_induction_on generalizing t with
  | refl => exact ⟨0, t, rfl, same⟩
  | head first _ ih =>
    obtain ⟨t', step, same'⟩ := step?_of_contractsFirst (same ▸ first)
    obtain ⟨count, u, steps, result⟩ := ih same'
    refine ⟨count + 1, u, ?_, result⟩
    rw [steps?, step]
    exact steps

/-- **Steps find the normal form.** If a term can be brought to a normal form by contractions in
any order, up to names of parameters, then so many steps lead to a term that has no step, which is
that normal form up to names of parameters; and the term has no other. -/
theorem steps?_normalizes {t n : Curried} (reduces : ReflTransGen Moves t n) (normal : n.IsNormal) :
    (∃ count u, t.steps? count = some u ∧ u.step? = none ∧ Alpha u n) ∧
      ∀ m, ReflTransGen Moves t m → m.IsNormal → Alpha m n := by
  have reached {n : Curried} (reduces : ReflTransGen Moves t n) (normal : n.IsNormal) :
      Nameless.ReducesFirst t.nameless n.nameless :=
    Nameless.first_of_reduces (reduces_nameless reduces) (step?_eq_none_iff.1 normal.step?)
  constructor
  · obtain ⟨count, u, steps, same⟩ := steps?_of_reducesFirst (reached reduces normal)
    refine ⟨count, u, steps, ?_, alpha_iff.2 same⟩
    rw [step?_eq_none_iff, same]
    exact step?_eq_none_iff.1 normal.step?
  · intro m reducesToo normalToo
    rw [alpha_iff]
    exact Nameless.ReducesFirst.normal_unique (reached reducesToo normalToo)
      (reached reduces normal) (step?_eq_none_iff.1 normalToo.step?)
      (step?_eq_none_iff.1 normal.step?)

/-- A term without a normal form: all that it contracts to is itself. -/
def endless : Curried :=
  .app (.abs "x" (.app (.var "x") (.var "x"))) (.abs "x" (.app (.var "x") (.var "x")))

/-- The argument here is contracted once before it is dropped, which steps never do. -/
theorem steps?_normalizes_dropped :
    let identity := Curried.abs "y" (.var "y")
    let t := Curried.app (.abs "x" identity) endless
    ReflTransGen Moves t identity ∧ identity.IsNormal ∧
      (∃ count u, t.steps? count = some u ∧ u.step? = none ∧ Alpha u identity) ∧
      ∀ m, ReflTransGen Moves t m → m.IsNormal → Alpha m identity := by
  intro identity t
  have inside : Contracts t t := by
    have redex := ContractsAt.redex "x" (.app (.var "x") (.var "x"))
      (.abs "x" (.app (.var "x") (.var "x")))
    rw [subst_app, subst_var, if_pos rfl] at redex
    exact ⟨_, .argument _ redex⟩
  have dropped : Contracts t identity := by
    have redex := ContractsAt.redex "x" identity endless
    rw [subst_abs_of_not_mem (by decide) (by simp [endless]), subst_var,
      if_neg (by decide)] at redex
    exact ⟨_, redex⟩
  have reduces : ReflTransGen Moves t identity :=
    (ReflTransGen.single (.inr inside)).tail (.inr dropped)
  have normal : identity.IsNormal := by
    rintro u ⟨path, contracts⟩
    change ContractsAt path (.abs "y" (.var "y")) u at contracts
    cases contracts with
    | abs _ inner => cases inner
  exact ⟨reduces, normal, steps?_normalizes reduces normal⟩

end Curried

end Redex
