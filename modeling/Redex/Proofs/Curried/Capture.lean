import Redex.Proofs.Curried.Parts
import Redex.Proofs.Curried.Substitution

/-!
# Substitution without capture

If no parameter could capture anything, a substitution has nothing to rename, and all it does is to
copy the replacement to where the name is free. Only those parameters count that the substitution
goes past: it stops at an abstraction with the replaced name for its parameter.

* `part?_replaceFree`, `node_replaceFree`: what such a copying does in each place of a term.
* `subst_eq_replaceFree_iff`: when a substitution renames nothing, told exactly.
* `subst_var_self`: a name that is replaced by itself leaves the term as it is.
* `subst_without_renaming`: what this comes to if no parameter of the term is free in the
  replacement, or if nothing is.
-/

namespace Redex

namespace Curried

/-- A term with `replacement` copied to every free occurrence of a name. All parameters stay, even
those that capture a free name of the replacement. -/
def replaceFree : (term : Curried) → (name : String) → (replacement : Curried) → Curried
  | .var x, name, replacement => if x = name then replacement else .var x
  | .abs parameter body, name, replacement =>
    if parameter = name then .abs parameter body
    else .abs parameter (body.replaceFree name replacement)
  | .app function argument, name, replacement =>
    .app (function.replaceFree name replacement) (argument.replaceFree name replacement)

/-- Whether a path leads to a variable with this name that no abstraction around it binds. -/
inductive IsFreeAt (name : String) : Curried → Path → Prop where
  | var : IsFreeAt name (.var name) []
  | abs {parameter : String} {body : Curried} {path : Path} :
    parameter ≠ name → IsFreeAt name body path → IsFreeAt name (.abs parameter body) (0 :: path)
  | function {function : Curried} {path : Path} (argument : Curried) :
    IsFreeAt name function path → IsFreeAt name (.app function argument) (0 :: path)
  | argument (function : Curried) {argument : Curried} {path : Path} :
    IsFreeAt name argument path → IsFreeAt name (.app function argument) (1 :: path)

/-- The parameters of all abstractions in a term. -/
def parameters : Curried → List String
  | .var _ => []
  | .abs parameter body => parameter :: body.parameters
  | .app function argument => function.parameters ++ argument.parameters

/-- The parameters of the abstractions in a term that do not stand inside one with this name for its
parameter, and do not have it for their own. -/
def parametersPassed (name : String) : Curried → List String
  | .var _ => []
  | .abs parameter body =>
    if parameter = name then [] else parameter :: body.parametersPassed name
  | .app function argument => function.parametersPassed name ++ argument.parametersPassed name

/-- At every free occurrence there is a copy of the replacement. -/
theorem part?_replaceFree {x : String} {t : Curried} {path : Path} (free : IsFreeAt x t path)
    (s : Curried) : (t.replaceFree x s).part? path = some s := by
  induction free with
  | var => rw [replaceFree, if_pos rfl, part?]
  | abs ne _ ih =>
    rw [replaceFree, if_neg ne]
    exact ih
  | function _ _ ih => exact ih
  | argument _ _ ih => exact ih

/-- Everywhere else the term is what it was. -/
theorem node_replaceFree {x : String} {t u : Curried} {path : Path} (bound : ¬ IsFreeAt x t path)
    (leads : t.part? path = some u) (s : Curried) :
    ((t.replaceFree x s).part? path).map node = some u.node := by
  induction t generalizing path with
  | var y =>
    obtain ⟨rfl, rfl⟩ := part?_var_eq_some.1 leads
    have ne : y ≠ x := by
      rintro rfl
      exact bound .var
    rw [replaceFree, if_neg ne]
    rfl
  | abs y t ih =>
    unfold replaceFree
    by_cases same : y = x
    · rw [if_pos same, leads]
      rfl
    · rw [if_neg same]
      rcases part?_abs_eq_some.1 leads with ⟨rfl, rfl⟩ | ⟨rest, rfl, leads⟩
      · rfl
      · exact ih (fun free => bound (.abs same free)) leads
  | app f a ihf iha =>
    rcases part?_app_eq_some.1 leads with ⟨rfl, rfl⟩ | ⟨rest, rfl, leads⟩ | ⟨rest, rfl, leads⟩
    · rfl
    · exact ihf (fun free => bound (.function a free)) leads
    · exact iha (fun free => bound (.argument f free)) leads

theorem parametersPassed_subset (name : String) (t : Curried) :
    t.parametersPassed name ⊆ t.parameters := by
  induction t with
  | var x => exact List.Subset.refl []
  | abs y t ih =>
    unfold parametersPassed
    split
    · exact List.nil_subset _
    · exact List.cons_subset_cons y ih
  | app f a ihf iha =>
    intro y mem
    exact List.mem_append.2 ((List.mem_append.1 mem).imp (@ihf y) (@iha y))

theorem ne_of_mem_parametersPassed {name y : String} {t : Curried}
    (mem : y ∈ t.parametersPassed name) : y ≠ name := by
  induction t with
  | var x => cases mem
  | abs z t ih =>
    unfold parametersPassed at mem
    split at mem
    · cases mem
    case isFalse ne =>
      rcases List.mem_cons.1 mem with rfl | mem
      · exact ne
      · exact ih mem
  | app f a ihf iha => exact (List.mem_append.1 mem).elim ihf iha

/-- A substitution renames nothing if and only if no parameter that it goes past is free in the
replacement. -/
theorem subst_eq_replaceFree_iff {t : Curried} {x : String} {s : Curried} :
    t.subst x s = t.replaceFree x s ↔ ∀ y ∈ t.parametersPassed x, y ∉ s.freeNames := by
  induction t with
  | var y => exact iff_of_true subst_var (List.forall_mem_nil _)
  | abs y t ih =>
    unfold replaceFree parametersPassed
    by_cases same : y = x
    · subst same
      rw [if_pos rfl, if_pos rfl]
      exact iff_of_true subst_abs_self (List.forall_mem_nil _)
    · rw [if_neg same, if_neg same, List.forall_mem_cons]
      by_cases free : y ∈ s.freeNames
      · -- the parameter gives way to a fresh one, which is another name
        have other : freshParameter y t x s ≠ y := fun h =>
          (freshParameter_spec y t x s).2.1 (h.symm ▸ free)
        rw [subst_abs_of_mem same free, abs.injEq]
        exact iff_of_false (fun h => other h.1) (fun h => h.1 free)
      · rw [subst_abs_of_not_mem same free, abs.injEq, and_iff_right rfl, and_iff_right free]
        exact ih
  | app f a ihf iha =>
    rw [subst_app, replaceFree, parametersPassed, List.forall_mem_append, app.injEq, ihf, iha]

theorem replaceFree_var_self (t : Curried) (x : String) : t.replaceFree x (.var x) = t := by
  induction t with
  | var y =>
    unfold replaceFree
    split
    case isTrue same => rw [same]
    case isFalse => rfl
  | abs y t ih =>
    unfold replaceFree
    split
    · rfl
    · rw [ih]
  | app f a ihf iha => rw [replaceFree, ihf, iha]

/-- To put a name in its own place changes nothing, although the name is free in the replacement. -/
theorem subst_var_self (t : Curried) (x : String) : t.subst x (.var x) = t := by
  have plain : t.subst x (.var x) = t.replaceFree x (.var x) := by
    apply subst_eq_replaceFree_iff.2
    intro y mem free
    exact ne_of_mem_parametersPassed mem (mem_freeNames_var.1 free)
  rw [plain, replaceFree_var_self]

/-- **Nothing is renamed without need.** If no parameter of a term is free in the replacement, or if
nothing is, a substitution copies the replacement to the free occurrences of the name and leaves
every other variable, parameter and application as it is. -/
theorem subst_without_renaming (x : String) (s : Curried) :
    (∀ t : Curried, (∀ y ∈ t.parameters, y ∉ s.freeNames) → t.subst x s = t.replaceFree x s) ∧
      (s.freeNames = .empty → ∀ t : Curried, t.subst x s = t.replaceFree x s) ∧
      ∀ (t : Curried) (path : Path),
        (IsFreeAt x t path → (t.replaceFree x s).part? path = some s) ∧
          (¬ IsFreeAt x t path → ∀ u, t.part? path = some u →
            ((t.replaceFree x s).part? path).map node = some u.node) := by
  refine ⟨?_, ?_, fun t path => ⟨?_, ?_⟩⟩
  · intro t apart
    apply subst_eq_replaceFree_iff.2
    intro y mem
    exact apart y (parametersPassed_subset x t mem)
  · intro closed t
    apply subst_eq_replaceFree_iff.2
    intro y _
    rw [closed]
    exact NameSet.not_mem_empty
  · intro free
    exact part?_replaceFree free s
  · intro bound u leads
    exact node_replaceFree bound leads s

/-- The replaced name is free in the term and a parameter in it as well, and the term and the
replacements have a parameter in common. -/
theorem subst_without_renaming_shadowed :
    let t := abs "y" (.app (.app (.var "x") (.var "y")) (.abs "x" (.var "x")))
    let s := abs "y" (.app (.var "y") (.var "z"))
    let closed := abs "y" (.var "y")
    (∀ y ∈ t.parameters, y ∉ s.freeNames) ∧ closed.freeNames = .empty ∧
      t.subst "x" s = abs "y" (.app (.app s (.var "y")) (.abs "x" (.var "x"))) ∧
      t.subst "x" closed = abs "y" (.app (.app closed (.var "y")) (.abs "x" (.var "x"))) := by
  intro t s closed
  have apart : ∀ y ∈ t.parameters, y ∉ s.freeNames := by simp [t, s, parameters]
  have noNames : closed.freeNames = .empty := by cbv
  refine ⟨apart, noNames, ?_, ?_⟩
  · exact ((subst_without_renaming "x" s).1 t apart).trans rfl
  · exact ((subst_without_renaming "x" closed).2.1 noNames t).trans rfl

end Curried

end Redex
