import Redex.Currying

/-!
# Free names of written terms

The free names of a written term are told from its lists as a whole, those of its curried form from
one parameter and one argument at a time. The two sets are one.

* `mem_freeNames_abs`, `mem_freeNames_app`: when a name is free in a written term.
* `freeNames_curry`: currying leaves the free names as they are.
-/

namespace Redex

theorem Curried.mem_freeNames_foldr_abs {name : String} {parameters : List String}
    {body : Curried} :
    name ∈ (parameters.foldr abs body).freeNames ↔ name ∈ body.freeNames ∧ name ∉ parameters := by
  induction parameters with
  | nil => simp
  | cons parameter rest ih =>
    rw [List.foldr_cons, mem_freeNames_abs, ih, List.mem_cons, not_or, and_assoc]
    exact and_congr_right fun _ => and_comm

namespace Term

section

variable {name : String} {parameters : List String} {function body : Term} {terms : List Term}

theorem mem_addFreeNames {names : NameSet} :
    name ∈ addFreeNames names terms ↔ name ∈ names ∨ ∃ term ∈ terms, name ∈ term.freeNames := by
  induction terms generalizing names with
  | nil => simp [addFreeNames]
  | cons term rest ih =>
    rw [addFreeNames, ih, NameSet.mem_union, or_assoc]
    simp

theorem mem_freeNames_abs :
    name ∈ (abs parameters body).freeNames ↔ name ∈ body.freeNames ∧ name ∉ parameters := by
  rw [freeNames, NameSet.mem_difference, NameSet.mem_ofList]

theorem mem_freeNames_app :
    name ∈ (app function terms).freeNames ↔
      name ∈ function.freeNames ∨ ∃ term ∈ terms, name ∈ term.freeNames := by
  rw [freeNames, mem_addFreeNames]

theorem mem_freeNames_applyTo {function : Curried} :
    name ∈ (applyTo function terms).freeNames ↔
      name ∈ function.freeNames ∨ ∃ term ∈ terms, name ∈ term.curry.freeNames := by
  induction terms generalizing function with
  | nil => simp [applyTo]
  | cons term rest ih =>
    rw [applyTo, ih, Curried.mem_freeNames_app, or_assoc]
    simp

end

theorem freeNames_curry (term : Term) : term.curry.freeNames = term.freeNames := by
  induction term with
  | var name => rfl
  | abs parameters body ih =>
    apply NameSet.ext
    intro name
    rw [curry, Curried.mem_freeNames_foldr_abs, mem_freeNames_abs, ih]
  | app function arguments ihf iha =>
    apply NameSet.ext
    intro name
    rw [curry, mem_freeNames_applyTo, mem_freeNames_app, ihf]
    refine or_congr_right (exists_congr fun argument => and_congr_right fun mem => ?_)
    rw [iha argument mem]

end Term

end Redex
