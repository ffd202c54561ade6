import Redex.Proofs.Curried.Simulation

/-!
# Free names along steps

A substitution has the free names of the term but for the one that is replaced, and those of the
replacement if that name was there to be replaced. So a step can lose free names, as a redex can
drop its argument, and never finds new ones.

* `mem_freeNames_subst`: when a name is free in a substitution, whatever had to be renamed.
* `freeNames_subst`: the free names of a substitution as a set.
* `Step.freeNames_subset`: the free names of a term after a step.
-/

namespace Redex

namespace Curried

theorem mem_freeNames_subst (t : Curried) (x : String) (s : Curried) : ∀ name,
    name ∈ (t.subst x s).freeNames ↔
      name ∈ t.freeNames ∧ name ≠ x ∨ x ∈ t.freeNames ∧ name ∈ s.freeNames := by
  induction t, x, s using subst_induction with
  | var y x s =>
    intro name
    rw [subst_var]
    split
    · rename_i same
      simp [same]
    · rename_i other
      simp only [mem_freeNames_var]
      grind
  | app t u x s iht ihu =>
    intro name
    rw [subst_app]
    simp only [mem_freeNames_app, iht, ihu]
    grind
  | bound t x s =>
    intro name
    rw [subst_abs_self]
    simp
  | inside y t x s ne unused ih =>
    intro name
    have apart : name ∈ s.freeNames → name ≠ y := fun mem same => unused (same ▸ mem)
    rw [subst_abs_of_not_mem ne unused]
    simp only [mem_freeNames_abs, ih]
    grind
  | renamed y t x s ne free ihy ihx =>
    intro name
    obtain ⟨notName, notReplacement, notBody⟩ := freshParameter_spec y t x s
    rw [subst_abs_of_mem ne free]
    generalize freshParameter y t x s = z at *
    -- the new parameter is free nowhere, so binding it hides no name that was there before
    have apart : name ∈ s.freeNames → name ≠ z := fun mem same => notReplacement (same ▸ mem)
    have apartBody : name ∈ t.freeNames → name ≠ z := fun mem same => notBody (same ▸ mem)
    simp only [mem_freeNames_abs, ihx, ihy, mem_freeNames_var]
    grind

/-- **Which names a substitution leaves free.** If the name is free in the term, they are the others
that are free there and those of the replacement; if it is not, they are those of the term. Either
way it is the same increasing list, whatever had to be renamed. -/
theorem freeNames_subst (t : Curried) (x : String) (s : Curried) :
    (t.subst x s).freeNames =
      if x ∈ t.freeNames then (t.freeNames.difference (.singleton x)).union s.freeNames
      else t.freeNames := by
  apply NameSet.ext
  intro name
  rw [mem_freeNames_subst]
  by_cases free : x ∈ t.freeNames
  · simp only [free, true_and, ↓reduceIte, NameSet.mem_union, NameSet.mem_difference,
      NameSet.mem_singleton]
  · -- the name that is replaced is not among the free ones, so none of them is taken away
    have other : name ∈ t.freeNames → name ≠ x := fun mem same => free (same ▸ mem)
    simp only [free, false_and, or_false, ↓reduceIte]
    exact and_iff_left_of_imp other

/-- A step can lose free names, with an argument that is dropped, but brings no new ones. -/
theorem Step.freeNames_subset {t u : Curried} (step : Step t u) : u.freeNames ⊆ t.freeNames := by
  induction step with
  | redex x b a =>
    intro name mem
    rw [mem_freeNames_app, mem_freeNames_abs]
    exact ((mem_freeNames_subst b x a name).1 mem).imp_right And.right
  | abs x _ ih =>
    intro name mem
    rw [mem_freeNames_abs] at mem ⊢
    exact mem.imp_left (ih name)
  | function a _ _ ih =>
    intro name mem
    rw [mem_freeNames_app] at mem ⊢
    exact mem.imp_left (ih name)
  | argument _ _ _ ih =>
    intro name mem
    rw [mem_freeNames_app] at mem ⊢
    exact mem.imp_right (ih name)

end Curried

end Redex
