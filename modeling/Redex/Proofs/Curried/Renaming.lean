import Redex.Proofs.Curried.Capture

/-!
# Renaming of parameters

A parameter can be given any new name that is not free in the abstraction, and no other. The body
may bind the new name further inside; then those parameters are renamed in their turn.

* `Alpha.freeNames_eq`: alpha-equivalent terms have the same free names.
* `alpha_withParameter`: a parameter may be given a name that is not free.
* `subst_abs_eq_subst_withParameter`: a substitution renames a parameter before it goes on.
* `withParameter_alpha_iff`: which new names leave an abstraction what it is.
-/

namespace Redex

namespace Curried

/-- A free name has a free name of the other term for its partner. -/
theorem AlphaIn.exists_sameVariable {pairs : List (String × String)} {t u : Curried}
    (alpha : AlphaIn pairs t u) : ∀ x ∈ t.freeNames, ∃ y ∈ u.freeNames, SameVariable pairs x y := by
  induction alpha with
  | @var pairs x y same =>
    intro name free
    rw [mem_freeNames_var.1 free]
    exact ⟨y, mem_freeNames_var.2 rfl, same⟩
  | abs _ ih =>
    intro name free
    obtain ⟨inside, notParameter⟩ := mem_freeNames_abs.1 free
    obtain ⟨partner, freeToo, same⟩ := ih name inside
    cases same with
    | innermost => exact absurd rfl notParameter
    | outer _ apart same => exact ⟨partner, mem_freeNames_abs.2 ⟨freeToo, apart⟩, same⟩
  | app _ _ ihf iha =>
    intro name free
    rcases mem_freeNames_app.1 free with inside | inside
    · obtain ⟨partner, freeToo, same⟩ := ihf name inside
      exact ⟨partner, mem_freeNames_app.2 (.inl freeToo), same⟩
    · obtain ⟨partner, freeToo, same⟩ := iha name inside
      exact ⟨partner, mem_freeNames_app.2 (.inr freeToo), same⟩

theorem Alpha.symm {t u : Curried} (alpha : Alpha t u) : Alpha u t :=
  alpha_iff.2 (alpha_iff.1 alpha).symm

theorem Alpha.freeNames_subset {t u : Curried} (alpha : Alpha t u) :
    t.freeNames ⊆ u.freeNames := by
  intro name free
  obtain ⟨partner, freeToo, same⟩ := alpha.exists_sameVariable name free
  cases same
  exact freeToo

/-- Only variables that are bound change their names. -/
theorem Alpha.freeNames_eq {t u : Curried} (alpha : Alpha t u) : t.freeNames = u.freeNames := by
  apply NameSet.ext
  intro name
  exact ⟨alpha.freeNames_subset name, alpha.symm.freeNames_subset name⟩

/-- A parameter may have any name that is not free in the abstraction. -/
theorem alpha_withParameter {x y : String} {t : Curried} (fresh : y ∉ (abs x t).freeNames) :
    Alpha ((abs x t).withParameter y) (abs x t) := by
  apply alpha_iff.2
  rw [withParameter, nameless, nameless, namelessIn_eq_meaning, namelessIn_eq_meaning, meaning,
    meaning, meaning_subst]
  congr 1
  apply meaning_congr
  intro name free
  by_cases parameter : name = x
  · simp only [assign, valuesInside, if_pos parameter, meaning, if_true]
  · -- under the new parameter the name would be taken for it only if it were that name
    have other : name ≠ y := by
      rintro rfl
      exact fresh (mem_freeNames_abs.2 ⟨free, parameter⟩)
    simp only [assign, valuesInside, if_neg parameter, if_neg other]

theorem withParameter_self (x : String) (t : Curried) : (abs x t).withParameter x = abs x t := by
  rw [withParameter, subst_var_self]

theorem freshParameter_not_mem_freeNames_abs (x : String) (t : Curried) (name : String)
    (s : Curried) : freshParameter x t name s ∉ (abs x t).freeNames := by
  intro free
  exact (freshParameter_spec x t name s).2.2 (mem_freeNames_abs.1 free).1

/-- A substitution that has to rename is the same as a renaming and then a substitution that has
not. -/
theorem subst_abs_eq_subst_withParameter {x : String} {t : Curried} {name : String} {s : Curried}
    (ne : x ≠ name) (free : x ∈ s.freeNames) :
    (abs x t).subst name s =
      ((abs x t).withParameter (freshParameter x t name s)).subst name s := by
  obtain ⟨notName, unused, _⟩ := freshParameter_spec x t name s
  rw [subst_abs_of_mem ne free, withParameter, subst_abs_of_not_mem notName unused]

/-- **Which new names a parameter may have.** A new name for the parameter leaves an abstraction the
same up to names of parameters if and only if it is not free in the abstraction; the name that is
there already changes nothing at all. A substitution that has to rename a parameter first gives it
a name of this kind, and goes on in the abstraction that has the new name. -/
theorem withParameter_alpha_iff (x : String) (t : Curried) :
    (∀ y, ∃ body, (abs x t).withParameter y = abs y body ∧
        (Alpha (abs y body) (abs x t) ↔ y ∉ (abs x t).freeNames)) ∧
      (abs x t).withParameter x = abs x t ∧
      ∀ name s, freshParameter x t name s ∉ (abs x t).freeNames ∧
        (x ≠ name → x ∈ s.freeNames → (abs x t).subst name s =
          ((abs x t).withParameter (freshParameter x t name s)).subst name s) := by
  refine ⟨fun y => ⟨_, rfl, ?_⟩, withParameter_self x t, fun name s => ⟨?_, ?_⟩⟩
  · constructor
    · intro alpha free
      rw [← alpha.freeNames_eq, mem_freeNames_abs] at free
      exact free.2 rfl
    · exact alpha_withParameter
  · exact freshParameter_not_mem_freeNames_abs x t name s
  · exact subst_abs_eq_subst_withParameter

/-- The replacement is the parameter's own name, so the parameter makes way for it. -/
theorem withParameter_alpha_iff_captured :
    let t := app (.var "x") (.var "y")
    "x" ≠ "y" ∧ "x" ∈ (var "x").freeNames ∧
      (abs "x" t).subst "y" (.var "x") = abs "x1" (.app (.var "x1") (.var "x")) := by
  intro t
  have ne : "x" ≠ "y" := by decide
  have free : "x" ∈ (var "x").freeNames := mem_freeNames_var.2 rfl
  refine ⟨ne, free, ?_⟩
  rw [((withParameter_alpha_iff "x" t).2.2 "y" (.var "x")).2 ne free]
  cbv

example : (abs "x" (abs "y" (.app (.var "x") (.var "y")))).withParameter "y" =
    abs "y" (abs "y1" (.app (.var "y") (.var "y1"))) := by cbv

end Curried

end Redex
