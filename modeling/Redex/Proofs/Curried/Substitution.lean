import Redex.Curried.Subst
import Redex.Proofs.Curried.Alpha
import Redex.Proofs.Fresh

/-!
# What a substitution means

A renaming inside a substitution is a substitution too, in a body that is not part of the term at
hand, so facts about substitution are proved along its recursion and not along the term.

* `subst_induction`: an induction with a case for each way in which a substitution goes on.
* `meaning_subst`: a substitution means what the term does, for another value of the name.
* `nameless_subst`: in nameless form a substitution is a replacement, whatever had to be renamed.
-/

namespace Redex

namespace Curried

/-- What holds of a substitution if it holds of the substitutions that it is made of. -/
theorem subst_induction {motive : (term : Curried) → (name : String) → Curried → Prop}
    (var : ∀ y x s, motive (.var y) x s)
    (app : ∀ t u x s, motive t x s → motive u x s → motive (.app t u) x s)
    (bound : ∀ t x s, motive (.abs x t) x s)
    (inside : ∀ y t x s, y ≠ x → y ∉ s.freeNames → motive t x s → motive (.abs y t) x s)
    (renamed : ∀ y t x s, y ≠ x → y ∈ s.freeNames →
      motive t y (.var (freshParameter y t x s)) →
      motive (t.subst y (.var (freshParameter y t x s))) x s → motive (.abs y t) x s) :
    ∀ t x s, motive t x s := by
  intro t
  generalize size : t.size = n
  induction n using Nat.strongRecOn generalizing t with
  | ind n ih =>
    subst size
    intro x s
    cases t with
    | var y => exact var y x s
    | app t u =>
      have left : t.size < (Curried.app t u).size := by simp only [Curried.size]; omega
      have right : u.size < (Curried.app t u).size := by simp only [Curried.size]; omega
      exact app t u x s (ih _ left t rfl x s) (ih _ right u rfl x s)
    | abs y t =>
      have smaller : t.size < (Curried.abs y t).size := Nat.lt_succ_self _
      by_cases same : y = x
      · subst same
        exact bound t y s
      · by_cases free : y ∈ s.freeNames
        · -- the renamed body is as large as the old one
          refine renamed y t x s same free (ih _ smaller t rfl _ _) ?_
          exact ih _ (size_subst_var.symm ▸ smaller) _ rfl x s
        · exact inside y t x s same free (ih _ smaller t rfl x s)

/-- The new name is free nowhere near, so it captures nothing and is captured by nothing. -/
theorem freshParameter_spec (y : String) (t : Curried) (x : String) (s : Curried) :
    freshParameter y t x s ≠ x ∧ freshParameter y t x s ∉ s.freeNames ∧
      freshParameter y t x s ∉ t.freeNames := by
  have fresh := fresh_not_mem y ((s.freeNames.union t.freeNames).insert x)
  simp only [NameSet.mem_insert, NameSet.mem_union, not_or] at fresh
  exact fresh

/-- A term that does not use a parameter means the same inside the abstraction as outside. -/
theorem meaning_valuesInside {s : Curried} {parameter : String} (values : String → Nameless)
    (unused : parameter ∉ s.freeNames) :
    s.meaning (valuesInside parameter values) = (s.meaning values).shift := by
  rw [meaning_shift]
  apply meaning_congr
  intro name free
  have other : name ≠ parameter := fun same => unused (same ▸ free)
  simp only [valuesInside, if_neg other]

/-- A substitution means that the name has the value of the replacement, under any values of the
other names. -/
theorem meaning_subst (t : Curried) (x : String) (s : Curried) :
    ∀ values, (t.subst x s).meaning values = t.meaning (assign values x (s.meaning values)) := by
  induction t, x, s using subst_induction with
  | var y x s =>
    intro values
    rw [subst_var]
    by_cases same : y = x
    · simp only [if_pos same, meaning, assign]
    · simp only [if_neg same, meaning, assign]
  | app t u x s iht ihu =>
    intro values
    rw [subst_app, meaning, meaning, iht, ihu]
  | bound t x s =>
    intro values
    rw [subst_abs_self, meaning, meaning]
    congr 2
    funext name
    by_cases same : name = x
    · simp only [valuesInside, if_pos same]
    · simp only [valuesInside, assign, if_neg same]
  | inside y t x s ne unused ih =>
    intro values
    rw [subst_abs_of_not_mem ne unused, meaning, meaning, ih, meaning_valuesInside values unused]
    congr 2
    funext name
    by_cases same : name = y
    · have other : name ≠ x := fun h => ne (same.symm.trans h)
      simp only [assign, valuesInside, if_pos same, if_neg other]
    · by_cases replaced : name = x
      · simp only [assign, valuesInside, if_neg same, if_pos replaced]
      · simp only [assign, valuesInside, if_neg same, if_neg replaced]
  | renamed y t x s ne free ihy ihx =>
    intro values
    obtain ⟨notName, notReplacement, notBody⟩ := freshParameter_spec y t x s
    rw [subst_abs_of_mem ne free]
    generalize freshParameter y t x s = z at *
    rw [meaning, meaning, ihx, ihy, meaning_valuesInside values notReplacement]
    congr 1
    apply meaning_congr
    intro name free
    -- the new parameter is not free in the old body, so no name there can be mistaken for it
    have other : name ≠ z := fun same => notBody (same ▸ free)
    by_cases same : name = y
    · simp [assign, valuesInside, meaning, same, notName]
    · by_cases replaced : name = x
      · simp [assign, valuesInside, replaced, ne.symm]
      · simp [assign, valuesInside, same, replaced, other]

/-- The nameless form of a body with an argument for its parameter. -/
theorem namelessIn_subst (scope : List String) (t : Curried) (x : String) (s : Curried) :
    (t.subst x s).namelessIn scope =
      (t.namelessIn (x :: scope)).instantiate (s.namelessIn scope) := by
  simp only [namelessIn_eq_meaning, meaning_subst, Nameless.instantiate, meaning_fill, resolve_cons]
  congr 1
  funext name
  by_cases same : name = x
  · simp only [assign, valuesInside, if_pos same]
    rfl
  · simp only [assign, valuesInside, if_neg same]
    exact (Nameless.instantiate_shift _ _).symm

/-- **Substitution avoids capture.** The nameless form of `t.subst x s` is that of `t` with that of
`s` in the place of the free name `x`, so nothing free is captured, nothing bound is touched and no
free occurrence is missed; and terms that differ only in names of parameters are treated alike. -/
theorem nameless_subst (t : Curried) (x : String) (s : Curried) :
    (t.subst x s).nameless = t.nameless.replace x s.nameless ∧
      ∀ t' s', Alpha t t' → Alpha s s' → Alpha (t.subst x s) (t'.subst x s') := by
  have replaces (t s : Curried) : (t.subst x s).nameless = t.nameless.replace x s.nameless := by
    simp only [nameless, namelessIn_eq_meaning, meaning_subst, meaning_replace]
    rfl
  refine ⟨replaces t s, ?_⟩
  intro t' s' sameTerm sameReplacement
  rw [alpha_iff] at *
  rw [replaces, replaces, sameTerm, sameReplacement]

example : (abs "y" (.app (.var "y") (.var "x"))).subst "x" (.var "y") =
    abs "y1" (.app (.var "y1") (.var "y")) := by cbv

end Curried

end Redex
