import Redex.Curried.Basic
import Redex.Fresh

/-!
# Substitution

A term takes the place of the free occurrences of a name. A parameter that is free in that term
would capture it, so it is renamed first, and the renaming is itself a substitution, of a
variable for the old parameter. It makes a new body, which is not a part of the term that was
there, but a body of the same size: this is why the recursion ends.

* `Curried.subst_var`, `Curried.subst_abs_of_not_mem`, `Curried.subst_abs_of_mem`,
  `Curried.subst_app`: how a substitution goes through a term.
* `Curried.size_subst_var`: a variable in the place of a variable leaves the size as it is.
-/

namespace Redex

namespace Curried

/-- The name that a parameter gives way to when `replacement` takes the place of `name` in the
body: free neither in the replacement nor in the body, and not the name that is replaced. -/
def freshParameter (parameter : String) (body : Curried) (name : String) (replacement : Curried) :
    String :=
  fresh parameter ((replacement.freeNames.union body.freeNames).insert name)

/-- A term with `replacement` for the free occurrences of `name`, and what is known of its size:
a replacement of size one leaves the size as it was. -/
def substSized (term : Curried) (name : String) (replacement : Curried) :
    { result : Curried // replacement.size = 1 → result.size = term.size } :=
  match term with
  | .var x => if x = name then ⟨replacement, id⟩ else ⟨.var x, fun _ => rfl⟩
  | .abs parameter body =>
    if parameter = name then ⟨.abs parameter body, fun _ => rfl⟩
    else if parameter ∈ replacement.freeNames then
      let other := freshParameter parameter body name replacement
      match body.substSized parameter (.var other) with
      | ⟨renamed, sameSize⟩ =>
        have : renamed.size < body.size + 1 := Nat.lt_succ_of_le (Nat.le_of_eq (sameSize rfl))
        match renamed.substSized name replacement with
        | ⟨result, size⟩ =>
          ⟨.abs other result, fun one => congrArg (· + 1) ((size one).trans (sameSize rfl))⟩
    else
      match body.substSized name replacement with
      | ⟨result, size⟩ => ⟨.abs parameter result, fun one => congrArg (· + 1) (size one)⟩
  | .app function argument =>
    match function.substSized name replacement, argument.substSized name replacement with
    | ⟨f, sizeF⟩, ⟨a, sizeA⟩ =>
      ⟨.app f a, fun one => by simp only [size, sizeF one, sizeA one]⟩
termination_by term.size
decreasing_by all_goals simp only [size]; omega

/-- A term with `replacement` for the free occurrences of `name`; parameters that would capture a
free name of the replacement are renamed. -/
def subst (term : Curried) (name : String) (replacement : Curried) : Curried :=
  (term.substSized name replacement).val

/-- An abstraction with another parameter; other terms have no parameter and stay as they are. -/
def withParameter (name : String) : Curried → Curried
  | .abs parameter body => .abs name (body.subst parameter (.var name))
  | term => term

section

variable {x y : String} {s t u : Curried}

theorem subst_var : (var y).subst x s = if y = x then s else var y := by
  rw [subst, substSized]
  split <;> rfl

theorem subst_app : (app t u).subst x s = app (t.subst x s) (u.subst x s) := by
  rw [subst, substSized]
  rfl

/-- A parameter hides the name outside from the body. -/
theorem subst_abs_self : (abs x t).subst x s = abs x t := by
  rw [subst, substSized, if_pos rfl]

/-- A parameter stays if the replacement has no free name that it would capture. -/
theorem subst_abs_of_not_mem (ne : y ≠ x) (free : y ∉ s.freeNames) :
    (abs y t).subst x s = abs y (t.subst x s) := by
  rw [subst, substSized, if_neg ne, if_neg free]
  rfl

/-- A parameter that would capture a free name gives way first, in a substitution of its own. -/
theorem subst_abs_of_mem (ne : y ≠ x) (free : y ∈ s.freeNames) :
    (abs y t).subst x s =
      abs (freshParameter y t x s) ((t.subst y (var (freshParameter y t x s))).subst x s) := by
  rw [subst, substSized, if_neg ne, if_pos free]
  rfl

/-- To rename a variable changes no size, so a substitution may rename first and still end. -/
theorem size_subst_var : (t.subst x (var y)).size = t.size :=
  (t.substSized x (var y)).property rfl

end

end Curried

end Redex
