import Redex.Curried.Subst

/-!
# Reduction

An abstraction that is applied to an argument is a redex, and contracting it is what computing
comes down to. A step contracts the redex that comes first: a redex before those inside it, and
those in a function before those in its argument.

* `Curried.step?_redex`: an applied abstraction is contracted as a whole.
* `Curried.step?_app`: any other application steps in its function, or else in its argument.
* `Curried.isReducible_eq_isSome`: a term has a redex if it has a step, and only then.
-/

namespace Redex

namespace Curried

/-- The body of an applied abstraction with the argument for the parameter. -/
def contract? : Curried → Option Curried
  | .app (.abs parameter body) argument => some (body.subst parameter argument)
  | _ => none

def isReducible : Curried → Bool
  | .var _ => false
  | .abs _ body => body.isReducible
  | .app (.abs _ _) _ => true
  | .app function argument => function.isReducible || argument.isReducible

/-- The term with its first redex contracted, or nothing if it is normal. -/
def step? : Curried → Option Curried
  | .var _ => none
  | .abs parameter body => body.step?.map (.abs parameter)
  | .app function argument =>
    (app function argument).contract? <|>
      function.step?.map (.app · argument) <|>
      argument.step?.map (.app function)

section

variable {x : String} {t u : Curried}

/-- A redex comes before all others in it. -/
theorem step?_redex : (app (abs x t) u).step? = some (t.subst x u) := rfl

/-- Where the function is no abstraction, it takes its steps before the argument does. -/
theorem step?_app (h : (app t u).contract? = none) :
    (app t u).step? = (t.step?.map (app · u)).or (u.step?.map (app t)) := by
  rw [step?, h]
  cases t.step? <;> rfl

end

/-- The test for a redex and the search for one go through a term on their own, and agree. -/
theorem isReducible_eq_isSome (t : Curried) : t.isReducible = t.step?.isSome := by
  induction t with
  | var => rfl
  | abs x b ih => rw [isReducible, step?, Option.isSome_map, ih]
  | app f a ihf iha =>
    cases f with
    | abs x b => rfl
    | var | app =>
      rw [isReducible, step?_app rfl, ihf, iha, Option.isSome_or, Option.isSome_map,
        Option.isSome_map]
      nofun

end Curried

end Redex
