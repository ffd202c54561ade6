import Redex.Curried.Basic
import Redex.Term.Basic

/-!
# Currying

A written term takes its parameters and arguments one at a time when it is curried. Back from
there, abstractions directly inside one another share a list of parameters, and applications a
list of arguments.

* `Term.curry_withParameter`, `Term.curry_withArgument`: a written term with one more parameter
  or argument curries to an abstraction or an application of what it curried to.
* `Curried.curry_uncurry`: a term is what its written form curries to.
-/

namespace Redex

namespace Term

mutual

def curry : Term → Curried
  | .var name => .var name
  | .abs parameters body => parameters.foldr .abs body.curry
  | .app function arguments => applyTo function.curry arguments

def applyTo (function : Curried) : List Term → Curried
  | [] => function
  | argument :: rest => applyTo (.app function argument.curry) rest

end

/-- A term under one more parameter, which an abstraction takes into its own list. -/
def withParameter (parameter : String) : Term → Term
  | .abs parameters body => .abs (parameter :: parameters) body
  | body => .abs [parameter] body

/-- A term applied to one more argument, which an application takes into its own list. -/
def withArgument : Term → Term → Term
  | .app function arguments, argument => .app function (arguments ++ [argument])
  | function, argument => .app function [argument]

end Term

/-- The written form of a curried term, with lists as long as they can be. -/
def Curried.uncurry : Curried → Term
  | .var name => .var name
  | .abs parameter body => body.uncurry.withParameter parameter
  | .app function argument => function.uncurry.withArgument argument.uncurry

namespace Term

/-- Only an abstraction has a list that the parameter can go into. -/
theorem withParameter_of_not_abs {body : Term} (notAbs : ∀ names inner, body ≠ .abs names inner)
    (parameter : String) : body.withParameter parameter = .abs [parameter] body := by
  cases body with
  | abs names inner => exact absurd rfl (notAbs names inner)
  | var | app => rfl

/-- Only an application has a list that the argument can go into. -/
theorem withArgument_of_not_app {function : Term}
    (notApp : ∀ inner terms, function ≠ .app inner terms) (argument : Term) :
    function.withArgument argument = .app function [argument] := by
  cases function with
  | app inner terms => exact absurd rfl (notApp inner terms)
  | var | abs => rfl

theorem applyTo_append (function : Curried) (arguments : List Term) (last : Term) :
    applyTo function (arguments ++ [last]) = .app (applyTo function arguments) last.curry := by
  induction arguments generalizing function with
  | nil => rfl
  | cons argument rest ih =>
    rw [List.cons_append, applyTo, applyTo]
    exact ih (.app function argument.curry)

/-- The list that a parameter is in does not matter for the curried term. -/
theorem curry_withParameter (parameter : String) (body : Term) :
    (body.withParameter parameter).curry = .abs parameter body.curry := by
  cases body with
  | var | app => rfl
  | abs parameters body =>
    rw [withParameter, curry, curry]
    rfl

/-- The list that an argument is in does not matter for the curried term. -/
theorem curry_withArgument (function argument : Term) :
    (function.withArgument argument).curry = .app function.curry argument.curry := by
  cases function with
  | var | abs => rfl
  | app function arguments =>
    rw [withArgument, curry, curry]
    exact applyTo_append function.curry arguments argument

end Term

/-- Nothing is lost when a curried term is given its lists. -/
theorem Curried.curry_uncurry (term : Curried) : term.uncurry.curry = term := by
  induction term with
  | var name => rfl
  | abs parameter body ih =>
    rw [uncurry, Term.curry_withParameter, ih]
  | app function argument ihf iha =>
    rw [uncurry, Term.curry_withArgument, ihf, iha]

end Redex
