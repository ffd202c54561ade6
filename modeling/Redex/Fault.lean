import Redex.Text.Basic

/-!
# Faults

What keeps a form from being a term: one cause, and the stretch of text to blame.
-/

namespace Redex

inductive Cause where
  /-- The text ends before the list does. -/
  | unclosedList
  /-- The reserved name stands where a variable is expected. -/
  | reservedName
  /-- An abstraction lacks its parameters or its body. -/
  | tooFewTerms
  /-- An abstraction has a list for a parameter. -/
  | listParameter
  /-- An abstraction has the reserved name for a parameter. -/
  | reservedParameter
  /-- A list applies its only term to nothing. -/
  | missingArgument
  /-- A list has nothing in it. -/
  | emptyList
  deriving DecidableEq, Repr

def Cause.message : Cause → String
  | .unclosedList => "unmatched parenthesis"
  | .reservedName => "`λ` is reserved and cannot be used as a variable"
  | .tooFewTerms =>
    "malformed abstraction: an abstraction needs a lambda, at least one parameter and a body"
  | .listParameter => "malformed abstraction: parameters must be atoms"
  | .reservedParameter => "malformed abstraction: `λ` cannot be a parameter"
  | .missingArgument => "an application needs at least two terms"
  | .emptyList => "empty list"

/-- A cause, and the stretch of text that has it. -/
structure Fault where
  cause : Cause
  span : Span
  deriving DecidableEq, Repr

/-- A fault as it is printed, `empty list at 3..5`. -/
def Fault.render (fault : Fault) : String :=
  fault.cause.message ++ " at " ++ fault.span.render

end Redex
