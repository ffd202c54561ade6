import Redex.Fault
import Redex.Text.Place

/-!
# Reports

A fault as it is shown to whoever wrote the text: what is wrong, the text, the stretch of it to
blame, what to say there and in which colour.
-/

namespace Redex

inductive Colour where
  | red
  | yellow
  deriving DecidableEq, Repr

def Cause.label : Cause → String
  | .unclosedList => "this list is never closed"
  | .reservedName => "reserved name"
  | .tooFewTerms => "expected (λ name ... body)"
  | .listParameter => "expected a name"
  | .reservedParameter => "reserved name"
  | .missingArgument => "nothing to apply this to"
  | .emptyList => "empty list"

/-- A list that is never closed may only be unfinished, so it is not shown in red. -/
def Cause.colour : Cause → Colour
  | .unclosedList => .yellow
  | _ => .red

structure Report where
  message : String
  label : String
  colour : Colour
  /-- The stretch of text that is marked. -/
  span : Span
  /-- The whole text, from which lines are shown around the marks. -/
  source : Text
  deriving DecidableEq, Repr

namespace Report

def ofFault (text : Text) (fault : Fault) : Report where
  message := fault.cause.message
  label := fault.cause.label
  colour := fault.cause.colour
  span := fault.span
  source := text

/-- The place that a report names is where the marks begin. -/
def place (report : Report) : Place := report.source.place report.span.start

/-- A report on one line, `2:14: empty list (empty list)`. -/
def render (report : Report) : String :=
  report.place.render ++ ": " ++ report.message ++ " (" ++ report.label ++ ")"

end Report

end Redex
