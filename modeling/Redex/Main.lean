import Redex.Repl.Arguments

/-!
# The program

Reads arguments and lines, and prints what the session says.
-/

namespace Redex

def Output.emit : Output → IO Unit
  | .print text => IO.println text
  | .report fault => IO.eprintln fault.render
  | .complain text => IO.eprintln text

partial def answerLines (session : Session) (begun : Text) : IO Unit := do
  let line ← (← IO.getStdin).getLine
  match LineReader.pipe line.toList with
  | [] => farewell.emit
  | line :: _ =>
    match session.hearLine begun line with
    | (begun, none) => answerLines session begun
    | (begun, some exchange) =>
      exchange.printed.forM Output.emit
      answerLines exchange.after begun

end Redex

open Redex in
/-- Evaluates the source that the arguments give, or holds a conversation. -/
def main (args : List String) : IO UInt32 := do
  match Options.ofArguments {} args with
  | .error complaint =>
    IO.eprintln complaint
    return 2
  | .ok options =>
    match options.source? with
    | some source => (evaluation options source).forM Output.emit
    | none =>
      greeting.forM Output.emit
      answerLines options.session []
    return 0
