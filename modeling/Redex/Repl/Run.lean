import Redex.Repl.LineReader
import Redex.Repl.Session

/-!
# Runs of the program

A run either evaluates one source and ends, or holds a conversation about what it reads, between
a greeting and a farewell. In a conversation an input is answered as soon as a line completes it,
with the session that the inputs before have left.
-/

namespace Redex

/-- What can be chosen for a run. -/
structure Options where
  /-- The source to evaluate instead of holding a conversation. -/
  source? : Option Text := none
  /-- The ticks that an evaluation may take. -/
  ticks : Nat := Session.defaultBudget
  /-- Shown for a term that is not normal yet. -/
  placeholder : String := Worksheet.ellipsis

def Options.session (options : Options) : Session :=
  ⟨.blank options.placeholder, options.ticks⟩

def greeting : List Output :=
  [.print "Hi, this is an untyped lambda calculus workbench. :h to show help", .print ""]

def farewell : Output := .print "Bye!"

def evaluation (options : Options) (source : Text) : List Output :=
  (options.session.evaluate source.expandShorthand).2

/-- An input, the session once it is answered, and what is printed in answer to it. -/
structure Exchange where
  input : Text
  after : Session
  printed : List Output

namespace Session

def answer (session : Session) (input : Text) : Exchange :=
  ⟨input, (session.respond input).1, (session.respond input).2⟩

@[simp] theorem answer_input (session : Session) (input : Text) :
    (session.answer input).input = input := rfl

/-- One more line after `begun`: what has begun then, and the exchange about the input that the line
completes. -/
def hearLine (session : Session) (begun line : Text) : Text × Option Exchange :=
  ((begun.feed line).1, (begun.feed line).2.map session.answer)

/-- What comes of some lines after `begun`. -/
def hear (session : Session) (begun : Text) : List Text → List Exchange
  | [] => []
  | line :: rest =>
    match session.hearLine begun line with
    | (begun, none) => session.hear begun rest
    | (begun, some exchange) => exchange :: exchange.after.hear begun rest

end Session

/-- What a run prints that holds a conversation about the lines it reads. -/
def conversation (reader : LineReader) (options : Options) (stdin : Text) : List Output :=
  greeting ++ (options.session.hear [] (reader stdin)).flatMap Exchange.printed ++ [farewell]

def runWith (reader : LineReader) (options : Options) (stdin : Text) : List Output :=
  match options.source? with
  | some source => evaluation options source
  | none => conversation reader options stdin

/-- What a run prints that reads from a pipe. -/
def run (options : Options) (stdin : Text) : List Output := runWith .pipe options stdin

end Redex
