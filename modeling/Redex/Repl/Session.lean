import Redex.Analysis
import Redex.Repl.Command
import Redex.Report
import Redex.Worksheet

/-!
# Sessions

A session answers one input after the other. All that it keeps is its worksheet: requests to
evaluate or to step advance it and print it, and every other request leaves it alone.
-/

namespace Redex

/-- One thing that is printed, each on lines of its own. -/
inductive Output where
  /-- A text on standard output. -/
  | print (text : String)
  /-- A report on standard error. -/
  | report (report : Report)
  /-- A text on standard error. -/
  | complain (text : String)
  deriving DecidableEq, Repr

/-- A worksheet, and how many ticks may be spent on an evaluation after loading its source. -/
structure Session where
  worksheet : Worksheet
  budget : Nat

namespace Session

def defaultBudget : Nat := 1000

def help : String :=
  "term                -- same as :evaluate term\n" ++
  ":parse      term    -- show the parsed forms with their spans\n" ++
  ":free       term    -- show each term with its free variables\n" ++
  ":step      [term]   -- advance one tick; reloads only if term differs\n" ++
  ":evaluate   term    -- reduce until normal or out of ticks\n" ++
  ":help               -- show this message\n" ++
  "\n" ++
  "`\\` is read as `λ`, e.g. ((\\ x y x) a b)"

def printForm (form : Form) : Output :=
  .print (form.span.render ++ "\t" ++ form.render)

/-- An analysis or a fault of a source as it is printed. -/
def printAnalysis (source : Text) : Except Fault Analysis → Output
  | .ok analysis => .print analysis.render
  | .error fault => .report (.ofFault source fault)

/-- What a worksheet shows of an entry, or the report of its fault. -/
def printEntry (source : Text) : Except Fault String → Output
  | .ok output => .print output
  | .error fault => .report (.ofFault source fault)

/-- A worksheet as it is printed. An empty line stands between entries. -/
def printWorksheet (sheet : Worksheet) : List Output :=
  (sheet.outputs.map (printEntry (sheet.source?.getD []))).intersperse (.print "")

/-- Ticks with one source, until every term is normal or all ticks are spent. -/
def settle (source : Text) : (ticks : Nat) → Worksheet → Worksheet
  | 0, sheet => sheet
  | ticks + 1, sheet =>
    if sheet.pending = 0 then sheet else settle source ticks (sheet.tick source)

def showing (session : Session) (sheet : Worksheet) : Session × List Output :=
  ({ session with worksheet := sheet }, printWorksheet sheet)

/-- Evaluates a source: one tick, and then as many as it takes within the budget. -/
def evaluate (session : Session) (source : Text) : Session × List Output :=
  session.showing (settle source session.budget (session.worksheet.tick source))

/-- Advances by one tick. With no source given it is one with the source that is loaded. -/
def step (session : Session) (source : Text) : Session × List Output :=
  let source := if source.isBlank then session.worksheet.source?.getD [] else source
  session.showing (session.worksheet.tick source)

/-- Does what is asked for. -/
def perform (session : Session) (command : Command) (source : Text) : Session × List Output :=
  match command with
  | .parse => (session, (Form.parse source).map printForm)
  | .free => (session, (analyze source).map (printAnalysis source))
  | .step => session.step source
  | .evaluate => session.evaluate source
  | .help => (session, [.print help])
  | .unknown name => (session, [.complain ("Unknown command " ++ name), .print help])

/-- Answers an input. A blank one is passed over, and the shorthand is expanded in arguments, not
in the names of commands. -/
def respond (session : Session) (input : Text) : Session × List Output :=
  if input.isBlank then (session, [])
  else
    let request := Request.ofInput input
    session.perform request.command request.argument.expandShorthand

end Session

end Redex
