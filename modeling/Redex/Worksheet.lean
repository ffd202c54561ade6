import Redex.Curried.Reduction
import Redex.Currying
import Redex.Form.Assembly
import Redex.Term.Grammar

/-!
# Worksheets

A worksheet holds the terms of one source and advances all of them together, one step each with
every tick, so that a term without a normal form costs one step a tick and nothing more. A tick
with another source starts over from that source.

* `Worksheet.tick_reload`, `Worksheet.tick_step`: the two kinds of tick.
-/

namespace Redex

/-- A line of a worksheet: a term on its way to its normal form, or the fault of a form. -/
abbrev Entry := Except Fault Curried

namespace Entry

def ofForm (form : Form) : Entry := (Term.ofForm form).map Term.curry

/-- The term of an entry after one step, or nothing if the entry does not change any more. -/
def next? : Entry → Option Curried
  | .ok term => term.step?
  | .error _ => none

def advance (entry : Entry) : Entry :=
  match entry.next? with
  | some term => .ok term
  | none => entry

def isPending : Entry → Bool
  | .ok term => term.isReducible
  | .error _ => false

/-- What a worksheet shows of an entry: the placeholder as long as the term has a redex, and then
its written form. -/
def output (placeholder : String) : Entry → Except Fault String
  | .ok term => .ok (if term.isReducible then placeholder else term.uncurry.render)
  | .error fault => .error fault

end Entry

/-- What a tick does: it loads a new source, or lets so many entries take a step. -/
inductive Tick where
  | reloaded
  | stepped (count : Nat)
  deriving DecidableEq, Repr

/-- The entries of a source. -/
structure Worksheet where
  /-- Shown for a term that is not normal yet. -/
  placeholder : String
  /-- The text that the entries come from, if one was loaded. -/
  source? : Option Text
  entries : List Entry

namespace Worksheet

def ellipsis : String := "..."

def blank (placeholder : String) : Worksheet := ⟨placeholder, none, []⟩

/-- A worksheet with the entries of a source as they are before the first step. -/
def reload (sheet : Worksheet) (source : Text) : Worksheet :=
  { sheet with source? := some source, entries := (Form.parse source).map Entry.ofForm }

/-- A worksheet with every entry one step on. -/
def step (sheet : Worksheet) : Worksheet :=
  { sheet with entries := sheet.entries.map Entry.advance }

def tick (sheet : Worksheet) (source : Text) : Worksheet :=
  if sheet.source? = some source then sheet.step else sheet.reload source

def effect (sheet : Worksheet) (source : Text) : Tick :=
  if sheet.source? = some source then .stepped (sheet.entries.countP (·.next?.isSome))
  else .reloaded

def pending (sheet : Worksheet) : Nat := sheet.entries.countP Entry.isPending

def outputs (sheet : Worksheet) : List (Except Fault String) :=
  sheet.entries.map (Entry.output sheet.placeholder)

/-- A worksheet as it is printed, with a blank line between entries. -/
def render (sheet : Worksheet) : String :=
  "\n\n".intercalate <| sheet.outputs.map fun
    | .ok output => output
    | .error fault => fault.render

/-- A tick with the source that is loaded lets every entry take a step. -/
theorem tick_step {sheet : Worksheet} {source : Text} (h : sheet.source? = some source) :
    sheet.tick source = sheet.step := by
  rw [tick, if_pos h]

/-- A tick with another source loads that source and takes no step. -/
theorem tick_reload {sheet : Worksheet} {source : Text} (h : sheet.source? ≠ some source) :
    sheet.tick source = sheet.reload source := by
  rw [tick, if_neg h]

end Worksheet

end Redex
