import Redex.Form.Assembly
import Redex.Term.Grammar

/-!
# Analysis of a text

Each top-level form of a text is looked at on its own: it is a term, whose free names are listed
with it, or it has a fault.
-/

namespace Redex

structure Analysis where
  term : Term
  free : NameSet

namespace Analysis

def ofTerm (term : Term) : Analysis := ⟨term, term.freeNames⟩

/-- An analysis as it is printed, over two lines. -/
def render (analysis : Analysis) : String :=
  analysis.term.render ++ "\n  free: " ++ analysis.free.render

end Analysis

/-- The analyses and the faults of the top-level forms of a text, in order. -/
def analyze (text : Text) : List (Except Fault Analysis) :=
  (Form.parse text).map fun form => (Term.ofForm form).map Analysis.ofTerm

end Redex
