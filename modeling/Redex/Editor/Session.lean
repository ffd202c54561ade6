import Redex.Editor.Correction

/-!
# Editing sessions

An editing surface reports its text and its selection after every edit, and is told what to show
instead. All that the session remembers from one edit to the next is the draft it had shown.
-/

namespace Redex

/-- What an editing surface holds: a text, and the stretch of it that is selected. -/
structure Surface where
  text : Text
  selection : Span
  deriving DecidableEq, Repr

def Draft.surface (draft : Draft) : Surface := ⟨draft.text, .collapsed draft.cursor⟩

/-- The draft on a surface: the cursor is where the selection begins, and not past the end. -/
def Surface.draft (surface : Surface) : Draft :=
  ⟨surface.text, min surface.selection.start surface.text.length⟩

namespace Editor

def blank : Draft := ⟨[], 0⟩

/-- What a session shows of a text that is opened: its expansion, with the cursor at the end. -/
def opening (text : Text) : Draft := ⟨text.expandShorthand, text.length⟩

/-- What a session that showed a draft shows after an edit of the surface. -/
def input (shown : Draft) (surface : Surface) : Draft :=
  Draft.correct shown.text surface.draft

end Editor

end Redex
