import Redex.Repl.Framing
import Redex.Text.Backspace

/-!
# Line readers

What the lines of a conversation are is up to a line reader. It documents where a line ends, and
that a line is given as it stands if nothing in it is of use for editing it.

* `LineReader.Documented`: what a line reader documents.
* `LineReader.pipe_documented`: the line reader of a pipe keeps to it.
-/

namespace Redex

/-- What gives the lines of all that there is to read. -/
abbrev LineReader := Text → List Text

namespace LineReader

/-- What a line reader documents, which is all that is assumed of it. -/
structure Documented (reader : LineReader) : Prop where
  /-- At the end of what there is to read there are no more lines. -/
  ended : reader [] = []
  /-- A line is given without the line feed behind it, and the next line begins there. Of backspaces
  nothing is said, and a carriage return at the end of a line belongs to the line feed. -/
  line {line : Text} (rest : Text) : '\n' ∉ line → line.getLast? ≠ some '\r' →
    backspace ∉ line → reader (line ++ '\n' :: rest) = line :: reader rest

/-- The line reader of a pipe, which carries out the backspaces of a line. -/
def pipe : LineReader := fun stdin => stdin.lines.map Text.applyBackspaces

theorem pipe_documented : pipe.Documented where
  ended := rfl
  line rest oneLine noReturn noBackspace := by
    rw [pipe, Text.lines_append_lineFeed rest oneLine noReturn, List.map_cons,
      Text.applyBackspaces_of_not_mem noBackspace, pipe]

/-- What holds a single line is that line. -/
theorem Documented.only_line {reader : LineReader} (documented : reader.Documented) {line : Text}
    (oneLine : '\n' ∉ line) (noReturn : line.getLast? ≠ some '\r')
    (noBackspace : backspace ∉ line) : reader (line ++ ['\n']) = [line] := by
  rw [documented.line [] oneLine noReturn noBackspace, documented.ended]

end LineReader

end Redex
