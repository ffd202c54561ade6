import Redex.Text.Basic

/-!
# Lines and inputs

A line ends with a line feed, alone or after a carriage return; a last line may lack it. A line
that ends in two backslashes goes on with the next one, and the lines of such a block are one
input. A block that is never finished is no input.

* `Text.lines_append_lineFeed`: a line that ends with a line feed alone, before any others.
* `Text.inputsAfter_continued`: the inputs after a line that goes on.
* `Text.inputsAfter_complete`: the inputs after a line that does not.
-/

namespace Redex

namespace Text

/-- The lines of a text, without what ends them. -/
def lines : Text → List Text
  | [] => []
  | c :: rest =>
    if c = '\n' then [] :: lines rest
    else if c = '\r' ∧ rest.head? = some '\n' then lines rest
    else
      match lines rest with
      | [] => [[c]]
      | line :: more => (c :: line) :: more

/-- What a line that goes on with the next one holds. -/
def continued? (line : Text) : Option Text :=
  if ['\\', '\\'].isSuffixOf line then some (line.take (line.length - 2)) else none

/-- One more line after `begun`, the lines of a block that goes on: what has begun then, and the
input that the line completes. -/
def feed (begun line : Text) : Text × Option Text :=
  match line.continued? with
  | some kept => (begun ++ kept ++ ['\n'], none)
  | none => ([], some (begun ++ line))

def inputsAfter (begun : Text) : List Text → List Text
  | [] => []
  | line :: rest => (begun.feed line).2.toList ++ inputsAfter (begun.feed line).1 rest

/-- The inputs that lines complete. -/
def inputs (lines : List Text) : List Text := inputsAfter [] lines

theorem lines_append_lineFeed {line : Text} (rest : Text) (oneLine : '\n' ∉ line)
    (noReturn : line.getLast? ≠ some '\r') :
    lines (line ++ '\n' :: rest) = line :: lines rest := by
  induction line with
  | nil => rfl
  | cons c others ih =>
    have notFeed : c ≠ '\n' := fun same => oneLine (same ▸ List.mem_cons_self)
    have othersOneLine : '\n' ∉ others := fun mem => oneLine (List.mem_cons_of_mem c mem)
    cases others with
    | nil =>
      have notReturn : c ≠ '\r' := by
        rintro rfl
        exact noReturn rfl
      simp [lines, notFeed, notReturn]
    | cons d more =>
      rw [List.getLast?_cons_cons] at noReturn
      have notNext : d ≠ '\n' := fun same => othersOneLine (same ▸ List.mem_cons_self)
      have othersLines := ih othersOneLine noReturn
      rw [List.cons_append, lines, if_neg notFeed, if_neg (by simp [notNext]), othersLines]

theorem continued?_eq_none {line : Text} (complete : ¬ ['\\', '\\'] <:+ line) :
    line.continued? = none := by
  rw [continued?, if_neg]
  rw [List.isSuffixOf_iff_suffix]
  exact complete

section

variable {begun line kept : Text} {rest : List Text}

/-- A line that does not go on completes an input, and the next one begins with nothing. -/
theorem inputsAfter_complete (h : line.continued? = none) :
    inputsAfter begun (line :: rest) = (begun ++ line) :: inputsAfter [] rest := by
  rw [inputsAfter, feed, h]
  rfl

end

end Text

end Redex
