import Redex.Text.Basic

/-!
# The lambda glyph

An abstraction is written with the glyph `λ`, which no variable may have for its name. Where a
text is typed, a backslash is short for the glyph.

* `Text.length_expandShorthand`: the shorthand is as long as the glyph, so positions are the same
  in a text and in its expansion.
* `Text.shorthand_not_mem_expandShorthand`, `Text.expandShorthand_of_not_mem`: an expansion has no
  shorthand, and a text without it is its own.
-/

namespace Redex

def glyph : Char := 'λ'

def reservedName : String := "λ"

/-- The character that is typed for the glyph. -/
def shorthand : Char := '\\'

def expandChar (c : Char) : Char := if c = shorthand then glyph else c

/-- A text with the glyph in place of every shorthand. -/
def Text.expandShorthand (text : Text) : Text := text.map expandChar

theorem expandChar_of_ne {c : Char} (other : c ≠ shorthand) : expandChar c = c := by
  rw [expandChar, if_neg other]

theorem expandChar_ne_shorthand (c : Char) : expandChar c ≠ shorthand := by
  by_cases isShorthand : c = shorthand
  · rw [expandChar, if_pos isShorthand]
    decide
  · rw [expandChar_of_ne isShorthand]
    exact isShorthand

/-- One character takes the place of one character, so all positions stay what they are. -/
@[simp] theorem Text.length_expandShorthand (text : Text) :
    text.expandShorthand.length = text.length := List.length_map _

/-- Characters are expanded on their own, whatever stands next to them. -/
theorem Text.expandShorthand_append (left right : Text) :
    expandShorthand (left ++ right) = left.expandShorthand ++ right.expandShorthand :=
  List.map_append

theorem Text.shorthand_not_mem_expandShorthand (text : Text) :
    shorthand ∉ text.expandShorthand := by
  intro mem
  obtain ⟨c, _, same⟩ := List.mem_map.1 mem
  exact expandChar_ne_shorthand c same

theorem Text.expandShorthand_of_not_mem {text : Text} (expanded : shorthand ∉ text) :
    text.expandShorthand = text := by
  have same : ∀ c ∈ text, expandChar c = c := by
    intro c mem
    apply expandChar_of_ne
    rintro rfl
    exact expanded mem
  rw [expandShorthand, List.map_congr_left same, List.map_id']

end Redex
