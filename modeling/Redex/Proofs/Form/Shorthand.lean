import Redex.Proofs.Form.Location
import Redex.Proofs.Form.Map

/-!
# Reading what is expanded

The shorthand and the glyph are both characters of words, so a text is divided into words, blanks
and parentheses where its expansion is. To expand a text and to read it can be done in either order,
and whatever is found out about the expansion holds of the text as it was typed, position for
position.

* `Reading.ofText_expandShorthand`: an expansion is read as the text is, with other names.
* `Text.closing?_expandShorthand`: partners stand where they stood.
* `Form.parse_expandShorthand`: the forms, the parentheses and the positions of an expansion.
-/

namespace Redex

def expandName (name : String) : String := .ofList (Text.expandShorthand name.toList)

theorem toList_expandName (name : String) :
    (expandName name).toList = Text.expandShorthand name.toList := String.toList_ofList

theorem isWordChar_expandChar (c : Char) : isWordChar (expandChar c) = isWordChar c := by
  by_cases isShorthand : c = shorthand
  · subst isShorthand
    decide
  · rw [expandChar_of_ne isShorthand]

theorem expandChar_of_isBlank {c : Char} (blank : isBlank c = true) : expandChar c = c := by
  apply expandChar_of_ne
  rintro rfl
  exact absurd blank (by decide)

/-- Neither the shorthand nor the glyph ends a word. -/
theorem IsWord.expandName {name : String} (word : IsWord name) : IsWord (expandName name) := by
  have nonempty : Text.expandShorthand name.toList ≠ [] := by
    intro empty
    exact word.nonempty (String.toList_inj.1 (List.map_eq_nil_iff.1 empty))
  refine isWord_ofList nonempty fun c mem => ?_
  obtain ⟨original, isChar, rfl⟩ := List.mem_map.1 mem
  rw [isWordChar_expandChar]
  exact word.wordChars original isChar

namespace Text

theorem expandShorthand_cons (c : Char) (rest : Text) :
    expandShorthand (c :: rest) = expandChar c :: rest.expandShorthand := List.map_cons

theorem expandShorthand_expandShorthand (text : Text) :
    text.expandShorthand.expandShorthand = text.expandShorthand :=
  expandShorthand_of_not_mem (shorthand_not_mem_expandShorthand text)

theorem EndsWord.expandShorthand {text : Text} (ends : text.EndsWord) :
    text.expandShorthand.EndsWord := by
  cases text with
  | nil => exact .nil
  | cons c rest =>
    refine .cons _ ?_
    rw [isWordChar_expandChar]
    exact ends c rfl

theorem slice_expandShorthand (text : Text) (span : Span) :
    text.expandShorthand.slice span = (text.slice span).expandShorthand := by
  simp only [slice, expandShorthand, List.map_drop, List.map_take]

/-- Neither the shorthand nor the glyph is a parenthesis. -/
theorem closingFrom_expandShorthand (pos depth : Nat) (text : Text) :
    closingFrom pos depth text.expandShorthand = closingFrom pos depth text := by
  induction text generalizing pos depth with
  | nil => rfl
  | cons c rest ih =>
    rw [expandShorthand_cons, closingFrom, closingFrom, depthAfter?_expandChar]
    cases Redex.depthAfter? depth c with
    | none => rfl
    | some next => exact ih (pos + 1) next

theorem closing?_expandShorthand (text : Text) (start : Nat) :
    text.expandShorthand.closing? start = text.closing? start := by
  have next : text.expandShorthand.following start = text.following start := by
    rw [following, following, length_expandShorthand]
  have after : text.expandShorthand.drop (text.following start) =
      Text.expandShorthand (text.drop (text.following start)) := List.map_drop.symm
  rw [closing?, next, after, closingFrom_expandShorthand, closing?]

end Text

namespace Reading

def expandNames (reading : Reading) : Reading :=
  ⟨reading.forms.map (Form.map expandName id), reading.unmatched.map fun entry =>
    (entry.1, entry.2.map (Form.map expandName id))⟩

section

variable {stop : Nat} {span : Span}

theorem expandNames_after_atom (name : String) (reading : Reading) :
    (after [.atom name span] reading).expandNames =
      after [.atom (expandName name) span] reading.expandNames := by
  simp [after, expandNames]

theorem expandNames_prepend_opening (reading : Reading) :
    (prepend stop ⟨.opening, span⟩ reading).expandNames =
      prepend stop ⟨.opening, span⟩ reading.expandNames := by
  obtain ⟨forms, unmatched⟩ := reading
  cases unmatched <;> simp [prepend, enclose, expandNames]

theorem expandNames_prepend_closing (reading : Reading) :
    (prepend stop ⟨.closing, span⟩ reading).expandNames =
      prepend stop ⟨.closing, span⟩ reading.expandNames := by
  simp [prepend, expandNames]

theorem ofText_expandShorthand (pos : Nat) (text : Text) :
    ofText stop pos text.expandShorthand = (ofText stop pos text).expandNames := by
  induction text using Text.pieceInduction generalizing pos with
  | nil =>
    rw [Text.expandShorthand, List.map_nil, ofText_nil]
    rfl
  | blank c rest isBlank ih =>
    rw [Text.expandShorthand_cons, expandChar_of_isBlank isBlank, ofText_blank isBlank,
      ofText_blank isBlank, ih]
  | opening rest ih =>
    have kept : expandChar '(' = '(' := expandChar_of_ne (by decide)
    rw [Text.expandShorthand_cons, kept, ofText_opening, ofText_opening,
      expandNames_prepend_opening, ih]
  | closing rest ih =>
    have kept : expandChar ')' = ')' := expandChar_of_ne (by decide)
    rw [Text.expandShorthand_cons, kept, ofText_closing, ofText_closing,
      expandNames_prepend_closing, ih]
  | word name rest word ends ih =>
    have length : (expandName name).toList.length = name.toList.length := by
      rw [toList_expandName, Text.length_expandShorthand]
    rw [Text.expandShorthand_append, ← toList_expandName,
      ofText_word word.expandName ends.expandShorthand, ofText_word word ends,
      expandNames_after_atom, length, ih]

end

end Reading

/-- **What is read of an expansion is what is read of the text, expanded.** The forms are of the
same kinds, one inside the other as before and in the same places, and only their names are
expanded. The parentheses have the same partners. A text is as long as its expansion, and in every
place the expansion has what the text has there, expanded; to expand it twice changes nothing
more. -/
theorem Form.parse_expandShorthand (text : Text) :
    let expanded := text.expandShorthand
    parse expanded = (parse text).map (Form.map expandName id) ∧
      expanded.isBalanced = text.isBalanced ∧
      (∀ start, expanded.closing? start = text.closing? start) ∧
      expanded.expandShorthand = expanded ∧ expanded.length = text.length ∧
      ∀ span, expanded.slice span = (text.slice span).expandShorthand := by
  intro expanded
  have length : expanded.length = text.length := text.length_expandShorthand
  refine ⟨?_, Text.isBalanced_expandShorthand, text.closing?_expandShorthand,
    text.expandShorthand_expandShorthand, length, text.slice_expandShorthand⟩
  have read : Reading.ofText expanded.length 0 expanded =
      (Reading.ofText text.length 0 text).expandNames := by
    rw [length]
    exact Reading.ofText_expandShorthand 0 text
  rw [parse_eq_ofText, read, parse_eq_ofText, Reading.expandNames]

/-- The shorthand in a longer name is expanded too, and the list is as open as it was. -/
example : Form.parse (Text.expandShorthand ['(', '\\', 'x', ' ', '\\']) =
    [.unclosed [.atom "λx" ⟨1, 3⟩, .atom "λ" ⟨4, 5⟩] ⟨0, 5⟩] := by cbv

end Redex
