import Redex.Glyph
import Redex.Text.Brackets

/-!
# Correction of edits

An editor that keeps the parentheses of a text balanced looks at the text before and after an
edit, and at where the cursor was left, and decides what the text becomes. An edit of a single
character is recognised and completed: an opening parenthesis brings its partner, a closing one
is only moved over, and neither goes without the other. Anything else is accepted if what it
leaves is balanced, and undone if not.

* `Text.insertedAt?_eq_some_iff`: when a text is another one with a character inserted.
-/

namespace Redex

/-- A text with a cursor in it. -/
structure Draft where
  text : Text
  cursor : Nat
  deriving DecidableEq, Repr

namespace Text

/-- The character at `pos` of `after`, if `after` without it is `before`. -/
def insertedAt? (before after : Text) (pos : Nat) : Option Char :=
  if after.eraseIdx pos = before then after[pos]? else none

def insertAt (text : Text) (pos : Nat) (c : Char) : Text :=
  text.take pos ++ c :: text.drop pos

theorem insertAt_append (left right : Text) (c : Char) :
    insertAt (left ++ right) left.length c = left ++ c :: right := by
  rw [insertAt, List.take_left, List.drop_left]

/-- A character was inserted if the texts agree before it and after it. -/
theorem insertedAt?_eq_some_iff {before after : Text} {pos : Nat} {c : Char} :
    before.insertedAt? after pos = some c ↔
      ∃ left right, before = left ++ right ∧ after = left ++ c :: right ∧ left.length = pos := by
  unfold insertedAt?
  constructor
  · intro h
    split at h
    · rename_i without
      obtain ⟨bound, char⟩ := List.getElem?_eq_some_iff.1 h
      refine ⟨after.take pos, after.drop (pos + 1), ?_, ?_, ?_⟩
      · rw [← without, List.eraseIdx_eq_take_drop_succ]
      · rw [← char, List.getElem_cons_drop, List.take_append_drop]
      · rw [List.length_take]
        omega
    · cases h
  · rintro ⟨left, right, rfl, rfl, rfl⟩
    have without : (left ++ c :: right).eraseIdx left.length = left ++ right := by
      rw [List.eraseIdx_append_of_length_le (Nat.le_refl _), Nat.sub_self]
      rfl
    have char : (left ++ c :: right)[left.length]? = some c := by
      rw [List.getElem?_append_right (Nat.le_refl _), Nat.sub_self]
      rfl
    rw [if_pos without, char]

end Text

namespace Draft

/-- What becomes of a text into which `c` was typed just before the cursor of `after`. -/
def afterTyping (before : Text) (after : Draft) (c : Char) : Draft :=
  if c = shorthand then ⟨after.text.set (after.cursor - 1) glyph, after.cursor⟩
  else if c = '(' then ⟨after.text.insertAt after.cursor ')', after.cursor⟩
  else if c = ')' then
    if after.text[after.cursor]? = some ')' then ⟨before, after.cursor⟩
    else ⟨before, after.cursor - 1⟩
  else after

/-- What becomes of a text from which `c` was deleted at the cursor of `after`. -/
def afterDeleting (before : Text) (after : Draft) (c : Char) : Draft :=
  if c = '(' then
    match before.closing? after.cursor with
    | some stop => ⟨(before.eraseIdx stop).eraseIdx after.cursor, after.cursor⟩
    | none => after
  else if c = ')' then ⟨before, after.cursor⟩
  else after

/-- What becomes of a text that was replaced by another one. A refused edit leaves the cursor as
far from the end as the edit did. -/
def afterReplacing (before : Text) (after : Draft) : Draft :=
  if after.text.isBalanced then ⟨after.text.expandShorthand, after.cursor⟩
  else ⟨before, before.length - (after.text.length - after.cursor)⟩

/-- The character that was typed just before the cursor of `after`, if that was the whole edit. -/
def typed? (before : Text) (after : Draft) : Option Char :=
  if after.cursor = 0 then none else before.insertedAt? after.text (after.cursor - 1)

def deleted? (before : Text) (after : Draft) : Option Char :=
  after.text.insertedAt? before after.cursor

/-- What a text becomes when an edit makes it `after`. -/
def correct (before : Text) (after : Draft) : Draft :=
  match typed? before after, deleted? before after with
  | some c, _ => afterTyping before after c
  | none, some c => afterDeleting before after c
  | none, none => afterReplacing before after

end Draft

end Redex
