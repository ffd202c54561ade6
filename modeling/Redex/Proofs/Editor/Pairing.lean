import Redex.Proofs.Editor.Session
import Redex.Proofs.Text.KeptPairs

/-!
# Pairs in an editor

Correcting an edit of a single character takes no parenthesis away from its partner. An opening one
that is typed makes a pair of its own, one that is deleted takes its partner with it, and all other
pairs are the same as before, wherever they stand then.

* `Draft.keepsPairs_typing`, `Draft.keepsPairs_deleting`: the two kinds of edits.
* `Draft.correct_keepsPairs`: the pairs of the text after either.
-/

namespace Redex

namespace Draft

/-- What a character puts into a text when it is typed: an opening parenthesis brings its partner,
and a closing one, which has its partner already or finds none, puts nothing in. -/
def typedText (c : Char) : Text :=
  if c = '(' then ['(', ')'] else if c = ')' then [] else [expandChar c]

/-- What is taken out of a text when the character at a position is deleted: an opening parenthesis
goes with its partner, and a closing one stays. -/
def takenOut (text : Text) (pos : Nat) (c : Char) : List Nat :=
  if c = '(' then pos :: (text.closing? pos).toList else if c = ')' then [] else [pos]

section

variable {left right : Text} {c : Char} {i j : Nat}

theorem isBalanced_typedText (c : Char) : (typedText c).isBalanced = true := by
  unfold typedText
  split
  · rfl
  · split
    · rfl
    · rename_i notOpening notClosing
      show Text.isBalanced (Text.expandShorthand [c]) = true
      rw [Text.isBalanced_expandShorthand]
      exact Text.isBalanced_singleton notOpening notClosing

/-- Only an opening parenthesis brings a pair with it. -/
theorem isPair_typedText :
    (typedText c).IsPair i j ↔ (if c = '(' then some (0, 1) else none) = some (i, j) := by
  by_cases isOpening : c = '('
  · subst isOpening
    rw [if_pos rfl, Option.some_inj, Prod.mk.injEq, eq_comm, eq_comm (a := 1)]
    exact Text.isPair_pair
  · rw [if_neg isOpening]
    refine iff_of_false (Text.not_isPair_of_length_le ?_) nofun
    rw [typedText, if_neg isOpening]
    split
    · exact Nat.zero_le 1
    · exact Nat.le_refl 1

theorem text_correct_typing (left right : Text) (c : Char) :
    (correct (left ++ right) ⟨left ++ c :: right, left.length + 1⟩).text =
      left ++ (typedText c ++ right) := by
  by_cases isOpening : c = '('
  · subst isOpening
    rw [(Corrects.pair left right).correct_eq]
    rfl
  by_cases isClosing : c = ')'
  · subst isClosing
    by_cases next : right.head? = some ')'
    · obtain ⟨right, rfl⟩ := List.head?_eq_some_iff.1 next
      rw [(Corrects.moved left right).correct_eq]
      rfl
    · rw [(Corrects.refused left right next).correct_eq]
      rfl
  rw [typedText, if_neg isOpening, if_neg isClosing]
  by_cases isShorthand : c = shorthand
  · subst isShorthand
    rw [(Corrects.glyph left right).correct_eq]
    rfl
  · rw [(Corrects.typed left right isShorthand isOpening isClosing).correct_eq,
      expandChar_of_ne isShorthand]
    rfl

/-- What is typed has its own pair or none, so the text around it is paired as it was. -/
theorem keepsPairs_typing (left right : Text) (c : Char) :
    (left ++ right).KeepsPairs (correct (left ++ right) ⟨left ++ c :: right, left.length + 1⟩).text
      (fun i => some (pushedBack left.length (typedText c).length i)) none
      (if c = '(' then some (left.length, left.length + 1) else none) := by
  have gained : (if c = '(' then some (left.length, left.length + 1) else none) =
      (if c = '(' then some (0, 1) else none).map fun pair : Nat × Nat =>
        (left.length + pair.1, left.length + pair.2) := by
    split <;> rfl
  rw [text_correct_typing, gained]
  exact Text.keepsPairs_insert (isBalanced_typedText c) fun i j => isPair_typedText

/-- A parenthesis goes with its partner or not at all. -/
theorem keepsPairs_deleting (balanced : (left ++ c :: right).isBalanced = true) :
    let before := left ++ c :: right
    before.KeepsPairs (correct before ⟨left ++ right, left.length⟩).text
      (closedUp (takenOut before left.length c))
      (if c = '(' then (before.closing? left.length).map (left.length, ·) else none) none := by
  intro before
  by_cases isOpening : c = '('
  · subst isOpening
    cases unclosed : Text.depthAfter? 0 right with
    | some depth =>
      rw [Text.isBalanced_unmatched unclosed] at balanced
      cases balanced
    | none =>
      obtain ⟨inside, right, rfl, closes⟩ := Text.exists_unmatched unclosed
      have matched := Text.isBalanced_iff.2 closes
      have partner : before.closing? left.length = some (left.length + 1 + inside.length) :=
        Text.closing?_matched matched
      rw [(Corrects.unpair left right matched).correct_eq, takenOut, if_pos rfl, if_pos rfl,
        partner]
      apply (Text.keepsPairs_parenthesize matched).symm
      intro i' i
      rw [Option.some_inj]
      exact closedUp_pair
  by_cases isClosing : c = ')'
  · subst isClosing
    rw [(Corrects.kept left right).correct_eq]
    exact Text.keepsPairs_refl _
  · rw [(Corrects.deleted left right isOpening isClosing).correct_eq, takenOut, if_neg isOpening,
      if_neg isClosing, if_neg isOpening]
    have alone (i j : Nat) : Text.IsPair [c] i j ↔ none = some (i, j) :=
      iff_of_false (Text.not_isPair_of_length_le (Nat.le_refl 1)) nofun
    apply (Text.keepsPairs_insert (Text.isBalanced_singleton isOpening isClosing) alone).symm
    intro i' i
    rw [Option.some_inj]
    exact closedUp_singleton

end

/-- **A correction takes no parenthesis away from its partner.** In a balanced text every one that
is opened has a partner. When a character is typed just before the cursor, or one is deleted at it,
the text is balanced again and its pairs are those that it had, except for the pair around the
cursor that an opening parenthesis makes when it is typed, and the pair that it was in when it is
deleted. -/
theorem correct_keepsPairs {before : Text} (balanced : before.isBalanced = true) :
    (∀ i, before[i]? = some '(' → ∃ j, before.IsPair i j) ∧
    (∀ pos c, pos ≤ before.length →
      let corrected := (correct before ⟨before.insertAt pos c, pos + 1⟩).text
      corrected.isBalanced = true ∧
        before.KeepsPairs corrected (fun i => some (pushedBack pos (typedText c).length i)) none
          (if c = '(' then some (pos, pos + 1) else none)) ∧
    ∀ pos c, before[pos]? = some c →
      let corrected := (correct before ⟨before.eraseIdx pos, pos⟩).text
      corrected.isBalanced = true ∧
        before.KeepsPairs corrected (closedUp (takenOut before pos c))
          (if c = '(' then (before.closing? pos).map (pos, ·) else none) none := by
  have corrected (after : Draft) : (correct before after).text.isBalanced = true :=
    (corrects_iff.2 rfl).isBalanced balanced
  refine ⟨fun i => Text.exists_isPair balanced, ?_, ?_⟩
  · intro pos c within
    refine ⟨corrected _, ?_⟩
    have keeps := keepsPairs_typing (before.take pos) (before.drop pos) c
    rwa [List.take_append_drop, List.length_take_of_le within] at keeps
  · intro pos c here
    refine ⟨corrected _, ?_⟩
    obtain ⟨bound, char⟩ := List.getElem?_eq_some_iff.1 here
    have split : before = before.take pos ++ c :: before.drop (pos + 1) := by
      rw [← char, ← List.drop_eq_getElem_cons bound, List.take_append_drop]
    have length : (before.take pos).length = pos := List.length_take_of_le (Nat.le_of_lt bound)
    generalize before.take pos = left at split length
    generalize before.drop (pos + 1) = right at split
    subst split length
    rw [Text.eraseIdx_length]
    exact keepsPairs_deleting balanced

/-- A parenthesis that is typed in front of a list pushes the list back, and one that is deleted in
front of it takes a partner with it that stands behind the list. -/
theorem correct_keepsPairs_nested :
    let before : Text := ['(', 'f', '(', 'x', ')', ')']
    let typed := (correct before ⟨before.insertAt 1 '(', 2⟩).text
    let deleted := (correct before ⟨before.eraseIdx 0, 0⟩).text
    before.isBalanced = true ∧ 1 ≤ before.length ∧ before[0]? = some '(' ∧
      typed.IsPair 1 2 ∧ typed.IsPair 4 6 ∧ deleted.IsPair 1 3 := by
  intro before typed deleted
  have balanced : before.isBalanced = true := rfl
  obtain ⟨_, typing, deleting⟩ := correct_keepsPairs balanced
  obtain ⟨_, typed_keeps⟩ := typing 1 '(' (by decide)
  obtain ⟨_, deleted_keeps⟩ := deleting 0 '(' rfl
  have inner : before.IsPair 2 4 := by decide
  refine ⟨balanced, by decide, rfl, ?_, ?_, ?_⟩
  · exact (typed_keeps.after_iff 1 2).2 (.inl rfl)
  · exact (typed_keeps.after_iff 4 6).2 (.inr ⟨2, 4, rfl, rfl, inner⟩)
  · exact (deleted_keeps.after_iff 1 3).2 (.inr ⟨2, 4, rfl, rfl, inner⟩)

end Draft

end Redex
