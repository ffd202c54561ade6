import Redex.Editor.Correction
import Redex.Proofs.Text.Brackets

/-!
# The rules of correction

What becomes of an edit, told by the parts of the text on both sides of the cursor. There is one
rule for each kind of edit, and every edit is of one kind.

* `Draft.corrects_iff`: the rules are those of `Draft.correct`.
-/

namespace Redex

theorem Text.eraseIdx_length (left right : Text) (c : Char) :
    (left ++ c :: right).eraseIdx left.length = left ++ right := by
  rw [List.eraseIdx_append_of_length_le (Nat.le_refl _), Nat.sub_self, List.eraseIdx_cons_zero]

namespace Draft

section

variable {before left right : Text} {after : Draft} {c : Char}

/-- A character was typed if the text fell apart at the cursor to take it in. -/
theorem typed?_eq_some_iff :
    typed? before after = some c ↔
      ∃ left right, before = left ++ right ∧ after = ⟨left ++ c :: right, left.length + 1⟩ := by
  obtain ⟨text, cursor⟩ := after
  rw [typed?]
  cases cursor with
  | zero => simp
  | succ pos =>
    rw [if_neg (Nat.succ_ne_zero pos), Nat.add_sub_cancel, Text.insertedAt?_eq_some_iff]
    simp only [mk.injEq, Nat.succ.injEq, eq_comm]

/-- A character was deleted if the text fell apart at the cursor to let it go. -/
theorem deleted?_eq_some_iff :
    deleted? before after = some c ↔
      ∃ left right, before = left ++ c :: right ∧ after = ⟨left ++ right, left.length⟩ := by
  obtain ⟨text, cursor⟩ := after
  rw [deleted?, Text.insertedAt?_eq_some_iff]
  constructor
  · rintro ⟨left, right, rfl, rfl, rfl⟩
    exact ⟨left, right, rfl, rfl⟩
  · rintro ⟨left, right, rfl, same⟩
    cases same
    exact ⟨left, right, rfl, rfl, rfl⟩

theorem typed?_eq_none (other : after.text.length ≠ before.length + 1) :
    typed? before after = none := by
  apply Option.eq_none_iff_forall_ne_some.2
  intro c typed
  obtain ⟨left, right, rfl, rfl⟩ := typed?_eq_some_iff.1 typed
  simp only [List.length_append, List.length_cons] at other
  omega

theorem deleted?_eq_none (other : before.length ≠ after.text.length + 1) :
    deleted? before after = none := by
  apply Option.eq_none_iff_forall_ne_some.2
  intro c deleted
  obtain ⟨left, right, rfl, rfl⟩ := deleted?_eq_some_iff.1 deleted
  simp only [List.length_append, List.length_cons] at other
  omega

theorem correct_typing :
    correct (left ++ right) ⟨left ++ c :: right, left.length + 1⟩ =
      afterTyping (left ++ right) ⟨left ++ c :: right, left.length + 1⟩ c := by
  rw [correct, typed?_eq_some_iff.2 ⟨left, right, rfl, rfl⟩]

theorem correct_deleting :
    correct (left ++ c :: right) ⟨left ++ right, left.length⟩ =
      afterDeleting (left ++ c :: right) ⟨left ++ right, left.length⟩ c := by
  have notTyped : typed? (left ++ c :: right) ⟨left ++ right, left.length⟩ = none := by
    apply typed?_eq_none
    simp only [List.length_append, List.length_cons]
    omega
  rw [correct, notTyped, deleted?_eq_some_iff.2 ⟨left, right, rfl, rfl⟩]

end

/-- What becomes of a text with an edit, and where the cursor is put. -/
inductive Corrects : Text → Draft → Draft → Prop where
  /-- The shorthand that is typed is shown as the glyph. -/
  | glyph (left right : Text) :
    Corrects (left ++ right) ⟨left ++ shorthand :: right, left.length + 1⟩
      ⟨left ++ Redex.glyph :: right, left.length + 1⟩
  /-- An opening parenthesis brings its partner. -/
  | pair (left right : Text) :
    Corrects (left ++ right) ⟨left ++ '(' :: right, left.length + 1⟩
      ⟨left ++ '(' :: ')' :: right, left.length + 1⟩
  /-- A closing parenthesis before one only moves the cursor over that one. -/
  | moved (left right : Text) :
    Corrects (left ++ ')' :: right) ⟨left ++ ')' :: ')' :: right, left.length + 1⟩
      ⟨left ++ ')' :: right, left.length + 1⟩
  /-- Any other closing parenthesis is refused. -/
  | refused (left right : Text) : right.head? ≠ some ')' →
    Corrects (left ++ right) ⟨left ++ ')' :: right, left.length + 1⟩
      ⟨left ++ right, left.length⟩
  | typed (left right : Text) {c : Char} : c ≠ shorthand → c ≠ '(' → c ≠ ')' →
    Corrects (left ++ right) ⟨left ++ c :: right, left.length + 1⟩
      ⟨left ++ c :: right, left.length + 1⟩
  /-- With an opening parenthesis its partner is deleted. -/
  | unpair (left right : Text) {inside : Text} : inside.isBalanced = true →
    Corrects (left ++ '(' :: (inside ++ ')' :: right))
      ⟨left ++ (inside ++ ')' :: right), left.length⟩ ⟨left ++ (inside ++ right), left.length⟩
  /-- An opening parenthesis without a partner is deleted alone. -/
  | unmatched (left : Text) {right : Text} {depth : Nat} : right.depthAfter? 0 = some depth →
    Corrects (left ++ '(' :: right) ⟨left ++ right, left.length⟩ ⟨left ++ right, left.length⟩
  /-- A closing parenthesis is not deleted. -/
  | kept (left right : Text) :
    Corrects (left ++ ')' :: right) ⟨left ++ right, left.length⟩
      ⟨left ++ ')' :: right, left.length⟩
  | deleted (left right : Text) {c : Char} : c ≠ '(' → c ≠ ')' →
    Corrects (left ++ c :: right) ⟨left ++ right, left.length⟩ ⟨left ++ right, left.length⟩
  /-- Any other edit is accepted if it leaves the text balanced. -/
  | replaced {before : Text} {after : Draft} : typed? before after = none →
    deleted? before after = none → after.text.isBalanced = true →
      Corrects before after ⟨after.text.expandShorthand, after.cursor⟩
  /-- And it is undone if not. -/
  | undone {before : Text} {after : Draft} : typed? before after = none →
    deleted? before after = none → after.text.isBalanced = false →
      Corrects before after ⟨before, before.length - (after.text.length - after.cursor)⟩

theorem Corrects.correct_eq {before : Text} {after result : Draft}
    (corrects : Corrects before after result) : correct before after = result := by
  cases corrects with
  | glyph left right =>
    rw [correct_typing, afterTyping, if_pos rfl]
    simp
  | pair left right =>
    have inserted := Text.insertAt_append (left ++ ['(']) right ')'
    rw [correct_typing, afterTyping, if_neg (by decide), if_pos rfl]
    simpa using inserted
  | moved left right =>
    rw [correct_typing, afterTyping, if_neg (by decide), if_neg (by decide), if_pos rfl]
    simp
  | refused left right other =>
    have next : (left ++ ')' :: right)[left.length + 1]? = right.head? := by
      simp [List.head?_eq_getElem?, List.getElem?_append_right]
    rw [correct_typing, afterTyping, if_neg (by decide), if_neg (by decide), if_pos rfl,
      if_neg (next ▸ other)]
    rfl
  | typed left right notShorthand notOpening notClosing =>
    rw [correct_typing, afterTyping, if_neg notShorthand, if_neg notOpening, if_neg notClosing]
  | @unpair left right inside balanced =>
    have closing : (left ++ '(' :: (inside ++ ')' :: right)).eraseIdx
        (left.length + 1 + inside.length) = left ++ '(' :: (inside ++ right) := by
      have split := Text.eraseIdx_length (left ++ '(' :: inside) right ')'
      simpa [Nat.add_assoc, Nat.add_comm 1] using split
    rw [correct_deleting, afterDeleting, if_pos rfl, Text.closing?_matched balanced]
    simp only [closing, Text.eraseIdx_length]
  | unmatched left unclosed =>
    rw [correct_deleting, afterDeleting, if_pos rfl, Text.closing?_unmatched unclosed]
  | kept left right => rw [correct_deleting, afterDeleting, if_neg (by decide), if_pos rfl]
  | deleted left right notOpening notClosing =>
    rw [correct_deleting, afterDeleting, if_neg notOpening, if_neg notClosing]
  | replaced notTyped notDeleted balanced =>
    rw [correct, notTyped, notDeleted]
    exact if_pos balanced
  | undone notTyped notDeleted unbalanced =>
    rw [correct, notTyped, notDeleted]
    exact if_neg (by rw [unbalanced]; exact Bool.false_ne_true)

/-- Every edit is of one of the kinds that there are rules for. -/
theorem exists_corrects (before : Text) (after : Draft) :
    ∃ result, Corrects before after result := by
  cases typing : typed? before after with
  | some c =>
    obtain ⟨left, right, rfl, rfl⟩ := typed?_eq_some_iff.1 typing
    by_cases isShorthand : c = shorthand
    · subst isShorthand
      exact ⟨_, .glyph left right⟩
    by_cases isOpening : c = '('
    · subst isOpening
      exact ⟨_, .pair left right⟩
    by_cases isClosing : c = ')'
    · subst isClosing
      by_cases next : right.head? = some ')'
      · obtain ⟨right, rfl⟩ := List.head?_eq_some_iff.1 next
        exact ⟨_, .moved left right⟩
      · exact ⟨_, .refused left right next⟩
    · exact ⟨_, .typed left right isShorthand isOpening isClosing⟩
  | none =>
    cases deleting : deleted? before after with
    | some c =>
      obtain ⟨left, right, rfl, rfl⟩ := deleted?_eq_some_iff.1 deleting
      by_cases isOpening : c = '('
      · subst isOpening
        cases depth : Text.depthAfter? 0 right with
        | none =>
          obtain ⟨inside, right, rfl, closes⟩ := Text.exists_unmatched depth
          exact ⟨_, .unpair left right (Text.isBalanced_iff.2 closes)⟩
        | some depth => exact ⟨_, .unmatched left depth⟩
      by_cases isClosing : c = ')'
      · subst isClosing
        exact ⟨_, .kept left right⟩
      · exact ⟨_, .deleted left right isOpening isClosing⟩
    | none =>
      cases balanced : after.text.isBalanced with
      | true => exact ⟨_, .replaced typing deleting balanced⟩
      | false => exact ⟨_, .undone typing deleting balanced⟩

/-- The rules of correction leave no edit out, and no two of them differ about one. -/
theorem corrects_iff {before : Text} {after result : Draft} :
    Corrects before after result ↔ correct before after = result := by
  constructor
  · exact Corrects.correct_eq
  · rintro rfl
    obtain ⟨result, corrects⟩ := exists_corrects before after
    rw [corrects.correct_eq]
    exact corrects

end Draft

end Redex
