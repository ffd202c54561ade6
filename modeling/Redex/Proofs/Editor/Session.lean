import Redex.Editor.Session
import Redex.Proofs.Editor.Correction

/-!
# What a session keeps

Whatever an editing surface reports, what it is told to show can be shown: the parentheses of the
text have partners, there is no shorthand in it, and the cursor is not past its end.

* `Draft.Corrects.isBalanced`, `Draft.Corrects.isSettled`: what each rule of correction keeps.
* `Editor.run_shows`: what a session shows after any edits.
-/

namespace Redex

namespace Draft

/-- Whether the shorthand is replaced in a draft, and the cursor is in its text. -/
structure IsSettled (draft : Draft) : Prop where
  expanded : shorthand ∉ draft.text
  inside : draft.cursor ≤ draft.text.length

theorem isSettled_expandShorthand {text : Text} {cursor : Nat} (inside : cursor ≤ text.length) :
    IsSettled ⟨text.expandShorthand, cursor⟩ := by
  refine ⟨Text.shorthand_not_mem_expandShorthand text, ?_⟩
  rw [Text.length_expandShorthand]
  exact inside

section

variable {before : Text} {after result : Draft}

/-- No rule leaves a parenthesis without a partner, whichever it adds or takes away. -/
theorem Corrects.isBalanced (corrects : Corrects before after result)
    (balanced : before.isBalanced = true) : result.text.isBalanced = true := by
  cases corrects with
  | glyph left right =>
    have alone : Text.isBalanced [Redex.glyph] = true := rfl
    exact (Text.isBalanced_insert alone).trans balanced
  | pair left right =>
    have both : Text.isBalanced ['(', ')'] = true := rfl
    exact (Text.isBalanced_insert both).trans balanced
  | moved | refused | kept => exact balanced
  | typed left right notShorthand notOpening notClosing =>
    have alone := Text.isBalanced_singleton notOpening notClosing
    exact (Text.isBalanced_insert alone).trans balanced
  | @unpair left right inside matched =>
    have whole : (left ++ (('(' :: (inside ++ [')'])) ++ right)).isBalanced = true := by
      simpa using balanced
    rw [Text.isBalanced_insert (Text.isBalanced_parenthesized matched)] at whole
    exact (Text.isBalanced_insert matched).trans whole
  | unmatched left unclosed =>
    rw [Text.isBalanced_unmatched unclosed] at balanced
    cases balanced
  | deleted left right notOpening notClosing =>
    have alone := Text.isBalanced_singleton notOpening notClosing
    exact (Text.isBalanced_insert alone).symm.trans balanced
  | replaced notTyped notDeleted accepted =>
    rw [Text.isBalanced_expandShorthand]
    exact accepted
  | undone => exact balanced

theorem Corrects.isSettled (corrects : Corrects before after result)
    (expanded : shorthand ∉ before) (inside : after.cursor ≤ after.text.length) :
    result.IsSettled := by
  -- a rule puts no shorthand where there was none, nor a cursor behind what it takes away
  cases corrects with
  | glyph left right =>
    have other : shorthand ≠ Redex.glyph := by decide
    exact ⟨by simpa [other] using expanded, by simp⟩
  | pair left right =>
    have opening : shorthand ≠ '(' := by decide
    have closing : shorthand ≠ ')' := by decide
    exact ⟨by simpa [opening, closing] using expanded, by simp⟩
  | moved | refused | kept => exact ⟨expanded, by simp⟩
  | typed left right notShorthand => exact ⟨by simpa [notShorthand.symm] using expanded, by simp⟩
  | unpair | unmatched | deleted =>
    refine ⟨?_, by simp⟩
    simp only [List.mem_append, List.mem_cons, not_or] at expanded ⊢
    simp only [expanded, not_false_eq_true, and_self]
  | replaced => exact isSettled_expandShorthand inside
  | undone => exact ⟨expanded, Nat.sub_le _ _⟩

end

end Draft

namespace Editor

/-- What a session that showed a draft shows after some edits of the surface. -/
def run (shown : Draft) (edits : List Surface) : Draft := edits.foldl input shown

/-- What a session that begins with a balanced text can begin with. -/
inductive Starts : Draft → Prop where
  | blank : Starts blank
  | opening {text : Text} : text.isBalanced = true → Starts (opening text)

theorem corrects_input (shown : Draft) (surface : Surface) :
    Draft.Corrects shown.text surface.draft (input shown surface) := Draft.corrects_iff.2 rfl

/-- A session that shows a settled draft goes on to show settled drafts. -/
theorem isSettled_run {shown : Draft} (settled : shown.IsSettled) (edits : List Surface) :
    (run shown edits).IsSettled := by
  refine List.foldlRecOn edits input settled ?_
  intro shown settled surface _
  exact (corrects_input shown surface).isSettled settled.expanded (Nat.min_le_right _ _)

/-- A session that shows a balanced text goes on to show balanced ones, whatever the surface makes
of it. -/
theorem isBalanced_run {shown : Draft} (balanced : shown.text.isBalanced = true)
    (edits : List Surface) : (run shown edits).text.isBalanced = true := by
  refine List.foldlRecOn (motive := fun shown => shown.text.isBalanced = true) edits input
    balanced ?_
  intro shown balanced surface _
  exact (corrects_input shown surface).isBalanced balanced

theorem Starts.isBalanced {shown : Draft} (starts : Starts shown) :
    shown.text.isBalanced = true := by
  cases starts with
  | blank => rfl
  | @opening text balanced => exact Text.isBalanced_expandShorthand.trans balanced

theorem isSettled_blank : blank.IsSettled := ⟨List.not_mem_nil, Nat.le_refl 0⟩

theorem isSettled_opening (text : Text) : (opening text).IsSettled :=
  Draft.isSettled_expandShorthand (Nat.le_refl _)

theorem Starts.isSettled {shown : Draft} (starts : Starts shown) : shown.IsSettled := by
  cases starts with
  | blank => exact isSettled_blank
  | @opening text _ => exact isSettled_opening text

/-- **A session that begins with a balanced text shows sound drafts only.** After any edits of the
surface, whatever it holds and wherever its selection is, the text is balanced and has no
shorthand, and nothing is selected but a cursor that is in the text. -/
theorem run_shows {shown : Draft} (starts : Starts shown) (edits : List Surface) :
    let surface := (run shown edits).surface
    surface.text.isBalanced = true ∧ shorthand ∉ surface.text ∧
      ∃ cursor, surface.selection = .collapsed cursor ∧ cursor ≤ surface.text.length := by
  have settled := isSettled_run starts.isSettled edits
  exact ⟨isBalanced_run starts.isBalanced edits, settled.expanded, _, rfl, settled.inside⟩

/-- The shorthand is typed, the parenthesis in front is deleted with its partner, and a text that is
not balanced is put in place of the whole; two of the selections go past the end. -/
theorem run_shows_unwrapped :
    let text : Text := ['(', 'f', ')']
    let edits : List Surface :=
      [⟨['(', '\\', 'f', ')'], ⟨2, 9⟩⟩, ⟨['λ', 'f', ')'], ⟨0, 0⟩⟩, ⟨[')', ')', '('], ⟨7, 1⟩⟩]
    let surface := (run (opening text) edits).surface
    text.isBalanced = true ∧ surface = ⟨['λ', 'f'], .collapsed 2⟩ ∧
      surface.text.isBalanced = true ∧ shorthand ∉ surface.text ∧
        ∃ cursor, surface.selection = .collapsed cursor ∧ cursor ≤ surface.text.length := by
  intro text edits surface
  have balanced : text.isBalanced = true := rfl
  exact ⟨balanced, by decide, run_shows (.opening balanced) edits⟩

end Editor

end Redex
