import Redex.Proofs.Analysis.Blame

/-!
# Lists that are never closed

A text that opens more parentheses than it closes ends in the middle of a list. There may be more
lists that are open at that point, but they are inside one another, and only the outermost of them
is reported.

* `exists_unclosedList_iff`: when such a list is reported.
* `unclosedList_last`: which list it is, and that nothing is reported after it.
* `analyze_unclosed`: the same in terms of counts, and what a balanced text has instead.
-/

namespace Redex

/-- Whether a parenthesis is the first one that is opened and never closed. -/
structure Text.FirstUnclosed (text : Text) (pos : Nat) : Prop where
  opening : text[pos]? = some '('
  unclosed : text.closing? pos = none
  first : ∀ earlier < pos, text[earlier]? = some '(' → text.closing? earlier ≠ none

theorem Text.firstUnclosed_append {before inside : Text} {depth : Nat}
    (balanced : before.isBalanced = true) (unclosed : inside.depthAfter? 0 = some depth) :
    FirstUnclosed (before ++ '(' :: inside) before.length where
  opening := by simp
  unclosed := closing?_unmatched unclosed
  first earlier lt opening := by
    rw [List.getElem?_append_left lt] at opening
    exact closing?_ne_none_of_isBalanced balanced opening

section

variable {text : Text} {forms : List Form}

theorem unclosedList_not_mem (closed : ∀ form ∈ forms, form.IsClosed) (span : Span) :
    .error ⟨.unclosedList, span⟩ ∉
      forms.map fun form => (Term.ofForm form).map Analysis.ofTerm := by
  intro mem
  obtain ⟨form, isForm, error⟩ := mem_map_error.1 mem
  exact Term.cause_ne_unclosedList (closed form isForm) error rfl

/-- A list is reported as never closed if some parenthesis is open at the end of the text, and only
then. -/
theorem exists_unclosedList_iff :
    (∃ span, .error ⟨.unclosedList, span⟩ ∈ analyze text) ↔
      ∃ depth, text.depthAfter? 0 = some (depth + 1) := by
  have extent := Form.extent_parse text
  unfold analyze
  generalize Form.parse text = forms at extent
  cases extent with
  | whole spells =>
    have zero := Text.isBalanced_iff.1 spells.isBalanced
    constructor
    · rintro ⟨span, mem⟩
      exact absurd mem (unclosedList_not_mem spells.isClosed span)
    · rintro ⟨depth, after⟩
      rw [zero] at after
      cases after
  | @stray front rest _ spells =>
    have ends : Text.depthAfter? 0 (front ++ ')' :: rest) = none :=
      Text.depthAfter?_append_left spells.isBalanced
    constructor
    · rintro ⟨span, mem⟩
      exact absurd mem (unclosedList_not_mem spells.isClosed span)
    · rintro ⟨depth, after⟩
      rw [ends] at after
      cases after
  | @cut before inside closed children depth spells after =>
    have stays : Text.depthAfter? (0 + 1) inside = some (depth + 1) :=
      Text.depthAfter?_add 1 after
    constructor
    · intro _
      exact ⟨depth, (Text.depthAfter?_append_left spells.isBalanced).trans stays⟩
    · intro _
      exact ⟨_, mem_map_error.2 ⟨_, List.mem_append_right closed List.mem_cons_self, rfl⟩⟩

/-- The list that is reported as never closed begins where the first such parenthesis stands, goes
to the end of the text, and is the last form of all. -/
theorem unclosedList_last {span : Span} (mem : .error ⟨.unclosedList, span⟩ ∈ analyze text) :
    text.FirstUnclosed span.start ∧ span.stop = text.length ∧
      ∃ front, analyze text = front ++ [.error ⟨.unclosedList, span⟩] ∧
        ∀ other, .error ⟨.unclosedList, other⟩ ∉ front := by
  have extent := Form.extent_parse text
  unfold analyze at mem ⊢
  generalize Form.parse text = forms at extent mem
  cases extent with
  | whole spells => exact absurd mem (unclosedList_not_mem spells.isClosed span)
  | stray _ spells => exact absurd mem (unclosedList_not_mem spells.isClosed span)
  | cut children spells after =>
    have closed := unclosedList_not_mem spells.isClosed
    rw [List.map_append, List.map_singleton] at mem ⊢
    rcases List.mem_append.1 mem with front | last
    · exact absurd front (closed span)
    · cases List.mem_singleton.1 last
      exact ⟨Text.firstUnclosed_append spells.isBalanced after, rfl, _, rfl, closed⟩

end

/-- **A list is reported as never closed exactly if there is one.** That is so if a text opens more
parentheses than it closes, and none of its beginnings closes more than it opens. One list is
reported then, after everything else: the one that begins with the first parenthesis without a
partner, which takes up the rest of the text. If all parentheses have partners no token of the text
is outside the forms. -/
theorem analyze_unclosed (text : Text) :
    ((∃ span, .error ⟨.unclosedList, span⟩ ∈ analyze text) ↔
      (∀ part, part <+: text → part.count ')' ≤ part.count '(') ∧
        text.count ')' < text.count '(') ∧
    (∀ span, .error ⟨.unclosedList, span⟩ ∈ analyze text →
      text.FirstUnclosed span.start ∧ span.stop = text.length ∧
        ∃ front, analyze text = front ++ [.error ⟨.unclosedList, span⟩] ∧
          ∀ other, .error ⟨.unclosedList, other⟩ ∉ front) ∧
    (text.isBalanced = true →
      (∀ span, .error ⟨.unclosedList, span⟩ ∉ analyze text) ∧
        ∀ token ∈ Token.scan text, ∃ form ∈ Form.parse text, token ∈ form.tokens ∧
          form.span.start ≤ token.span.start ∧ token.span.stop ≤ form.span.stop) := by
  refine ⟨exists_unclosedList_iff.trans Text.exists_depth_succ_iff,
    fun span => unclosedList_last, fun balanced => ⟨?_, ?_⟩⟩
  · exact unclosedList_not_mem (Form.spells_of_isBalanced balanced).isClosed
  · intro token mem
    exact Form.exists_form_of_mem_scan balanced mem

/-- Two lists are open at the end of the text, and the one inside the other is not reported. -/
example : analyze ['a', ' ', '(', '(', ')', '('] =
    [.ok (.ofTerm (.var "a")), .error ⟨.unclosedList, ⟨2, 6⟩⟩] := by cbv

end Redex
