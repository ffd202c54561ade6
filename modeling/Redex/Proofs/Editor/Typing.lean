import Redex.Proofs.Editor.Session

/-!
# Typing

A text that is typed goes through a correction with every character, and the parentheses that it
opens get their partners at once. These wait behind the cursor until the text closes them, and if
it closes all of them nothing tells it from a text that is pasted.

* `Editor.paste_awaiting`: what one character does to the partners that wait.
* `Editor.typeText_eq`: what a typed text leaves, and when pasting it leaves the same.
-/

namespace Redex

namespace Editor

/-- What a session shows after a text was put in at the cursor, which was then moved behind it. -/
def paste (shown : Draft) (pasted : Text) : Draft :=
  input shown ⟨shown.text.take shown.cursor ++ pasted ++ shown.text.drop shown.cursor,
    .collapsed (shown.cursor + pasted.length)⟩

def typeText (shown : Draft) (typed : Text) : Draft :=
  typed.foldl (fun shown c => paste shown [c]) shown

/-- A draft with the cursor between two texts, and behind it as many closing parentheses as wait
for a typed text to come to them. -/
def awaiting (left right : Text) (count : Nat) : Draft :=
  ⟨left ++ (List.replicate count ')' ++ right), left.length⟩

section

variable {left right pasted typed : Text}

theorem paste_eq :
    paste ⟨left ++ right, left.length⟩ pasted =
      Draft.correct (left ++ right)
        ⟨left ++ (pasted ++ right), left.length + pasted.length⟩ := by
  have inside : left.length + pasted.length ≤ (left ++ (pasted ++ right)).length := by
    simp
  rw [paste, input, Surface.draft]
  simp only [List.take_left, List.drop_left, List.append_assoc, Span.collapsed,
    Nat.min_eq_left inside]

/-- A typed parenthesis that opens brings another one to wait for, and one that closes steps over
the one that waits. -/
theorem paste_awaiting {count next : Nat} {c : Char} (depth : depthAfter? count c = some next) :
    paste (awaiting left right count) [c] = awaiting (left ++ [expandChar c]) right next := by
  rw [awaiting, paste_eq]
  apply Draft.Corrects.correct_eq
  -- the character is typed in front of the partners that wait already
  let behind := List.replicate count ')' ++ right
  by_cases opening : c = '('
  · subst opening
    cases depth
    rw [expandChar_of_ne (by decide)]
    simpa [awaiting, List.replicate_succ] using Draft.Corrects.pair left behind
  by_cases closing : c = ')'
  · subst closing
    cases count with
    | zero => cases depth
    | succ count =>
      cases depth
      rw [expandChar_of_ne (by decide)]
      have moved := Draft.Corrects.moved left (List.replicate next ')' ++ right)
      simpa [awaiting, List.replicate_succ] using moved
  rw [depthAfter?_other count opening closing] at depth
  cases depth
  by_cases isShorthand : c = shorthand
  · subst isShorthand
    simpa [awaiting, expandChar] using Draft.Corrects.glyph left behind
  · rw [expandChar_of_ne isShorthand]
    simpa [awaiting] using Draft.Corrects.typed left behind isShorthand opening closing

/-- As many partners wait after a typed text as parentheses are open then. -/
theorem typeText_awaiting {count next : Nat} (depth : typed.depthAfter? count = some next) :
    typeText (awaiting left right count) typed =
      awaiting (left ++ typed.expandShorthand) right next := by
  induction typed generalizing left count with
  | nil =>
    cases depth
    rw [Text.expandShorthand, List.map_nil, List.append_nil]
    rfl
  | cons c rest ih =>
    obtain ⟨between, first, depth⟩ := Option.bind_eq_some_iff.1 depth
    rw [typeText, List.foldl_cons, paste_awaiting first]
    have tail : typeText (awaiting (left ++ [expandChar c]) right between) rest =
        awaiting (left ++ [expandChar c] ++ Text.expandShorthand rest) right next := ih depth
    rw [List.append_assoc] at tail
    exact tail

theorem paste_of_isBalanced (more : pasted.length ≠ 1) (whole : (left ++ right).isBalanced = true)
    (expanded : shorthand ∉ left ++ right) (balanced : pasted.isBalanced = true) :
    paste ⟨left ++ right, left.length⟩ pasted =
      ⟨left ++ (pasted.expandShorthand ++ right), left.length + pasted.length⟩ := by
  have notTyped : Draft.typed? (left ++ right)
      ⟨left ++ (pasted ++ right), left.length + pasted.length⟩ = none := by
    apply Draft.typed?_eq_none
    simp only [List.length_append]
    omega
  have notDeleted : Draft.deleted? (left ++ right)
      ⟨left ++ (pasted ++ right), left.length + pasted.length⟩ = none := by
    apply Draft.deleted?_eq_none
    simp only [List.length_append]
    omega
  have accepted : (left ++ (pasted ++ right)).isBalanced = true :=
    (Text.isBalanced_insert balanced).trans whole
  rw [paste_eq, (Draft.Corrects.replaced notTyped notDeleted accepted).correct_eq]
  rw [List.mem_append, not_or] at expanded
  rw [Text.expandShorthand_append, Text.expandShorthand_append,
    Text.expandShorthand_of_not_mem expanded.1, Text.expandShorthand_of_not_mem expanded.2]

end

/-- **A typed text is there as it was typed.** Where it closes nothing that it has not opened, it
is expanded and stands in front of the partners of what it leaves open, with the cursor between
them. If it leaves nothing open in a text that could be opened, pasting it does the same. -/
theorem typeText_eq (left right typed : Text)
    (opened : ∀ part, part <+: typed → part.count ')' ≤ part.count '(') :
    let shown : Draft := ⟨left ++ right, left.length⟩
    let unclosed := typed.count '(' - typed.count ')'
    typeText shown typed =
        ⟨left ++ typed.expandShorthand ++ List.replicate unclosed ')' ++ right,
          left.length + typed.length⟩ ∧
      (unclosed = 0 → (left ++ right).isBalanced = true → shorthand ∉ left ++ right →
        typeText shown typed = paste shown typed) := by
  intro shown unclosed
  have whole := opened typed List.prefix_rfl
  have depth : Text.depthAfter? 0 typed = some unclosed := by
    apply Text.depthAfter?_eq_some_iff.2
    simp only [Nat.zero_add]
    exact ⟨opened, Nat.sub_add_cancel whole⟩
  have result : typeText shown typed = awaiting (left ++ typed.expandShorthand) right unclosed :=
    typeText_awaiting depth
  constructor
  · rw [result]
    simp [awaiting]
  · intro closed balanced expanded
    by_cases single : typed.length = 1
    · obtain ⟨c, rfl⟩ := List.length_eq_one_iff.1 single
      rfl
    · rw [closed] at depth result
      rw [result, paste_of_isBalanced single balanced expanded (Text.isBalanced_iff.2 depth)]
      simp [awaiting]

/-- An abstraction that is typed into a list closes what it opens, so that it can be pasted too. -/
theorem typeText_eq_abstraction :
    let typed : Text := ['(', '\\', 'x', ' ', 'x', ')']
    let shown : Draft := ⟨['(', 'f', ' '] ++ [')'], 3⟩
    (∀ part, part <+: typed → part.count ')' ≤ part.count '(') ∧
      typeText shown typed = ⟨['(', 'f', ' ', '(', 'λ', 'x', ' ', 'x', ')', ')'], 9⟩ ∧
      typeText shown typed = paste shown typed := by
  intro typed shown
  have depth : Text.depthAfter? 0 typed = some 0 := rfl
  have opened : ∀ part, part <+: typed → part.count ')' ≤ part.count '(' := by
    simpa only [Nat.zero_add] using (Text.depthAfter?_eq_some_iff.1 depth).1
  obtain ⟨result, pasted⟩ := typeText_eq ['(', 'f', ' '] [')'] typed opened
  exact ⟨opened, result, pasted rfl rfl (by decide)⟩

end Editor

end Redex
