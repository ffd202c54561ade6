import Redex.Proofs.Form.Location
import Mathlib.Data.List.Nodup

/-!
# Lists and parentheses

Every list of a text begins with a parenthesis and ends with its partner, or with the text if there
is none. Every parenthesis that is opened before the reading ends begins a list.

* `Spells.openings_eq`: where the lists in a piece of a text begin.
* `Form.parse_partners`: lists end where their parentheses are closed.
-/

namespace Redex

namespace Form

def opening? : Form → Option Nat
  | .atom _ _ => none
  | .list _ span => some span.start
  | .unclosed _ span => some span.start

def openings (depth : Nat) (forms : List Form) : List Nat :=
  (nodesAtAll depth forms).filterMap fun node => node.2.opening?

theorem openings_cons (depth : Nat) (form : Form) (rest : List Form) :
    openings depth (form :: rest) =
      (nodesAt depth form).filterMap (fun node => node.2.opening?) ++ openings depth rest := by
  rw [openings, nodesAtAll, List.filterMap_append]
  rfl

end Form

/-- The lists begin where parentheses are opened, in the order of the text. -/
theorem Spells.openings_eq {cut : Bool} {pos : Nat} {text : Text} {forms : List Form}
    (spells : Spells cut pos text forms) (depth : Nat) :
    Form.openings depth forms = text.idxsOf '(' pos := by
  induction spells generalizing depth with
  | nil => rfl
  | blank isBlank _ ih =>
    have other := (isBlank_ne_parenthesis isBlank).1
    rw [List.idxsOf_cons, if_neg (by simpa using other)]
    exact ih depth
  | @atom _ pos name _ _ word _ _ ih =>
    have noParenthesis : name.toList.idxsOf '(' pos = [] := by
      rw [List.idxsOf_eq_nil_iff]
      intro c mem
      obtain ⟨_, opening, _⟩ := (isWord_iff.1 word).2 c mem
      exact beq_eq_false_iff_ne.2 opening
    rw [Form.openings_cons, List.idxsOf_append, noParenthesis, ih depth]
    rfl
  | @list _ pos inside rest children forms _ _ ihInside ih =>
    have behind : pos + 1 + inside.length + 1 = pos + inside.length + 2 := by omega
    rw [Form.openings_cons, ih depth, List.idxsOf_cons, if_pos (by rfl), List.idxsOf_append,
      List.idxsOf_cons, if_neg (by decide), ← ihInside (depth + 1), behind]
    rfl
  | @unclosed pos inside children _ ih =>
    rw [Form.openings_cons, List.idxsOf_cons, if_pos (by rfl), ← ih (depth + 1)]
    exact List.append_nil _

namespace Form

section

variable {text : Text} {children : List Form} {span : Span}

/-- A list goes from its parenthesis to the partner of that. -/
theorem Located.list_partner (located : Located text (.list children span)) :
    text[span.start]? = some '(' ∧
      ∃ closed, text.closing? span.start = some closed ∧ span.stop = closed + 1 := by
  obtain ⟨left, written, _⟩ := located
  cases written with
  | @list _ _ inside _ spells =>
    rw [List.cons_append, List.append_assoc, List.singleton_append]
    refine ⟨by simp, left.length + 1 + inside.length, ?_, ?_⟩
    · exact Text.closing?_matched spells.isBalanced
    · simp only
      omega

/-- A list that is never closed begins with a parenthesis without a partner. -/
theorem Located.unclosed_partner (located : Located text (.unclosed children span)) :
    text[span.start]? = some '(' ∧ text.closing? span.start = none ∧ span.stop = text.length := by
  obtain ⟨left, written, whole⟩ := located
  cases written with
  | @unclosed _ inside _ spells =>
    obtain ⟨depth, after, _⟩ := spells.exists_depth
    obtain rfl := whole rfl
    rw [List.append_nil]
    refine ⟨by simp, Text.closing?_unmatched after, ?_⟩
    simp only [List.length_append, List.length_cons]
    omega

/-- No two lists begin in one place. -/
theorem nodup_openings_parse (text : Text) : (openings 0 (parse text)).Nodup := by
  rcases spells_parse text with spells | ⟨_, _, _, spells⟩
  · rw [spells.openings_eq]
    exact List.nodup_idxsOf
  · rw [spells.openings_eq]
    exact List.nodup_idxsOf

/-- A list begins at each parenthesis that is opened before the first closing one that has no
partner. -/
theorem mem_openings_parse {pos : Nat} (opening : text[pos]? = some '(')
    (read : Text.depthAfter? 0 (text.take pos) ≠ none) : pos ∈ openings 0 (parse text) := by
  have mem {part : Text} (here : part[pos]? = some '(') : pos ∈ part.idxsOf '(' := by
    obtain ⟨inside, same⟩ := List.getElem?_eq_some_iff.1 here
    rw [List.mem_idxsOf_iff_getElem_pos inside, same]
    rfl
  rcases spells_parse text with spells | ⟨front, rest, same, spells⟩
  · rw [spells.openings_eq]
    exact mem opening
  · rw [spells.openings_eq]
    apply mem
    have before : pos < front.length := by
      by_contra behind
      rcases Nat.eq_or_lt_of_le (Nat.le_of_not_lt behind) with here | after
      · subst here same
        simp at opening
      · apply read
        obtain ⟨more, rfl⟩ := Nat.exists_eq_add_of_lt after
        have split : text.take (front.length + more + 1) = front ++ ')' :: rest.take more := by
          rw [same, Nat.add_assoc, List.take_length_add_append, List.take_succ_cons]
        rw [split, Text.depthAfter?_append_left spells.isBalanced]
        rfl
    rw [same, List.getElem?_append_left before] at opening
    exact opening

end

/-- **Lists end where their parentheses are closed.** The list that begins with a parenthesis goes
up to its partner, and up to the end of the text if it has none. A parenthesis that is opened where
no closing one was without a partner before begins exactly one list, at whatever depth. -/
theorem parse_partners (text : Text) :
    (∀ depth children span, (depth, list children span) ∈ nodesAtAll 0 (parse text) →
      text[span.start]? = some '(' ∧
        ∃ closed, text.closing? span.start = some closed ∧ span.stop = closed + 1) ∧
    (∀ depth children span, (depth, unclosed children span) ∈ nodesAtAll 0 (parse text) →
      text[span.start]? = some '(' ∧ text.closing? span.start = none ∧ span.stop = text.length) ∧
    ∀ pos, text[pos]? = some '(' → Text.depthAfter? 0 (text.take pos) ≠ none →
      (nodesAtAll 0 (parse text)).countP (fun node => node.2.opening? == some pos) = 1 := by
  refine ⟨?_, ?_, ?_⟩
  · intro depth children span mem
    exact (located_of_mem_parse mem).list_partner
  · intro depth children span mem
    exact (located_of_mem_parse mem).unclosed_partner
  · intro pos opening read
    rw [← List.count_filterMap]
    exact List.count_eq_one_of_mem (nodup_openings_parse text) (mem_openings_parse opening read)

/-- No list begins behind a closing parenthesis that has no partner. -/
example : openings 0 (parse ['(', '(', ')', ')', ')', '(', ')']) = [0, 1] := by cbv

end Form

end Redex
