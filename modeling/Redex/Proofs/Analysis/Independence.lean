import Redex.Analysis
import Redex.Proofs.Form.Shift
import Redex.Proofs.Form.Spelling

/-!
# Forms are judged on their own

What stands in front of a text, and is balanced and kept apart by blanks, is read and judged as if
the text were not there; and the text as if nothing stood in front of it.

* `Spells.parse_append`: what is read of a text behind another one.
* `analyze_independent`: what the two of them are read as, and judged to be.
-/

namespace Redex

/-- Blanks count for positions and for nothing else. -/
theorem Reading.ofText_blanks {blanks : Text} (blank : blanks.isBlank = true) (stop pos : Nat)
    (rest : Text) : ofText stop pos (blanks ++ rest) = ofText stop (pos + blanks.length) rest := by
  have each : ∀ c ∈ blanks, Redex.isBlank c = true := List.all_eq_true.1 blank
  clear blank
  induction blanks generalizing pos with
  | nil => rfl
  | cons c more ih =>
    obtain ⟨first, others⟩ := List.forall_mem_cons.1 each
    rw [List.cons_append, ofText_blank first, ih _ others, add_length_cons]

theorem Form.parse_of_isBlank {text : Text} (blank : text.isBlank = true) :
    Form.parse text = [] := by
  have read := Reading.ofText_blanks blank text.length 0 []
  rw [List.append_nil, Reading.ofText_nil] at read
  rw [parse_eq_ofText, read, Reading.empty]

theorem Text.EndsWord.of_isBlank {blanks : Text} (blank : blanks.isBlank = true)
    (separates : blanks ≠ []) (rest : Text) : Text.EndsWord (blanks ++ rest) := by
  cases blanks with
  | nil => exact absurd rfl separates
  | cons c more =>
    have first : Redex.isBlank c = true := List.all_eq_true.1 blank c List.mem_cons_self
    exact .cons _ (by simp [isWordChar, first])

/-- A text is read behind another one as it is read alone, only further on. -/
theorem Spells.parse_append {front blanks : Text} {forms : List Form}
    (spells : Spells false 0 front forms) (blank : blanks.isBlank = true) (separates : blanks ≠ [])
    (text : Text) :
    Form.parse (front ++ blanks ++ text) =
      forms ++ (Form.parse text).map (Form.shift (front ++ blanks).length) := by
  have length : (front ++ blanks ++ text).length = text.length + (front ++ blanks).length := by
    rw [List.length_append, Nat.add_comm]
  have read : Reading.ofText (front ++ blanks ++ text).length 0 (front ++ blanks ++ text) =
      Reading.after forms ((Reading.ofText text.length 0 text).shift (front ++ blanks).length) := by
    rw [length, List.append_assoc, spells.readsAs _ _ (.of_isBlank blank separates text),
      Reading.ofText_blanks blank, ← Reading.ofText_shift, List.length_append, Nat.add_assoc]
  rw [Form.parse_eq_ofText, read, Form.parse_eq_ofText, Reading.after, Reading.shift]

/-- **Each form of a text is judged on its own.** Behind a balanced text and some blanks, any text
is read as the same forms as alone, and each of them is the same term or has the same fault; only
the spans tell of what is before. What is read of the balanced text depends on it alone. -/
theorem analyze_independent {front blanks : Text} (balanced : front.isBalanced = true)
    (blank : blanks.isBlank = true) (separates : blanks ≠ []) (text : Text) :
    let count := (front ++ blanks).length
    Form.parse (front ++ blanks ++ text) =
        Form.parse front ++ (Form.parse text).map (Form.shift count) ∧
      analyze (front ++ blanks ++ text) =
        analyze front ++ (analyze text).map (Except.mapError (Fault.shift count)) := by
  intro count
  have forms := (Form.spells_of_isBalanced balanced).parse_append blank separates text
  refine ⟨forms, ?_⟩
  have judged (form : Form) : (Term.ofForm (form.shift count)).map Analysis.ofTerm =
      ((Term.ofForm form).map Analysis.ofTerm).mapError (Fault.shift count) := by
    rw [Term.ofForm_shift]
    cases Term.ofForm form <;> rfl
  simp only [analyze, forms, List.map_append, List.map_map]
  congr 2
  funext form
  exact judged form

/-- A list that is never closed and a parenthesis that closes nothing do no harm to what is before
them. -/
theorem analyze_independent_unclosed :
    let front : Text := ['(', 'f', ' ', 'x', ')']
    let blanks : Text := [' ', '\n']
    let text : Text := ['y', ' ', '(', ')', ' ', ')', '(']
    front.isBalanced = true ∧ blanks.isBlank = true ∧ blanks ≠ [] ∧
      Form.parse (front ++ blanks ++ text) =
        [.list [.atom "f" ⟨1, 2⟩, .atom "x" ⟨3, 4⟩] ⟨0, 5⟩, .atom "y" ⟨7, 8⟩,
          .list [] ⟨9, 11⟩] ∧
      analyze (front ++ blanks ++ text) =
        [.ok (.ofTerm (.app (.var "f") [.var "x"])), .ok (.ofTerm (.var "y")),
          .error ⟨.emptyList, ⟨9, 11⟩⟩] := by
  intro front blanks text
  have balanced : front.isBalanced = true := rfl
  have blank : blanks.isBlank = true := by decide
  have separates : blanks ≠ [] := List.cons_ne_nil _ _
  have readFront : Form.parse front =
      [.list [.atom "f" ⟨1, 2⟩, .atom "x" ⟨3, 4⟩] ⟨0, 5⟩] := by cbv
  have readText : Form.parse text = [.atom "y" ⟨0, 1⟩, .list [] ⟨2, 4⟩] := by cbv
  obtain ⟨forms, results⟩ := analyze_independent balanced blank separates text
  refine ⟨balanced, blank, separates, ?_, ?_⟩
  · rw [forms, readFront, readText]
    rfl
  · rw [results, analyze, analyze, readFront, readText]
    rfl

end Redex
