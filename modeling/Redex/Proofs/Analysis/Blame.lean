import Redex.Analysis
import Redex.Proofs.Form.Location
import Redex.Proofs.Term.Faults

/-!
# Faults are where they are said to be

The stretch of text that a fault is blamed on is not empty, is part of the text and has the fault
also when it is taken out of the text. Only a fault of a parameter needs the abstraction around it;
what is blamed for it is the parameter all the same.

* `mem_analyze_error`: the faults of a text are those of its top-level forms.
* `analyze_located`: what a fault is blamed on has the fault.
-/

namespace Redex

theorem mem_map_error {forms : List Form} {fault : Fault} :
    .error fault ∈ forms.map (fun form => (Term.ofForm form).map Analysis.ofTerm) ↔
      ∃ form ∈ forms, Term.ofForm form = .error fault := by
  rw [List.mem_map]
  refine exists_congr fun form => and_congr_right fun _ => ?_
  cases Term.ofForm form <;> simp [Except.map]

/-- A fault of a text is that of one of its forms. -/
theorem mem_analyze_error {text : Text} {fault : Fault} :
    .error fault ∈ analyze text ↔ ∃ form ∈ Form.parse text, Term.ofForm form = .error fault :=
  mem_map_error

/-- A fault that is not blamed on the end of the text is that of a form with all lists closed. -/
theorem Form.isClosed_of_ofForm_error {text : Text} {form : Form} {fault : Fault}
    (mem : form ∈ Form.parse text) (error : Term.ofForm form = .error fault)
    (other : fault.cause ≠ .unclosedList) : form.IsClosed := by
  have extent := Form.extent_parse text
  generalize Form.parse text = forms at extent mem
  cases extent with
  | whole spells => exact spells.isClosed form mem
  | stray _ spells => exact spells.isClosed form mem
  | cut children spells =>
    rcases List.mem_append.1 mem with closed | last
    · exact spells.isClosed form closed
    · cases List.mem_singleton.1 last
      cases error
      exact absurd rfl other

/-- Whether a piece of a text has the fault that it is blamed for. Most faults are found again when
the piece is analyzed. What is no fault without an abstraction around it is only told by what the
piece says: it is a list, or the reserved name. -/
def Cause.Reproduced (cause : Cause) (piece : Text) : Prop :=
  match cause with
  | .listParameter => ∃ inside children, piece = '(' :: (inside ++ [')']) ∧
      Form.parse piece = [.list children ⟨0, piece.length⟩]
  | .reservedParameter => piece = [glyph]
  | cause => analyze piece = [.error ⟨cause, ⟨0, piece.length⟩⟩]

namespace Form.Located

variable {text : Text} {node : Form} {cause : Cause}

/-- A node that is to blame has its fault also when it is read alone. -/
theorem analyze_slice (located : Located text node) (blames : cause.Blames node)
    (alone : cause.isOfParameter = false) :
    analyze (text.slice node.span) =
      [.error ⟨cause, ⟨0, (text.slice node.span).length⟩⟩] := by
  obtain ⟨form, read, moved, span⟩ := located.parse_slice
  have error := Term.ofForm_of_blames blames alone
  rw [← moved, span_shift] at error
  have same : Term.ofForm form = .error ⟨cause, form.span⟩ := Term.ofForm_error_of_shift error
  rw [analyze, read, List.map_singleton, same, span]
  rfl

/-- A list is read alone as one list, from its first character to its last. -/
theorem slice_list {children : List Form} {span : Span}
    (located : Located text (.list children span)) :
    ∃ inside others, text.slice span = '(' :: (inside ++ [')']) ∧
      parse (text.slice span) = [.list others ⟨0, (text.slice span).length⟩] := by
  obtain ⟨form, read, moved, whole⟩ := located.parse_slice
  obtain ⟨_, written⟩ := located.written_slice
  obtain ⟨inside, piece⟩ := written.eq_parenthesized
  cases form with
  | atom => cases moved
  | unclosed => cases moved
  | list others span' =>
    cases whole
    exact ⟨inside, others, piece, read⟩

theorem slice_reservedName {span : Span} (located : Located text (.atom reservedName span)) :
    text.slice span = [glyph] := by
  obtain ⟨_, written⟩ := located.written_slice
  exact written.eq_name

end Form.Located

/-- **A fault is where it is said to be.** The stretch of text that is blamed is some part of the
text, and that part has the fault: read alone, it is one form, which is to blame as a whole. -/
theorem analyze_located {text : Text} {fault : Fault} (mem : .error fault ∈ analyze text) :
    fault.span.start < fault.span.stop ∧ fault.span.stop ≤ text.length ∧
      fault.cause.Reproduced (text.slice fault.span) := by
  obtain ⟨form, isForm, error⟩ := mem_analyze_error.1 mem
  obtain ⟨depth, node, inside, span, blames⟩ := Term.exists_blamed error 0
  have located := Form.located_of_mem_parse (Form.mem_nodesAtAll.2 ⟨form, isForm, inside⟩)
  obtain ⟨nonempty, within⟩ := located.bounds
  rw [span]
  refine ⟨nonempty, within, ?_⟩
  obtain ⟨cause, _⟩ := fault
  -- a parameter is not read alone as the fault it is, so the two causes are told by the node
  cases cause with
  | unclosedList => exact located.analyze_slice blames rfl
  | reservedName => exact located.analyze_slice blames rfl
  | emptyList => exact located.analyze_slice blames rfl
  | tooFewTerms => exact located.analyze_slice blames rfl
  | missingArgument => exact located.analyze_slice blames rfl
  | listParameter =>
    have closed := (Form.isClosed_of_ofForm_error isForm error nofun).node inside
    cases closed with
    | atom => cases blames with | listParameter isList => cases isList
    | list => exact located.slice_list
  | reservedParameter =>
    cases blames with
    | reservedParameter isGlyph =>
      cases node with
      | atom name span =>
        obtain rfl : name = reservedName := by simpa [Form.isGlyph] using isGlyph
        exact located.slice_reservedName
      | list => cases isGlyph
      | unclosed => cases isGlyph

/-- The fault of a form is found at any depth, and the first one counts. -/
theorem analyze_located_emptyList :
    let text : Text := ['y', ' ', '(', 'f', ' ', '(', ')', ' ', '(', 'g', ')', ')']
    let fault : Fault := ⟨.emptyList, ⟨5, 7⟩⟩
    .error fault ∈ analyze text ∧ fault.span.stop ≤ text.length ∧
      analyze (text.slice fault.span) = [.error ⟨.emptyList, ⟨0, 2⟩⟩] := by
  intro text fault
  have analyzed : analyze text = [.ok (.ofTerm (.var "y")), .error fault] := by cbv
  have mem : .error fault ∈ analyze text := by
    rw [analyzed]
    exact .tail _ List.mem_cons_self
  obtain ⟨_, within, reproduced⟩ := analyze_located mem
  exact ⟨mem, within, reproduced⟩

end Redex
