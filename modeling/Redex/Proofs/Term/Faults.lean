import Redex.Proofs.Form.Tokens
import Redex.Proofs.Term.FaultList

/-!
# Which form has the fault

The fault of a form is the fault of one node of it, which need not be the form itself. What is
wrong with that node can be told without the others.

* `Cause.Blames`: what is wrong with a form itself.
* `Term.exists_blamed`: a fault is that of a node, and has its span.
* `Term.cause_ne_unclosedList`: where all lists are closed, none is reported as never closed.
-/

namespace Redex

/-- Whether a cause is to be found in a form itself, and not in one that is inside it. -/
inductive Cause.Blames : Cause → Form → Prop where
  | unclosedList (children : List Form) (span : Span) :
    Blames .unclosedList (.unclosed children span)
  | reservedName (span : Span) : Blames .reservedName (.atom Redex.reservedName span)
  | emptyList (span : Span) : Blames .emptyList (.list [] span)
  | tooFewTerms {head : Form} {rest : List Form} (span : Span) : head.isGlyph = true →
    rest.length < 2 → Blames .tooFewTerms (.list (head :: rest) span)
  | missingArgument {head : Form} (span : Span) : head.isGlyph = false →
    Blames .missingArgument (.list [head] span)
  | listParameter {form : Form} : form.name? = none → Blames .listParameter form
  | reservedParameter {form : Form} : form.isGlyph = true → Blames .reservedParameter form

def Cause.isOfParameter (cause : Cause) : Bool :=
  cause = .listParameter || cause = .reservedParameter

namespace Form

theorem mem_nodesAt_of_mem_children {depth : Nat} {form child : Form} {node : Nat × Form}
    (inside : child ∈ form.children) (mem : node ∈ nodesAt (depth + 1) child) :
    node ∈ nodesAt depth form := by
  cases form with
  | atom => cases inside
  | list | unclosed =>
    rw [nodesAt]
    exact .tail _ (mem_nodesAtAll.2 ⟨child, inside, mem⟩)

theorem IsClosed.node {form : Form} (closed : form.IsClosed) {level depth : Nat} {node : Form}
    (mem : (depth, node) ∈ nodesAt level form) : node.IsClosed := by
  induction closed generalizing level with
  | atom name span =>
    rw [nodesAt, List.mem_singleton] at mem
    cases mem
    exact .atom name span
  | list span closed ih =>
    rw [nodesAt, List.mem_cons] at mem
    rcases mem with here | inside
    · cases here
      exact .list span closed
    · obtain ⟨child, isChild, mem⟩ := mem_nodesAtAll.1 inside
      exact ih child isChild mem

end Form

namespace Term

/-- A form that is to blame itself has the fault also when it stands alone. A parameter has not: it
is wrong only where it stands. -/
theorem ofForm_of_blames {cause : Cause} {form : Form} (blames : cause.Blames form)
    (alone : cause.isOfParameter = false) : ofForm form = .error ⟨cause, form.span⟩ := by
  cases blames with
  | unclosedList children span => rfl
  | reservedName span => rw [ofForm, if_pos rfl, Form.span]
  | emptyList span => rfl
  | tooFewTerms span isGlyph few => exact ofForm_short span isGlyph few
  | missingArgument span isGlyph => exact ofForm_single span isGlyph
  | listParameter => cases alone
  | reservedParameter => cases alone

section

variable {fault : Fault}

theorem bind_eq_error {α β : Type} {first : Except Fault α} {next : α → Except Fault β}
    (error : first >>= next = .error fault) :
    first = .error fault ∨ ∃ value, first = .ok value ∧ next value = .error fault := by
  cases first with
  | error other =>
    cases error
    exact .inl rfl
  | ok value => exact .inr ⟨value, rfl, error⟩

theorem exists_blamed_parameter {forms : List Form}
    (refused : Form.parameterFault? forms = some fault) :
    ∃ form ∈ forms, fault.span = form.span ∧ fault.cause.Blames form := by
  unfold Form.parameterFault? at refused
  split at refused
  · rename_i list found
    cases refused
    have isList := List.find?_some found
    exact ⟨list, List.mem_of_find?_eq_some found, rfl, .listParameter (by simpa using isList)⟩
  · obtain ⟨atom, found, rfl⟩ := Option.map_eq_some_iff.1 refused
    have isGlyph := List.find?_some found
    exact ⟨atom, List.mem_of_find?_eq_some found, rfl, .reservedParameter isGlyph⟩

/-- The fault of a form itself is to be found in the form or in a parameter of it. -/
theorem blames_of_ownFault? {form : Form} (own : form.ownFault? = some fault) :
    (fault.span = form.span ∧ fault.cause.Blames form) ∨
      ∃ child ∈ form.children, fault.span = child.span ∧ fault.cause.Blames child := by
  cases form with
  | atom name span =>
    rw [Form.ownFault?] at own
    split at own
    · rename_i reserved
      subst reserved
      cases own
      exact .inl ⟨rfl, .reservedName span⟩
    · cases own
  | unclosed children span =>
    cases own
    exact .inl ⟨rfl, .unclosedList children span⟩
  | list children span =>
    cases shape children with
    | empty =>
      cases own
      exact .inl ⟨rfl, .emptyList span⟩
    | short isGlyph few =>
      rw [Form.ownFault?_short isGlyph few] at own
      cases own
      exact .inl ⟨rfl, .tooFewTerms span isGlyph few⟩
    | single isGlyph =>
      rw [Form.ownFault?_single isGlyph] at own
      cases own
      exact .inl ⟨rfl, .missingArgument span isGlyph⟩
    | @abstraction head last front isGlyph nonempty =>
      rw [Form.ownFault?_abstraction isGlyph nonempty] at own
      obtain ⟨form, mem, blamed⟩ := exists_blamed_parameter own
      exact .inr ⟨form, .tail head (List.mem_append_left _ mem), blamed⟩
    | application isGlyph nonempty =>
      rw [Form.ownFault?_application isGlyph nonempty] at own
      cases own

theorem exists_of_mapM_ofForm_error {forms : List Form}
    (error : forms.mapM ofForm = .error fault) : ∃ form ∈ forms, ofForm form = .error fault := by
  induction forms with
  | nil => cases error
  | cons form rest ih =>
    rw [List.mapM_cons] at error
    rcases bind_eq_error error with here | ⟨term, _, error⟩
    · exact ⟨form, List.mem_cons_self, here⟩
    · rcases bind_eq_error error with later | ⟨terms, _, error⟩
      · obtain ⟨other, mem, error⟩ := ih later
        exact ⟨other, .tail form mem, error⟩
      · cases error

/-- The fault of a form is that of one of its nodes. -/
theorem exists_blamed {form : Form} (error : ofForm form = .error fault) (level : Nat) :
    ∃ depth node, (depth, node) ∈ Form.nodesAt level form ∧ fault.span = node.span ∧
      fault.cause.Blames node := by
  induction form using Form.childInduction generalizing level with
  | step form ih =>
    rcases (ofForm_eq_error_iff form).1 error with own | ⟨_, inside⟩
    · rcases blames_of_ownFault? own with blamed | ⟨child, mem, blamed⟩
      · exact ⟨level, form, Form.mem_nodesAt_self level form, blamed⟩
      · have isChild := Form.mem_nodesAt_self (level + 1) child
        exact ⟨level + 1, child, Form.mem_nodesAt_of_mem_children mem isChild, blamed⟩
    · obtain ⟨child, isSubterm, error⟩ := exists_of_mapM_ofForm_error inside
      have mem := Form.mem_children_of_mem_subterms isSubterm
      obtain ⟨depth, node, inside, blamed⟩ := ih child mem error (level + 1)
      exact ⟨depth, node, Form.mem_nodesAt_of_mem_children mem inside, blamed⟩

theorem cause_ne_unclosedList {form : Form} (closed : form.IsClosed)
    (error : ofForm form = .error fault) : fault.cause ≠ .unclosedList := by
  intro isUnclosed
  obtain ⟨depth, node, mem, _, blames⟩ := exists_blamed error 0
  rw [isUnclosed] at blames
  cases blames
  cases closed.node mem

end

end Term

end Redex
