import Redex.Form.Assembly
import Redex.Proofs.Term.Grammar

/-!
# All faults of a form

A form that is no term may have more than one fault. Here all of them are collected: the fault of
each form that is expected to be a term, in reading order, where a form stands before those inside
it. What is expected to be a name is looked at together with the abstraction that it belongs to, and
nothing is expected of what is inside a list that is never closed.

* `Form.ownFault?`: what is wrong with a form itself.
* `Form.faults`: what is wrong with a form and with the terms that should be inside it.
* `Term.ofForm_eq_error_iff_faults`: the fault that is reported is the first one of all.
-/

namespace Redex

namespace Form

/-- The fault of the parameters of an abstraction: the first list among them or, where there is no
list, the first glyph. -/
def parameterFault? (parameters : List Form) : Option Fault :=
  match parameters.find? (·.name?.isNone) with
  | some form => some ⟨.listParameter, form.span⟩
  | none => (parameters.find? isGlyph).map fun form => ⟨.reservedParameter, form.span⟩

/-- The fault of a form that is to be a term, as far as it is not a fault of a term inside it. -/
def ownFault? : Form → Option Fault
  | .atom name span => if name = reservedName then some ⟨.reservedName, span⟩ else none
  | .unclosed _ span => some ⟨.unclosedList, span⟩
  | .list [] span => some ⟨.emptyList, span⟩
  | .list (head :: rest) span =>
    if head.isGlyph then
      if (head :: rest).length < 3 then some ⟨.tooFewTerms, span⟩
      else parameterFault? rest.dropLast
    else if rest.isEmpty then some ⟨.missingArgument, span⟩
    else none

/-- The forms directly inside a form that are to be terms: the last one if the form begins with the
glyph, and otherwise all of them. In a list that is never closed there is none. -/
def subterms : Form → List Form
  | .list (head :: rest) _ => if head.isGlyph then rest.getLast?.toList else head :: rest
  | _ => []

theorem mem_children_of_mem_subterms {form child : Form} (mem : child ∈ form.subterms) :
    child ∈ form.children := by
  unfold subterms at mem
  split at mem
  · rename_i head rest span
    split at mem
    · exact .tail head (List.mem_of_getLast? (Option.mem_toList.1 mem))
    · exact mem
  · cases mem

theorem sizeOf_lt_of_mem_children {form child : Form} (mem : child ∈ form.children) :
    sizeOf child < sizeOf form := by
  cases form with
  | atom => cases mem
  | list children span | unclosed children span =>
    have smaller := List.sizeOf_lt_of_mem mem
    simp only [Form.children] at smaller
    simp only [list.sizeOf_spec, unclosed.sizeOf_spec]
    omega

/-- The faults of a form in reading order, its own fault before those of the terms inside it. -/
def faults (form : Form) : List Fault :=
  form.ownFault?.toList ++ form.subterms.attach.flatMap fun ⟨child, _⟩ => faults child
termination_by sizeOf form
decreasing_by
  apply sizeOf_lt_of_mem_children
  apply mem_children_of_mem_subterms
  assumption

theorem faults_eq (form : Form) :
    form.faults = form.ownFault?.toList ++ form.subterms.flatMap faults := by
  rw [faults, List.flatMap_subtype (fun _ _ => rfl), List.unattach_attach]

section

variable {head last : Form} {front rest : List Form} {span : Span}

theorem ownFault?_short (isGlyph : head.isGlyph = true) (few : rest.length < 2) :
    (list (head :: rest) span).ownFault? = some ⟨.tooFewTerms, span⟩ := by
  have three : (head :: rest).length < 3 := Nat.succ_lt_succ few
  rw [ownFault?, if_pos isGlyph, if_pos three]

theorem ownFault?_single (isGlyph : head.isGlyph = false) :
    (list [head] span).ownFault? = some ⟨.missingArgument, span⟩ := by
  rw [ownFault?, isGlyph]
  rfl

theorem ownFault?_abstraction (isGlyph : head.isGlyph = true) (nonempty : front ≠ []) :
    (list (head :: (front ++ [last])) span).ownFault? = parameterFault? front := by
  have enough : ¬ (head :: (front ++ [last])).length < 3 :=
    Nat.not_lt.2 (Nat.succ_le_succ (Term.two_le_length_concat nonempty))
  rw [ownFault?, if_pos isGlyph, if_neg enough, List.dropLast_concat]

theorem subterms_abstraction (isGlyph : head.isGlyph = true) :
    (list (head :: (front ++ [last])) span).subterms = [last] := by
  rw [subterms, if_pos isGlyph, List.getLast?_concat, Option.toList_some]

theorem ownFault?_application (isGlyph : head.isGlyph = false) (nonempty : rest ≠ []) :
    (list (head :: rest) span).ownFault? = none := by
  have full : rest.isEmpty = false := List.isEmpty_eq_false_iff.2 nonempty
  simp only [ownFault?, isGlyph, full, Bool.false_eq_true, ↓reduceIte]

theorem subterms_application (isGlyph : head.isGlyph = false) :
    (list (head :: rest) span).subterms = head :: rest := by
  simp only [subterms, isGlyph, Bool.false_eq_true, ↓reduceIte]

end

end Form

namespace Term

theorem parametersOf_eq (forms : List Form) :
    parametersOf forms =
      match Form.parameterFault? forms with
      | some fault => .error fault
      | none => .ok (forms.filterMap Form.name?) := by
  unfold parametersOf Form.parameterFault?
  cases forms.find? (·.name?.isNone) with
  | some form => rfl
  | none => cases forms.find? Form.isGlyph <;> rfl

section

variable {fault : Fault}

/-- A form is refused for its own fault or, if it has none, for one of the terms inside it. -/
theorem ofForm_eq_error_iff (form : Form) :
    ofForm form = .error fault ↔
      form.ownFault? = some fault ∨
        form.ownFault? = none ∧ form.subterms.mapM ofForm = .error fault := by
  cases form with
  | atom name span =>
    by_cases reserved : name = reservedName
    · simp [ofForm, Form.ownFault?, reserved]
    · simp [ofForm, Form.ownFault?, Form.subterms, reserved, pure, Except.pure]
  | unclosed children span => simp [ofForm, Form.ownFault?]
  | list children span =>
    cases shape children with
    | empty => simp [ofForm, Form.ownFault?]
    | short isGlyph few =>
      rw [ofForm_short span isGlyph few, Form.ownFault?_short isGlyph few]
      simp
    | single isGlyph =>
      rw [ofForm_single span isGlyph, Form.ownFault?_single isGlyph]
      simp
    | @abstraction head last front isGlyph nonempty =>
      rw [ofForm_abstraction isGlyph nonempty, Form.ownFault?_abstraction isGlyph nonempty,
        Form.subterms_abstraction isGlyph, parametersOf_eq, List.mapM_cons, List.mapM_nil]
      cases Form.parameterFault? front with
      | some other => simp [bind, Except.bind]
      | none => cases ofForm last <;> simp [bind, Except.bind, pure, Except.pure]
    | @application head rest isGlyph nonempty =>
      rw [ofForm_application isGlyph nonempty, Form.ownFault?_application isGlyph nonempty,
        Form.subterms_application isGlyph, List.mapM_cons]
      cases ofForm head with
      | error other => simp [bind, Except.bind]
      | ok function => cases rest.mapM ofForm <;> simp [bind, Except.bind, pure, Except.pure]

def ReportsFirst (form : Form) : Prop :=
  ∀ fault, ofForm form = .error fault ↔ form.faults.head? = some fault

/-- A term has no faults at all, not only none that is reported. -/
theorem ReportsFirst.faults_eq_nil {form : Form} {term : Term} (reports : ReportsFirst form)
    (ok : ofForm form = .ok term) : form.faults = [] := by
  cases faults : form.faults with
  | nil => rfl
  | cons fault others =>
    have error := (reports fault).2 (faults ▸ rfl)
    rw [ok] at error
    cases error

theorem mapM_ofForm_eq_error_iff {forms : List Form} (reports : ∀ form ∈ forms, ReportsFirst form) :
    forms.mapM ofForm = .error fault ↔ (forms.flatMap Form.faults).head? = some fault := by
  induction forms with
  | nil => simp [pure, Except.pure]
  | cons form rest ih =>
    obtain ⟨first, others⟩ := List.forall_mem_cons.1 reports
    rw [List.mapM_cons, List.flatMap_cons, List.head?_append]
    cases judged : ofForm form with
    | error other =>
      rw [(first other).1 judged]
      simp [bind, Except.bind]
    | ok term =>
      rw [first.faults_eq_nil judged, List.head?_nil, Option.none_or, ← ih others]
      cases rest.mapM ofForm <;> simp [bind, Except.bind, pure, Except.pure]

theorem reportsFirst (form : Form) : ReportsFirst form := by
  induction form using Form.childInduction with
  | step form ih =>
    intro fault
    rw [ofForm_eq_error_iff, Form.faults_eq, List.head?_append]
    cases form.ownFault? with
    | some own => simp
    | none =>
      have inside := fun child mem => ih child (Form.mem_children_of_mem_subterms mem)
      simp [mapM_ofForm_eq_error_iff inside]

end

/-- **The fault that is reported is the first of all.** A form is refused if there is any fault in
it, and only then, and it is refused for the first one. -/
theorem ofForm_eq_error_iff_faults (form : Form) (fault : Fault) :
    ofForm form = .error fault ↔ ∃ others, form.faults = fault :: others := by
  rw [reportsFirst form fault, List.head?_eq_some_iff]

example : (Form.parse "(f () (λ (x) λ λ) (g))".toList).flatMap Form.faults =
    [⟨.emptyList, ⟨3, 5⟩⟩, ⟨.listParameter, ⟨9, 12⟩⟩, ⟨.reservedName, ⟨15, 16⟩⟩,
      ⟨.missingArgument, ⟨18, 21⟩⟩] := by cbv

end Term

end Redex
