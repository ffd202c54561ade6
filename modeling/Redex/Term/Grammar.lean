import Redex.Fault
import Redex.Form.Basic
import Redex.Glyph
import Redex.Term.Basic

/-!
# The grammar of terms

A form is a term if it is an atom other than the glyph, an abstraction `(λ name … term)` with at
least one name, or an application `(term term …)` with at least one argument. Any other form has
a fault, and the first fault in reading order is reported: that of a list itself comes before
those of the forms inside it.

* `Term.ofForms_eq_mapM`: terms in a row are read one by one, up to the first fault.
* `Term.ofForm_abstraction`: an abstraction is its parameters and its last form.
* `Term.ofForm_application`: an application is the terms that its forms are.
-/

namespace Redex

def Form.isGlyph : Form → Bool
  | .atom name _ => name == reservedName
  | _ => false

def Form.name? : Form → Option String
  | .atom name _ => some name
  | _ => none

namespace Term

/-- The names that the forms between the glyph and the body of an abstraction stand for. Lists
are refused before the reserved name is. -/
def parametersOf (forms : List Form) : Except Fault (List String) :=
  match forms.find? (·.name?.isNone), forms.find? Form.isGlyph with
  | some list, _ => .error ⟨.listParameter, list.span⟩
  | none, some atom => .error ⟨.reservedParameter, atom.span⟩
  | none, none => .ok (forms.filterMap Form.name?)

mutual

/-- The term that a form is, or its first fault. -/
def ofForm : Form → Except Fault Term
  | .atom name span =>
    if name = reservedName then .error ⟨.reservedName, span⟩ else .ok (.var name)
  | .unclosed _ span => .error ⟨.unclosedList, span⟩
  | .list [] span => .error ⟨.emptyList, span⟩
  | .list (head :: rest) span =>
    if head.isGlyph then
      if rest.length < 2 then .error ⟨.tooFewTerms, span⟩
      else do
        let parameters ← parametersOf rest.dropLast
        let body ← ofLast span rest
        return .abs parameters body
    else if rest.isEmpty then .error ⟨.missingArgument, span⟩
    else do
      let function ← ofForm head
      let arguments ← ofForms rest
      return .app function arguments

/-- The term that the last of some forms is. An abstraction that has none has too few terms. -/
def ofLast (span : Span) : List Form → Except Fault Term
  | [] => .error ⟨.tooFewTerms, span⟩
  | [form] => ofForm form
  | _ :: next :: rest => ofLast span (next :: rest)

/-- The terms that some forms are, or the first fault among them. -/
def ofForms : List Form → Except Fault (List Term)
  | [] => .ok []
  | form :: rest => do
    let term ← ofForm form
    let terms ← ofForms rest
    return term :: terms

end

theorem ofForms_eq_mapM (forms : List Form) : ofForms forms = forms.mapM ofForm := by
  induction forms with
  | nil => rfl
  | cons form rest ih =>
    rw [ofForms, List.mapM_cons, ih]

theorem ofLast_append (span : Span) (forms : List Form) (last : Form) :
    ofLast span (forms ++ [last]) = ofForm last := by
  induction forms with
  | nil => rfl
  | cons form rest ih =>
    cases rest with
    | nil => rfl
    | cons next more => exact ih

theorem two_le_length_concat {front : List Form} {last : Form} (nonempty : front ≠ []) :
    2 ≤ (front ++ [last]).length := by
  have positive := List.length_pos_iff.2 nonempty
  rw [List.length_append, List.length_singleton]
  omega

/-- Parameters are looked at before the body is. -/
theorem ofForm_abstraction {glyph body : Form} {parameters : List Form} {span : Span}
    (isGlyph : glyph.isGlyph = true) (nonempty : parameters ≠ []) :
    ofForm (.list (glyph :: (parameters ++ [body])) span) =
      (do return .abs (← parametersOf parameters) (← ofForm body)) := by
  have enough : ¬ (parameters ++ [body]).length < 2 := Nat.not_lt.2 (two_le_length_concat nonempty)
  rw [ofForm, if_pos isGlyph, if_neg enough, List.dropLast_concat, ofLast_append]

/-- The function is looked at first, and then the arguments from left to right. -/
theorem ofForm_application {head : Form} {rest : List Form} {span : Span}
    (isGlyph : head.isGlyph = false) (nonempty : rest ≠ []) :
    ofForm (.list (head :: rest) span) =
      (do return .app (← ofForm head) (← rest.mapM ofForm)) := by
  have full : ¬ rest.isEmpty = true := by
    intro empty
    exact nonempty (List.isEmpty_iff.1 empty)
  rw [ofForm, if_neg (by rw [isGlyph]; exact Bool.false_ne_true), if_neg full, ofForms_eq_mapM]

end Term

end Redex
