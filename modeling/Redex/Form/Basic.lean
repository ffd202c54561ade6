import Redex.Text.Basic

/-!
# Forms

A form is what a text says before it is taken for a term: an atom, or a parenthesised list of
forms. A list that the end of the text cuts short is a form too, so that every text has forms and
a fault can be blamed on the list that has it.

* `Form.inductionOn`, `Form.childInduction`: what holds of all forms inside a form may be used to
  prove it of the form.
* `Form.write_eq`: a form is written in front of a text without regard to that text.
-/

namespace Redex

/-- An atom, a list from one parenthesis to the other, or a list that is never closed. -/
inductive Form where
  | atom (name : String) (span : Span)
  | list (children : List Form) (span : Span)
  | unclosed (children : List Form) (span : Span)

namespace Form

/-- Induction over the forms inside a form. -/
@[elab_as_elim, induction_eliminator]
theorem inductionOn {motive : Form → Prop} (form : Form)
    (atom : ∀ name span, motive (.atom name span))
    (list : ∀ children span, (∀ child ∈ children, motive child) → motive (.list children span))
    (unclosed : ∀ children span, (∀ child ∈ children, motive child) →
      motive (.unclosed children span)) : motive form := by
  match form with
  | .atom name span => exact atom name span
  | .list children span =>
    exact list children span fun child _ => inductionOn child atom list unclosed
  | .unclosed children span =>
    exact unclosed children span fun child _ => inductionOn child atom list unclosed

def span : Form → Span
  | .atom _ span => span
  | .list _ span => span
  | .unclosed _ span => span

def children : Form → List Form
  | .atom _ _ => []
  | .list children _ => children
  | .unclosed children _ => children

/-- Induction over the forms inside a form, where it does not matter which kind of form it is. -/
@[elab_as_elim]
theorem childInduction {motive : Form → Prop} (form : Form)
    (step : ∀ form, (∀ child ∈ form.children, motive child) → motive form) : motive form := by
  induction form with
  | atom name span => exact step _ (List.forall_mem_nil _)
  | list children span ih => exact step _ ih
  | unclosed children span ih => exact step _ ih

mutual

/-- Writes a form in front of a text. A list that is never closed gets no closing parenthesis. -/
def write : Form → Text → Text
  | .atom name _, after => name.toList ++ after
  | .list children _, after => '(' :: writeAll children (')' :: after)
  | .unclosed children _, after => '(' :: writeAll children after

def writeAll : List Form → Text → Text
  | [], after => after
  | [form], after => form.write after
  | form :: next :: rest, after => form.write (' ' :: writeAll (next :: rest) after)

end

def text (form : Form) : Text := form.write []

def render (form : Form) : String := .ofList form.text

mutual

/-- What a form is written in front of has no part in how it is written. -/
theorem write_eq : (form : Form) → (after : Text) → form.write after = form.text ++ after
  | .atom name _, after => by simp [text, write]
  | .list children _, after => by
    rw [text, write, write, writeAll_eq children (')' :: after), writeAll_eq children [')']]
    simp
  | .unclosed children _, after => by
    rw [text, write, write, writeAll_eq children after]
    simp

theorem writeAll_eq : (forms : List Form) → (after : Text) →
    writeAll forms after = writeAll forms [] ++ after
  | [], _ => rfl
  | [form], after => by
    rw [writeAll, writeAll, write_eq form after, text]
  | form :: next :: rest, after => by
    rw [writeAll, writeAll, write_eq form, write_eq form (' ' :: writeAll (next :: rest) []),
      writeAll_eq (next :: rest) after]
    simp

end

mutual

/-- A form at some depth and all the forms inside it, each with its depth: a form stands before
its children, and the children stand from left to right. -/
def nodesAt (depth : Nat) : Form → List (Nat × Form)
  | .atom name span => [(depth, .atom name span)]
  | .list children span => (depth, .list children span) :: nodesAtAll (depth + 1) children
  | .unclosed children span => (depth, .unclosed children span) :: nodesAtAll (depth + 1) children

/-- The forms of a list and all forms inside them, in the same order. -/
def nodesAtAll (depth : Nat) : List Form → List (Nat × Form)
  | [] => []
  | form :: rest => nodesAt depth form ++ nodesAtAll depth rest

end

theorem mem_nodesAt_self (depth : Nat) (form : Form) : (depth, form) ∈ nodesAt depth form := by
  cases form <;> simp [nodesAt]

theorem mem_nodesAtAll {depth : Nat} {forms : List Form} {node : Nat × Form} :
    node ∈ nodesAtAll depth forms ↔ ∃ form ∈ forms, node ∈ nodesAt depth form := by
  induction forms with
  | nil => simp [nodesAtAll]
  | cons form rest ih => simp [nodesAtAll, ih]

/-- All nodes of a form with their depths, the form itself at depth zero. -/
def nodes (form : Form) : List (Nat × Form) := nodesAt 0 form

end Form

end Redex
