import Redex.Form.Basic
import Redex.Token

/-!
# Reading forms

Forms are put together while the tokens of a text are read from left to right. A form that is
complete goes to the innermost list that is still open, or to the forms of the text if there is
none. A closing parenthesis that finds no list open ends the reading, and the end of the text ends
all lists that are open there.

* `Assembly.attach_opened_length`: no list is opened or closed by what is put into it.
* `Assembly.readAll_next`, `Assembly.readAll_end`: reading goes on or ends with one token.
-/

namespace Redex

/-- The lists that are open after some tokens, the innermost first, each with the position of its
parenthesis and its forms so far, and the forms that are in none of them. -/
structure Assembly where
  opened : List (Nat × List Form)
  forest : List Form

namespace Assembly

/-- Adds a form to the innermost open list, or to the forms of the text. -/
def attach (form : Form) : Assembly → Assembly
  | ⟨[], forest⟩ => ⟨[], forest ++ [form]⟩
  | ⟨(start, children) :: opened, forest⟩ => ⟨(start, children ++ [form]) :: opened, forest⟩

@[simp] theorem attach_opened_length (form : Form) (assembly : Assembly) :
    (assembly.attach form).opened.length = assembly.opened.length := by
  obtain ⟨_ | _, forest⟩ := assembly <;> rfl

/-- Reads one more token. There is no going on from a closing parenthesis if no list is open. -/
def read? (assembly : Assembly) (token : Token) : Option Assembly :=
  match token.lexeme, assembly.opened with
  | .opening, opened => some ⟨(token.span.start, []) :: opened, assembly.forest⟩
  | .closing, (start, children) :: opened =>
    some (attach (.list children ⟨start, token.span.stop⟩) ⟨opened, assembly.forest⟩)
  | .closing, [] => none
  | .atom name, _ => some (assembly.attach (.atom name token.span))

def readAll (assembly : Assembly) : List Token → Assembly
  | [] => assembly
  | token :: rest =>
    match assembly.read? token with
    | some next => next.readAll rest
    | none => assembly

theorem readAll_next {assembly next : Assembly} {token : Token} (rest : List Token)
    (step : assembly.read? token = some next) :
    assembly.readAll (token :: rest) = next.readAll rest := by
  rw [readAll, step]

theorem readAll_end {assembly : Assembly} {token : Token} (rest : List Token)
    (stray : assembly.read? token = none) : assembly.readAll (token :: rest) = assembly := by
  rw [readAll, stray]

/-- The forms of a text that ends at `stop`, which leaves all open lists without their closing
parenthesis. -/
def unwind (stop : Nat) : Assembly → List Form
  | ⟨[], forest⟩ => forest
  | ⟨(start, children) :: opened, forest⟩ =>
    unwind stop (attach (.unclosed children ⟨start, stop⟩) ⟨opened, forest⟩)
termination_by assembly => assembly.opened.length
decreasing_by simp

end Assembly

/-- The top-level forms of a text. -/
def Form.parse (text : Text) : List Form :=
  (Assembly.readAll ⟨[], []⟩ (Token.scan text)).unwind text.length

end Redex
