import Redex.Glyph
import Redex.NameSet

/-!
# Written terms

A term the way it is written: an abstraction has several parameters and an application several
arguments. Neither list has to have a member, though only terms with full lists can be read.

* `Term.inductionOn`: what holds of all terms inside a term may be used to prove it of the term.
* `Term.write_eq`: a term is written in front of a text without regard to that text.
-/

namespace Redex

/-- A term of the lambda calculus with lists of parameters and of arguments. -/
inductive Term where
  | var (name : String)
  | abs (parameters : List String) (body : Term)
  | app (function : Term) (arguments : List Term)

namespace Term

/-- Induction over the terms inside a term. -/
@[elab_as_elim, induction_eliminator]
theorem inductionOn {motive : Term → Prop} (term : Term) (var : ∀ name, motive (.var name))
    (abs : ∀ parameters body, motive body → motive (.abs parameters body))
    (app : ∀ function arguments, motive function → (∀ argument ∈ arguments, motive argument) →
      motive (.app function arguments)) : motive term := by
  match term with
  | .var name => exact var name
  | .abs parameters body => exact abs parameters body (inductionOn body var abs app)
  | .app function arguments =>
    exact app function arguments (inductionOn function var abs app) fun argument _ =>
      inductionOn argument var abs app

def writeNames (names : List String) (after : Text) : Text :=
  names.foldr (fun name after => ' ' :: (name.toList ++ after)) after

mutual

def write : Term → Text → Text
  | .var name, after => name.toList ++ after
  | .abs parameters body, after =>
    '(' :: glyph :: writeNames parameters (' ' :: body.write (')' :: after))
  | .app function arguments, after =>
    '(' :: function.write (writeArguments arguments (')' :: after))

def writeArguments : List Term → Text → Text
  | [], after => after
  | term :: rest, after => ' ' :: term.write (writeArguments rest after)

end

def text (term : Term) : Text := term.write []

def render (term : Term) : String := .ofList term.text

theorem writeNames_eq (names : List String) (after : Text) :
    writeNames names after = writeNames names [] ++ after := by
  induction names with
  | nil => rfl
  | cons name rest ih =>
    have step (end_ : Text) : writeNames (name :: rest) end_ =
        ' ' :: (name.toList ++ writeNames rest end_) := rfl
    rw [step, step, ih]
    simp

mutual

theorem write_eq : (term : Term) → (after : Text) → term.write after = term.text ++ after
  | .var name, after => by simp [text, write]
  | .abs parameters body, after => by
    rw [text, write, write, write_eq body (')' :: after), write_eq body [')'],
      writeNames_eq parameters (' ' :: (body.text ++ ')' :: after)),
      writeNames_eq parameters (' ' :: (body.text ++ [')']))]
    simp
  | .app function arguments, after => by
    rw [text, write, write, writeArguments_eq arguments (')' :: after),
      writeArguments_eq arguments [')'], write_eq function, write_eq function]
    simp

theorem writeArguments_eq : (terms : List Term) → (after : Text) →
    writeArguments terms after = writeArguments terms [] ++ after
  | [], _ => rfl
  | term :: rest, after => by
    rw [writeArguments, writeArguments, write_eq term, write_eq term (writeArguments rest []),
      writeArguments_eq rest after]
    simp

end

mutual

/-- The names that occur in a term without an abstraction around them that has them for a
parameter. -/
def freeNames : Term → NameSet
  | .var name => .singleton name
  | .abs parameters body => body.freeNames.difference (.ofList parameters)
  | .app function arguments => addFreeNames function.freeNames arguments

def addFreeNames (names : NameSet) : List Term → NameSet
  | [] => names
  | term :: rest => addFreeNames (names.union term.freeNames) rest

end

end Term

end Redex
