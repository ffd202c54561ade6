import Redex.Glyph
import Redex.NameSet

/-!
# Curried terms

A term in which every abstraction has one parameter and every application one argument. All
computing is done on these.

* `Curried.write_eq`: a term is written in front of a text without regard to that text.
* `Curried.mem_freeNames_abs`, `Curried.mem_freeNames_app`: when a name is free in a term.
-/

namespace Redex

/-- A term of the lambda calculus with one parameter and one argument at a time. -/
inductive Curried where
  | var (name : String)
  | abs (parameter : String) (body : Curried)
  | app (function argument : Curried)
  deriving DecidableEq, Repr

namespace Curried

/-- How many variables, abstractions and applications a term is made of. -/
def size : Curried → Nat
  | .var _ => 1
  | .abs _ body => body.size + 1
  | .app function argument => function.size + argument.size + 1

/-- Writes a term in front of a text. -/
def write : Curried → Text → Text
  | .var name, after => name.toList ++ after
  | .abs parameter body, after =>
    '(' :: glyph :: ' ' :: (parameter.toList ++ ' ' :: body.write (')' :: after))
  | .app function argument, after =>
    '(' :: function.write (' ' :: argument.write (')' :: after))

def text (term : Curried) : Text := term.write []

def render (term : Curried) : String := .ofList term.text

/-- The names that occur in a term without an abstraction around them that has them for its
parameter. -/
def freeNames : Curried → NameSet
  | .var name => .singleton name
  | .abs parameter body => body.freeNames.difference (.singleton parameter)
  | .app function argument => function.freeNames.union argument.freeNames

/-- What a term is written in front of has no part in how it is written. -/
theorem write_eq (term : Curried) (after : Text) : term.write after = term.text ++ after := by
  unfold text
  induction term generalizing after with
  | var name => simp [write]
  | abs parameter body ih =>
    simp only [write, ih (')' :: after), ih [')']]
    simp
  | app function argument ihf iha =>
    simp only [write, iha (')' :: after), iha [')'], ihf (' ' :: (argument.write [] ++ _))]
    simp

theorem text_abs (parameter : String) (body : Curried) :
    (abs parameter body).text =
      '(' :: glyph :: ' ' :: (parameter.toList ++ ' ' :: (body.text ++ [')'])) := by
  rw [text, write, write_eq]

theorem text_app (function argument : Curried) :
    (app function argument).text =
      '(' :: (function.text ++ ' ' :: (argument.text ++ [')'])) := by
  rw [text, write, write_eq function, write_eq argument]

section

variable {x y : String} {t u : Curried}

@[simp] theorem mem_freeNames_var : x ∈ (var y).freeNames ↔ x = y := NameSet.mem_singleton

@[simp] theorem mem_freeNames_abs : x ∈ (abs y t).freeNames ↔ x ∈ t.freeNames ∧ x ≠ y := by
  rw [freeNames, NameSet.mem_difference, NameSet.mem_singleton]

@[simp] theorem mem_freeNames_app :
    x ∈ (app t u).freeNames ↔ x ∈ t.freeNames ∨ x ∈ u.freeNames := NameSet.mem_union

end

end Curried

end Redex
