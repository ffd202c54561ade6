import Redex.Curried.Basic
import Redex.Proofs.Nameless.Basic

/-!
# Curried terms without names

The nameless form of a curried term is found by looking up every variable among the parameters
around it, innermost first. What a term means can be said for any choice of values for its names,
and the nameless form is the meaning for one such choice; facts about substitution are proved of
meanings, where going under an abstraction is only another choice of values.

* `namelessIn_eq_meaning`: a nameless form is a meaning.
* `meaning_congr`: a meaning depends on the values of the free names alone.
* `meaning_fill`, `meaning_replace`: what is done to a meaning can be done to the values instead.
-/

namespace Redex

namespace Curried

/-- The variable that a name is under abstractions with these parameters, innermost first. -/
def resolve (scope : List String) (name : String) : Nameless :=
  match scope.idxOf? name with
  | some index => .bound index
  | none => .free name

/-- The nameless form of a term under abstractions with these parameters, innermost first. -/
def namelessIn (scope : List String) : Curried → Nameless
  | .var name => resolve scope name
  | .abs parameter body => .abs (body.namelessIn (parameter :: scope))
  | .app function argument => .app (function.namelessIn scope) (argument.namelessIn scope)

/-- The nameless form of a term. -/
def nameless (term : Curried) : Nameless := term.namelessIn []

def valuesInside (parameter : String) (values : String → Nameless) : String → Nameless :=
  fun name => if name = parameter then .bound 0 else (values name).shift

/-- A term with values for its free names. -/
def meaning : (term : Curried) → (values : String → Nameless) → Nameless
  | .var name, values => values name
  | .abs parameter body, values => .abs (body.meaning (valuesInside parameter values))
  | .app function argument, values => .app (function.meaning values) (argument.meaning values)

def assign (values : String → Nameless) (name : String) (value : Nameless) : String → Nameless :=
  fun other => if other = name then value else values other

theorem resolve_ne_abs (scope : List String) (name : String) (body : Nameless) :
    resolve scope name ≠ .abs body := by
  unfold resolve
  split <;> exact Nameless.noConfusion

theorem resolve_ne_app (scope : List String) (name : String) (function argument : Nameless) :
    resolve scope name ≠ .app function argument := by
  unfold resolve
  split <;> exact Nameless.noConfusion

theorem resolve_cons (parameter : String) (scope : List String) :
    resolve (parameter :: scope) = valuesInside parameter (resolve scope) := by
  funext name
  by_cases same : name = parameter
  · simp [resolve, valuesInside, List.idxOf?_cons, same]
  · have other : (parameter == name) = false := beq_eq_false_iff_ne.2 (Ne.symm same)
    simp only [resolve, valuesInside, List.idxOf?_cons, other, if_neg same]
    cases scope.idxOf? name <;> rfl

/-- To leave the names out is to give them values, each the variable that it is. -/
theorem namelessIn_eq_meaning (scope : List String) (term : Curried) :
    term.namelessIn scope = term.meaning (resolve scope) := by
  induction term generalizing scope with
  | var name => rfl
  | abs parameter body ih => rw [namelessIn, meaning, ih, resolve_cons]
  | app function argument ihf iha => rw [namelessIn, meaning, ihf, iha]

/-- What a term means depends on its free names only. -/
theorem meaning_congr {term : Curried} {values others : String → Nameless}
    (agree : ∀ name ∈ term.freeNames, values name = others name) :
    term.meaning values = term.meaning others := by
  induction term generalizing values others with
  | var name => exact agree name (mem_freeNames_var.2 rfl)
  | abs parameter body ih =>
    have inside : ∀ name ∈ body.freeNames,
        valuesInside parameter values name = valuesInside parameter others name := by
      intro name free
      by_cases same : name = parameter
      · simp only [valuesInside, if_pos same]
      · simp only [valuesInside, if_neg same, agree name (mem_freeNames_abs.2 ⟨free, same⟩)]
    rw [meaning, meaning, ih inside]
  | app function argument ihf iha =>
    have function_agrees := ihf fun name free => agree name (mem_freeNames_app.2 (.inl free))
    have argument_agrees := iha fun name free => agree name (mem_freeNames_app.2 (.inr free))
    rw [meaning, meaning, function_agrees, argument_agrees]

theorem meaning_fill (term : Curried) (values : String → Nameless) (terms : Nat → Nameless) :
    (term.meaning values).fill terms = term.meaning fun name => (values name).fill terms := by
  induction term generalizing values terms with
  | var name => rfl
  | abs parameter body ih =>
    have inside : (fun name => (valuesInside parameter values name).fill (.termsInside terms)) =
        valuesInside parameter fun name => (values name).fill terms := by
      funext name
      by_cases same : name = parameter
      · simp only [valuesInside, if_pos same]
        rfl
      · simp only [valuesInside, if_neg same, Nameless.fill_shift]
    rw [meaning, meaning, Nameless.fill, ih, inside]
  | app function argument ihf iha => rw [meaning, meaning, Nameless.fill, ihf, iha]

/-- A shift can be put off to the values of the free names. -/
theorem meaning_shift (term : Curried) (values : String → Nameless) :
    (term.meaning values).shift = term.meaning fun name => (values name).shift := by
  simp only [Nameless.shift, Nameless.renumber_eq_fill, meaning_fill]

/-- A replacement can be put off to the values of the free names. -/
theorem meaning_replace (term : Curried) (values : String → Nameless) (name : String)
    (replacement : Nameless) :
    (term.meaning values).replace name replacement =
      term.meaning fun other => (values other).replace name replacement := by
  induction term generalizing values replacement with
  | var other => rfl
  | abs parameter body ih =>
    have inside :
        (fun other => (valuesInside parameter values other).replace name replacement.shift) =
          valuesInside parameter fun other => (values other).replace name replacement := by
      funext other
      by_cases same : other = parameter
      · simp only [valuesInside, if_pos same]
        rfl
      · simp only [valuesInside, if_neg same, Nameless.replace_shift]
    rw [meaning, meaning, Nameless.replace, ih, inside]
  | app function argument ihf iha => rw [meaning, meaning, Nameless.replace, ihf, iha]

end Curried

end Redex
