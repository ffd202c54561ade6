/-!
# Nameless terms

A term in which a bound variable is the number of abstractions between it and the one that binds
it. Terms that differ only in the names of their parameters are one nameless term; a free variable
keeps its name, since that is all there is to it.

* `fill_fill`, `fill_renumber`, `renumber_fill`: how filling and renumbering compose.
* `fill_instantiate`: a body can be filled before or after its argument is put in.
* `replace_renumber`: a free name can be replaced before or after renumbering.
-/

namespace Redex

/-- A term of the lambda calculus without names for its parameters. -/
inductive Nameless where
  | bound (index : Nat)
  | free (name : String)
  | abs (body : Nameless)
  | app (function argument : Nameless)
  deriving DecidableEq, Repr

namespace Nameless

/-- New numbers for bound variables, seen from under one more abstraction: its own variable has
number zero and keeps it. -/
def numbersInside (numbers : Nat → Nat) : Nat → Nat
  | 0 => 0
  | index + 1 => numbers index + 1

def renumber (numbers : Nat → Nat) : Nameless → Nameless
  | .bound index => .bound (numbers index)
  | .free name => .free name
  | .abs body => .abs (body.renumber (numbersInside numbers))
  | .app function argument => .app (function.renumber numbers) (argument.renumber numbers)

/-- A term moved under one more abstraction, which binds nothing in it. -/
def shift (term : Nameless) : Nameless := term.renumber (· + 1)

def termsInside (terms : Nat → Nameless) : Nat → Nameless
  | 0 => .bound 0
  | index + 1 => (terms index).shift

/-- A term with terms in the place of the variables that nothing in it binds. -/
def fill (terms : Nat → Nameless) : Nameless → Nameless
  | .bound index => terms index
  | .free name => .free name
  | .abs body => .abs (body.fill (termsInside terms))
  | .app function argument => .app (function.fill terms) (argument.fill terms)

/-- One term for the innermost variable; the others lose the abstraction that was around them. -/
def innermost (argument : Nameless) : Nat → Nameless
  | 0 => argument
  | index + 1 => .bound index

/-- What an abstraction with this body becomes when it is applied to an argument. -/
def instantiate (body argument : Nameless) : Nameless := body.fill (innermost argument)

/-- A term with `replacement` for a free name. Under an abstraction the replacement is shifted, so
that its bound variables go on meaning what they meant. -/
def replace : (term : Nameless) → (name : String) → (replacement : Nameless) → Nameless
  | .bound index, _, _ => .bound index
  | .free other, name, replacement => if other = name then replacement else .free other
  | .abs body, name, replacement => .abs (body.replace name replacement.shift)
  | .app function argument, name, replacement =>
    .app (function.replace name replacement) (argument.replace name replacement)

theorem renumber_renumber (term : Nameless) (first second : Nat → Nat) :
    (term.renumber first).renumber second = term.renumber (fun i => second (first i)) := by
  induction term generalizing first second with
  | bound | free => rfl
  | abs body ih =>
    have inside : (fun i => numbersInside second (numbersInside first i)) =
        numbersInside (fun i => second (first i)) := by
      funext i
      cases i <;> rfl
    simp only [renumber, ih, inside]
  | app function argument ihf iha => simp only [renumber, ihf, iha]

/-- New numbers for the variables outside go on as before under one more abstraction. -/
theorem renumber_shift (term : Nameless) (numbers : Nat → Nat) :
    term.shift.renumber (numbersInside numbers) = (term.renumber numbers).shift := by
  rw [shift, shift, renumber_renumber, renumber_renumber]
  rfl

theorem renumber_fill (term : Nameless) (numbers : Nat → Nat) (terms : Nat → Nameless) :
    (term.renumber numbers).fill terms = term.fill (fun i => terms (numbers i)) := by
  induction term generalizing numbers terms with
  | bound | free => rfl
  | abs body ih =>
    have inside : (fun i => termsInside terms (numbersInside numbers i)) =
        termsInside (fun i => terms (numbers i)) := by
      funext i
      cases i <;> rfl
    simp only [renumber, fill, ih, inside]
  | app function argument ihf iha => simp only [renumber, fill, ihf, iha]

theorem fill_renumber (term : Nameless) (terms : Nat → Nameless) (numbers : Nat → Nat) :
    (term.fill terms).renumber numbers = term.fill (fun i => (terms i).renumber numbers) := by
  induction term generalizing terms numbers with
  | bound | free => rfl
  | abs body ih =>
    have inside : (fun i => (termsInside terms i).renumber (numbersInside numbers)) =
        termsInside (fun i => (terms i).renumber numbers) := by
      funext i
      cases i with
      | zero => rfl
      | succ i => exact renumber_shift (terms i) numbers
    simp only [renumber, fill, ih, inside]
  | app function argument ihf iha => simp only [renumber, fill, ihf, iha]

/-- No term is put in for the variable of an abstraction that binds nothing. -/
theorem fill_shift (term : Nameless) (terms : Nat → Nameless) :
    term.shift.fill (termsInside terms) = (term.fill terms).shift := by
  rw [shift, shift, renumber_fill, fill_renumber]
  rfl

/-- To put terms in twice is to put them in once, with the second terms put into the first. -/
theorem fill_fill (term : Nameless) (first second : Nat → Nameless) :
    (term.fill first).fill second = term.fill (fun i => (first i).fill second) := by
  induction term generalizing first second with
  | bound | free => rfl
  | abs body ih =>
    have inside : (fun i => (termsInside first i).fill (termsInside second)) =
        termsInside (fun i => (first i).fill second) := by
      funext i
      cases i with
      | zero => rfl
      | succ i => exact fill_shift (first i) second
    simp only [fill, ih, inside]
  | app function argument ihf iha => simp only [fill, ihf, iha]

theorem fill_bound (term : Nameless) : term.fill bound = term := by
  induction term with
  | bound | free => rfl
  | abs body ih =>
    have inside : termsInside bound = bound := by
      funext i
      cases i <;> rfl
    rw [fill, inside, ih]
  | app function argument ihf iha => rw [fill, ihf, iha]

/-- To renumber variables is to put variables in their place. -/
theorem renumber_eq_fill (term : Nameless) (numbers : Nat → Nat) :
    term.renumber numbers = term.fill (fun i => bound (numbers i)) := by
  rw [← renumber_fill, fill_bound]

/-- An abstraction that does not use its parameter forgets its argument. -/
theorem instantiate_shift (term argument : Nameless) : term.shift.instantiate argument = term := by
  rw [instantiate, shift, renumber_fill]
  exact fill_bound term

theorem shift_inj {term other : Nameless} : term.shift = other.shift ↔ term = other := by
  constructor
  · intro same
    rw [← instantiate_shift term (.bound 0), same, instantiate_shift]
  · exact congrArg shift

theorem shift_ne_zero (term : Nameless) : term.shift ≠ .bound 0 := by
  intro same
  cases term with
  | bound index => exact Nat.succ_ne_zero index (bound.inj same)
  | free | abs | app => cases same

/-- It does not matter whether terms are put in before an argument or after it. -/
theorem fill_instantiate (body argument : Nameless) (terms : Nat → Nameless) :
    (body.instantiate argument).fill terms =
      (body.fill (termsInside terms)).instantiate (argument.fill terms) := by
  rw [instantiate, instantiate, fill_fill, fill_fill]
  congr 1
  funext i
  cases i with
  | zero => rfl
  | succ i => exact (instantiate_shift (terms i) (argument.fill terms)).symm

theorem replace_renumber (term replacement : Nameless) (name : String) (numbers : Nat → Nat) :
    (term.renumber numbers).replace name (replacement.renumber numbers) =
      (term.replace name replacement).renumber numbers := by
  induction term generalizing replacement numbers with
  | bound => rfl
  | free other =>
    by_cases same : other = name
    · simp only [renumber, replace, if_pos same]
    · simp only [renumber, replace, if_neg same]
  | abs body ih => simp only [renumber, replace, ← renumber_shift, ih]
  | app function argument ihf iha => simp only [renumber, replace, ihf, iha]

/-- A free name that is replaced under an abstraction has the shifted replacement there. -/
theorem replace_shift (term replacement : Nameless) (name : String) :
    term.shift.replace name replacement.shift = (term.replace name replacement).shift :=
  replace_renumber term replacement name (· + 1)

end Nameless

end Redex
