import Redex.Text.Basic

/-!
# Places

A position in a text for human eyes: its line, and its column in that line, both counted from
one. Lines end with a line feed and with nothing else.
-/

namespace Redex

structure Place where
  line : Nat
  column : Nat
  deriving DecidableEq, Repr

def Text.place (text : Text) (pos : Nat) : Place :=
  let before := text.take pos
  ⟨before.count '\n' + 1, (before.reverse.takeWhile (· != '\n')).length + 1⟩

def Place.render (place : Place) : String :=
  toString place.line ++ ":" ++ toString place.column

end Redex
