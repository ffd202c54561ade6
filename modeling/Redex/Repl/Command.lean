import Redex.Glyph
import Redex.Text.Blank

/-!
# Commands

An input that begins with a colon names a command, and whatever follows the first space after the
name is its argument. Any other input is a source to evaluate.
-/

namespace Redex

inductive Command where
  | parse
  | free
  | step
  | evaluate
  | help
  | unknown (name : String)
  deriving DecidableEq, Repr

/-- The command with a name. Nothing but the listed abbreviations is understood. -/
def Command.ofName : String → Command
  | "p" | "parse" => .parse
  | "f" | "free" => .free
  | "s" | "step" => .step
  | "" | "e" | "eval" | "evaluate" => .evaluate
  | "h" | "he" | "hel" | "help" => .help
  | name => .unknown name

structure Request where
  command : Command
  argument : Text
  deriving DecidableEq, Repr

namespace Request

/-- The request of a text that follows a colon. Blanks may stand before the name, and only a
space ends it. -/
def ofNamed (text : Text) : Request :=
  let named := text.trimStart
  ⟨.ofName (.ofList (named.takeWhile (· != ' '))), (named.dropWhile (· != ' ')).drop 1⟩

def ofInput : Text → Request
  | ':' :: rest => ofNamed rest
  | source => ⟨.evaluate, source⟩

/-- An input without a colon at its start is a source to evaluate. -/
theorem ofInput_of_head?_ne {input : Text} (noCommand : input.head? ≠ some ':') :
    ofInput input = ⟨.evaluate, input⟩ := by
  cases input with
  | nil => rfl
  | cons c rest =>
    unfold ofInput
    split
    · rename_i same
      cases same
      exact absurd rfl noCommand
    · rfl

end Request

end Redex
