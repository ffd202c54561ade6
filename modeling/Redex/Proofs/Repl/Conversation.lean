import Redex.Proofs.Analysis.Independence
import Redex.Proofs.Repl.Evaluation
import Redex.Proofs.Repl.Framing

/-!
# Conversations about one source

A source can be evaluated at once, or be the only line of a conversation. On that way it goes
through the line reader, and is tried for a command and for an end that asks for another line; what
is left then is evaluated like any source.

* `Session.printed_respond_source`: a source is answered with its evaluation, a blank one too.
* `conversation_line`: a conversation about one line answers that line.
* `conversation_source`: the answer is that of an evaluation, unless there are backspaces.
* `conversation_source_backspace`: the line reader of a pipe makes another source of one with
  backspaces.
-/

namespace Redex

theorem Text.shorthand_not_mem_of_isBlank {text : Text} (blank : text.isBlank = true) :
    shorthand ∉ text := by
  intro mem
  have isBlank := List.all_eq_true.1 blank shorthand mem
  exact absurd isBlank (by decide)

namespace Session

/-- A blank source has no forms, so to evaluate it comes to the same as to pass over it. -/
theorem printed_evaluate_of_isBlank {session : Session} {source : Text}
    (other : session.worksheet.source? ≠ some source) (blank : source.isBlank = true) :
    (session.evaluate source).2 = [] := by
  have sheet := worksheet_evaluate_of_ne other
  have entries : (session.evaluate source).1.worksheet.entries = [] := by
    rw [sheet, Worksheet.progressed, Form.parse_of_isBlank blank]
    rfl
  show printWorksheet (session.evaluate source).1.worksheet = []
  rw [printWorksheet, Worksheet.outputs, entries]
  rfl

theorem printed_respond_source {session : Session} {source : Text}
    (fresh : session.worksheet.source? = none) (noCommand : source.head? ≠ some ':') :
    (session.respond source).2 = (session.evaluate source.expandShorthand).2 := by
  rw [respond, Request.ofInput_of_head?_ne noCommand]
  split
  · rename_i blank
    rw [Text.expandShorthand_of_not_mem (Text.shorthand_not_mem_of_isBlank blank)]
    have other : session.worksheet.source? ≠ some source := by
      rw [fresh]
      exact (Option.some_ne_none source).symm
    exact (printed_evaluate_of_isBlank other blank).symm
  · rfl

end Session

/-- A conversation about one line answers what the line is once it is read. -/
theorem conversation_line {reader : LineReader} {options : Options} {stdin line : Text}
    (read : reader stdin = [line]) (complete : ¬ ['\\', '\\'] <:+ line) :
    conversation reader options stdin =
      greeting ++ (options.session.respond line).2 ++ [farewell] := by
  have input : Text.inputs [line] = [line] :=
    Text.inputsAfter_complete (Text.continued?_eq_none complete)
  rw [Session.conversation_eq_converse, read, input, Session.converse_cons, Session.converse,
    List.append_nil]

/-- **A conversation about one source is an evaluation of it.** Whatever line reader there is, the
same is printed between greeting and farewell, and in the same order, as when the source is
evaluated at once: the same texts and the same reports of the same stretches of the same text.
Whatever is blank, has faults or has backslashes in it is no exception; a source with backspaces may
be one. -/
theorem conversation_source {reader : LineReader} (documented : reader.Documented) {source : Text}
    (oneLine : '\n' ∉ source) (noCommand : source.head? ≠ some ':')
    (complete : ¬ ['\\', '\\'] <:+ source) (noReturn : source.getLast? ≠ some '\r')
    (noBackspace : backspace ∉ source) (options : Options) (stdin : Text) :
    runWith reader { options with source? := none } (source ++ ['\n']) =
      greeting ++ runWith reader { options with source? := some source } stdin ++ [farewell] := by
  have read : reader (source ++ ['\n']) = [source] :=
    documented.only_line oneLine noReturn noBackspace
  show conversation reader _ _ = greeting ++ evaluation _ _ ++ [farewell]
  rw [conversation_line read complete, Session.printed_respond_source rfl noCommand]
  rfl

/-- Of two forms, one has a fault and the other a backslash for the glyph and a step to take. -/
theorem conversation_source_shorthand :
    let source : Text := "() ((\\ x x) y)".toList
    LineReader.pipe.Documented ∧ '\n' ∉ source ∧ source.head? ≠ some ':' ∧
      ¬ ['\\', '\\'] <:+ source ∧ source.getLast? ≠ some '\r' ∧ backspace ∉ source ∧
      run { ticks := 1 } (source ++ ['\n']) =
        greeting ++ [.report ⟨"empty list", "empty list", .red, ⟨0, 2⟩, "() ((λ x x) y)".toList⟩,
          .print "", .print "y"] ++ [farewell] := by
  intro source
  have oneLine : '\n' ∉ source := by decide
  have noCommand : source.head? ≠ some ':' := by decide
  have complete : ¬ ['\\', '\\'] <:+ source := by decide
  have noReturn : source.getLast? ≠ some '\r' := by decide
  have noBackspace : backspace ∉ source := by decide
  have atOnce : run { source? := some source, ticks := 1 } [] =
      [.report ⟨"empty list", "empty list", .red, ⟨0, 2⟩, "() ((λ x x) y)".toList⟩,
        .print "", .print "y"] := by decide +kernel
  refine ⟨LineReader.pipe_documented, oneLine, noCommand, complete, noReturn, noBackspace, ?_⟩
  rw [← atOnce]
  exact conversation_source LineReader.pipe_documented oneLine noCommand complete noReturn
    noBackspace { ticks := 1 } []

/-- Evaluated at once, a backspace is part of a name; in a conversation it takes back the character
before it and is gone. -/
theorem conversation_source_backspace :
    let source : Text := ['x', 'y', backspace, 'z']
    '\n' ∉ source ∧ source.head? ≠ some ':' ∧ ¬ ['\\', '\\'] <:+ source ∧
      source.getLast? ≠ some '\r' ∧
      run {} (source ++ ['\n']) = greeting ++ [.print "xz"] ++ [farewell] ∧
      run { source? := some source } [] = [.print "xy\x08z"] ∧
      run {} (source ++ ['\n']) ≠ greeting ++ run { source? := some source } [] ++ [farewell] := by
  intro source
  have talk : run {} (source ++ ['\n']) = greeting ++ [.print "xz"] ++ [farewell] := by
    decide +kernel
  have atOnce : run { source? := some source } [] = [.print "xy\x08z"] := by decide +kernel
  refine ⟨by decide, by decide, by decide, by decide, talk, atOnce, ?_⟩
  rw [talk, atOnce]
  decide

end Redex
