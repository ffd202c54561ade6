import Redex.Repl.Run

/-!
# Inspection

Only requests to evaluate or to step advance a session. All others, and blank inputs, can be taken
out of a conversation without a trace: what is left of it goes on as it did, in the same states and
with the same answers.

* `Session.respond_of_not_advances`: an input that does not advance a session leaves it as it is.
* `Session.transcript_filter_advances`: a conversation without such inputs.
-/

namespace Redex

/-- Whether an input asks to evaluate or to step. -/
def Text.advances (input : Text) : Bool :=
  !input.isBlank &&
    match (Request.ofInput input).command with
    | .step | .evaluate => true
    | .parse | .free | .help | .unknown _ => false

namespace Session

/-- What comes of some inputs, one after the other. -/
def transcript (session : Session) : List Text → List Exchange
  | [] => []
  | input :: rest => session.answer input :: (session.answer input).after.transcript rest

/-- What is printed in answer to some inputs. -/
def converse (session : Session) : List Text → List Output
  | [] => []
  | input :: rest =>
    let (next, outputs) := session.respond input
    outputs ++ next.converse rest

theorem transcript_cons (session : Session) (input : Text) (rest : List Text) :
    session.transcript (input :: rest) =
      session.answer input :: (session.respond input).1.transcript rest := rfl

theorem converse_cons (session : Session) (input : Text) (rest : List Text) :
    session.converse (input :: rest) =
      (session.respond input).2 ++ (session.respond input).1.converse rest := rfl

theorem converse_eq_flatMap_transcript (session : Session) (inputs : List Text) :
    session.converse inputs = (session.transcript inputs).flatMap Exchange.printed := by
  induction inputs generalizing session with
  | nil => rfl
  | cons input rest ih =>
    rw [converse_cons, transcript_cons, List.flatMap_cons, ih]
    rfl

/-- An input that neither evaluates nor steps finds a session and leaves it the same. -/
theorem respond_of_not_advances {input : Text} (inspects : input.advances = false)
    (session : Session) : (session.respond input).1 = session := by
  rw [respond]
  split
  · rfl
  · rename_i notBlank
    have command : ∀ argument, (session.perform (Request.ofInput input).command argument).1 =
        session := by
      intro argument
      cases asked : (Request.ofInput input).command with
      | parse | free | help | unknown => rfl
      | step | evaluate => simp [Text.advances, notBlank, asked] at inspects
    exact command _

/-- **Inspection leaves no trace.** Without the inputs that neither evaluate nor step, the others
find the session in the same state, leave it in the same state and are answered the same. -/
theorem transcript_filter_advances (session : Session) (inputs : List Text) :
    session.transcript (inputs.filter Text.advances) =
        (session.transcript inputs).filter (·.input.advances) ∧
      session.converse (inputs.filter Text.advances) =
        ((session.transcript inputs).filter (·.input.advances)).flatMap Exchange.printed := by
  have purged : session.transcript (inputs.filter Text.advances) =
      (session.transcript inputs).filter (·.input.advances) := by
    induction inputs generalizing session with
    | nil => rfl
    | cons input rest ih =>
      rw [transcript_cons, List.filter_cons, List.filter_cons, answer_input]
      cases asked : input.advances with
      | true =>
        rw [if_pos rfl, if_pos rfl, transcript_cons, ih]
      | false =>
        rw [if_neg nofun, if_neg nofun, ih, respond_of_not_advances asked session]
  exact ⟨purged, by rw [converse_eq_flatMap_transcript, purged]⟩

/-- A name may have blanks before it, and a request without a name is one to evaluate. -/
example : ["x", ":  s", ":", ":p x", ":stop", " "].map (fun input => Text.advances input.toList) =
    [true, true, true, false, false, false] := by cbv

end Session

end Redex
