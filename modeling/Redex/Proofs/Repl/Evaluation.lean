import Redex.Proofs.Worksheet.Pending
import Redex.Repl.Session

/-!
# Evaluation within a budget

An evaluation stops ticking when no term is pending, although the terms of a source become normal
one after the other or never. It stops no earlier than it may: each term is as far as if the whole
budget had been spent.

* `Session.settle_eq_ticks`: stopping early makes no difference.
* `Session.evaluate_spends_budget`: what an evaluation leaves and shows.
-/

namespace Redex

open Worksheet (progressed)

namespace Session

theorem settle_of_pending_eq_zero {sheet : Worksheet} (done : sheet.pending = 0) (source : Text)
    (ticks : Nat) : settle source ticks sheet = sheet := by
  cases ticks with
  | zero => rfl
  | succ ticks => rw [settle, if_pos done]

/-- To stop when nothing is pending comes to the same as to spend all ticks. -/
theorem settle_eq_ticks {sheet : Worksheet} {source : Text} (loaded : sheet.source? = some source)
    (ticks : Nat) : settle source ticks sheet = sheet.ticks (List.replicate ticks source) := by
  induction ticks generalizing sheet with
  | zero => rfl
  | succ ticks ih =>
    rw [settle, Worksheet.ticks, List.replicate_succ, List.foldl_cons]
    by_cases done : sheet.pending = 0
    · have same : sheet.tick source = sheet := by
        rw [Worksheet.tick_step loaded, Worksheet.step_of_pending_eq_zero done]
      rw [if_pos done, same]
      exact (settle_of_pending_eq_zero done source ticks).symm.trans (ih loaded)
    · rw [if_neg done]
      exact ih (sheet.source?_tick source)

theorem worksheet_evaluate (session : Session) (source : Text) :
    (session.evaluate source).1.worksheet =
      (session.worksheet.tick source).ticks (List.replicate session.budget source) :=
  settle_eq_ticks (session.worksheet.source?_tick source) session.budget

/-- The first tick with a new source loads it, so the budget is all that the terms have. -/
theorem worksheet_evaluate_of_ne {session : Session} {source : Text}
    (other : session.worksheet.source? ≠ some source) :
    (session.evaluate source).1.worksheet =
      progressed session.worksheet.placeholder source session.budget :=
  (worksheet_evaluate session source).trans (Worksheet.ticks_replicate_of_ne other session.budget)

/-- **An evaluation spends its whole budget on every term.** It leaves the worksheet as that many
ticks after loading the source would, whatever was evaluated before. What is shown of a term is its
normal form, if there is one within that many steps, and the placeholder otherwise, whatever other
terms the source has. -/
theorem evaluate_spends_budget {session : Session} {source : Text}
    (other : session.worksheet.source? ≠ some source) :
    let sheet := (session.evaluate source).1.worksheet
    let placeholder := session.worksheet.placeholder
    sheet = (session.worksheet.tick source).ticks (List.replicate session.budget source) ∧
      sheet = progressed placeholder source session.budget ∧
      (session.evaluate source).2 = printWorksheet sheet ∧
      ∀ (i : Nat) (form : Form), (Form.parse source)[i]? = some form →
        (∀ fault, Term.ofForm form = .error fault → sheet.outputs[i]? = some (.error fault)) ∧
        ∀ term, Term.ofForm form = .ok term →
          (∀ count normal, term.curry.NormalizesIn count normal → count ≤ session.budget →
            sheet.outputs[i]? = some (.ok normal.uncurry.render)) ∧
          ((∀ count normal, term.curry.NormalizesIn count normal → session.budget < count) →
            sheet.outputs[i]? = some (.ok placeholder)) := by
  intro sheet placeholder
  have reached : sheet = progressed placeholder source session.budget :=
    worksheet_evaluate_of_ne other
  refine ⟨worksheet_evaluate session source, reached, rfl, ?_⟩
  intro i form placed
  rw [reached]
  refine ⟨fun fault isFault => Worksheet.output_of_error placed isFault,
    fun term isTerm => ⟨?_, ?_⟩⟩
  · intro count normal normalizes within
    exact Worksheet.output_of_normalizes placed isTerm normalizes within
  · intro beyond
    exact Worksheet.output_of_beyond placed isTerm beyond

/-- One tick is just enough for the first term and not enough for the second; the session was
busy with another source before. -/
theorem evaluate_spends_budget_boundary :
    let session : Session := ⟨progressed "?" "((λ x (x x)) (λ x (x x)))".toList 3, 1⟩
    let source : Text := "((λ x x) a) ((λ x y x) a b) ()".toList
    let sheet := (session.evaluate source).1.worksheet
    session.worksheet.source? ≠ some source ∧
      sheet = (session.worksheet.tick source).ticks [source] ∧
      sheet.outputs = [.ok "a", .ok "?", .error ⟨.emptyList, ⟨28, 30⟩⟩] := by
  have shown : (progressed "?" "((λ x x) a) ((λ x y x) a b) ()".toList 1).outputs =
      [.ok "a", .ok "?", .error ⟨.emptyList, ⟨28, 30⟩⟩] := by decide +kernel
  intro session source sheet
  have other : session.worksheet.source? ≠ some source := by decide
  obtain ⟨ticked, reached, _⟩ := evaluate_spends_budget other
  refine ⟨other, ticked, ?_⟩
  rw [show sheet = _ from reached]
  exact shown

end Session

end Redex
