import Redex.Proofs.Repl.Evaluation
import Redex.Proofs.Worksheet.Ticking

/-!
# The budget of an evaluation

The first tick of an evaluation loads its source and is not counted. If the source is loaded
already, because it was evaluated or stepped before, that tick is a step like the others, and is
still not counted: the terms may then take one step more than the budget has ticks.

* `Session.worksheet_evaluate_eq`: an evaluation as ticks with a source that is loaded.
* `Session.evaluate_advances`: how many steps each term takes in an evaluation.
* `Session.evaluate_again_exceeds_budget`: an evaluation that takes a step without a budget.
-/

namespace Redex

open Worksheet (progressed)

/-- A term that becomes normal takes no more steps than lead there. -/
theorem Curried.NormalizesIn.le_of_steps? {t u normal : Curried} {count more : Nat}
    (normalizes : t.NormalizesIn count normal) (steps : t.steps? more = some u) : more ≤ count := by
  obtain ⟨reaches, done⟩ := normalizes
  induction count generalizing t more with
  | zero =>
    cases reaches
    cases more with
    | zero => exact Nat.le_refl 0
    | succ more =>
      rw [steps?, done] at steps
      cases steps
  | succ count ih =>
    cases more with
    | zero => exact Nat.zero_le _
    | succ more =>
      obtain ⟨next, step, rest⟩ := Option.bind_eq_some_iff.1 reaches
      rw [steps?, step] at steps
      exact Nat.succ_le_succ (ih steps rest)

namespace Session

/-- The worksheet whose terms an evaluation advances: the one that the session has, if its source is
the one to evaluate, and else that source as it is loaded. -/
def opened (session : Session) (source : Text) : Worksheet :=
  if session.worksheet.source? = some source then session.worksheet
  else session.worksheet.reload source

/-- How many of the ticks of an evaluation are steps. -/
def stepsAllowed (session : Session) (source : Text) : Nat :=
  if session.worksheet.source? = some source then session.budget + 1 else session.budget

theorem source?_opened (session : Session) (source : Text) :
    (session.opened source).source? = some source := by
  rw [opened]
  split
  · assumption
  · rfl

/-- An evaluation is a number of steps, which the budget and the source that was loaded determine.
-/
theorem worksheet_evaluate_eq (session : Session) (source : Text) :
    (session.evaluate source).1.worksheet =
      (session.opened source).ticks (List.replicate (session.stepsAllowed source) source) := by
  rw [worksheet_evaluate, opened, stepsAllowed]
  split
  · rfl
  · rename_i other
    rw [Worksheet.tick_reload other]

/-- **The budget does not count the first step of a source that is loaded.** A term takes one step
after the other until it is normal, or until it has taken as many as the budget has ticks, and one
more if the source was loaded before. So the budget bounds its steps if the source was not loaded or
the term becomes normal within the budget, and in no other case. -/
theorem evaluate_advances {session : Session} {source : Text} {i : Nat} {term : Curried}
    (placed : (session.opened source).entries[i]? = some (.ok term)) :
    ∃ count reached, term.steps? count = some reached ∧
      (session.evaluate source).1.worksheet.entries[i]? = some (.ok reached) ∧
      (session.evaluate source).2 = printWorksheet (session.evaluate source).1.worksheet ∧
      count ≤ session.stepsAllowed source ∧
      (count = session.stepsAllowed source ∨ reached.step? = none) ∧
      (count ≤ session.budget ↔ session.worksheet.source? ≠ some source ∨
        ∃ steps normal, steps ≤ session.budget ∧ term.NormalizesIn steps normal) := by
  obtain ⟨count, within, steps, stopped⟩ :=
    term.exists_steps?_afterSteps (session.stepsAllowed source)
  have entry : (session.evaluate source).1.worksheet.entries[i]? =
      some (.ok (term.afterSteps (session.stepsAllowed source))) := by
    rw [worksheet_evaluate_eq,
      Worksheet.getElem?_entries_ticks (source?_opened session source) placed,
      Entry.iterate_advance_ok]
  refine ⟨count, _, steps, entry, rfl, within, stopped, ?_⟩
  by_cases loaded : session.worksheet.source? = some source
  · have allowed : session.stepsAllowed source = session.budget + 1 := if_pos loaded
    simp only [loaded, ne_eq, not_true_eq_false, false_or]
    constructor
    · intro bounded
      exact ⟨count, _, bounded, steps, stopped.resolve_left (by omega)⟩
    · rintro ⟨enough, normal, bounded, normalizes⟩
      exact Nat.le_trans (normalizes.le_of_steps? steps) bounded
  · have allowed : session.stepsAllowed source = session.budget := if_neg loaded
    exact iff_of_true (allowed ▸ within) (.inl loaded)

/-- With a budget of one tick the term takes the two steps that it needs. -/
theorem evaluate_advances_twice :
    let source : Text := "((λ x x) ((λ y y) a))".toList
    let session : Session := ⟨progressed "?" source 0, 1⟩
    let term : Curried := .app (.abs "x" (.var "x")) (.app (.abs "y" (.var "y")) (.var "a"))
    (session.opened source).entries[0]? = some (.ok term) ∧
      session.worksheet.source? = some source ∧
      ∃ count reached, session.budget < count ∧ term.steps? count = some reached ∧
        (session.evaluate source).1.worksheet.entries[0]? = some (.ok reached) := by
  have loads : (progressed "?" "((λ x x) ((λ y y) a))".toList 0).entries[0]? =
      some (.ok (.app (.abs "x" (.var "x")) (.app (.abs "y" (.var "y")) (.var "a")))) := by
    decide +kernel
  intro source session term
  have needed : term.steps? 2 = some (.var "a") := by
    show (Curried.app (.abs "x" (.var "x")) (.app (.abs "y" (.var "y")) (.var "a"))).steps? 2 = _
    decide +kernel
  have placed : (session.opened source).entries[0]? = some (.ok term) := loads
  obtain ⟨count, reached, steps, entry, _, _, _, bounded⟩ := evaluate_advances placed
  refine ⟨placed, rfl, count, reached, Nat.lt_of_not_le fun within => ?_, steps, entry⟩
  rcases bounded.1 within with other | ⟨enough, normal, inBudget, normalizes⟩
  · exact other rfl
  · have atLeast : 2 ≤ enough := normalizes.le_of_steps? needed
    exact absurd (Nat.le_trans atLeast inBudget) (by decide)

/-- Without a budget no term may take a step, and when it is evaluated for the first time it takes
none. It takes one when the same input is given again. -/
theorem evaluate_again_exceeds_budget :
    let fresh : Session := ⟨.blank Worksheet.ellipsis, 0⟩
    let input : Text := "((λ x x) a)".toList
    let first := fresh.respond input
    let again := first.1.respond input
    let term : Curried := .app (.abs "x" (.var "x")) (.var "a")
    first.2 = [.print "..."] ∧ again.2 = [.print "a"] ∧
      first.1.worksheet.entries = [.ok term] ∧ again.1.worksheet.entries = [.ok (.var "a")] ∧
      ¬ ∃ count ≤ first.1.budget, term.steps? count = some (.var "a") := by
  intro fresh input first again term
  have outcome : first.2 = [.print "..."] ∧ again.2 = [.print "a"] ∧
      first.1.worksheet.entries = [.ok term] ∧ again.1.worksheet.entries = [.ok (.var "a")] ∧
      first.1.budget = 0 := by decide +kernel
  obtain ⟨printed, printedAgain, entries, entriesAgain, noBudget⟩ := outcome
  refine ⟨printed, printedAgain, entries, entriesAgain, ?_⟩
  rintro ⟨count, within, steps⟩
  obtain rfl : count = 0 := Nat.le_zero.1 (within.trans_eq noBudget)
  simp [Curried.steps?, term] at steps

end Session

end Redex
