import Redex.Proofs.Curried.Simulation
import Redex.Proofs.Worksheet.History

/-!
# Terms on their way

A term is pending as long as it has a step to take. Once a worksheet has no such term, no tick with
its source changes it, so it does not matter when one stops to tick.

* `Curried.exists_steps?_afterSteps`: how far a number of steps leads at most.
* `Worksheet.step_of_pending_eq_zero`: a worksheet without a pending term stays as it is.
* `Worksheet.ticks_replicate_of_ne`: ticks with one source load it and let its terms take steps.
* `Worksheet.output_of_normalizes`, `Worksheet.output_of_beyond`: what is shown of a term that is
  normal after some ticks, and of one that is not.
-/

namespace Redex

namespace Curried

/-- Whether so many steps, and no fewer, lead to the normal form of a term. -/
def NormalizesIn (term : Curried) (count : Nat) (normal : Curried) : Prop :=
  term.steps? count = some normal ∧ normal.step? = none

theorem steps?_succ (count : Nat) (t : Curried) :
    t.steps? (count + 1) = (t.steps? count).bind step? := by
  induction count generalizing t with
  | zero =>
    rw [steps?, steps?]
    exact Option.bind_fun_some _
  | succ count ih =>
    rw [steps?, steps?, Option.bind_assoc]
    congr 1
    funext u
    exact ih u

/-- Steps come to an end before all of them are taken only where there is no next one. -/
theorem exists_steps?_afterSteps (budget : Nat) (t : Curried) :
    ∃ count ≤ budget, t.steps? count = some (t.afterSteps budget) ∧
      (count = budget ∨ (t.afterSteps budget).step? = none) := by
  induction budget with
  | zero => exact ⟨0, Nat.le_refl 0, rfl, .inl rfl⟩
  | succ budget ih =>
    obtain ⟨count, le, steps, stopped⟩ := ih
    rw [afterSteps]
    cases step : (t.afterSteps budget).step? with
    | none => exact ⟨count, Nat.le_succ_of_le le, steps, .inr step⟩
    | some next =>
      obtain rfl : count = budget := stopped.resolve_right (by simp [step])
      refine ⟨count + 1, Nat.le_refl _, ?_, .inl rfl⟩
      rw [steps?_succ, steps]
      exact step

theorem afterSteps_of_step {t u : Curried} (step : t.step? = some u) (count : Nat) :
    t.afterSteps (count + 1) = u.afterSteps count := by
  induction count with
  | zero =>
    show t.step?.getD t = u
    rw [step]
    rfl
  | succ count ih =>
    rw [afterSteps, ih]
    rfl

theorem afterSteps_of_step?_eq_none {t : Curried} (done : t.step? = none) (count : Nat) :
    t.afterSteps count = t := by
  induction count with
  | zero => rfl
  | succ count ih =>
    rw [afterSteps, ih, done]
    rfl

/-- A normal form stays what it is for the rest of the budget. -/
theorem NormalizesIn.afterSteps {t normal : Curried} {count budget : Nat}
    (normalizes : t.NormalizesIn count normal) (le : count ≤ budget) :
    t.afterSteps budget = normal := by
  obtain ⟨steps, done⟩ := normalizes
  induction count generalizing t budget with
  | zero =>
    cases steps
    exact afterSteps_of_step?_eq_none done budget
  | succ count ih =>
    obtain ⟨next, step, rest⟩ := Option.bind_eq_some_iff.1 steps
    obtain ⟨more, rfl⟩ := Nat.exists_eq_succ_of_ne_zero (n := budget) (by omega)
    rw [afterSteps_of_step step]
    exact ih (Nat.le_of_succ_le_succ le) rest

end Curried

namespace Entry

/-- An entry is pending if there is a step that it takes next. -/
theorem isPending_eq_isSome (entry : Entry) : entry.isPending = entry.next?.isSome := by
  cases entry with
  | error => rfl
  | ok term => exact term.isReducible_eq_isSome

theorem advance_of_not_pending {entry : Entry} (done : entry.isPending = false) :
    entry.advance = entry := by
  rw [isPending_eq_isSome, Option.isSome_eq_false_iff, Option.isNone_iff_eq_none] at done
  rw [advance, done]

end Entry

namespace Worksheet

theorem source?_tick (sheet : Worksheet) (source : Text) :
    (sheet.tick source).source? = some source := by
  by_cases loaded : sheet.source? = some source
  · rw [tick_step loaded]
    exact loaded
  · rw [tick_reload loaded]
    rfl

/-- Where nothing is pending a tick changes nothing. -/
theorem step_of_pending_eq_zero {sheet : Worksheet} (done : sheet.pending = 0) :
    sheet.step = sheet := by
  have stays : ∀ entry ∈ sheet.entries, entry.advance = entry := by
    intro entry mem
    apply Entry.advance_of_not_pending
    simpa using List.countP_eq_zero.1 done entry mem
  rw [step, List.map_congr_left stays, List.map_id']

theorem ticks_replicate_progressed (placeholder : String) (source : Text) (count more : Nat) :
    (progressed placeholder source count).ticks (List.replicate more source) =
      progressed placeholder source (count + more) := by
  induction more generalizing count with
  | zero => rfl
  | succ more ih =>
    have tick : (progressed placeholder source count).tick source =
        progressed placeholder source (count + 1) := by
      rw [tick_progressed, if_pos rfl]
    rw [ticks, List.replicate_succ, List.foldl_cons, tick, Nat.add_comm more, ← Nat.add_assoc]
    exact ih (count + 1)

/-- What was on a worksheet before its source was loaded is forgotten. -/
theorem ticks_replicate_of_ne {sheet : Worksheet} {source : Text}
    (other : sheet.source? ≠ some source) (count : Nat) :
    (sheet.tick source).ticks (List.replicate count source) =
      progressed sheet.placeholder source count := by
  rw [tick_reload other, reload_eq, ticks_replicate_progressed, Nat.zero_add]

theorem getElem?_entries_progressed (placeholder : String) (source : Text) (count i : Nat) :
    (progressed placeholder source count).entries[i]? =
      (Form.parse source)[i]?.map fun form =>
        (Term.ofForm form).map fun term => term.curry.afterSteps count := List.getElem?_map

theorem getElem?_outputs (sheet : Worksheet) (i : Nat) :
    sheet.outputs[i]? = sheet.entries[i]?.map (Entry.output sheet.placeholder) := List.getElem?_map

section

variable {placeholder : String} {source : Text} {budget i : Nat} {form : Form} {term : Term}

theorem entry_of_ok (placed : (Form.parse source)[i]? = some form)
    (isTerm : Term.ofForm form = .ok term) :
    (progressed placeholder source budget).entries[i]? =
      some (.ok (term.curry.afterSteps budget)) := by
  rw [getElem?_entries_progressed, placed, Option.map_some, isTerm]
  rfl

theorem output_of_error {fault : Fault} (placed : (Form.parse source)[i]? = some form)
    (isFault : Term.ofForm form = .error fault) :
    (progressed placeholder source budget).outputs[i]? = some (.error fault) := by
  rw [getElem?_outputs, getElem?_entries_progressed, placed, Option.map_some, isFault]
  rfl

/-- A term that is normal within the budget is shown in its normal form. -/
theorem output_of_normalizes {count : Nat} {normal : Curried}
    (placed : (Form.parse source)[i]? = some form) (isTerm : Term.ofForm form = .ok term)
    (normalizes : term.curry.NormalizesIn count normal) (within : count ≤ budget) :
    (progressed placeholder source budget).outputs[i]? = some (.ok normal.uncurry.render) := by
  have done : normal.isReducible = false := by
    rw [normal.isReducible_eq_isSome, normalizes.2]
    rfl
  rw [getElem?_outputs, entry_of_ok placed isTerm, normalizes.afterSteps within, Option.map_some,
    Entry.output, done]
  rfl

/-- The budget may be too small by one step, or no budget may be large enough. -/
theorem output_of_beyond (placed : (Form.parse source)[i]? = some form)
    (isTerm : Term.ofForm form = .ok term)
    (beyond : ∀ count normal, term.curry.NormalizesIn count normal → budget < count) :
    (progressed placeholder source budget).outputs[i]? = some (.ok placeholder) := by
  have pending : (term.curry.afterSteps budget).isReducible = true := by
    obtain ⟨count, le, steps, _⟩ := Curried.exists_steps?_afterSteps budget term.curry
    rw [Curried.isReducible_eq_isSome, Option.isSome_iff_ne_none]
    intro done
    exact absurd (beyond count _ ⟨steps, done⟩) (Nat.not_lt_of_le le)
  rw [getElem?_outputs, entry_of_ok placed isTerm, Option.map_some, Entry.output, pending]
  rfl

end

end Worksheet

end Redex
