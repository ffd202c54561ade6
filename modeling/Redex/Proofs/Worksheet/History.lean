import Redex.Worksheet
import Mathlib.Data.List.DropRight

/-!
# What a worksheet remembers

A worksheet forgets all that was ticked before its source was loaded for the last time. What it
holds is told by that source and by the number of ticks with it since then.

* `Worksheet.tick_progressed`: what one tick does to a worksheet some steps after loading.
* `Worksheet.ticks_eq_progressed`, `Worksheet.ticks_forget`: what a worksheet holds after any ticks.
-/

namespace Redex

/-- The term after so many steps, or its normal form if that is reached before. -/
def Curried.afterSteps : (count : Nat) → (term : Curried) → Curried
  | 0, term => term
  | count + 1, term =>
    let reached := afterSteps count term
    reached.step?.getD reached

theorem Entry.advance_ok (term : Curried) :
    advance (.ok term) = .ok (term.step?.getD term) := by
  rw [advance, next?]
  cases term.step? <;> rfl

namespace Worksheet

/-- A worksheet after ticks with some sources, one after the other. -/
def ticks (sheet : Worksheet) (sources : List Text) : Worksheet := sources.foldl tick sheet

/-- The worksheet of a source so many steps after it was loaded. -/
def progressed (placeholder : String) (source : Text) (count : Nat) : Worksheet where
  placeholder := placeholder
  source? := some source
  entries := (Form.parse source).map fun form =>
    (Term.ofForm form).map fun term => term.curry.afterSteps count

section

variable {placeholder : String} {source next : Text} {count : Nat}

theorem reload_eq (sheet : Worksheet) (source : Text) :
    sheet.reload source = progressed sheet.placeholder source 0 := rfl

theorem step_progressed :
    (progressed placeholder source count).step = progressed placeholder source (count + 1) := by
  have entry (form : Form) :
      Entry.advance ((Term.ofForm form).map fun term => term.curry.afterSteps count) =
        (Term.ofForm form).map fun term => term.curry.afterSteps (count + 1) := by
    cases Term.ofForm form with
    | error fault => rfl
    | ok term => exact Entry.advance_ok _
  simp only [step, progressed, List.map_map]
  congr 2
  funext form
  exact entry form

/-- A tick with the source that is loaded goes on, and one with any other source begins anew. -/
theorem tick_progressed :
    (progressed placeholder source count).tick next =
      if source = next then progressed placeholder next (count + 1)
      else progressed placeholder next 0 := by
  split
  · rename_i same
    subst same
    rw [tick_step rfl, step_progressed]
  · rename_i other
    rw [tick_reload]
    · rfl
    · intro same
      exact other (Option.some.inj same)

theorem ticks_append (sheet : Worksheet) (sources : List Text) (source : Text) :
    sheet.ticks (sources ++ [source]) = (sheet.ticks sources).tick source :=
  List.foldl_concat tick sheet source sources

end

/-- The steps taken since the source was loaded are as many as the ticks with it that came right
before the last one. -/
theorem ticks_eq_progressed (placeholder : String) (earlier : List Text) (last : Text) :
    (blank placeholder).ticks (earlier ++ [last]) =
      progressed placeholder last (earlier.rtakeWhile (· = last)).length := by
  induction earlier using List.reverseRecOn generalizing last with
  | nil => rfl
  | append_singleton earlier previous ih =>
    rw [ticks_append, ih, tick_progressed]
    split
    · rename_i same
      subst same
      rw [List.rtakeWhile_concat_pos _ _ _ (by simp), List.length_append, List.length_singleton]
    · rename_i other
      rw [List.rtakeWhile_concat_neg _ _ _ (by simpa using other), List.length_nil]

/-- The source that is loaded is that of the last tick. -/
theorem source?_ticks (placeholder : String) (sources : List Text) :
    ((blank placeholder).ticks sources).source? = sources.getLast? := by
  rcases List.eq_nil_or_concat sources with rfl | ⟨earlier, last, rfl⟩
  · rfl
  · rw [List.concat_eq_append, ticks_eq_progressed, List.getLast?_concat]
    rfl

theorem effect_eq_reloaded_iff {sheet : Worksheet} {source : Text} :
    sheet.effect source = .reloaded ↔ sheet.source? ≠ some source := by
  rw [effect]
  split
  · rename_i same
    simp [same]
  · rename_i other
    simp [other]

/-- **A worksheet depends on nothing but the last source and how often it came in a row.** Its
entries are the faults of the forms of that source, and its terms one step on for each tick with
the source but the first of these, which was the one that loaded it. -/
theorem ticks_forget (placeholder : String) (earlier : List Text) (last : Text) :
    let sheet := (blank placeholder).ticks (earlier ++ [last])
    let run := ((earlier ++ [last]).rtakeWhile (· = last)).length
    sheet.source? = some last ∧
      sheet.entries = (Form.parse last).map (fun form =>
        (Term.ofForm form).map fun term => term.curry.afterSteps (run - 1)) ∧
      (((blank placeholder).ticks earlier).effect last = .reloaded ↔ run = 1) ∧
      sheet.placeholder = placeholder := by
  intro sheet run
  have run_eq : run = (earlier.rtakeWhile (· = last)).length + 1 := by
    simp only [run]
    rw [List.rtakeWhile_concat_pos _ _ _ (by simp), List.length_append, List.length_singleton]
  have progress : sheet = progressed placeholder last (run - 1) := by
    rw [run_eq, Nat.add_sub_cancel]
    exact ticks_eq_progressed placeholder earlier last
  rw [progress]
  refine ⟨rfl, rfl, ?_, rfl⟩
  rw [effect_eq_reloaded_iff, source?_ticks, run_eq, Nat.add_eq_right, List.length_eq_zero_iff,
    List.rtakeWhile_eq_nil_iff]
  rcases List.eq_nil_or_concat earlier with rfl | ⟨front, previous, rfl⟩
  · simp
  · simp

end Worksheet

end Redex
