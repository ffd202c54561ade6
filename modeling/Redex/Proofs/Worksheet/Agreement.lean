import Redex.Analysis
import Redex.Proofs.Curried.FreeNames
import Redex.Proofs.Term.FreeNames
import Redex.Proofs.Worksheet.Pending

/-!
# Worksheets and analyses

A text can be analyzed, or its terms can be advanced on a worksheet. The two report the same faults
for the same forms, and a term on the worksheet never has a free name that its analysis does not
list.

* `Curried.freeNames_afterSteps`: the free names of a term from one step to the next.
* `Worksheet.ticks_agree_analyze`: an analysis and a worksheet, entry by entry and tick by tick.
-/

namespace Redex

namespace Curried

theorem freeNames_afterSteps_succ (t : Curried) (count : Nat) :
    (t.afterSteps (count + 1)).freeNames ⊆ (t.afterSteps count).freeNames := by
  rw [afterSteps]
  cases step : (t.afterSteps count).step? with
  | none => exact fun _ mem => mem
  | some next => exact (step?_eq_some_iff.1 step).freeNames_subset

/-- However many steps are taken, no new name becomes free. -/
theorem freeNames_afterSteps (t : Curried) (count : Nat) :
    (t.afterSteps count).freeNames ⊆ t.freeNames := by
  induction count with
  | zero => exact fun _ mem => mem
  | succ count ih => exact fun name mem => ih name (freeNames_afterSteps_succ t count name mem)

end Curried

namespace Worksheet

/-- A fault stays in its entry, whatever the ticks do to the others. -/
theorem entry_error_iff {placeholder : String} {text : Text} {count i : Nat} {fault : Fault} :
    (progressed placeholder text count).entries[i]? = some (.error fault) ↔
      (analyze text)[i]? = some (.error fault) := by
  rw [getElem?_entries_progressed, analyze, List.getElem?_map]
  cases (Form.parse text)[i]? with
  | none => simp
  | some form => cases judged : Term.ofForm form <;> simp [judged, Except.map]

theorem exists_term_of_analysis {text : Text} {i : Nat} {analysis : Analysis}
    (analyzed : (analyze text)[i]? = some (.ok analysis)) :
    ∃ term : Term, term.freeNames = analysis.free ∧ ∀ placeholder count,
      (progressed placeholder text count).entries[i]? =
        some (.ok (term.curry.afterSteps count)) := by
  rw [analyze, List.getElem?_map] at analyzed
  obtain ⟨form, placed, judged⟩ := Option.map_eq_some_iff.1 analyzed
  cases isTerm : Term.ofForm form with
  | error fault =>
    rw [isTerm] at judged
    cases judged
  | ok term =>
    rw [isTerm] at judged
    cases judged
    exact ⟨term, rfl, fun placeholder count => entry_of_ok placed isTerm⟩

/-- **An analysis foretells a worksheet.** After loading a text and any number of ticks with it
there is one entry for each analysis. It has a fault if the analysis has, the same one, and only
then. Otherwise its free names are those that the analysis lists when it is loaded, and with every
tick they are among those of the tick before. -/
theorem ticks_agree_analyze {sheet : Worksheet} {text : Text} (other : sheet.source? ≠ some text) :
    let after (count : Nat) := (sheet.tick text).ticks (List.replicate count text)
    ∀ count, (after count).entries.length = (analyze text).length ∧ ∀ i : Nat,
      (∀ fault, (after count).entries[i]? = some (.error fault) ↔
        (analyze text)[i]? = some (.error fault)) ∧
      ∀ analysis, (analyze text)[i]? = some (.ok analysis) →
        ∃ loaded term next, (after 0).entries[i]? = some (.ok loaded) ∧
          (after count).entries[i]? = some (.ok term) ∧
          (after (count + 1)).entries[i]? = some (.ok next) ∧
          loaded.freeNames = analysis.free ∧ term.freeNames ⊆ analysis.free ∧
          next.freeNames ⊆ term.freeNames := by
  intro after count
  have reached (count : Nat) : after count = progressed sheet.placeholder text count :=
    ticks_replicate_of_ne other count
  simp only [reached]
  refine ⟨?_, fun i => ⟨fun fault => entry_error_iff, ?_⟩⟩
  · rw [progressed, analyze, List.length_map, List.length_map]
  · intro analysis analyzed
    obtain ⟨term, free, entry⟩ := exists_term_of_analysis analyzed
    refine ⟨_, _, _, entry _ 0, entry _ count, entry _ (count + 1), ?_, ?_, ?_⟩
    · exact term.freeNames_curry.trans free
    · rw [← free, ← term.freeNames_curry]
      exact term.curry.freeNames_afterSteps count
    · exact term.curry.freeNames_afterSteps_succ count

/-- A step drops the argument `z`, and with it a free name. -/
theorem ticks_agree_analyze_dropped :
    let text : Text := "() ((λ x y) z)".toList
    let sheet := (blank ellipsis).tick []
    let term := Term.app (.abs ["x"] (.var "y")) [.var "z"]
    sheet.source? ≠ some text ∧
      analyze text = [.error ⟨.emptyList, ⟨0, 2⟩⟩, .ok (.ofTerm term)] ∧
      term.freeNames.toList = ["y", "z"] ∧
      ∃ next, ((sheet.tick text).tick text).entries[1]? = some (.ok next) ∧
        next.freeNames.toList = ["y"] ∧ next.freeNames ⊆ term.freeNames := by
  have read : Form.parse "() ((λ x y) z)".toList =
      [.list [] ⟨0, 2⟩, .list [.list [.atom "λ" ⟨5, 6⟩, .atom "x" ⟨7, 8⟩, .atom "y" ⟨9, 10⟩]
        ⟨4, 11⟩, .atom "z" ⟨12, 13⟩] ⟨3, 14⟩] := by cbv
  have analyzed : analyze "() ((λ x y) z)".toList =
      [.error ⟨.emptyList, ⟨0, 2⟩⟩, .ok (.ofTerm (.app (.abs ["x"] (.var "y")) [.var "z"]))] := by
    rw [analyze, read]
    rfl
  have names : (Term.app (.abs ["x"] (.var "y")) [.var "z"]).freeNames.toList = ["y", "z"] := by
    cbv
  have stepped : (progressed ellipsis "() ((λ x y) z)".toList 1).entries[1]? =
      some (.ok (.var "y")) := by decide +kernel
  intro text sheet term
  have other : sheet.source? ≠ some text := by decide
  have second : (analyze text)[1]? = some (.ok (.ofTerm term)) := congrArg (·[1]?) analyzed
  obtain ⟨_, next, _, _, entry, _, _, free, _⟩ := ((ticks_agree_analyze other 1).2 1).2 _ second
  have reached : (sheet.tick text).tick text = progressed ellipsis text 1 :=
    ticks_replicate_of_ne other 1
  refine ⟨other, analyzed, names, next, entry, ?_, free⟩
  have same : ((sheet.tick text).tick text).entries[1]? = some (.ok next) := entry
  rw [reached, stepped] at same
  cases same
  rfl

end Worksheet

end Redex
