import Redex.Proofs.Editor.Session

/-!
# Echoes

A surface that is told what to show may report that as an edit again, since what it shows has
changed. Such an echo is neither a character that was typed nor one that was deleted, so it is
judged as a text that was put in place of the whole. It changes nothing, however often it comes:
a balanced text is accepted with nothing left to expand, and any other is undone to what it is.

* `Editor.input_surface`: what an echo does to any draft.
* `Editor.input_surface_eq_iff`: which drafts an echo leaves as they are.
* `Editor.run_echoing`: edits with echoes between them.
* `Editor.run_echoes`: echoes in a session.
-/

namespace Redex

namespace Editor

def first (text? : Option Text) : Draft := text?.elim blank opening

theorem isSettled_first (text? : Option Text) : (first text?).IsSettled := by
  cases text? with
  | none => exact isSettled_blank
  | some text => exact isSettled_opening text

theorem input_surface (shown : Draft) :
    input shown shown.surface =
      ⟨if shown.text.isBalanced then shown.text.expandShorthand else shown.text,
        min shown.cursor shown.text.length⟩ := by
  have notTyped : Draft.typed? shown.text shown.surface.draft = none :=
    Draft.typed?_eq_none (Nat.ne_of_lt (Nat.lt_succ_self _))
  have notDeleted : Draft.deleted? shown.text shown.surface.draft = none :=
    Draft.deleted?_eq_none (Nat.ne_of_lt (Nat.lt_succ_self _))
  apply Draft.Corrects.correct_eq
  cases balanced : shown.text.isBalanced with
  | true => exact .replaced notTyped notDeleted balanced
  | false =>
    have kept : shown.text.length - (shown.text.length - min shown.cursor shown.text.length) =
        min shown.cursor shown.text.length := Nat.sub_sub_self (Nat.min_le_right _ _)
    have undone := Draft.Corrects.undone notTyped notDeleted balanced
    rw [← kept]
    exact undone

/-- An echo moves a cursor that is past the end, and replaces the shorthand in a balanced text. -/
theorem input_surface_eq_iff {shown : Draft} :
    input shown shown.surface = shown ↔
      shown.cursor ≤ shown.text.length ∧
        (shown.text.isBalanced = true → shorthand ∉ shown.text) := by
  rw [input_surface]
  constructor
  · intro same
    refine ⟨?_, fun balanced => ?_⟩
    · rw [← congrArg Draft.cursor same]
      exact Nat.min_le_right _ _
    · have text := congrArg Draft.text same
      rw [if_pos balanced] at text
      rw [← text]
      exact Text.shorthand_not_mem_expandShorthand _
  · rintro ⟨inside, expanded⟩
    rw [Nat.min_eq_left inside]
    split
    · rename_i balanced
      rw [Text.expandShorthand_of_not_mem (expanded balanced)]
    · rfl

/-- An echo of a draft that no session shows. -/
example : input ⟨['(', ')', '\\'], 9⟩ (Draft.surface ⟨['(', ')', '\\'], 9⟩) =
    ⟨['(', ')', 'λ'], 3⟩ := by decide

/-- A surface that reports what it was told to show says nothing new. -/
theorem input_surface_of_isSettled {shown : Draft} (settled : shown.IsSettled) :
    input shown shown.surface = shown :=
  input_surface_eq_iff.2 ⟨settled.inside, fun _ => settled.expanded⟩

theorem run_replicate_surface {shown : Draft} (settled : shown.IsSettled) (echoes : Nat) :
    run shown (List.replicate echoes shown.surface) = shown := by
  induction echoes with
  | zero => rfl
  | succ echoes ih =>
    rw [run, List.replicate_succ, List.foldl_cons, input_surface_of_isSettled settled]
    exact ih

/-- What a surface reports if it echoes what it is told to show after each of some edits, as often
as it is said beside the edit. -/
def echoing (shown : Draft) : List (Surface × Nat) → List Surface
  | [] => []
  | (edit, echoes) :: rest =>
    let next := input shown edit
    edit :: List.replicate echoes next.surface ++ echoing next rest

/-- Echoes may come between the edits anywhere, in any number. -/
theorem run_echoing {shown : Draft} (settled : shown.IsSettled) (edits : List (Surface × Nat)) :
    run shown (echoing shown edits) = run shown (edits.map Prod.fst) := by
  induction edits generalizing shown with
  | nil => rfl
  | cons head rest ih =>
    obtain ⟨edit, echoes⟩ := head
    have next : (input shown edit).IsSettled := isSettled_run settled [edit]
    calc run shown (echoing shown ((edit, echoes) :: rest))
      _ = run (run (input shown edit) (List.replicate echoes (input shown edit).surface))
            (echoing (input shown edit) rest) := List.foldl_append
      _ = run (input shown edit) (echoing (input shown edit) rest) := by
            rw [run_replicate_surface next]
      _ = run (input shown edit) (rest.map Prod.fst) := ih next

/-- **What is reported as it is shown stays as it is.** Whatever text a session begins with,
balanced or not, and whatever was edited since: if the surface reports what it was told to show, it
is told to show the same. So echoes between the edits, be they as many as they will, leave the
session where it would be without them. -/
theorem run_echoes (text? : Option Text) :
    (∀ edits, let shown := run (first text?) edits
      input shown shown.surface = shown ∧ (input shown shown.surface).surface = shown.surface) ∧
    ∀ edits, run (first text?) (echoing (first text?) edits) =
      run (first text?) (edits.map Prod.fst) := by
  constructor
  · intro edits shown
    have same := input_surface_of_isSettled (isSettled_run (isSettled_first text?) edits)
    exact ⟨same, congrArg Draft.surface same⟩
  · exact run_echoing (isSettled_first text?)

end Editor

end Redex
