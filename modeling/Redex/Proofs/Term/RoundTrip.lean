import Redex.Proofs.Form.Reading
import Redex.Proofs.Term.Legibility

/-!
# Written terms can be read

A legible term is read back from what is written of it, name by name, wherever in a text that is.

* `reads_names`, `reads_arguments`: how the lists of a term are read.
* `IsLegible.reads`: a legible term is read back wherever it is written.
* `IsLegible.parse_render`: a legible term is read back from its print.
-/

namespace Redex

namespace Term

theorem text_abs (parameters : List String) (body : Term) :
    (abs parameters body).text =
      '(' :: ((reservedName.toList ++ writeNames parameters [] ++ ' ' :: body.text) ++ [')']) := by
  have glyphs : reservedName.toList = [glyph] := rfl
  rw [text, write, writeNames_eq, write_eq, glyphs]
  simp

theorem text_app (function : Term) (arguments : List Term) :
    (app function arguments).text =
      '(' :: ((function.text ++ writeArguments arguments []) ++ [')']) := by
  rw [text, write, writeArguments_eq, write_eq]
  simp

theorem writeNames_cons (name : String) (rest : List String) :
    writeNames (name :: rest) [] = ' ' :: (name.toList ++ writeNames rest []) := rfl

theorem writeArguments_cons (term : Term) (rest : List Term) :
    writeArguments (term :: rest) [] = ' ' :: (term.text ++ writeArguments rest []) := by
  rw [writeArguments, write_eq]

theorem endsWord_writeNames (names : List String) {after : Text} (ends : after.EndsWord) :
    Text.EndsWord (writeNames names [] ++ after) := by
  cases names with
  | nil => exact ends
  | cons name rest => exact .cons _ (by decide)

theorem endsWord_writeArguments (arguments : List Term) {after : Text} (ends : after.EndsWord) :
    Text.EndsWord (writeArguments arguments [] ++ after) := by
  cases arguments with
  | nil => exact ends
  | cons term rest =>
    rw [writeArguments_cons]
    exact .cons _ (by decide)

theorem reads_names {names : List String} (legible : ∀ name ∈ names, IsName name) (pos : Nat) :
    ∃ forms, ReadsAs pos (writeNames names []) forms ∧
      forms.map Form.name? = names.map some := by
  induction names generalizing pos with
  | nil => exact ⟨[], .nil pos, rfl⟩
  | cons name rest ih =>
    obtain ⟨forms, reads, same⟩ :=
      ih (fun other mem => legible other (.tail name mem)) (pos + 1 + name.toList.length)
    have word := (legible name List.mem_cons_self).toIsWord
    rw [writeNames_cons]
    refine ⟨_, .space (.append (.atom word (pos + 1)) ?_ reads), ?_⟩
    · exact fun after ends => endsWord_writeNames rest ends
    · rw [List.singleton_append, List.map_cons, same]
      rfl

def IsRead (term : Term) : Prop :=
  ∀ pos, ∃ form, ReadsAs pos term.text [form] ∧ form.span = ⟨pos, pos + term.text.length⟩ ∧
    ofForm form = .ok term

theorem reads_arguments {arguments : List Term} (each : ∀ argument ∈ arguments, argument.IsRead)
    (pos : Nat) : ∃ forms, ReadsAs pos (writeArguments arguments []) forms ∧
      forms.mapM ofForm = .ok arguments := by
  induction arguments generalizing pos with
  | nil => exact ⟨[], .nil pos, rfl⟩
  | cons argument rest ih =>
    obtain ⟨form, readsArgument, _, ok⟩ := each argument List.mem_cons_self (pos + 1)
    obtain ⟨forms, reads, oks⟩ :=
      ih (fun other mem => each other (.tail argument mem)) (pos + 1 + argument.text.length)
    rw [writeArguments_cons]
    refine ⟨_, .space (.append readsArgument ?_ reads), ?_⟩
    · exact fun after ends => endsWord_writeArguments rest ends
    · rw [List.singleton_append, List.mapM_cons, ok, oks]
      rfl

/-- A term is read back wherever it stands in a text, as long as no atom runs over its end. -/
theorem IsLegible.reads {term : Term} (legible : term.IsLegible) : term.IsRead := by
  intro pos
  induction term generalizing pos with
  | var name =>
    have isName := isLegible_var.1 legible
    have text : (Term.var name).text = name.toList := List.append_nil _
    rw [text]
    exact ⟨_, .atom isName.toIsWord pos, rfl, ofForm_atom_eq_ok_iff.2 ⟨isName.notReserved, rfl⟩⟩
  | abs parameters body ih =>
    obtain ⟨nonempty, isName, bodyLegible⟩ := isLegible_abs.1 legible
    obtain ⟨names, readsNames, same⟩ :=
      reads_names isName (pos + 1 + reservedName.toList.length)
    obtain ⟨form, reads, _, ok⟩ := ih bodyLegible (pos + 1 +
      (reservedName.toList ++ writeNames parameters []).length + 1)
    have head := (ReadsAs.atom isWord_reservedName (pos + 1)).append
      (fun after ends => endsWord_writeNames parameters ends) readsNames
    have namesNonempty : names ≠ [] := by
      rintro rfl
      exact nonempty (List.map_eq_nil_iff.1 same.symm)
    have notReserved : reservedName ∉ parameters := fun mem => (isName _ mem).notReserved rfl
    rw [text_abs]
    refine ⟨_, .list (.append_space head reads), rfl, ofForm_list_eq_ok_iff.2 (.inl ?_)⟩
    exact ⟨_, names, form, parameters, body, rfl, rfl, namesNonempty,
      parametersOf_eq_ok_iff.2 ⟨same, notReserved⟩, ok, rfl⟩
  | app function arguments ihf iha =>
    obtain ⟨nonempty, functionLegible, argumentsLegible⟩ := isLegible_app.1 legible
    obtain ⟨head, readsHead, _, ok⟩ := ihf functionLegible (pos + 1)
    obtain ⟨forms, reads, oks⟩ := reads_arguments
      (fun argument mem => iha argument mem (argumentsLegible argument mem))
      (pos + 1 + function.text.length)
    have inner := readsHead.append
      (fun after ends => endsWord_writeArguments arguments ends) reads
    have formsNonempty : forms ≠ [] := by
      rintro rfl
      cases oks
      exact nonempty rfl
    rw [text_app]
    refine ⟨_, .list inner, rfl, ofForm_list_eq_ok_iff.2 (.inr ?_)⟩
    exact ⟨head, forms, function, arguments, rfl, formsNonempty, ok, oks, rfl⟩

/-- What is printed of a legible term is one form, and the term is read back from it. -/
theorem IsLegible.parse_render {term : Term} (legible : term.IsLegible) :
    ∃ form, Form.parse term.render.toList = [form] ∧ form.span = ⟨0, term.render.length⟩ ∧
      ofForm form = .ok term := by
  obtain ⟨form, reads, span, ok⟩ := legible.reads 0
  have length : term.render.length = term.text.length := String.length_ofList
  refine ⟨form, ?_, ?_, ok⟩
  · rw [render, String.toList_ofList, reads.parse]
  · rw [span, length, Nat.zero_add]

end Term

end Redex
