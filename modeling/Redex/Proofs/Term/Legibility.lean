import Redex.Currying
import Redex.Proofs.Curried.Legibility
import Redex.Proofs.Form.Words
import Redex.Proofs.Term.Grammar

/-!
# Legible written terms

A written term is legible if its names can be written and no list of it is empty. A term that was
read is legible, and currying makes no illegible term of a legible one, nor does the way back.

* `isLegible_of_ofForm`: a term that a form of words is is legible.
* `IsLegible.curry`, `Curried.IsLegible.uncurry`: currying and the way back keep a term legible.
-/

namespace Redex

namespace Term

mutual

/-- Whether all names in a term can be written, and none of its lists is empty. -/
def IsLegible : Term → Prop
  | .var name => IsName name
  | .abs parameters body => parameters ≠ [] ∧ (∀ name ∈ parameters, IsName name) ∧ body.IsLegible
  | .app function arguments => arguments ≠ [] ∧ function.IsLegible ∧ AllLegible arguments

def AllLegible : List Term → Prop
  | [] => True
  | term :: rest => term.IsLegible ∧ AllLegible rest

end

theorem allLegible_iff {terms : List Term} :
    AllLegible terms ↔ ∀ term ∈ terms, term.IsLegible := by
  induction terms with
  | nil => simp [AllLegible]
  | cons term rest ih => simp [AllLegible, ih]

section

variable {name : String} {parameters : List String} {body function : Term} {arguments : List Term}

@[simp] theorem isLegible_var : (var name).IsLegible ↔ IsName name := by rw [IsLegible]

@[simp] theorem isLegible_abs : (abs parameters body).IsLegible ↔
    parameters ≠ [] ∧ (∀ name ∈ parameters, IsName name) ∧ body.IsLegible := by rw [IsLegible]

@[simp] theorem isLegible_app : (app function arguments).IsLegible ↔
    arguments ≠ [] ∧ function.IsLegible ∧ ∀ argument ∈ arguments, argument.IsLegible := by
  rw [IsLegible, allLegible_iff]

end

theorem isName_of_parametersOf {forms : List Form} {parameters : List String}
    (ok : parametersOf forms = .ok parameters)
    (words : ∀ form ∈ forms, ∀ name ∈ form.words, IsWord name) :
    ∀ name ∈ parameters, IsName name := by
  obtain ⟨atoms, notReserved⟩ := parametersOf_eq_ok_iff.1 ok
  intro name mem
  have mem' : some name ∈ forms.map Form.name? := atoms ▸ List.mem_map_of_mem mem
  obtain ⟨form, inForms, isAtom⟩ := List.mem_map.1 mem'
  obtain ⟨span, rfl⟩ := exists_atom_of_name? isAtom
  refine ⟨words _ inForms name List.mem_cons_self, ?_⟩
  rintro rfl
  exact notReserved mem

/-- A form of words has no name that cannot be written, and the grammar takes no empty list. -/
theorem isLegible_of_ofForm {form : Form} {term : Term} (ok : ofForm form = .ok term)
    (words : ∀ name ∈ form.words, IsWord name) : term.IsLegible := by
  induction form generalizing term with
  | atom name span =>
    obtain ⟨notReserved, rfl⟩ := ofForm_atom_eq_ok_iff.1 ok
    exact isLegible_var.2 ⟨words name List.mem_cons_self, notReserved⟩
  | unclosed children span => cases ok
  | list children span ih =>
    have words : ∀ child ∈ children, ∀ name ∈ child.words, IsWord name :=
      fun child mem name inside => words name (Form.mem_wordsOfAll.2 ⟨child, mem, inside⟩)
    rcases ofForm_list_eq_ok_iff.1 ok with
      ⟨head, front, last, names, body, rfl, _, nonempty, okNames, okBody, rfl⟩ |
      ⟨head, rest, function, arguments, rfl, nonempty, okFunction, okArguments, rfl⟩
    · have inFront : ∀ form ∈ front, form ∈ head :: (front ++ [last]) := fun form mem =>
        .tail head (List.mem_append_left _ mem)
      have isLast : last ∈ head :: (front ++ [last]) :=
        .tail head (List.mem_append_right _ List.mem_cons_self)
      refine isLegible_abs.2 ⟨?_, ?_, ih last isLast okBody (words last isLast)⟩
      · rintro rfl
        exact nonempty (List.map_eq_nil_iff.1 (parametersOf_eq_ok_iff.1 okNames).1)
      · exact isName_of_parametersOf okNames fun form mem => words form (inFront form mem)
    · have isHead : head ∈ head :: rest := List.mem_cons_self
      refine isLegible_app.2 ⟨?_, ih head isHead okFunction (words head isHead), ?_⟩
      · rintro rfl
        cases rest with
        | nil => exact nonempty rfl
        | cons form more =>
          obtain ⟨_, _, same, _⟩ := mapM_ofForm_cons_eq_ok okArguments
          cases same
      · intro argument mem
        obtain ⟨form, inRest, ok⟩ := mem_of_mapM_ofForm okArguments mem
        exact ih form (.tail head inRest) ok (words form (.tail head inRest))

theorem isLegible_foldr {parameters : List String} {body : Curried}
    (isName : ∀ name ∈ parameters, IsName name) (legible : body.IsLegible) :
    (parameters.foldr .abs body).IsLegible := by
  induction parameters with
  | nil => exact legible
  | cons parameter rest ih =>
    obtain ⟨first, others⟩ := List.forall_mem_cons.1 isName
    exact Curried.isLegible_abs.2 ⟨first, ih others⟩

theorem isLegible_applyTo {arguments : List Term} {function : Curried}
    (legible : function.IsLegible) (each : ∀ argument ∈ arguments, argument.curry.IsLegible) :
    (applyTo function arguments).IsLegible := by
  induction arguments generalizing function with
  | nil => exact legible
  | cons argument rest ih =>
    obtain ⟨first, others⟩ := List.forall_mem_cons.1 each
    exact ih (Curried.isLegible_app.2 ⟨legible, first⟩) others

/-- A curried term has no other names than the written one. -/
theorem IsLegible.curry {term : Term} (legible : term.IsLegible) : term.curry.IsLegible := by
  induction term with
  | var name => exact Curried.isLegible_var.2 (isLegible_var.1 legible)
  | abs parameters body ih =>
    obtain ⟨_, isName, body⟩ := isLegible_abs.1 legible
    rw [Term.curry]
    exact isLegible_foldr isName (ih body)
  | app function arguments ihf iha =>
    obtain ⟨_, function, arguments⟩ := isLegible_app.1 legible
    rw [Term.curry]
    exact isLegible_applyTo (ihf function) fun argument mem =>
      iha argument mem (arguments argument mem)

theorem IsLegible.withParameter {parameter : String} {body : Term} (isName : IsName parameter)
    (legible : body.IsLegible) : (body.withParameter parameter).IsLegible := by
  cases body with
  | var | app =>
    rw [Term.withParameter, isLegible_abs]
    · exact ⟨List.cons_ne_nil _ _, List.forall_mem_singleton.2 isName, legible⟩
    · intro _ _ same
      cases same
  | abs parameters body =>
    obtain ⟨_, isNames, body⟩ := isLegible_abs.1 legible
    rw [Term.withParameter, isLegible_abs]
    exact ⟨List.cons_ne_nil _ _, List.forall_mem_cons.2 ⟨isName, isNames⟩, body⟩

theorem IsLegible.withArgument {function argument : Term} (legible : function.IsLegible)
    (argumentLegible : argument.IsLegible) : (function.withArgument argument).IsLegible := by
  cases function with
  | var | abs =>
    rw [Term.withArgument, isLegible_app]
    · exact ⟨List.cons_ne_nil _ _, legible, List.forall_mem_singleton.2 argumentLegible⟩
    · intro _ _ same
      cases same
  | app function arguments =>
    obtain ⟨_, function, arguments⟩ := isLegible_app.1 legible
    rw [Term.withArgument, isLegible_app]
    refine ⟨List.append_ne_nil_of_right_ne_nil _ (List.cons_ne_nil _ _), function, ?_⟩
    intro other mem
    rcases List.mem_append.1 mem with mem | mem
    · exact arguments other mem
    · exact List.mem_singleton.1 mem ▸ argumentLegible

end Term

namespace Curried

/-- A written term has no other names than the curried one, and no list of it is empty. -/
theorem IsLegible.uncurry {term : Curried} (legible : term.IsLegible) :
    term.uncurry.IsLegible := by
  induction term with
  | var name => exact Term.isLegible_var.2 (isLegible_var.1 legible)
  | abs parameter body ih =>
    obtain ⟨isName, body⟩ := isLegible_abs.1 legible
    exact (ih body).withParameter isName
  | app function argument ihf iha =>
    obtain ⟨function, argument⟩ := isLegible_app.1 legible
    exact (ihf function).withArgument (iha argument)

end Curried

end Redex
