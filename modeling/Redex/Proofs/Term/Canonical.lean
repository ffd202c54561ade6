import Redex.Currying

/-!
# Canonical written terms

Many written terms curry to one term: lists can be split up and empty ones put in. A term whose
lists are as long as they can be has no such choice, and the way back from curried terms leads to
these terms and to no others.

* `Curried.isCanonical_uncurry`: the way back from a curried term leads to a canonical one.
* `IsCanonical.uncurry_curry`: a canonical term is found again after currying.
* `curry_uncurry_correspond`: curried terms and canonical terms correspond one to one.
-/

namespace Redex

namespace Term

/-- Whether the lists of a term are as long as they can be and none is empty: nothing in it is an
abstraction directly inside an abstraction, or an application in the place of a function. -/
inductive IsCanonical : Term → Prop where
  | var (name : String) : IsCanonical (.var name)
  | abs {parameters : List String} {body : Term} :
    parameters ≠ [] → (∀ names inner, body ≠ .abs names inner) → IsCanonical body →
      IsCanonical (.abs parameters body)
  | app {function : Term} {arguments : List Term} :
    arguments ≠ [] → (∀ inner terms, function ≠ .app inner terms) → IsCanonical function →
      (∀ argument ∈ arguments, IsCanonical argument) → IsCanonical (.app function arguments)

theorem IsCanonical.withParameter {body : Term} (canonical : body.IsCanonical)
    (parameter : String) : (body.withParameter parameter).IsCanonical := by
  cases canonical with
  | var name => exact .abs (List.cons_ne_nil _ _) nofun (.var name)
  | abs _ notAbs inner => exact .abs (List.cons_ne_nil _ _) notAbs inner
  | app nonempty notApp function arguments =>
    exact .abs (List.cons_ne_nil _ _) nofun (.app nonempty notApp function arguments)

theorem IsCanonical.withArgument {function argument : Term} (canonical : function.IsCanonical)
    (canonicalArgument : argument.IsCanonical) : (function.withArgument argument).IsCanonical := by
  have only : ∀ other ∈ [argument], other.IsCanonical :=
    List.forall_mem_singleton.2 canonicalArgument
  cases canonical with
  | var name => exact .app (List.cons_ne_nil _ _) nofun (.var name) only
  | abs nonempty notAbs body =>
    exact .app (List.cons_ne_nil _ _) nofun (.abs nonempty notAbs body) only
  | app _ notApp inner arguments =>
    refine .app (List.append_ne_nil_of_right_ne_nil _ (List.cons_ne_nil _ _)) notApp inner ?_
    exact List.forall_mem_append.2 ⟨arguments, only⟩

/-! ## Lists grow one member at a time -/

theorem foldr_withParameter {parameters : List String} {body : Term} (nonempty : parameters ≠ [])
    (notAbs : ∀ names inner, body ≠ .abs names inner) :
    parameters.foldr withParameter body = .abs parameters body := by
  induction parameters with
  | nil => exact absurd rfl nonempty
  | cons parameter rest ih =>
    rw [List.foldr_cons]
    cases rest with
    | nil => exact withParameter_of_not_abs notAbs parameter
    | cons next others =>
      rw [ih (List.cons_ne_nil _ _)]
      rfl

theorem foldl_withArgument_app (function : Term) (front arguments : List Term) :
    arguments.foldl withArgument (.app function front) = .app function (front ++ arguments) := by
  induction arguments generalizing front with
  | nil => rw [List.foldl_nil, List.append_nil]
  | cons argument rest ih =>
    rw [List.foldl_cons, withArgument, ih, List.append_assoc, List.singleton_append]

theorem foldl_withArgument {function : Term} {arguments : List Term} (nonempty : arguments ≠ [])
    (notApp : ∀ inner terms, function ≠ .app inner terms) :
    arguments.foldl withArgument function = .app function arguments := by
  cases arguments with
  | nil => exact absurd rfl nonempty
  | cons argument rest =>
    rw [List.foldl_cons, withArgument_of_not_app notApp, foldl_withArgument_app,
      List.singleton_append]

end Term

namespace Curried

/-- Lists are as long as they can be, as every parameter and every argument joined the list that was
there. -/
theorem isCanonical_uncurry (term : Curried) : term.uncurry.IsCanonical := by
  induction term with
  | var name => exact .var name
  | abs parameter body ih => exact ih.withParameter parameter
  | app function argument ihf iha => exact ihf.withArgument iha

theorem uncurry_foldr_abs (parameters : List String) (body : Curried) :
    (parameters.foldr abs body).uncurry = parameters.foldr Term.withParameter body.uncurry := by
  induction parameters with
  | nil => rfl
  | cons parameter rest ih => rw [List.foldr_cons, List.foldr_cons, uncurry, ih]

theorem uncurry_applyTo (function : Curried) (arguments : List Term) :
    (Term.applyTo function arguments).uncurry =
      (arguments.map fun argument => argument.curry.uncurry).foldl Term.withArgument
        function.uncurry := by
  induction arguments generalizing function with
  | nil => rfl
  | cons argument rest ih => rw [Term.applyTo, ih, List.map_cons, List.foldl_cons, uncurry]

end Curried

namespace Term

/-- Where lists are as long as they can be, they can be told from the curried term. -/
theorem IsCanonical.uncurry_curry {term : Term} (canonical : term.IsCanonical) :
    term.curry.uncurry = term := by
  induction canonical with
  | var name => rfl
  | abs nonempty notAbs _ ih =>
    rw [curry, Curried.uncurry_foldr_abs, ih]
    exact foldr_withParameter nonempty notAbs
  | @app function arguments nonempty notApp _ _ ihf iha =>
    have same : arguments.map (fun argument => argument.curry.uncurry) = arguments :=
      (List.map_congr_left iha).trans (List.map_id arguments)
    rw [curry, Curried.uncurry_applyTo, ihf, same]
    exact foldl_withArgument nonempty notApp

/-- **Curried terms and canonical terms correspond one to one.** A curried term is what its written
form curries to, and that form is canonical; the written terms that are found again after currying
are the canonical ones and no others. So whatever lists a term has, empty ones too, currying it and
going back makes it canonical without a change to what it curries to, and once is enough. -/
theorem curry_uncurry_correspond (l : Curried) (t : Term) :
    (l.uncurry.curry = l ∧ l.uncurry.IsCanonical) ∧
      (t.curry.uncurry = t ↔ t.IsCanonical) ∧
      t.curry.uncurry.IsCanonical ∧ t.curry.uncurry.curry = t.curry ∧
        t.curry.uncurry.curry.uncurry = t.curry.uncurry := by
  have again (l : Curried) := Curried.curry_uncurry l
  refine ⟨⟨again l, l.isCanonical_uncurry⟩, ⟨?_, fun canonical => canonical.uncurry_curry⟩,
    t.curry.isCanonical_uncurry, again t.curry, ?_⟩
  · intro same
    exact same ▸ t.curry.isCanonical_uncurry
  · rw [again]

example : (abs ["x"] (abs [] (abs ["y"] (app (app (var "x") []) [var "y"])))).curry.uncurry =
    abs ["x", "y"] (app (var "x") [var "y"]) := rfl

end Term

end Redex
