import Redex.Proofs.Term.RoundTrip

/-!
# Reached terms can be read back

Any term that steps reach from a term of a text is printed as a text of which it is the only term.
This holds for the curried print as well as for the one with full lists. So a print shows which
term was reached, down to the names of its parameters.

* `IsLegible.readsBack`, `IsLegible.readsBack_uncurry`: both prints of a legible term.
* `Reached.roundTrip`: the prints of reached terms.
-/

namespace Redex

namespace Curried

/-- Whether some steps lead to a term from a term of a text. -/
def Reached (text : Text) (reached : Curried) : Prop :=
  ∃ form ∈ Form.parse text, ∃ term, Term.ofForm form = .ok term ∧
    ∃ count, term.curry.steps? count = some reached

/-- Whether what is printed is a single term, from its first character to its last. -/
def ReadsBack (printed : String) (term : Curried) : Prop :=
  ∃ form, Form.parse printed.toList = [form] ∧ form.span = ⟨0, printed.length⟩ ∧
    (Term.ofForm form).map Term.curry = .ok term

/-- What is printed cannot be read as two terms. -/
theorem ReadsBack.unique {printed : String} {t u : Curried} (first : ReadsBack printed t)
    (second : ReadsBack printed u) : t = u := by
  obtain ⟨form, parsed, _, ok⟩ := first
  obtain ⟨other, parsed', _, ok'⟩ := second
  have same : form = other := by
    rw [parsed] at parsed'
    exact (List.cons.inj parsed').1
  rw [same, ok'] at ok
  exact (Except.ok.inj ok).symm

end Curried

theorem Term.IsLegible.reached {term : Term} (legible : term.IsLegible) {count : Nat} {u : Curried}
    (steps : term.curry.steps? count = some u) : Curried.Reached term.text u := by
  obtain ⟨form, reads, _, ok⟩ := legible.reads 0
  refine ⟨form, ?_, term, ok, count, steps⟩
  rw [reads.parse]
  exact List.mem_singleton_self form

theorem Term.IsLegible.readsBack {term : Term} (legible : term.IsLegible) :
    Curried.ReadsBack term.render term.curry := by
  obtain ⟨form, parsed, span, ok⟩ := legible.parse_render
  exact ⟨form, parsed, span, congrArg (Except.map Term.curry) ok⟩

namespace Curried

/-- A curried term as a written one, all of whose lists have a single member. -/
def single : Curried → Term
  | .var name => .var name
  | .abs parameter body => .abs [parameter] body.single
  | .app function argument => .app function.single [argument.single]

theorem curry_single (term : Curried) : term.single.curry = term := by
  induction term with
  | var name => rfl
  | abs parameter body ih =>
    rw [single, Term.curry, ih]
    rfl
  | app function argument ihf iha =>
    rw [single, Term.curry, Term.applyTo, Term.applyTo, ihf, iha]

theorem text_single (term : Curried) : term.single.text = term.text := by
  induction term with
  | var name => rfl
  | abs parameter body ih =>
    rw [single, Term.text_abs, ih, text_abs]
    simp [reservedName, glyph, Term.writeNames]
  | app function argument ihf iha =>
    rw [single, Term.text_app, Term.writeArguments_cons, ihf, iha, text_app]
    simp [Term.writeArguments]

theorem IsLegible.single {term : Curried} (legible : term.IsLegible) :
    term.single.IsLegible := by
  induction term with
  | var name => exact Term.isLegible_var.2 (isLegible_var.1 legible)
  | abs parameter body ih =>
    obtain ⟨isName, body⟩ := isLegible_abs.1 legible
    rw [Curried.single, Term.isLegible_abs]
    exact ⟨List.cons_ne_nil _ _, List.forall_mem_singleton.2 isName, ih body⟩
  | app function argument ihf iha =>
    obtain ⟨function, argument⟩ := isLegible_app.1 legible
    rw [Curried.single, Term.isLegible_app]
    exact ⟨List.cons_ne_nil _ _, ihf function, List.forall_mem_singleton.2 (iha argument)⟩

theorem IsLegible.readsBack {term : Curried} (legible : term.IsLegible) :
    ReadsBack term.render term := by
  have back := legible.single.readsBack
  rw [Term.render, text_single, curry_single] at back
  exact back

/-- The print with lists as long as they can be is read as the term, too. -/
theorem IsLegible.readsBack_uncurry {term : Curried} (legible : term.IsLegible) :
    ReadsBack term.uncurry.render term := by
  have back := legible.uncurry.readsBack
  rw [curry_uncurry] at back
  exact back

/-- All that comes of a text can be written, since the names in it came from a text. -/
theorem Reached.isLegible {text : Text} {term : Curried} (reached : Reached text term) :
    term.IsLegible := by
  obtain ⟨form, parsed, written, ok, count, steps⟩ := reached
  have words : ∀ name ∈ form.words, IsWord name := fun _ mem => isWord_of_parse parsed mem
  have writtenLegible : written.IsLegible := Term.isLegible_of_ofForm ok words
  have start : written.curry.IsLegible := writtenLegible.curry
  exact start.steps? steps

/-- **A reached term is read back from either of its prints**, its names can be written, and no
other reached term has a print of its. -/
theorem Reached.roundTrip {text : Text} {term : Curried} (reached : Reached text term) :
    ReadsBack term.render term ∧ ReadsBack term.uncurry.render term ∧
      (∀ name ∈ term.names, name ≠ "" ∧
        (∀ c ∈ name.toList, isBlank c = false ∧ c ≠ '(' ∧ c ≠ ')') ∧ name ≠ reservedName) ∧
      ∀ text' other, Reached text' other → term ≠ other →
        term.render ≠ other.render ∧ term.render ≠ other.uncurry.render ∧
          term.uncurry.render ≠ other.uncurry.render := by
  have legible := reached.isLegible
  have curried := legible.readsBack
  have uncurried := legible.readsBack_uncurry
  refine ⟨curried, uncurried, ?_, ?_⟩
  · intro name mem
    have isName := legible name mem
    obtain ⟨nonempty, wordChars⟩ := isWord_iff.1 isName.toIsWord
    exact ⟨nonempty, wordChars, isName.notReserved⟩
  · intro text' other reached' ne
    have curried' := reached'.isLegible.readsBack
    have uncurried' := reached'.isLegible.readsBack_uncurry
    refine ⟨?_, ?_, ?_⟩
    · intro same
      rw [← same] at curried'
      exact ne (curried.unique curried')
    · intro same
      rw [← same] at uncurried'
      exact ne (curried.unique uncurried')
    · intro same
      rw [← same] at uncurried'
      exact ne (uncurried.unique uncurried')

/-- A parameter that had to be renamed is read back like any other. -/
theorem Reached.roundTrip_renamed :
    let renamed := abs "y1" (.app (.var "y") (.var "y1"))
    Reached "((λ x y (x y)) y)".toList renamed ∧ ReadsBack "(λ y1 (y y1))" renamed := by
  intro renamed
  let term := Term.app (.abs ["x", "y"] (.app (.var "x") [.var "y"])) [.var "y"]
  have x : IsName "x" := ⟨⟨by decide, List.forall_mem_singleton.2 rfl⟩, by decide⟩
  have y : IsName "y" := ⟨⟨by decide, List.forall_mem_singleton.2 rfl⟩, by decide⟩
  have legible : term.IsLegible := by simp [term, x, y]
  have steps : term.curry.steps? 1 = some renamed := by cbv
  have reached : Reached term.text renamed := legible.reached steps
  exact ⟨reached, reached.roundTrip.1⟩

end Curried

end Redex
