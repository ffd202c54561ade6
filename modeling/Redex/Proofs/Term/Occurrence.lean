import Redex.Proofs.Path
import Redex.Proofs.Term.FreeNames

/-!
# Where names occur

A name is free in a term if it stands somewhere in it with no abstraction around that binds it.
This is told from the places in the term alone, without any set of names, so that both ways to
compute free names can be held against it: from the lists of a written term as a whole, and from
one parameter and one argument at a time once it is curried.

* `isFreeAt_cons`: a free occurrence in a term is one in a term directly inside it.
* `mem_freeNames_iff`: the free names of a term are those that occur free in it.
* `freeNames_correspond`: free names before and after currying.
-/

namespace Redex

namespace Term

def children : Term → List Term
  | .var _ => []
  | .abs _ body => [body]
  | .app function arguments => function :: arguments

def part? (term : Term) : Path → Option Term
  | [] => some term
  | i :: path => term.children[i]?.bind (part? · path)

/-- Whether a name occurs at a path, and no abstraction around that place binds it. -/
structure IsFreeAt (term : Term) (name : String) (path : Path) : Prop where
  occurs : term.part? path = some (.var name)
  /-- The abstractions around a place are the parts at the beginnings of its path. -/
  unbound : ∀ outer, outer <+: path → ∀ parameters body,
    term.part? outer = some (.abs parameters body) → name ∉ parameters

section

variable {name other : String} {parameters : List String} {body function term : Term}
  {arguments : List Term} {i : Nat} {path : Path}

theorem isFreeAt_nil : IsFreeAt term name [] ↔ term = .var name := by
  constructor
  · intro free
    exact Option.some.inj free.occurs
  · rintro rfl
    refine ⟨rfl, fun outer around parameters body leads => ?_⟩
    obtain rfl := List.prefix_nil.1 around
    cases leads

/-- The abstractions around a place in a child are the ones around it in the whole term, but for
the term itself. -/
theorem isFreeAt_cons :
    IsFreeAt term name (i :: path) ↔
      (∀ parameters body, term = .abs parameters body → name ∉ parameters) ∧
        ∃ child, term.children[i]? = some child ∧ IsFreeAt child name path := by
  constructor
  · rintro ⟨occurs, unbound⟩
    obtain ⟨child, has, inner⟩ := Option.bind_eq_some_iff.1 occurs
    refine ⟨fun parameters body same => ?_, child, has, inner, ?_⟩
    · exact unbound [] List.nil_prefix parameters body (congrArg some same)
    · intro outer around parameters body leads
      apply unbound (i :: outer) ((List.prefix_cons_inj i).2 around) parameters body
      rw [part?, has]
      exact leads
  · rintro ⟨outside, child, has, occurs, unbound⟩
    constructor
    · rw [part?, has]
      exact occurs
    · intro outer around parameters body leads
      rcases List.prefix_cons_iff.1 around with rfl | ⟨rest, rfl, inside⟩
      · exact outside parameters body (Option.some.inj leads)
      · rw [part?, has] at leads
        exact unbound rest inside parameters body leads

theorem exists_isFreeAt_var : (∃ path, IsFreeAt (.var other) name path) ↔ name = other := by
  constructor
  · rintro ⟨path, free⟩
    cases path with
    | nil =>
      cases isFreeAt_nil.1 free
      rfl
    | cons i path =>
      obtain ⟨_, child, has, _⟩ := isFreeAt_cons.1 free
      cases has
  · rintro rfl
    exact ⟨[], isFreeAt_nil.2 rfl⟩

theorem exists_isFreeAt_abs :
    (∃ path, IsFreeAt (.abs parameters body) name path) ↔
      (∃ path, IsFreeAt body name path) ∧ name ∉ parameters := by
  constructor
  · rintro ⟨path, free⟩
    cases path with
    | nil => cases isFreeAt_nil.1 free
    | cons i path =>
      obtain ⟨outside, child, has, inside⟩ := isFreeAt_cons.1 free
      obtain rfl := List.mem_singleton.1 (List.mem_of_getElem? has)
      exact ⟨⟨path, inside⟩, outside parameters child rfl⟩
  · rintro ⟨⟨path, inside⟩, unbound⟩
    refine ⟨0 :: path, isFreeAt_cons.2 ⟨?_, body, rfl, inside⟩⟩
    rintro _ _ ⟨⟩
    exact unbound

theorem exists_isFreeAt_app :
    (∃ path, IsFreeAt (.app function arguments) name path) ↔
      (∃ path, IsFreeAt function name path) ∨
        ∃ argument ∈ arguments, ∃ path, IsFreeAt argument name path := by
  constructor
  · rintro ⟨path, free⟩
    cases path with
    | nil => cases isFreeAt_nil.1 free
    | cons i path =>
      obtain ⟨_, child, has, inside⟩ := isFreeAt_cons.1 free
      rcases List.mem_cons.1 (List.mem_of_getElem? has) with rfl | mem
      · exact .inl ⟨path, inside⟩
      · exact .inr ⟨child, mem, path, inside⟩
  · -- an application binds nothing, whichever of its children the name is free in
    have lift {i : Nat} {child : Term} {path : Path}
        (has : (app function arguments).children[i]? = some child)
        (inside : IsFreeAt child name path) :
        ∃ path, IsFreeAt (.app function arguments) name path :=
      ⟨i :: path, isFreeAt_cons.2 ⟨nofun, child, has, inside⟩⟩
    rintro (⟨path, inside⟩ | ⟨argument, mem, path, inside⟩)
    · exact lift (i := 0) rfl inside
    · obtain ⟨i, has⟩ := List.mem_iff_getElem?.1 mem
      exact lift (i := i + 1) has inside

end

/-- The set that is computed has the names that occur free somewhere, and no others. -/
theorem mem_freeNames_iff {term : Term} {name : String} :
    name ∈ term.freeNames ↔ ∃ path, IsFreeAt term name path := by
  induction term with
  | var other => rw [exists_isFreeAt_var, freeNames, NameSet.mem_singleton]
  | abs parameters body ih => rw [mem_freeNames_abs, exists_isFreeAt_abs, ih]
  | app function arguments ihf iha =>
    rw [mem_freeNames_app, exists_isFreeAt_app, ihf]
    exact or_congr_right (exists_congr fun argument => and_congr_right fun mem => iha argument mem)

/-- **Free names do not depend on currying.** The free names of a written term are those that occur
free in it, in increasing order, whichever of its lists are empty or name a parameter twice. Its
curried form has the same ones, and so has the written form of any curried term. -/
theorem freeNames_correspond (t : Term) (l : Curried) :
    t.curry.freeNames = t.freeNames ∧ t.freeNames.toList.Pairwise (· < ·) ∧
      (∀ name, name ∈ t.freeNames ↔ ∃ path, t.IsFreeAt name path) ∧
      l.uncurry.freeNames = l.freeNames := by
  refine ⟨t.freeNames_curry, t.freeNames.increasing, fun name => mem_freeNames_iff, ?_⟩
  rw [← l.uncurry.freeNames_curry, l.curry_uncurry]

/-- A parameter that is named twice binds once, and empty lists bind and add nothing. -/
example :
    let body := app (app (var "z") []) [abs [] (var "y"), var "a"]
    (abs ["y", "x", "y"] body).freeNames.toList = ["a", "z"] := by cbv

end Term

end Redex
