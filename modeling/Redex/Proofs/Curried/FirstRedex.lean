import Redex.Proofs.Curried.Parts
import Redex.Proofs.Curried.Simulation

/-!
# The redex of a step

A term has a step if there is a redex among its parts. The step contracts the redex that is read
first, where it stands, and nothing else in the term is touched.

* `isReducible_iff`: the terms with a redex among their parts are found by a test.
* `Step.firstRedex`: which part of a term a step contracts.
* `step?_contracts_first`: the step of a term, told from its parts.
-/

namespace Redex

namespace Curried

def HasRedexAt (t : Curried) (path : Path) : Prop :=
  ∃ x b a, t.part? path = some (.app (.abs x b) a)

/-- Whether a redex stands at a path, and every other redex of the term is read later. -/
structure IsFirstRedex (t : Curried) (path : Path) (x : String) (b a : Curried) : Prop where
  part : t.part? path = some (.app (.abs x b) a)
  first : ∀ other, t.HasRedexAt other → path.NotAfter other

/-- Of two redexes that both come before all others, each comes before the other. -/
theorem IsFirstRedex.unique {t : Curried} {path other : Path} {x y : String} {b a c d : Curried}
    (left : t.IsFirstRedex path x b a) (right : t.IsFirstRedex other y c d) :
    path = other ∧ x = y ∧ b = c ∧ a = d := by
  have same : path = other :=
    (left.first other ⟨y, c, d, right.part⟩).antisymm (right.first path ⟨x, b, a, left.part⟩)
  subst same
  have parts := left.part.symm.trans right.part
  cases parts
  exact ⟨rfl, rfl, rfl, rfl⟩

/-! ## Where the redexes of a term are -/

section

variable {x : String} {f a b : Curried} {path : Path}

theorem not_hasRedexAt_var : ¬ (var x).HasRedexAt path := by
  rintro ⟨y, c, d, leads⟩
  cases (part?_var_eq_some.1 leads).2

theorem hasRedexAt_abs :
    (abs x b).HasRedexAt path ↔ ∃ rest, path = 0 :: rest ∧ b.HasRedexAt rest := by
  constructor
  · rintro ⟨y, c, d, leads⟩
    rcases part?_abs_eq_some.1 leads with ⟨_, same⟩ | ⟨rest, here, leads⟩
    · cases same
    · exact ⟨rest, here, y, c, d, leads⟩
  · rintro ⟨rest, rfl, redex⟩
    exact redex

theorem hasRedexAt_app (notAbs : ∀ x b, f ≠ .abs x b) :
    (app f a).HasRedexAt path ↔
      (∃ rest, path = 0 :: rest ∧ f.HasRedexAt rest) ∨
        ∃ rest, path = 1 :: rest ∧ a.HasRedexAt rest := by
  constructor
  · rintro ⟨y, c, d, leads⟩
    rcases part?_app_eq_some.1 leads with ⟨_, same⟩ | ⟨rest, here, leads⟩ | ⟨rest, here, leads⟩
    · cases same
      exact absurd rfl (notAbs y c)
    · exact .inl ⟨rest, here, y, c, d, leads⟩
    · exact .inr ⟨rest, here, y, c, d, leads⟩
  · rintro (⟨rest, rfl, redex⟩ | ⟨rest, rfl, redex⟩)
    · exact redex
    · exact redex

theorem isReducible_app (notAbs : ∀ x b, f ≠ .abs x b) :
    (app f a).isReducible = (f.isReducible || a.isReducible) := by
  cases f with
  | abs x b => exact absurd rfl (notAbs x b)
  | var | app => rfl

end

/-- The test finds a redex wherever there is one. -/
theorem isReducible_iff {t : Curried} : t.isReducible = true ↔ ∃ path, t.HasRedexAt path := by
  induction t with
  | var x => exact iff_of_false Bool.false_ne_true fun ⟨_, redex⟩ => not_hasRedexAt_var redex
  | abs x b ih =>
    rw [isReducible, ih]
    constructor
    · rintro ⟨path, redex⟩
      exact ⟨0 :: path, redex⟩
    · rintro ⟨path, redex⟩
      obtain ⟨rest, rfl, inner⟩ := hasRedexAt_abs.1 redex
      exact ⟨rest, inner⟩
  | app f a ihf iha =>
    rcases exists_abs_or f with ⟨x, b, rfl⟩ | notAbs
    · exact iff_of_true rfl ⟨[], x, b, a, rfl⟩
    · rw [isReducible_app notAbs, Bool.or_eq_true, ihf, iha]
      constructor
      · rintro (⟨path, redex⟩ | ⟨path, redex⟩)
        · exact ⟨0 :: path, redex⟩
        · exact ⟨1 :: path, redex⟩
      · rintro ⟨path, redex⟩
        rcases (hasRedexAt_app notAbs).1 redex with ⟨rest, rfl, inner⟩ | ⟨rest, rfl, inner⟩
        · exact .inl ⟨rest, inner⟩
        · exact .inr ⟨rest, inner⟩

/-- A step contracts the redex that is read first, and leaves everything outside of it as it is. -/
theorem Step.firstRedex {t u : Curried} (step : Step t u) :
    ∃ path x b a, t.IsFirstRedex path x b a ∧ u = t.withPart path (b.subst x a) := by
  induction step with
  | redex x b a => exact ⟨[], x, b, a, ⟨rfl, fun other _ => .outside other⟩, rfl⟩
  | abs x _ ih =>
    obtain ⟨path, y, c, d, ⟨part, first⟩, rfl⟩ := ih
    refine ⟨0 :: path, y, c, d, ⟨part, ?_⟩, rfl⟩
    intro other redex
    obtain ⟨rest, rfl, inner⟩ := hasRedexAt_abs.1 redex
    exact .inside 0 (first rest inner)
  | function a notAbs _ ih =>
    obtain ⟨path, y, c, d, ⟨part, first⟩, rfl⟩ := ih
    refine ⟨0 :: path, y, c, d, ⟨part, ?_⟩, rfl⟩
    intro other redex
    rcases (hasRedexAt_app notAbs).1 redex with ⟨rest, rfl, inner⟩ | ⟨rest, rfl, _⟩
    · exact .inside 0 (first rest inner)
    · exact .earlier path rest Nat.zero_lt_one
  | @argument f a b notAbs done _ ih =>
    obtain ⟨path, y, c, d, ⟨part, first⟩, rfl⟩ := ih
    refine ⟨1 :: path, y, c, d, ⟨part, ?_⟩, rfl⟩
    intro other redex
    rcases (hasRedexAt_app notAbs).1 redex with ⟨rest, rfl, inner⟩ | ⟨rest, rfl, inner⟩
    · -- a redex in the function would have been a step of it
      have reducible := isReducible_iff.2 ⟨rest, inner⟩
      rw [isReducible_eq_isSome, done] at reducible
      cases reducible
    · exact .inside 1 (first rest inner)

/-- **A step contracts the first redex and nothing else.** A term has a step if and only if there is
an abstraction that is applied to an argument somewhere in it, and the test for a redex says so. The
step leads to one term only: where the first such part stood is now the body with the argument for
the parameter, and all other parts and parameters are those of the term. -/
theorem step?_contracts_first (t : Curried) :
    (t.isReducible = true ↔ ∃ path, t.HasRedexAt path) ∧
      (t.step?.isSome = true ↔ ∃ path, t.HasRedexAt path) ∧
      ∀ u, t.step? = some u ↔
        ∃ path x b a, t.IsFirstRedex path x b a ∧ u = t.withPart path (b.subst x a) ∧
          u.part? path = some (b.subst x a) ∧ SameOutside path t u := by
  have reducible : t.step?.isSome = true ↔ ∃ path, t.HasRedexAt path := by
    rw [← isReducible_eq_isSome, isReducible_iff]
  refine ⟨isReducible_iff, reducible, fun u => ?_⟩
  constructor
  · intro step
    obtain ⟨path, x, b, a, first, rfl⟩ := (step?_eq_some_iff.1 step).firstRedex
    exact ⟨path, x, b, a, first, rfl, part?_withPart first.part _, sameOutside_withPart t path _⟩
  · rintro ⟨path, x, b, a, first, rfl, _⟩
    obtain ⟨v, step⟩ := Option.isSome_iff_exists.1 (reducible.2 ⟨path, x, b, a, first.part⟩)
    obtain ⟨other, y, c, d, firstToo, rfl⟩ := (step?_eq_some_iff.1 step).firstRedex
    obtain ⟨rfl, rfl, rfl, rfl⟩ := first.unique firstToo
    exact step

example : (app (app (var "f") (app (abs "x" (var "x")) (var "a")))
    (app (abs "x" (var "x")) (var "b"))).step? =
    some (app (app (var "f") (var "a")) (app (abs "x" (var "x")) (var "b"))) := by cbv

end Curried

end Redex
