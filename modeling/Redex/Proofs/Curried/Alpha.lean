import Redex.Proofs.Curried.Nameless

/-!
# Terms up to the names of their parameters

Two terms are alpha-equivalent if they differ only in how they name their parameters: going down
both at once, abstractions meet abstractions, and where variables meet, both are bound by
abstractions that met or both are free and have one name.

* `alphaIn_iff`: alpha-equivalent terms are those with one nameless form.
-/

namespace Redex

namespace Curried

/-- Whether two names are one variable under abstractions with these pairs of parameters, innermost
first. -/
inductive SameVariable : List (String × String) → String → String → Prop where
  | free (name : String) : SameVariable [] name name
  | innermost (pairs : List (String × String)) (x y : String) : SameVariable ((x, y) :: pairs) x y
  | outer {pairs : List (String × String)} {x y p q : String} :
    x ≠ p → y ≠ q → SameVariable pairs x y → SameVariable ((p, q) :: pairs) x y

/-- Whether two terms differ only in the names of parameters, under abstractions with these pairs
of parameters. -/
inductive AlphaIn : List (String × String) → Curried → Curried → Prop where
  | var {pairs : List (String × String)} {x y : String} :
    SameVariable pairs x y → AlphaIn pairs (.var x) (.var y)
  | abs {pairs : List (String × String)} {x y : String} {t u : Curried} :
    AlphaIn ((x, y) :: pairs) t u → AlphaIn pairs (.abs x t) (.abs y u)
  | app {pairs : List (String × String)} {f g t u : Curried} :
    AlphaIn pairs f g → AlphaIn pairs t u → AlphaIn pairs (.app f t) (.app g u)

/-- Whether two terms differ only in the names of their parameters. -/
def Alpha (t u : Curried) : Prop := AlphaIn [] t u

theorem sameVariable_cons {pairs : List (String × String)} {x y p q : String} :
    SameVariable ((p, q) :: pairs) x y ↔
      x = p ∧ y = q ∨ x ≠ p ∧ y ≠ q ∧ SameVariable pairs x y := by
  constructor
  · intro same
    cases same with
    | innermost => exact .inl ⟨rfl, rfl⟩
    | outer left right same => exact .inr ⟨left, right, same⟩
  · rintro (⟨rfl, rfl⟩ | ⟨left, right, same⟩)
    · exact .innermost pairs x y
    · exact .outer left right same

/-- Two names are one variable if the same number leads to the abstractions that bind them. -/
theorem sameVariable_iff {pairs : List (String × String)} {x y : String} :
    SameVariable pairs x y ↔
      resolve (pairs.map Prod.fst) x = resolve (pairs.map Prod.snd) y := by
  induction pairs with
  | nil =>
    constructor
    · intro same
      cases same
      rfl
    · intro same
      have names : x = y := Nameless.free.inj same
      exact names ▸ .free x
  | cons pair pairs ih =>
    obtain ⟨p, q⟩ := pair
    rw [List.map_cons, List.map_cons, resolve_cons, resolve_cons, sameVariable_cons, ih]
    by_cases left : x = p <;> by_cases right : y = q
    · simp [valuesInside, left, right]
    · simpa [valuesInside, left, right] using (Nameless.shift_ne_zero _).symm
    · simpa [valuesInside, left, right] using Nameless.shift_ne_zero _
    · simp [valuesInside, left, right, Nameless.shift_inj]

theorem alphaIn_iff {pairs : List (String × String)} {t u : Curried} :
    AlphaIn pairs t u ↔
      t.namelessIn (pairs.map Prod.fst) = u.namelessIn (pairs.map Prod.snd) := by
  constructor
  · intro alpha
    induction alpha with
    | var same => exact sameVariable_iff.1 same
    | abs _ ih => exact congrArg Nameless.abs ih
    | app _ _ ihf iha =>
      rw [namelessIn, namelessIn, ihf, iha]
  · intro same
    induction t generalizing pairs u with
    | var x =>
      cases u with
      | var y => exact .var (sameVariable_iff.2 same)
      | abs y u => exact absurd same (resolve_ne_abs _ x _)
      | app g u => exact absurd same (resolve_ne_app _ x _ _)
    | abs x t ih =>
      cases u with
      | var y => exact absurd same.symm (resolve_ne_abs _ y _)
      | abs y u => exact .abs (ih (Nameless.abs.inj same))
      | app g u => cases same
    | app f t ihf iht =>
      cases u with
      | var y => exact absurd same.symm (resolve_ne_app _ y _ _)
      | abs y u => cases same
      | app g u =>
        obtain ⟨functions, arguments⟩ := Nameless.app.inj same
        exact .app (ihf functions) (iht arguments)

/-- Terms that differ in the names of parameters only are one term without names. -/
theorem alpha_iff {t u : Curried} : Alpha t u ↔ t.nameless = u.nameless := alphaIn_iff

end Curried

end Redex
