/-!
# Paths

The place of a part of a term is the way to it from the whole term. Paths are ordered the way a
term is read: a part comes before the parts inside it, and what is in a function before what is in
its argument. The first of some parts is then the leftmost of the outermost ones.

* `Path.NotAfter.antisymm`: the order is one.
-/

namespace Redex

/-- The way to a part of a term: zero goes into a body or a function, one into the first argument,
and so on. -/
abbrev Path := List Nat

/-- Whether a path leads to the same part as another path, or to one that is read earlier. -/
inductive Path.NotAfter : Path → Path → Prop where
  | outside (path : Path) : NotAfter [] path
  | earlier (path other : Path) {i j : Nat} : i < j → NotAfter (i :: path) (j :: other)
  | inside {path other : Path} (i : Nat) : NotAfter path other → NotAfter (i :: path) (i :: other)

theorem Path.NotAfter.antisymm {path other : Path} (first : NotAfter path other)
    (second : NotAfter other path) : path = other := by
  induction first with
  | outside path =>
    cases second
    rfl
  | earlier path other less =>
    cases second with
    | earlier _ _ more => exact absurd more (Nat.lt_asymm less)
    | inside => exact absurd less (Nat.lt_irrefl _)
  | inside i first ih =>
    cases second with
    | earlier _ _ less => exact absurd less (Nat.lt_irrefl _)
    | inside _ second => rw [ih second]

end Redex
