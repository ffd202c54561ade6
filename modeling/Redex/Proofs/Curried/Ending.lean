import Redex.Proofs.Curried.Size

/-!
# Where the recursion of a substitution ends

When a parameter was renamed, the substitution goes on with an abstraction that was not there
before. It is as large as the one that was, but its parameter need not be renamed again, so the
next call is made in its body. Two nested calls are enough for each node of the term.

* `renamed?_of_renamed?`: a renaming is not repeated.
* `substWithin_eq`: how deep the calls are nested.
* `subst_ends`: a substitution ends, and has the size that it should have.
-/

namespace Redex

namespace Curried

/-- The abstraction that a substitution goes on with, if it has to rename the parameter. -/
def renamed? (term : Curried) (name : String) (replacement : Curried) : Option Curried :=
  match term with
  | .abs parameter body =>
    if parameter ≠ name ∧ parameter ∈ replacement.freeNames then
      some (term.withParameter (freshParameter parameter body name replacement))
    else none
  | _ => none

/-- The result of a substitution, and how many times it had to rename a parameter. The substitutions
by which it renames may rename parameters too; those are not counted. -/
structure Outcome where
  result : Curried
  renamings : Nat

/-- A substitution in which no more than `depth` calls are nested. An abstraction whose parameter
was renamed is taken up as a whole, like any other term. -/
def substWithin : (depth : Nat) → Curried → String → Curried → Option Outcome
  | 0, _, _, _ => none
  | _ + 1, .var y, x, s => some ⟨if y = x then s else .var y, 0⟩
  | depth + 1, .app t u, x, s => do
    let function ← substWithin depth t x s
    let argument ← substWithin depth u x s
    some ⟨.app function.result argument.result, function.renamings + argument.renamings⟩
  | depth + 1, .abs y t, x, s =>
    if y = x then some ⟨.abs y t, 0⟩
    else if y ∈ s.freeNames then do
      let other := freshParameter y t x s
      let body ← substWithin depth t y (.var other)
      let outcome ← substWithin depth (.abs other body.result) x s
      some ⟨outcome.result, outcome.renamings + 1⟩
    else do
      let body ← substWithin depth t x s
      some ⟨.abs y body.result, body.renamings⟩

variable {x y : String} {t u s : Curried}

/-- A substitution renames a parameter that is free in the replacement, and only where it has to go
on with the body. -/
theorem renamed?_eq_some_iff :
    t.renamed? x s = some u ↔ ∃ y body, t = abs y body ∧ y ≠ x ∧ y ∈ s.freeNames ∧
      u = abs (freshParameter y body x s) (body.subst y (var (freshParameter y body x s))) := by
  constructor
  · intro renames
    cases t with
    | var y => cases renames
    | app t u => cases renames
    | abs y body =>
      rw [renamed?] at renames
      split at renames
      · rename_i captures
        exact ⟨y, body, rfl, captures.1, captures.2, (Option.some.inj renames).symm⟩
      · cases renames
  · rintro ⟨y, body, rfl, ne, free, rfl⟩
    rw [renamed?, if_pos ⟨ne, free⟩, withParameter]

/-- **A renaming is not repeated.** -/
theorem renamed?_of_renamed? (renames : t.renamed? x s = some u) :
    u.renamed? x s = none ∧ u.size = t.size ∧ u.subst x s = t.subst x s := by
  obtain ⟨y, body, rfl, ne, free, rfl⟩ := renamed?_eq_some_iff.1 renames
  obtain ⟨notName, unused, _⟩ := freshParameter_spec y body x s
  refine ⟨?_, ?_, ?_⟩
  · rw [renamed?, if_neg]
    exact fun again => unused again.2
  · rw [size, size, size_subst_var]
  · rw [subst_abs_of_not_mem notName unused, subst_abs_of_mem ne free]

/-- Where nothing is renamed, one call is nested in another. -/
theorem substWithin_inside {depth : Nat} {outcome : Outcome} (ne : y ≠ x) (unused : y ∉ s.freeNames)
    (body : substWithin depth t x s = some outcome) :
    substWithin (depth + 1) (abs y t) x s = some ⟨abs y outcome.result, outcome.renamings⟩ := by
  rw [substWithin, if_neg ne, if_neg unused, body]
  rfl

/-- A call for the abstraction with the new parameter enters its body at once. -/
theorem substWithin_renamed {depth : Nat} {inner outcome : Outcome} (ne : y ≠ x)
    (free : y ∈ s.freeNames)
    (renames : substWithin (depth + 1) t y (var (freshParameter y t x s)) = some inner)
    (body : substWithin depth inner.result x s = some outcome) :
    substWithin (depth + 2) (abs y t) x s =
      some ⟨abs (freshParameter y t x s) outcome.result, outcome.renamings + 1⟩ := by
  obtain ⟨notName, unused, _⟩ := freshParameter_spec y t x s
  have whole := substWithin_inside notName unused body
  rw [substWithin, if_neg ne, if_pos free]
  simp only [renames, whole, Option.bind_eq_bind, Option.bind_some]

/-- Two nested calls for each node are enough, and each abstraction is renamed once at most. -/
theorem substWithin_eq (t : Curried) (x : String) (s : Curried) :
    ∀ depth, 2 * t.size ≤ depth →
      ∃ renamings ≤ t.abstractions, substWithin depth t x s = some ⟨t.subst x s, renamings⟩ := by
  induction t, x, s using subst_induction with
  | var y x s =>
    intro depth enough
    obtain ⟨depth, rfl⟩ := Nat.exists_eq_add_of_le' (Nat.le_trans (by decide : 1 ≤ 2) enough)
    exact ⟨0, Nat.zero_le _, by rw [substWithin, subst_var]⟩
  | app t u x s iht ihu =>
    intro depth enough
    rw [size] at enough
    obtain ⟨depth, rfl⟩ := Nat.exists_eq_add_of_le' (show 1 ≤ depth by omega)
    obtain ⟨m, fewT, function⟩ := iht depth (by omega)
    obtain ⟨n, fewU, argument⟩ := ihu depth (by omega)
    have few : m + n ≤ t.abstractions + u.abstractions := Nat.add_le_add fewT fewU
    refine ⟨m + n, few, ?_⟩
    rw [substWithin, function, argument, subst_app]
    rfl
  | bound t x s =>
    intro depth enough
    rw [size] at enough
    obtain ⟨depth, rfl⟩ := Nat.exists_eq_add_of_le' (show 1 ≤ depth by omega)
    exact ⟨0, Nat.zero_le _, by rw [substWithin, if_pos rfl, subst_abs_self]⟩
  | inside y t x s ne unused ih =>
    intro depth enough
    rw [size] at enough
    obtain ⟨depth, rfl⟩ := Nat.exists_eq_add_of_le' (show 1 ≤ depth by omega)
    obtain ⟨n, few, body⟩ := ih depth (by omega)
    refine ⟨n, Nat.le_succ_of_le few, ?_⟩
    rw [substWithin_inside ne unused body, subst_abs_of_not_mem ne unused]
  | renamed y t x s ne free ihy ihx =>
    intro depth enough
    rw [size] at enough
    obtain ⟨depth, rfl⟩ := Nat.exists_eq_add_of_le' (show 2 ≤ depth by omega)
    obtain ⟨_, _, renames⟩ := ihy (depth + 1) (by omega)
    -- the new body is as large as the old one and has as many abstractions
    obtain ⟨n, few, body⟩ := ihx depth (by rw [size_subst_var]; omega)
    rw [abstractions_subst_var] at few
    refine ⟨n + 1, Nat.succ_le_succ few, ?_⟩
    rw [substWithin_renamed ne free renames body, subst_abs_of_mem ne free]

/-- **Substitution ends, and its size is exact.** Two nested calls for each node are enough, though
a renaming goes on with an abstraction that was not there before; its parameter is not renamed
again, and no substitution renames more than once for each abstraction. Every free occurrence of the
name adds what the replacement has more than a variable. -/
theorem subst_ends (t : Curried) (x : String) (s : Curried) :
    (∀ depth, 2 * t.size ≤ depth →
        ∃ renamings ≤ t.abstractions, substWithin depth t x s = some ⟨t.subst x s, renamings⟩) ∧
      (t.subst x s).size = t.size + t.occurrences x * (s.size - 1) ∧
      (∀ y, (t.subst x (var y)).size = t.size) ∧
      ∀ u, t.renamed? x s = some u →
        u.renamed? x s = none ∧ u.size = t.size ∧ u.subst x s = t.subst x s := by
  refine ⟨substWithin_eq t x s, size_subst t x s, fun y => ?_, fun u => renamed?_of_renamed?⟩
  rw [size_subst, size, Nat.sub_self, Nat.mul_zero, Nat.add_zero]

/-- The parameter is free in the replacement, so it is renamed once. -/
theorem subst_ends_captured :
    let t := abs "y" (.app (.var "y") (.var "x"))
    let u := abs "y1" (.app (.var "y1") (.var "x"))
    let s := app (.var "y") (.var "z")
    2 * t.size ≤ 8 ∧ (∃ renamings ≤ 1, substWithin 8 t "x" s = some ⟨t.subst "x" s, renamings⟩) ∧
      t.renamed? "x" s = some u ∧ u.renamed? "x" s = none ∧ u.subst "x" s = t.subst "x" s ∧
      (t.subst "x" s).size = 6 := by
  intro t u s
  obtain ⟨ends, size, -, once⟩ := subst_ends t "x" s
  have enough : 2 * t.size ≤ 8 := by decide
  have renames : t.renamed? "x" s = some u := by cbv
  obtain ⟨notAgain, -, same⟩ := once u renames
  exact ⟨enough, ends 8 enough, renames, notAgain, same, size⟩

end Curried

end Redex
