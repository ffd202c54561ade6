import Redex.Proofs.Curried.Renaming

/-!
# The size of a substitution

Every free occurrence of the name is a variable that gives way to the replacement, and nothing else
is added or removed, whatever had to be renamed.

* `occurrences_subst`: how often a name is free in a substitution.
* `weight_subst`: what a substitution is made of.
* `size_subst`: how large it is.
-/

namespace Redex

namespace Curried

def occurrences (name : String) : Curried → Nat
  | .var x => if x = name then 1 else 0
  | .abs parameter body => if parameter = name then 0 else body.occurrences name
  | .app function argument => function.occurrences name + argument.occurrences name

/-- A sum over the nodes of a term, in which variables, abstractions and applications may count
differently. -/
def weight (perVariable perAbstraction perApplication : Nat) : Curried → Nat
  | .var _ => perVariable
  | .abs _ body => body.weight perVariable perAbstraction perApplication + perAbstraction
  | .app function argument =>
    function.weight perVariable perAbstraction perApplication +
      argument.weight perVariable perAbstraction perApplication + perApplication

def abstractions (t : Curried) : Nat := t.weight 0 1 0

section

variable {x y w : String} {t u s : Curried}

theorem size_eq_weight (t : Curried) : t.size = t.weight 1 1 1 := by
  induction t with
  | var x => rfl
  | abs y t ih => rw [size, weight, ih]
  | app t u iht ihu => rw [size, weight, iht, ihu]

theorem size_pos (t : Curried) : 0 < t.size := by
  cases t <;> exact Nat.succ_pos _

theorem occurrences_abs_of_ne (ne : y ≠ w) : (abs y t).occurrences w = t.occurrences w := by
  rw [occurrences, if_neg ne]

theorem occurrences_abs_self : (abs x t).occurrences x = 0 := by
  rw [occurrences, if_pos rfl]

theorem occurrences_eq_zero_iff : t.occurrences x = 0 ↔ x ∉ t.freeNames := by
  induction t with
  | var y =>
    rw [mem_freeNames_var, occurrences]
    split <;> simp_all [eq_comm]
  | abs y t ih =>
    rw [mem_freeNames_abs]
    by_cases same : y = x
    · subst same
      simp [occurrences_abs_self]
    · rw [occurrences_abs_of_ne same, ih]
      simp [Ne.symm same]
  | app t u iht ihu =>
    rw [mem_freeNames_app, occurrences, Nat.add_eq_zero_iff, iht, ihu, not_or]

/-- The occurrences of the name itself are gone, and each of them has brought those of the
replacement. -/
theorem occurrences_subst (t : Curried) (x : String) (s : Curried) :
    ∀ w, (t.subst x s).occurrences w =
      (if w = x then 0 else t.occurrences w) + t.occurrences x * s.occurrences w := by
  induction t, x, s using subst_induction with
  | var y x s =>
    intro w
    rw [subst_var]
    by_cases same : y = x
    · subst same
      by_cases other : y = w <;> simp [occurrences, other, eq_comm]
    · by_cases other : w = x
      · subst other
        simp [occurrences, same]
      · simp [occurrences, same, other]
  | app t u x s iht ihu =>
    intro w
    rw [subst_app, occurrences, iht, ihu, occurrences, occurrences, Nat.add_mul]
    split <;> omega
  | bound t x s =>
    intro w
    rw [subst_abs_self, occurrences_abs_self, Nat.zero_mul]
    split
    · rename_i same
      rw [same, occurrences_abs_self]
    · rfl
  | inside y t x s ne unused ih =>
    intro w
    rw [subst_abs_of_not_mem ne unused, occurrences_abs_of_ne ne]
    by_cases same : y = w
    · subst same
      rw [occurrences_abs_self, occurrences_abs_self, occurrences_eq_zero_iff.2 unused]
      simp
    · rw [occurrences_abs_of_ne same, occurrences_abs_of_ne same, ih]
  | renamed y t x s ne free ihy ihx =>
    intro w
    obtain ⟨notName, notReplacement, notBody⟩ := freshParameter_spec y t x s
    rw [subst_abs_of_mem ne free, occurrences_abs_of_ne ne]
    generalize freshParameter y t x s = z at *
    have moved : (t.subst y (var z)).occurrences x = t.occurrences x := by
      simp [ihy, occurrences, ne.symm, notName]
    by_cases same : z = w
    · -- the new parameter is free neither in the replacement nor in the old body
      subst same
      have absent : (abs y t).occurrences z = 0 := by
        apply occurrences_eq_zero_iff.2
        rw [mem_freeNames_abs]
        exact fun inside => notBody inside.1
      rw [occurrences_abs_self, absent, occurrences_eq_zero_iff.2 notReplacement]
      simp
    · rw [occurrences_abs_of_ne same, ihx, moved, ihy]
      by_cases parameter : w = y
      · subst parameter
        simp [occurrences, same]
      · simp [occurrences, same, parameter, Ne.symm parameter]

/-- To rename one variable leaves the occurrences of another name as they are. -/
theorem occurrences_subst_fresh {z : String} (name : x ≠ y) (new : x ≠ z) :
    (t.subst y (var z)).occurrences x = t.occurrences x := by
  rw [occurrences_subst, if_neg name, occurrences, if_neg new.symm, Nat.mul_zero, Nat.add_zero]

/-- Each free occurrence gives up its own weight for that of the replacement. This is an equation
without subtraction, as the weights may be any. -/
theorem weight_subst (perVariable perAbstraction perApplication : Nat) (t : Curried) (x : String)
    (s : Curried) :
    (t.subst x s).weight perVariable perAbstraction perApplication +
        t.occurrences x * perVariable =
      t.weight perVariable perAbstraction perApplication +
        t.occurrences x * s.weight perVariable perAbstraction perApplication := by
  induction t, x, s using subst_induction with
  | var y x s =>
    rw [subst_var, occurrences]
    split
    · rw [Nat.one_mul, Nat.one_mul, weight, Nat.add_comm]
    · rw [Nat.zero_mul, Nat.zero_mul]
  | app t u x s iht ihu =>
    rw [subst_app, weight, weight, occurrences, Nat.add_mul, Nat.add_mul]
    omega
  | bound t x s => rw [subst_abs_self, occurrences_abs_self, Nat.zero_mul, Nat.zero_mul]
  | inside y t x s ne unused ih =>
    rw [subst_abs_of_not_mem ne unused, weight, weight, occurrences_abs_of_ne ne]
    omega
  | renamed y t x s ne free ihy ihx =>
    obtain ⟨notName, -, -⟩ := freshParameter_spec y t x s
    rw [occurrences_subst_fresh ne.symm notName.symm] at ihx
    rw [subst_abs_of_mem ne free, weight, weight, occurrences_abs_of_ne ne]
    -- a variable for a variable: the renaming has changed nothing
    rw [weight] at ihy
    omega

/-- A variable has size one, so each free occurrence adds the size of the replacement less one. -/
theorem size_subst (t : Curried) (x : String) (s : Curried) :
    (t.subst x s).size = t.size + t.occurrences x * (s.size - 1) := by
  have sum := weight_subst 1 1 1 t x s
  rw [← size_eq_weight, ← size_eq_weight, ← size_eq_weight] at sum
  obtain ⟨n, size⟩ := Nat.exists_eq_add_of_le' s.size_pos
  rw [size, Nat.mul_add] at sum
  rw [size, Nat.add_sub_cancel]
  omega

theorem abstractions_subst_var : (t.subst x (var y)).abstractions = t.abstractions := by
  have sum := weight_subst 0 1 0 t x (var y)
  rwa [weight, Nat.mul_zero, Nat.add_zero, Nat.add_zero] at sum

end

end Curried

end Redex
