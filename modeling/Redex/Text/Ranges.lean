import Redex.Text.Basic

/-!
# Ranges of characters

A property of characters is given by the code points that have it, as closed ranges in increasing
order. The first range that does not end before a character is then the only one that can hold
it.

* `Ranges.has_iff`: a character is found if and only if one of the ranges holds it.
-/

namespace Redex

/-- Closed ranges of code points, in increasing order. -/
abbrev Ranges := List (Nat × Nat)

namespace Ranges

def has (ranges : Ranges) (c : Char) : Bool :=
  match ranges.find? fun (_, last) => c.toNat ≤ last with
  | some (first, _) => first ≤ c.toNat
  | none => false

/-- Ranges in increasing order may be gone through until one ends behind the character: no later one
can hold it. -/
theorem has_iff {ranges : Ranges} {c : Char} (increasing : ranges.Pairwise (·.2 < ·.1)) :
    ranges.has c = true ↔ ∃ range ∈ ranges, range.1 ≤ c.toNat ∧ c.toNat ≤ range.2 := by
  unfold has
  induction ranges with
  | nil => simp
  | cons first rest ih =>
    obtain ⟨after, ordered⟩ := List.pairwise_cons.1 increasing
    by_cases reached : c.toNat ≤ first.2
    · rw [List.find?_cons_of_pos (by simpa using reached)]
      constructor
      · intro h
        exact ⟨first, List.mem_cons_self, by simpa using h, reached⟩
      · rintro ⟨range, mem, lower, _⟩
        rcases List.mem_cons.1 mem with rfl | mem
        · simpa using lower
        · have := after range mem
          omega
    · rw [List.find?_cons_of_neg (by simpa using reached), ih ordered]
      constructor
      · rintro ⟨range, mem, bounds⟩
        exact ⟨range, List.mem_cons_of_mem _ mem, bounds⟩
      · rintro ⟨range, mem, lower, upper⟩
        rcases List.mem_cons.1 mem with rfl | mem
        · exact absurd upper reached
        · exact ⟨range, mem, lower, upper⟩

end Ranges

end Redex
