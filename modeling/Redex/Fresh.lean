import Redex.NameSet

/-!
# Fresh names

A name that has to be avoided gives way to the same name with a number after it: the least
number, from one on, for which the result need not be avoided.

* `numbered_injective`, `numbered_ne`: the variants of a name differ from each other and from it.
* `fresh_of_not_mem`: a name that need not be avoided stays as it is.
-/

namespace Redex

/-- A name with a number after it, in decimal digits. -/
def numbered (name : String) (number : Nat) : String :=
  name ++ .ofList (Nat.toDigits 10 number)

/-- The name with the first number from `number` on for which it is not in the set. The set is
asked about `tries` numbers, and the next one is taken unasked. -/
def firstFree (name : String) (avoid : NameSet) : (tries number : Nat) → String
  | 0, number => numbered name number
  | tries + 1, number =>
    if numbered name number ∈ avoid then firstFree name avoid tries (number + 1)
    else numbered name number

/-- The name itself, or the first of its numbered variants that is not in the set. The set holds
the name, so it cannot hold as many variants as it has members, and so many tries suffice. -/
def fresh (name : String) (avoid : NameSet) : String :=
  if name ∈ avoid then firstFree name avoid avoid.size 1 else name

theorem numbered_eq_append (name : String) (number : Nat) :
    numbered name number = name ++ toString number := by
  rw [numbered, Nat.toString_eq_ofList_toDigits]

/-- Numbers have one decimal each, so no two of them make the same name. -/
theorem numbered_injective {name : String} {m n : Nat} (h : numbered name m = numbered name n) :
    m = n := by
  have digits : Nat.toDigits 10 m = Nat.toDigits 10 n := by
    have same := congrArg String.toList ((String.append_right_inj name).1 h)
    simpa only [String.toList_ofList] using same
  have value (k : Nat) : Nat.ofDigitChars 10 (Nat.toDigits 10 k) 0 = k :=
    Nat.ofDigitChars_toDigits (by decide) (by decide)
  rw [← value m, digits, value n]

theorem numbered_ne (name : String) (number : Nat) : numbered name number ≠ name := by
  intro h
  have same := congrArg String.toList h
  simp [numbered] at same

theorem fresh_of_not_mem {name : String} {avoid : NameSet} (h : name ∉ avoid) :
    fresh name avoid = name := if_neg h

end Redex
