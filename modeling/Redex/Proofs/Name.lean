import Redex.Glyph
import Redex.Token
import Redex.Proofs.Fresh

/-!
# Names that can be written

A text can have a name for an atom only if no character of it ends the atom. A variable or a
parameter can have it for its name if it is not reserved as well.

* `IsName.fresh`: a fresh name can be written if the name that gave way to it can.
-/

namespace Redex

/-- Whether a name is an atom when it is written. -/
structure IsWord (name : String) : Prop where
  nonempty : name ≠ ""
  wordChars : ∀ c ∈ name.toList, isWordChar c = true

/-- Whether a name is a variable when it is written. -/
structure IsName (name : String) : Prop extends IsWord name where
  notReserved : name ≠ reservedName

theorem isWord_iff {name : String} :
    IsWord name ↔ name ≠ "" ∧ ∀ c ∈ name.toList, isBlank c = false ∧ c ≠ '(' ∧ c ≠ ')' := by
  constructor
  · rintro ⟨nonempty, wordChars⟩
    refine ⟨nonempty, fun c mem => ?_⟩
    simpa [isWordChar, and_assoc] using wordChars c mem
  · rintro ⟨nonempty, wordChars⟩
    refine ⟨nonempty, fun c mem => ?_⟩
    simpa [isWordChar, and_assoc] using wordChars c mem

theorem isWord_ofList {chars : Text} (nonempty : chars ≠ [])
    (wordChars : ∀ c ∈ chars, isWordChar c = true) : IsWord (String.ofList chars) := by
  refine ⟨?_, ?_⟩
  · intro empty
    have noChars := congrArg String.toList empty
    rw [String.toList_ofList] at noChars
    exact nonempty noChars
  · rw [String.toList_ofList]
    exact wordChars

theorem isWord_reservedName : IsWord reservedName :=
  ⟨by decide, List.forall_mem_singleton.2 rfl⟩

theorem isWordChar_of_isDigit {c : Char} (digit : c.isDigit = true) : isWordChar c = true := by
  have bounds : 48 ≤ c.toNat ∧ c.toNat ≤ 57 := by
    simpa [Char.isDigit, Char.le_def, UInt32.le_iff_toNat_le] using digit
  have notBlank : isBlank c = false := by
    rw [Bool.eq_false_iff, isBlank, Ne, Ranges.has_iff (by decide)]
    rintro ⟨range, mem, lower, upper⟩
    have apart : ∀ range ∈ blankRanges, range.2 < 48 ∨ 57 < range.1 := by decide
    have := apart range mem
    omega
  have notOpening : c ≠ '(' := by
    rintro rfl
    simp at bounds
  have notClosing : c ≠ ')' := by
    rintro rfl
    simp at bounds
  simp [isWordChar, notBlank, notOpening, notClosing]

theorem toList_numbered (name : String) (number : Nat) :
    (numbered name number).toList = name.toList ++ Nat.toDigits 10 number := by
  rw [numbered, String.toList_append, String.toList_ofList]

/-- The reserved name has a single character, so a number cannot be what comes after a part of
it. -/
theorem IsWord.numbered {name : String} (word : IsWord name) (number : Nat) :
    IsName (numbered name number) := by
  have positive : 0 < name.toList.length := by
    refine List.length_pos_iff.2 fun empty => word.nonempty ?_
    exact String.toList_inj.1 empty
  have digits : 0 < (Nat.toDigits 10 number).length := Nat.length_toDigits_pos
  have length := congrArg List.length (toList_numbered name number)
  rw [List.length_append] at length
  refine ⟨⟨?_, ?_⟩, ?_⟩
  · intro empty
    rw [empty] at length
    simp at length
    omega
  · intro c mem
    rw [toList_numbered] at mem
    rcases List.mem_append.1 mem with mem | mem
    · exact word.wordChars c mem
    · exact isWordChar_of_isDigit (Nat.isDigit_of_mem_toDigits (by decide) (by decide) mem)
  · intro reserved
    have one : reservedName.toList.length = 1 := rfl
    rw [reserved] at length
    omega

theorem IsName.fresh {name : String} (isName : IsName name) (avoid : NameSet) :
    IsName (fresh name avoid) := by
  by_cases taken : name ∈ avoid
  · obtain ⟨number, _, _, same⟩ := fresh_of_mem taken
    rw [same]
    exact isName.toIsWord.numbered number
  · rw [fresh_of_not_mem taken]
    exact isName

end Redex
