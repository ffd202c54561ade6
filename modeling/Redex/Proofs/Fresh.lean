import Redex.Fresh
import Mathlib.Order.Bounds.Basic
import Mathlib.Order.Nat

/-!
# The least free number

The search for a fresh name asks about one number after the other until a variant of the name is
free. It ends because the variants differ from each other and from the name, and a set of names has
only so many members.

* `lt_size_of_numbered_mem`: how many variants can be in the way.
* `firstFreeWithin_eq`: how many questions a search needs, and what it finds.
* `fresh_not_mem`: a fresh name is never one of those to avoid.
* `fresh_isLeast`: a fresh name has the least free number, and the search for it ends.
-/

namespace Redex

/-- The numbers from `start` on for which the variant of a name need not be avoided. -/
def freeNumbers (name : String) (avoid : NameSet) (start : Nat) : Set Nat :=
  {k | start ≤ k ∧ numbered name k ∉ avoid}

/-- A search for a free number that gives up after so many questions. -/
def firstFreeWithin (name : String) (avoid : NameSet) : (questions number : Nat) → Option String
  | 0, _ => none
  | questions + 1, number =>
    if numbered name number ∈ avoid then firstFreeWithin name avoid questions (number + 1)
    else some (numbered name number)

def freshWithin (questions : Nat) (name : String) (avoid : NameSet) : Option String :=
  if name ∈ avoid then firstFreeWithin name avoid questions 1 else some name

section

variable {name : String} {avoid : NameSet} {start k count : Nat}

/-- What a search that goes on leaves to be found. -/
theorem freeNumbers_succ (taken : numbered name start ∈ avoid) :
    freeNumbers name avoid (start + 1) = freeNumbers name avoid start := by
  ext k
  constructor
  · rintro ⟨later, free⟩
    exact ⟨Nat.le_of_succ_le later, free⟩
  · rintro ⟨from_start, free⟩
    have ne : k ≠ start := by
      rintro rfl
      exact free taken
    exact ⟨by omega, free⟩

/-- Where a search that does not go on has arrived. -/
theorem isLeast_freeNumbers (free : numbered name start ∉ avoid) :
    IsLeast (freeNumbers name avoid start) start :=
  ⟨⟨Nat.le_refl start, free⟩, fun _ mem => mem.1⟩

/-- The search asks about every number up to the least free one, and about no other. -/
theorem firstFreeWithin_eq (least : IsLeast (freeNumbers name avoid start) k) (questions : Nat) :
    firstFreeWithin name avoid questions start =
      if k < start + questions then some (numbered name k) else none := by
  induction questions generalizing start with
  | zero =>
    have from_start : start ≤ k := least.1.1
    simp only [firstFreeWithin, Nat.add_zero, Nat.not_lt.2 from_start, ↓reduceIte]
  | succ questions ih =>
    by_cases taken : numbered name start ∈ avoid
    · have later : IsLeast (freeNumbers name avoid (start + 1)) k := by
        rw [freeNumbers_succ taken]
        exact least
      have same : start + 1 + questions = start + (questions + 1) := by omega
      simp only [firstFreeWithin, taken, ↓reduceIte, ih later, same]
    · have here : k = start := least.unique (isLeast_freeNumbers taken)
      have asked : start < start + (questions + 1) := by omega
      simp only [firstFreeWithin, taken, here, asked, ↓reduceIte]

/-- The number that is taken unasked is the one after those that were refused. -/
theorem firstFree_eq_getD (name : String) (avoid : NameSet) (tries number : Nat) :
    firstFree name avoid tries number =
      (firstFreeWithin name avoid tries number).getD (numbered name (number + tries)) := by
  induction tries generalizing number with
  | zero => rfl
  | succ tries ih =>
    have same : number + 1 + tries = number + (tries + 1) := by omega
    by_cases taken : numbered name number ∈ avoid
    · simp only [firstFree, firstFreeWithin, taken, ↓reduceIte, ih, same]
    · simp only [firstFree, firstFreeWithin, taken, ↓reduceIte, Option.getD_some]

/-- A set that has a name does not have as many of its variants as it has members. -/
theorem lt_size_of_numbered_mem (taken : name ∈ avoid)
    (refused : ∀ k, 1 ≤ k → k ≤ count → numbered name k ∈ avoid) : count < avoid.size := by
  let variants := (List.range' 1 count).map (numbered name)
  have distinct : (name :: variants).Nodup := by
    refine List.nodup_cons.2 ⟨?_, ?_⟩
    · intro mem
      obtain ⟨k, _, same⟩ := List.mem_map.1 mem
      exact numbered_ne name k same
    · have apart := List.nodup_range' (s := 1) (n := count)
      exact List.Pairwise.map _ (fun _ _ ne same => ne (numbered_injective same)) apart
  have inside : name :: variants ⊆ avoid.toList := by
    intro x mem
    rcases List.mem_cons.1 mem with same | mem
    · exact same ▸ taken
    · obtain ⟨k, bounds, same⟩ := List.mem_map.1 mem
      have range := List.mem_range'_1.1 bounds
      exact same ▸ refused k (by omega) (by omega)
  have fits := List.Nodup.length_le_of_subset distinct inside
  have length : (name :: variants).length = count + 1 := by simp [variants]
  have size : avoid.toList.length = avoid.size := rfl
  omega

/-- The variants with the first numbers are different names, and the set has too few members for all
of them. -/
theorem exists_isLeast_freeNumbers (taken : name ∈ avoid) :
    ∃ number ≤ avoid.size, IsLeast (freeNumbers name avoid 1) number := by
  obtain ⟨k, bound, free⟩ : ∃ k ≤ avoid.size, k ∈ freeNumbers name avoid 1 := by
    by_contra allTaken
    apply Nat.lt_irrefl avoid.size
    apply lt_size_of_numbered_mem taken
    intro k positive bound
    by_contra free
    exact allTaken ⟨k, bound, positive, free⟩
  classical
  have least := Set.Nonempty.isLeast_natFind ⟨k, free⟩
  exact ⟨_, Nat.le_trans (least.2 free) bound, least⟩

theorem freshWithin_of_mem (taken : name ∈ avoid) (least : IsLeast (freeNumbers name avoid 1) k)
    (questions : Nat) :
    freshWithin questions name avoid = if k ≤ questions then some (numbered name k) else none := by
  have same : k < 1 + questions ↔ k ≤ questions := by omega
  simp only [freshWithin, taken, ↓reduceIte, firstFreeWithin_eq least, same]

theorem fresh_of_mem (taken : name ∈ avoid) :
    ∃ number ≤ avoid.size, IsLeast (freeNumbers name avoid 1) number ∧
      fresh name avoid = numbered name number := by
  obtain ⟨number, bound, least⟩ := exists_isLeast_freeNumbers taken
  refine ⟨number, bound, least, ?_⟩
  -- the set is asked about the least free number, so none is taken unasked
  have asked : number < 1 + avoid.size := by omega
  simp only [fresh, taken, ↓reduceIte, firstFree_eq_getD, firstFreeWithin_eq least, asked,
    Option.getD_some]

/-- The set is asked often enough for its answers to be relied on. -/
theorem fresh_not_mem (name : String) (avoid : NameSet) : fresh name avoid ∉ avoid := by
  by_cases taken : name ∈ avoid
  · obtain ⟨number, _, least, same⟩ := fresh_of_mem taken
    rw [same]
    exact least.1.2
  · rw [fresh_of_not_mem taken]
    exact taken

end

/-- **A fresh name has the least free number.** The search for it ends after no more questions than
there are names to avoid, and the name that it finds need not be avoided. A name that can stay does
so. Any other is followed by a number in decimal digits, the least from one on for which the result
is not in the set; the search takes that many questions, and fewer do not do. -/
theorem fresh_isLeast (name : String) (avoid : NameSet) :
    (∀ questions, avoid.size ≤ questions →
        freshWithin questions name avoid = some (fresh name avoid)) ∧
      fresh name avoid ∉ avoid ∧
      (name ∉ avoid → fresh name avoid = name) ∧
      (name ∈ avoid → ∃ number ≤ avoid.size,
        IsLeast (freeNumbers name avoid 1) number ∧
          fresh name avoid = name ++ toString number ∧
          ∀ questions, freshWithin questions name avoid =
            if number ≤ questions then some (fresh name avoid) else none) := by
  refine ⟨?_, fresh_not_mem name avoid, fresh_of_not_mem, ?_⟩
  · intro questions enough
    by_cases taken : name ∈ avoid
    · obtain ⟨number, bound, least, same⟩ := fresh_of_mem taken
      have asked : number ≤ questions := Nat.le_trans bound enough
      simp only [freshWithin_of_mem taken least, asked, ↓reduceIte, same]
    · simp only [freshWithin, taken, ↓reduceIte, fresh_of_not_mem taken]
  · intro taken
    obtain ⟨number, bound, least, same⟩ := fresh_of_mem taken
    refine ⟨number, bound, least, ?_, ?_⟩
    · rw [same, numbered_eq_append]
    · intro questions
      rw [freshWithin_of_mem taken least, same]

/-- The name ends in a digit, and every name of the set is in the way: the number is as large as it
can be. -/
theorem fresh_isLeast_crowded :
    let avoid := ((NameSet.singleton "a1").insert "a12").insert "a11"
    avoid.size ≤ 3 ∧ freshWithin 3 "a1" avoid = some (fresh "a1" avoid) ∧
      "a" ∉ avoid ∧ fresh "a" avoid = "a" ∧
      "a1" ∈ avoid ∧ fresh "a1" avoid = "a13" ∧
      ∃ number ≤ 3, IsLeast (freeNumbers "a1" avoid 1) number ∧
        fresh "a1" avoid = "a1" ++ toString number ∧
        ∀ questions, freshWithin questions "a1" avoid =
          if number ≤ questions then some (fresh "a1" avoid) else none := by
  intro avoid
  have size : avoid.size ≤ 3 := by cbv
  have stays : "a" ∉ avoid := by simp [avoid]
  have taken : "a1" ∈ avoid := by simp [avoid]
  obtain ⟨ends, -, -, numbers⟩ := fresh_isLeast "a1" avoid
  obtain ⟨-, -, same, -⟩ := fresh_isLeast "a" avoid
  obtain ⟨number, bound, rest⟩ := numbers taken
  exact ⟨size, ends 3 size, stays, same stays, taken, by cbv, number, Nat.le_trans bound size, rest⟩

end Redex
