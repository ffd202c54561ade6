import Redex.Proofs.Text.Pairs

/-!
# Pairs that are kept

Two texts can have the same pairs of parentheses, although these stand in other places: what one
text has more than the other was put in between. A balanced part that is put in keeps all pairs,
and so does a pair that is put around one.

* `Text.KeepsPairs.symm`: pairs that are kept one way are kept the other way.
* `Text.keepsPairs_insert`, `Text.keepsPairs_parenthesize`: what is put in adds a pair at most.
-/

namespace Redex

/-- Where a character stands when those at some positions were taken out, if it is not one of
them. -/
def closedUp (taken : List Nat) (i : Nat) : Option Nat :=
  if i ∈ taken then none else some (i - taken.countP (· < i))

/-- Where a character stands when one was put in at a position and then one at a later one. -/
def pushedApart (pos stop i : Nat) : Nat := pushedBack stop 1 (pushedBack pos 1 i)

/-- A pair around a part pushes back what is behind the part by two, -/
theorem pushedApart_pushedBack (pos count i : Nat) :
    pushedApart pos (pos + 1 + count) (pushedBack pos count i) = pushedBack pos (count + 2) i := by
  unfold pushedApart pushedBack
  grind

/-- and what is in the part by one. -/
theorem pushedApart_add {pos count k : Nat} (within : k < count) :
    pushedApart pos (pos + 1 + count) (pos + k) = pos + (1 + k) := by
  unfold pushedApart pushedBack
  grind

theorem pushedApart_ne (pos count i : Nat) :
    pushedApart pos (pos + 1 + count) i ≠ pos ∧
      pushedApart pos (pos + 1 + count) i ≠ pos + 1 + count := by
  unfold pushedApart pushedBack
  grind

theorem closedUp_eq_some_iff {taken : List Nat} {i j : Nat} :
    closedUp taken i = some j ↔ i ∉ taken ∧ i - taken.countP (· < i) = j := by
  unfold closedUp
  split <;> simp_all

theorem closedUp_singleton {pos i i' : Nat} :
    closedUp [pos] i' = some i ↔ pushedBack pos 1 i = i' := by
  rw [closedUp_eq_some_iff]
  unfold pushedBack
  grind

theorem closedUp_pair {pos count i i' : Nat} :
    closedUp [pos, pos + 1 + count] i' = some i ↔ pushedApart pos (pos + 1 + count) i = i' := by
  rw [closedUp_eq_some_iff]
  unfold pushedApart pushedBack
  grind

namespace Text

/-- Whether the pairs of a text are those of an earlier one, but for one that may be lost and one
that may be gained. What both texts have stands in the later one where `place` says. -/
structure KeepsPairs (before after : Text) (place : Nat → Option Nat)
    (lost gained : Option (Nat × Nat)) : Prop where
  char : ∀ i i', place i = some i' → after[i']? = before[i]?
  /-- The pairs that there were are the one that is lost and those that are kept. -/
  before_iff : ∀ i j, before.IsPair i j ↔ lost = some (i, j) ∨
    ∃ i' j', place i = some i' ∧ place j = some j' ∧ after.IsPair i' j'
  /-- The pairs that there are now are the one that is gained and those that are kept. -/
  after_iff : ∀ i' j', after.IsPair i' j' ↔ gained = some (i', j') ∨
    ∃ i j, place i = some i' ∧ place j = some j' ∧ before.IsPair i j
  lost_gone : ∀ i j, lost = some (i, j) → place i = none ∧ place j = none
  gained_new : ∀ i' j', gained = some (i', j') → ∀ i, place i ≠ some i' ∧ place i ≠ some j'

section

variable {before after left inside right : Text} {place back : Nat → Option Nat}
  {lost gained own : Option (Nat × Nat)} {i j : Nat}

/-- What takes an edit back gains the pair that the edit has lost, and loses the one that it has
gained. -/
theorem KeepsPairs.symm (keeps : KeepsPairs before after place lost gained)
    (inverse : ∀ i' i, back i' = some i ↔ place i = some i') :
    KeepsPairs after before back gained lost where
  char i' i returns := (keeps.char i i' ((inverse i' i).1 returns)).symm
  before_iff i' j' := by simpa only [inverse] using keeps.after_iff i' j'
  after_iff i j := by simpa only [inverse] using keeps.before_iff i j
  lost_gone i' j' isGained := by
    simp only [Option.eq_none_iff_forall_ne_some, ne_eq, inverse]
    exact ⟨fun i => (keeps.gained_new i' j' isGained i).1,
      fun i => (keeps.gained_new i' j' isGained i).2⟩
  gained_new i j isLost i' := by
    simp only [ne_eq, inverse, keeps.lost_gone i j isLost]
    exact ⟨nofun, nofun⟩

theorem not_isPair_of_length_le (short : before.length ≤ 1) : ¬ before.IsPair i j := by
  intro pair
  have bounds := pair.bounds
  omega

theorem isPair_pair : IsPair ['(', ')'] i j ↔ i = 0 ∧ j = 1 := by
  constructor
  · intro pair
    have bounds : i < j ∧ j < 2 := pair.bounds
    omega
  · rintro ⟨rfl, rfl⟩
    decide

/-- The pairs of a parenthesised text are its own and the one around them. -/
theorem isPair_parenthesized (balanced : inside.isBalanced = true) :
    IsPair ('(' :: (inside ++ [')'])) i j ↔
      i = 0 ∧ j = inside.length + 1 ∨ ∃ i' j', 1 + i' = i ∧ 1 + j' = j ∧ inside.IsPair i' j' := by
  have split : IsPair (['('] ++ (inside ++ [')'])) i j ↔ _ := isPair_insert balanced
  have back : pushedBack 1 inside.length 1 = inside.length + 1 :=
    (pushedBack_of_le (Nat.le_refl 1)).trans (Nat.add_comm 1 _)
  refine split.trans (or_congr_left ⟨?_, ?_⟩)
  · rintro ⟨i', j', rfl, rfl, pair⟩
    obtain ⟨rfl, rfl⟩ := isPair_pair.1 pair
    exact ⟨rfl, back⟩
  · rintro ⟨rfl, rfl⟩
    exact ⟨0, 1, rfl, back, isPair_pair.2 ⟨rfl, rfl⟩⟩

/-- Where nothing is taken out, it is enough to know the pairs of the later text. -/
theorem keepsPairs_of_injective {place : Nat → Nat}
    (injective : ∀ i j, place i = place j → i = j)
    (char : ∀ i, after[place i]? = before[i]?)
    (pairs : ∀ i' j', after.IsPair i' j' ↔ gained = some (i', j') ∨
      ∃ i j, place i = i' ∧ place j = j' ∧ before.IsPair i j)
    (new : ∀ i' j', gained = some (i', j') → ∀ i, place i ≠ i' ∧ place i ≠ j') :
    KeepsPairs before after (fun i => some (place i)) none gained where
  char := by
    rintro i _ ⟨⟩
    exact char i
  before_iff i j := by
    simp only [reduceCtorEq, false_or, Option.some_inj]
    constructor
    · intro pair
      exact ⟨_, _, rfl, rfl, (pairs _ _).2 (.inr ⟨i, j, rfl, rfl, pair⟩)⟩
    · rintro ⟨_, _, rfl, rfl, pair⟩
      rcases (pairs _ _).1 pair with isNew | ⟨i', j', same, same', old⟩
      · exact absurd rfl (new _ _ isNew i).1
      · rwa [injective i' i same, injective j' j same'] at old
  after_iff i' j' := by simpa only [Option.some_inj] using pairs i' j'
  lost_gone := nofun
  gained_new i' j' isGained i := by simpa only [ne_eq, Option.some_inj] using new i' j' isGained i

theorem keepsPairs_insert (balanced : inside.isBalanced = true)
    (pairs : ∀ i j, inside.IsPair i j ↔ own = some (i, j)) :
    KeepsPairs (left ++ right) (left ++ (inside ++ right))
      (fun i => some (pushedBack left.length inside.length i)) none
      (own.map fun pair => (left.length + pair.1, left.length + pair.2)) := by
  apply keepsPairs_of_injective
  · exact fun i j same => pushedBack_injective same
  · exact getElem?_insert left inside right
  · intro i' j'
    rw [isPair_insert balanced, or_comm]
    refine or_congr_left ⟨?_, ?_⟩
    · rintro ⟨i, j, rfl, rfl, pair⟩
      rw [(pairs i j).1 pair]
      rfl
    · intro isNew
      obtain ⟨⟨i, j⟩, isOwn, same⟩ := Option.map_eq_some_iff.1 isNew
      cases same
      exact ⟨i, j, rfl, rfl, (pairs i j).2 isOwn⟩
  · intro i' j' isNew i
    obtain ⟨⟨k, l⟩, isOwn, same⟩ := Option.map_eq_some_iff.1 isNew
    cases same
    have bounds := ((pairs k l).2 isOwn).bounds
    exact ⟨pushedBack_ne (by omega) i, pushedBack_ne (by omega) i⟩

theorem getElem?_parenthesize (left inside right : Text) (i : Nat) :
    (left ++ '(' :: (inside ++ ')' :: right))[pushedApart left.length
      (left.length + 1 + inside.length) i]? = (left ++ (inside ++ right))[i]? := by
  have first := getElem?_insert left ['('] (inside ++ right) i
  have second := getElem?_insert (left ++ '(' :: inside) [')'] right (pushedBack left.length 1 i)
  have length : (left ++ '(' :: inside).length = left.length + 1 + inside.length := by
    rw [List.length_append, List.length_cons]
    omega
  rw [length] at second
  simp only [List.append_assoc, List.cons_append, List.nil_append] at first second
  exact second.trans first

theorem keepsPairs_parenthesize (balanced : inside.isBalanced = true) :
    KeepsPairs (left ++ (inside ++ right)) (left ++ '(' :: (inside ++ ')' :: right))
      (fun i => some (pushedApart left.length (left.length + 1 + inside.length) i)) none
      (some (left.length, left.length + 1 + inside.length)) := by
  have whole : left ++ '(' :: (inside ++ ')' :: right) =
      left ++ (('(' :: (inside ++ [')'])) ++ right) := by simp
  have length : ('(' :: (inside ++ [')'])).length = inside.length + 2 := by simp
  apply keepsPairs_of_injective
  · exact fun i j same => pushedBack_injective (pushedBack_injective same)
  · exact getElem?_parenthesize left inside right
  · intro i' j'
    rw [whole, isPair_insert (isBalanced_parenthesized balanced), length]
    constructor
    · rintro (⟨i, j, rfl, rfl, outer⟩ | ⟨i, j, rfl, rfl, pair⟩)
      · refine .inr ⟨_, _, pushedApart_pushedBack _ _ i, pushedApart_pushedBack _ _ j, ?_⟩
        exact (isPair_insert balanced).2 (.inl ⟨i, j, rfl, rfl, outer⟩)
      rcases (isPair_parenthesized balanced).1 pair with ⟨rfl, rfl⟩ | ⟨i, j, rfl, rfl, inner⟩
      · exact .inl (congrArg (fun stop => some (left.length, stop)) (by omega))
      · have bounds := inner.bounds
        refine .inr ⟨left.length + i, left.length + j, pushedApart_add (by omega),
          pushedApart_add (by omega), ?_⟩
        exact (isPair_insert balanced).2 (.inr ⟨i, j, rfl, rfl, inner⟩)
    · rintro (isNew | ⟨i, j, rfl, rfl, pair⟩)
      · cases isNew
        refine .inr ⟨0, inside.length + 1, rfl, by omega, ?_⟩
        exact (isPair_parenthesized balanced).2 (.inl ⟨rfl, rfl⟩)
      rcases (isPair_insert balanced).1 pair with ⟨i, j, rfl, rfl, outer⟩ | ⟨i, j, rfl, rfl, inner⟩
      · exact .inl ⟨i, j, (pushedApart_pushedBack _ _ i).symm,
          (pushedApart_pushedBack _ _ j).symm, outer⟩
      · have bounds := inner.bounds
        refine .inr ⟨1 + i, 1 + j, (pushedApart_add (by omega)).symm,
          (pushedApart_add (by omega)).symm, ?_⟩
        exact (isPair_parenthesized balanced).2 (.inr ⟨i, j, rfl, rfl, inner⟩)
  · rintro _ _ ⟨⟩ i
    exact pushedApart_ne _ _ i

theorem keepsPairs_refl (text : Text) : KeepsPairs text text (closedUp []) none none where
  char := by
    rintro i _ ⟨⟩
    rfl
  before_iff i j := by simp [closedUp]
  after_iff i j := by simp [closedUp]
  lost_gone := nofun
  gained_new := nofun

end

end Text

end Redex
