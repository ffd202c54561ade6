import Redex.Proofs.Text.Pairs
import Mathlib.Data.Set.Function

/-!
# Partners and balance

What is balanced and which parenthesis closes which are found by two different counts. They tell of
one and the same pairing: between partners there is balanced text and nothing else, and a text is
balanced if partners are everything that its parentheses have.

* `Text.closing?_eq_some_iff`: the partner of a parenthesis, told by the balance of what is between.
* `Text.exists_unclosed`: what is open after a text was opened somewhere in it.
* `Text.IsPair.opened_unique`: a parenthesis closes one other only.
* `Text.bijOn_of_isBalanced`, `Text.isBalanced_of_bijOn`, `Text.partners_of_balance`: balance as a
  bijection.
* `Text.closing?_greatest_word`: the one number of a position that has a partner elsewhere.
-/

namespace Redex

namespace Text

section

variable {pos depth start i i' j : Nat} {left inside right text : Text}

/-- The search stops at the first closing parenthesis that what is before it leaves over. -/
theorem closingFrom_eq_some_iff :
    closingFrom pos depth text = some j ↔
      ∃ inside right, text = inside ++ ')' :: right ∧ depthAfter? depth inside = some 0 ∧
        pos + inside.length = j := by
  have closed (inside right : Text) (after : depthAfter? depth inside = some 0) :
      closingFrom pos depth (inside ++ ')' :: right) = some (pos + inside.length) := by
    rw [closingFrom_append after]
    rfl
  constructor
  · intro closes
    cases after : depthAfter? depth text with
    | some next =>
      have stays : closingFrom pos depth (text ++ []) = none := closingFrom_append after
      rw [List.append_nil, closes] at stays
      cases stays
    | none =>
      obtain ⟨inside, right, rfl, balanced⟩ := exists_unmatched after
      rw [closed inside right balanced] at closes
      exact ⟨inside, right, rfl, balanced, Option.some.inj closes⟩
  · rintro ⟨inside, right, rfl, after, rfl⟩
    exact closed inside right after

theorem closingFrom_drop_eq_some_iff :
    closingFrom (start + 1) 0 (text.drop (start + 1)) = some j ↔
      start < j ∧ text[j]? = some ')' ∧ (text.slice ⟨start + 1, j⟩).isBalanced = true := by
  rw [closingFrom_eq_some_iff]
  constructor
  · rintro ⟨inside, right, rest, closes, rfl⟩
    refine ⟨by omega, ?_, ?_⟩
    · rw [← List.getElem?_drop, rest]
      simp
    · rw [slice, rest, Nat.add_sub_cancel_left, List.take_left]
      exact isBalanced_iff.2 closes
  · rintro ⟨later, closing, balanced⟩
    obtain ⟨bound, char⟩ := List.getElem?_eq_some_iff.1 closing
    refine ⟨text.slice ⟨start + 1, j⟩, text.drop (j + 1), ?_, isBalanced_iff.1 balanced, ?_⟩
    · rw [← char, ← List.drop_eq_getElem_cons bound, slice_append_drop text later]
    · rw [length_slice (Nat.le_of_lt bound)]
      exact Nat.add_sub_of_le later

/-- The partner of a position is told by the balance of what is between, wherever the number of the
position has a successor. -/
theorem closing?_eq_some_iff (small : start < UInt64.size - 1) :
    text.closing? start = some j ↔
      start < j ∧ text[j]? = some ')' ∧ (text.slice ⟨start + 1, j⟩).isBalanced = true := by
  rw [closing?_of_lt_word text small, closingFrom_drop_eq_some_iff]

/-- Positions of the text have a successor in any case. -/
theorem closing?_eq_some_iff_of_lt (within : start < text.length) :
    text.closing? start = some j ↔
      start < j ∧ text[j]? = some ')' ∧ (text.slice ⟨start + 1, j⟩).isBalanced = true := by
  rw [closing?_of_lt within, closingFrom_drop_eq_some_iff]

theorem IsPair.closes (pair : text.IsPair i j) :
    i < j ∧ text[j]? = some ')' ∧ (text.slice ⟨i + 1, j⟩).isBalanced = true :=
  (closing?_eq_some_iff_of_lt (List.getElem?_eq_some_iff.1 pair.1).1).1 pair.2

/-- Where parentheses are open after a text, one was opened last. -/
theorem exists_unclosed (opened : depthAfter? 0 text = some (depth + 1)) :
    ∃ left inside : Text, text = left ++ '(' :: inside ∧ inside.isBalanced = true ∧
      depthAfter? 0 left = some depth := by
  generalize size : text.length = n
  induction n using Nat.strongRecOn generalizing text depth with
  | ind n ih =>
    subst size
    rcases List.eq_nil_or_concat text with rfl | ⟨front, c, whole⟩
    · cases opened
    rw [List.concat_eq_append] at whole
    subst whole
    rw [depthAfter?_append] at opened
    obtain ⟨before, front_opened, step⟩ := Option.bind_eq_some_iff.1 opened
    simp only [depthAfter?_cons, depthAfter?_nil, Option.bind_fun_some] at step
    rw [Redex.depthAfter?_eq_some_iff] at step
    by_cases opening : c = '('
    · subst opening
      have same : before = depth := by simpa using step.symm
      exact ⟨front, [], rfl, rfl, same ▸ front_opened⟩
    by_cases closing : c = ')'
    · -- the parenthesis that it closes was opened last, and there is another one before that
      subst closing
      have same : before = depth + 1 + 1 := by simpa using step.symm
      subst same
      obtain ⟨left, inside, rfl, balanced, left_opened⟩ := ih _ (by simp) front_opened rfl
      obtain ⟨first, between, rfl, balancedFirst, first_opened⟩ := ih _ (by simp) left_opened rfl
      refine ⟨first, between ++ '(' :: (inside ++ [')']), by simp, ?_, first_opened⟩
      rw [isBalanced_append_left balancedFirst, isBalanced_parenthesized balanced]
    · have same : before = depth + 1 := by simpa [opening, closing] using step.symm
      subst same
      obtain ⟨left, inside, rfl, balanced, left_opened⟩ := ih _ (by simp) front_opened rfl
      refine ⟨left, inside ++ [c], by simp, ?_, left_opened⟩
      rw [isBalanced_append_left balanced, isBalanced_singleton opening closing]

/-- A parenthesis before a pair is not closed where the pair is: the one that is opened in the pair
would be left over in between. -/
theorem IsPair.not_closing (pair : text.IsPair i' j) (before : i < i') :
    text.closing? i ≠ some j := by
  intro closes
  obtain ⟨later, _, balanced⟩ := pair.closes
  have within : i < text.length := Nat.lt_trans before (Nat.lt_trans later pair.bounds.2)
  have whole := ((closing?_eq_some_iff_of_lt within).1 closes).2.2
  rw [← slice_append_slice text (Nat.succ_le_of_lt before) (Nat.le_of_lt later),
    slice_cons pair.1 later, isBalanced_unmatched (isBalanced_iff.1 balanced)] at whole
  cases whole

/-- A parenthesis closes one other only. -/
theorem IsPair.opened_unique (pair : text.IsPair i j) (other : text.IsPair i' j) : i = i' := by
  rcases Nat.lt_trichotomy i i' with before | same | behind
  · exact absurd pair.2 (other.not_closing before)
  · exact same
  · exact absurd other.2 (pair.not_closing behind)

/-- In a balanced text no closing parenthesis is without a partner. -/
theorem exists_isPair_of_closing (balanced : text.isBalanced = true)
    (closing : text[j]? = some ')') :
    ∃ i, text.IsPair i j := by
  obtain ⟨bound, char⟩ := List.getElem?_eq_some_iff.1 closing
  have split : text = text.take j ++ ')' :: text.drop (j + 1) := by
    rw [← char, ← List.drop_eq_getElem_cons bound, List.take_append_drop]
  have length : (text.take j).length = j := List.length_take_of_le (Nat.le_of_lt bound)
  rw [isBalanced_iff, split, depthAfter?_append] at balanced
  obtain ⟨depth, opened, rest⟩ := Option.bind_eq_some_iff.1 balanced
  cases depth with
  | zero => cases rest
  | succ depth =>
    obtain ⟨left, inside, front, balancedInside, _⟩ := exists_unclosed opened
    generalize text.drop (j + 1) = right at split
    rw [front, List.append_assoc, List.cons_append] at split
    rw [front, List.length_append, List.length_cons] at length
    subst split
    refine ⟨left.length, by simp, ?_⟩
    rw [closing?_matched balancedInside]
    congr 1
    omega

/-- The opening parentheses of a balanced text and the closing ones go together, one by one. -/
theorem bijOn_of_isBalanced (balanced : text.isBalanced = true) :
    Set.BijOn text.closing? {i | text[i]? = some '('} (some '' {j | text[j]? = some ')'}) := by
  refine ⟨?_, ?_, ?_⟩
  · intro i opening
    obtain ⟨j, pair⟩ := exists_isPair balanced opening
    exact ⟨j, pair.closes.2.1, pair.2.symm⟩
  · intro i opening i' opening' same
    obtain ⟨j, pair⟩ := exists_isPair balanced opening
    exact pair.opened_unique ⟨opening', same.symm.trans pair.2⟩
  · rintro _ ⟨j, closing, rfl⟩
    obtain ⟨i, pair⟩ := exists_isPair_of_closing balanced closing
    exact ⟨i, pair⟩

/-- A closing parenthesis that is left over would be the partner of one in the balanced part before
it, which has its partner there. -/
theorem depthAfter?_ne_none_of_surjOn
    (pairs : Set.SurjOn text.closing? {i | text[i]? = some '('}
      (some '' {j | text[j]? = some ')'})) :
    depthAfter? 0 text ≠ none := by
  intro after
  obtain ⟨inside, right, rfl, closes⟩ := exists_unmatched after
  have closing : (inside ++ ')' :: right)[inside.length]? = some ')' := by simp
  obtain ⟨i, opening, partner⟩ := pairs ⟨_, closing, rfl⟩
  have before := (IsPair.closes ⟨opening, partner⟩).1
  have opening : inside[i]? = some '(' := (List.getElem?_append_left before).symm.trans opening
  obtain ⟨j, pair⟩ := exists_isPair (isBalanced_iff.2 closes) opening
  have own : closing? ([] ++ (inside ++ ')' :: right)) (([] : Text).length + i) = some _ :=
    closing?_inside pair.2 before
  have bounds := pair.bounds
  simp only [List.nil_append, List.length_nil, Nat.zero_add, partner] at own
  cases own
  omega

theorem isBalanced_of_bijOn
    (pairs : Set.BijOn text.closing? {i | text[i]? = some '('}
      (some '' {j | text[j]? = some ')'})) :
    text.isBalanced = true := by
  cases after : depthAfter? 0 text with
  | none => exact absurd after (depthAfter?_ne_none_of_surjOn pairs.surjOn)
  | some depth =>
    cases depth with
    | zero => exact isBalanced_iff.2 after
    | succ depth =>
      obtain ⟨left, inside, rfl, balanced, _⟩ := exists_unclosed after
      have opening : (left ++ '(' :: inside)[left.length]? = some '(' := by simp
      obtain ⟨j, _, partner⟩ := pairs.mapsTo opening
      rw [closing?_unmatched (isBalanced_iff.1 balanced)] at partner
      cases partner

end

/-- **Balance is the existence of partners.** The partner of a position is the closing parenthesis
with balanced text in between, and there is at most one, unless the number of the position is the
greatest that there is. A text is balanced if and only if this gives each of its opening parentheses
a partner, no two the same, and leaves no closing one over. -/
theorem partners_of_balance (text : Text) :
    (∀ start < UInt64.size - 1, ∀ j, text.closing? start = some j ↔
      start < j ∧ text[j]? = some ')' ∧ (text.slice ⟨start + 1, j⟩).isBalanced = true) ∧
    (∀ start, {j | start < j ∧ text[j]? = some ')' ∧
      (text.slice ⟨start + 1, j⟩).isBalanced = true}.Subsingleton) ∧
    (text.isBalanced = true ↔
      Set.BijOn text.closing? {i | text[i]? = some '('} (some '' {j | text[j]? = some ')'})) := by
  refine ⟨fun start small j => closing?_eq_some_iff small, ?_, bijOn_of_isBalanced,
    isBalanced_of_bijOn⟩
  intro start j closes j' closes'
  have partner := closingFrom_drop_eq_some_iff.2 closes
  rw [closingFrom_drop_eq_some_iff.2 closes'] at partner
  exact (Option.some.inj partner).symm

/-- A parenthesis inside another one, a closer that is left over, and a position far behind the end,
the last one that the numbers leave room to look behind. -/
theorem partners_of_balance_nested :
    let text : Text := "((a)b))".toList
    0 < UInt64.size - 1 ∧ text.closing? 0 = some 5 ∧
      UInt64.size - 2 < UInt64.size - 1 ∧ ∀ j, text.closing? (UInt64.size - 2) ≠ some j := by
  intro text
  obtain ⟨partners, -, -⟩ := partners_of_balance text
  refine ⟨by decide, (partners 0 (by decide) 5).2 (by decide), by decide, fun j closes => ?_⟩
  obtain ⟨behind, closing, -⟩ := (partners (UInt64.size - 2) (by decide) j).1 closes
  have within := (List.getElem?_eq_some_iff.1 closing).1
  have length : text.length = 7 := rfl
  have far : text.length ≤ UInt64.size - 2 := by decide
  omega

/-- What follows the greatest number is zero, so the search that begins there finds a parenthesis at
the start of the text. -/
theorem closing?_greatest_word :
    closing? [')'] (UInt64.size - 1) = some 0 ∧
      ¬ ∀ (text : Text) (start : Nat), start < UInt64.size → ∀ j, text.closing? start = some j ↔
        start < j ∧ text[j]? = some ')' ∧ (text.slice ⟨start + 1, j⟩).isBalanced = true := by
  have found : closing? [')'] (UInt64.size - 1) = some 0 := by decide
  refine ⟨found, fun partners => ?_⟩
  have behind := ((partners [')'] (UInt64.size - 1) (by decide) 0).1 found).1
  exact absurd behind (by decide)

/-- As many parentheses are closed as are opened, but none has a partner. -/
example : isBalanced [')', 'x', '('] = false ∧ closing? [')', 'x', '('] 2 = none := by decide

end Text

end Redex
