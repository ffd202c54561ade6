import Redex.Proofs.Text.Brackets

/-!
# Pairs of parentheses

An opening parenthesis and its partner are a pair. A balanced text that is put into another one
adds its own pairs to those that are there, and all it does to these is to push what stands behind
it further back.

* `Text.closing?_insert`: the partner of a parenthesis around a balanced part.
* `Text.closing?_inside`: the partner of a parenthesis in a balanced part.
* `Text.isPair_insert`: which pairs there are around and in a balanced part.
-/

namespace Redex

/-- Where a character stands when so many others were put in at a position. -/
def pushedBack (pos count i : Nat) : Nat := if i < pos then i else i + count

theorem pushedBack_of_lt {pos count i : Nat} (before : i < pos) : pushedBack pos count i = i :=
  if_pos before

theorem pushedBack_of_le {pos count i : Nat} (behind : pos ≤ i) :
    pushedBack pos count i = i + count := if_neg (Nat.not_lt_of_le behind)

theorem pushedBack_injective {pos count i j : Nat}
    (same : pushedBack pos count i = pushedBack pos count j) : i = j := by
  unfold pushedBack at same
  split at same <;> split at same <;> omega

/-- What is put in stands where nothing else does. -/
theorem pushedBack_ne {pos count k : Nat} (within : k < count) (i : Nat) :
    pushedBack pos count i ≠ pos + k := by
  unfold pushedBack
  split <;> omega

namespace Text

/-- Whether the parenthesis that is opened at one position is closed at the other. -/
def IsPair (text : Text) (opened closed : Nat) : Prop :=
  text[opened]? = some '(' ∧ text.closing? opened = some closed

instance (text : Text) (opened closed : Nat) : Decidable (text.IsPair opened closed) :=
  inferInstanceAs (Decidable (_ ∧ _))

section

variable {depth pos stop i j : Nat} {left inside right text : Text}

theorem closingFrom_add (count : Nat) :
    closingFrom (pos + count) depth text = (closingFrom pos depth text).map (· + count) := by
  induction text generalizing pos depth with
  | nil => rfl
  | cons c rest ih =>
    rw [closingFrom, closingFrom]
    cases Redex.depthAfter? depth c with
    | none => rfl
    | some next =>
      dsimp only
      rw [← ih, Nat.add_right_comm]

theorem closingFrom_bounds (closes : closingFrom pos depth text = some stop) :
    pos ≤ stop ∧ stop < pos + text.length := by
  induction text generalizing pos depth with
  | nil => cases closes
  | cons c rest ih =>
    rw [closingFrom] at closes
    rw [List.length_cons]
    cases step : Redex.depthAfter? depth c with
    | none =>
      rw [step] at closes
      cases closes
      omega
    | some next =>
      rw [step] at closes
      have bounds := ih closes
      omega

/-- What is closed in a text is closed there whatever comes behind it. -/
theorem closingFrom_append_right (closes : closingFrom pos depth text = some stop) :
    closingFrom pos depth (text ++ right) = some stop := by
  induction text generalizing pos depth with
  | nil => cases closes
  | cons c rest ih =>
    rw [closingFrom] at closes
    rw [List.cons_append, closingFrom]
    cases step : Redex.depthAfter? depth c with
    | none =>
      rw [step] at closes
      exact closes
    | some next =>
      rw [step] at closes
      exact ih closes

theorem closingFrom_insert (balanced : inside.isBalanced = true) :
    closingFrom pos depth (left ++ (inside ++ right)) =
      (closingFrom pos depth (left ++ right)).map
        (pushedBack (pos + left.length) inside.length) := by
  induction left generalizing pos depth with
  | nil =>
    have kept := depthAfter?_of_isBalanced balanced depth
    rw [List.nil_append, List.nil_append, closingFrom_append kept, closingFrom_add]
    apply Option.map_congr
    intro stop closes
    exact (pushedBack_of_le (closingFrom_bounds closes).1).symm
  | cons c rest ih =>
    rw [List.cons_append, List.cons_append, closingFrom, closingFrom]
    cases Redex.depthAfter? depth c with
    | none =>
      have first : pos < pos + (c :: rest).length := by
        rw [List.length_cons]
        omega
      exact congrArg some (pushedBack_of_lt first).symm
    | some next =>
      dsimp only
      rw [ih, List.length_cons, Nat.add_assoc, Nat.add_comm 1]

theorem IsPair.bounds (pair : text.IsPair i j) : i < j ∧ j < text.length := by
  obtain ⟨opening, closes⟩ := pair
  have inText := (List.getElem?_eq_some_iff.1 opening).1
  rw [closing?_of_lt inText] at closes
  have bounds := closingFrom_bounds closes
  rw [List.length_drop] at bounds
  omega

/-- In a balanced text every parenthesis that is opened is closed. -/
theorem exists_isPair (balanced : text.isBalanced = true) (opening : text[i]? = some '(') :
    ∃ j, text.IsPair i j := by
  have closes : closing? (text ++ []) i ≠ none :=
    closing?_ne_none_of_isBalanced balanced opening
  rw [List.append_nil] at closes
  obtain ⟨j, closes⟩ := Option.ne_none_iff_exists'.1 closes
  exact ⟨j, opening, closes⟩

theorem getElem?_insert (left inside right : Text) (i : Nat) :
    (left ++ (inside ++ right))[pushedBack left.length inside.length i]? = (left ++ right)[i]? := by
  by_cases before : i < left.length
  · rw [pushedBack_of_lt before, List.getElem?_append_left before, List.getElem?_append_left before]
  · have behind := Nat.le_of_not_lt before
    rw [pushedBack_of_le behind, List.getElem?_append_right (by omega),
      List.getElem?_append_right (by omega), List.getElem?_append_right behind]
    congr 1
    omega

/-- Text that is balanced in itself does not come between partners. -/
theorem closing?_insert (balanced : inside.isBalanced = true)
    (within : i < (left ++ right).length) :
    closing? (left ++ (inside ++ right)) (pushedBack left.length inside.length i) =
      (closing? (left ++ right) i).map (pushedBack left.length inside.length) := by
  have pushed : pushedBack left.length inside.length i < (left ++ (inside ++ right)).length := by
    unfold pushedBack
    simp only [List.length_append] at within ⊢
    split <;> omega
  rw [closing?_of_lt pushed, closing?_of_lt within]
  by_cases before : i < left.length
  · have reached : i + 1 + (left.drop (i + 1)).length = left.length := by
      rw [List.length_drop]
      omega
    rw [pushedBack_of_lt before, List.drop_append_of_le_length before,
      List.drop_append_of_le_length before, closingFrom_insert balanced, reached]
  · obtain ⟨k, rfl⟩ := Nat.exists_eq_add_of_le (Nat.le_of_not_lt before)
    have dropped : (left ++ (inside ++ right)).drop (left.length + k + inside.length + 1) =
        (left ++ right).drop (left.length + k + 1) := by
      have around : left.length + k + inside.length + 1 =
          left.length + (inside.length + (k + 1)) := by omega
      rw [around, List.drop_length_add_append, List.drop_length_add_append, Nat.add_assoc,
        List.drop_length_add_append]
    rw [pushedBack_of_le (Nat.le_add_right _ _), dropped, Nat.add_right_comm, closingFrom_add]
    apply Option.map_congr
    intro stop closes
    have bounds := closingFrom_bounds closes
    exact (pushedBack_of_le (by omega)).symm

/-- Partners in a piece of a text are partners in the text. -/
theorem closing?_inside (closes : inside.closing? i = some j) (within : i < inside.length) :
    closing? (left ++ (inside ++ right)) (left.length + i) = some (left.length + j) := by
  have dropped : (left ++ (inside ++ right)).drop (left.length + i + 1) =
      inside.drop (i + 1) ++ right := by
    rw [Nat.add_assoc, List.drop_length_add_append, List.drop_append_of_le_length within]
  have start : left.length + i + 1 = i + 1 + left.length := by omega
  have whole : left.length + i < (left ++ (inside ++ right)).length := by
    simp only [List.length_append]
    omega
  rw [closing?_of_lt within] at closes
  rw [closing?_of_lt whole, dropped, start, closingFrom_add, closingFrom_append_right closes,
    Option.map_some, Nat.add_comm]

/-- The pairs of a text with a balanced part are those of the text without it, pushed back where
they stand behind it, and those of the part. -/
theorem isPair_insert (balanced : inside.isBalanced = true) :
    (left ++ (inside ++ right)).IsPair i j ↔
      (∃ i' j', pushedBack left.length inside.length i' = i ∧
        pushedBack left.length inside.length j' = j ∧ (left ++ right).IsPair i' j') ∨
      ∃ i' j', left.length + i' = i ∧ left.length + j' = j ∧ inside.IsPair i' j' := by
  have around (i' : Nat) (here : pushedBack left.length inside.length i' = i)
      (pair : (left ++ (inside ++ right)).IsPair i j) :
      ∃ i' j', pushedBack left.length inside.length i' = i ∧
        pushedBack left.length inside.length j' = j ∧ (left ++ right).IsPair i' j' := by
    subst here
    obtain ⟨opening, closes⟩ := pair
    rw [getElem?_insert] at opening
    rw [closing?_insert balanced (List.getElem?_eq_some_iff.1 opening).1] at closes
    obtain ⟨j', outer, rfl⟩ := Option.map_eq_some_iff.1 closes
    exact ⟨i', j', rfl, rfl, opening, outer⟩
  constructor
  · intro pair
    by_cases before : i < left.length
    · exact .inl (around i (pushedBack_of_lt before) pair)
    obtain ⟨k, rfl⟩ := Nat.exists_eq_add_of_le (Nat.le_of_not_lt before)
    by_cases within : k < inside.length
    · have opening : inside[k]? = some '(' := by
        have here := pair.1
        rwa [List.getElem?_append_right (Nat.le_add_right _ _), Nat.add_sub_cancel_left,
          List.getElem?_append_left within] at here
      obtain ⟨j', inner⟩ := exists_isPair balanced opening
      have closes := pair.2
      rw [closing?_inside inner.2 within] at closes
      exact .inr ⟨k, j', rfl, Option.some.inj closes, inner⟩
    · apply Or.inl
      apply around (left.length + (k - inside.length)) _ pair
      rw [pushedBack_of_le (Nat.le_add_right _ _)]
      omega
  · rintro (⟨i', j', rfl, rfl, opening, closes⟩ | ⟨i', j', rfl, rfl, opening, closes⟩)
    · refine ⟨(getElem?_insert left inside right i').trans opening, ?_⟩
      rw [closing?_insert balanced (List.getElem?_eq_some_iff.1 opening).1, closes, Option.map_some]
    · have within := (List.getElem?_eq_some_iff.1 opening).1
      refine ⟨?_, closing?_inside closes within⟩
      rw [List.getElem?_append_right (Nat.le_add_right _ _), Nat.add_sub_cancel_left,
        List.getElem?_append_left within]
      exact opening

end

end Text

end Redex
