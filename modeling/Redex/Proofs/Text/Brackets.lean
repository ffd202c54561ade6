import Redex.Glyph
import Redex.Text.Brackets

/-!
# Depths

The depth after a text says how many more parentheses it opens than it closes, if it closes none
that is not open. A balanced text leaves every depth as it is, so that it can be put anywhere into
a text and taken out again.

* `Text.depthAfter?_eq_some_iff`: the depth is a difference of two counts.
* `Text.isBalanced_insert`: what a balanced part means for the balance of the whole.
* `Text.closing?_matched`, `Text.closing?_unmatched`: which parenthesis closes another.
-/

namespace Redex

/-- How many parentheses are open after a text, or nothing if it closes a parenthesis where none is
open. -/
def Text.depthAfter? (depth : Nat) (text : Text) : Option Nat := text.foldlM Redex.depthAfter? depth

theorem depthAfter?_eq_some_iff {depth next : Nat} {c : Char} :
    depthAfter? depth c = some next ↔
      next + [c].count ')' = depth + [c].count '(' := by
  by_cases opening : c = '('
  · subst opening
    simp [eq_comm]
  · by_cases closing : c = ')'
    · subst closing
      cases depth <;> simp [eq_comm]
    · simp [depthAfter?_other depth opening closing, opening, closing, eq_comm]

theorem depthAfter?_eq_none_iff {depth : Nat} {c : Char} :
    depthAfter? depth c = none ↔ depth = 0 ∧ c = ')' := by
  constructor
  · intro unmatched
    by_cases closing : c = ')'
    · subst closing
      cases depth with
      | zero => exact ⟨rfl, rfl⟩
      | succ depth => cases unmatched
    · by_cases opening : c = '('
      · subst opening
        cases unmatched
      · rw [depthAfter?_other depth opening closing] at unmatched
        cases unmatched
  · rintro ⟨rfl, rfl⟩
    rfl

theorem depthAfter?_expandChar (depth : Nat) (c : Char) :
    depthAfter? depth (expandChar c) = depthAfter? depth c := by
  by_cases isShorthand : c = shorthand
  · subst isShorthand
    rw [expandChar, if_pos rfl, depthAfter?_other depth (by decide) (by decide),
      depthAfter?_other depth (by decide) (by decide)]
  · rw [expandChar_of_ne isShorthand]

namespace Text

theorem isBalanced_iff {text : Text} : text.isBalanced = true ↔ text.depthAfter? 0 = some 0 := by
  rw [isBalanced, beq_iff_eq, depthAfter?]

section

variable {depth next : Nat} {c : Char} {left inside right text : Text}

@[simp] theorem depthAfter?_nil : depthAfter? depth [] = some depth := rfl

theorem depthAfter?_cons :
    depthAfter? depth (c :: text) =
      (Redex.depthAfter? depth c).bind fun next => depthAfter? next text := rfl

theorem depthAfter?_append :
    depthAfter? depth (left ++ right) =
      (depthAfter? depth left).bind fun next => depthAfter? next right := by
  rw [depthAfter?, List.foldlM_append]
  rfl

theorem depthAfter?_expandShorthand :
    depthAfter? depth text.expandShorthand = depthAfter? depth text := by
  rw [depthAfter?, expandShorthand, List.foldlM_map]
  simp only [depthAfter?_expandChar]
  rfl

/-- Whatever is open before a text stays open. -/
theorem depthAfter?_add (more : Nat) (after : depthAfter? depth text = some next) :
    depthAfter? (depth + more) text = some (next + more) := by
  induction text generalizing depth with
  | nil =>
    cases after
    rfl
  | cons c rest ih =>
    obtain ⟨between, first, after⟩ := Option.bind_eq_some_iff.1 after
    have shifted : Redex.depthAfter? (depth + more) c = some (between + more) := by
      rw [depthAfter?_eq_some_iff] at first ⊢
      omega
    rw [depthAfter?_cons, shifted]
    exact ih after

/-- The depth is how many more parentheses were opened than closed, and there is one as long as no
beginning of the text closes more than are open. -/
theorem depthAfter?_eq_some_iff :
    depthAfter? depth text = some next ↔
      (∀ part, part <+: text → part.count ')' ≤ depth + part.count '(') ∧
        next + text.count ')' = depth + text.count '(' := by
  induction text generalizing depth with
  | nil => simp [eq_comm]
  | cons c rest ih =>
    -- the first character adds to the counts of every beginning that is not empty
    have count (d : Char) (part : Text) : (c :: part).count d = [c].count d + part.count d := by
      rw [← List.count_append, List.singleton_append]
    rw [depthAfter?_cons, Option.bind_eq_some_iff, count ')' rest, count '(' rest]
    constructor
    · rintro ⟨between, first, after⟩
      have step := Redex.depthAfter?_eq_some_iff.1 first
      obtain ⟨parts, total⟩ := ih.1 after
      refine ⟨?_, by omega⟩
      intro part isPart
      rcases List.prefix_cons_iff.1 isPart with rfl | ⟨tail, rfl, isTail⟩
      · exact Nat.zero_le _
      · have bound := parts tail isTail
        rw [count ')' tail, count '(' tail]
        omega
    · rintro ⟨parts, total⟩
      have enough := parts [c] ⟨rest, rfl⟩
      refine ⟨depth + [c].count '(' - [c].count ')', ?_, ih.2 ⟨?_, by omega⟩⟩
      · apply Redex.depthAfter?_eq_some_iff.2
        omega
      · intro part isPart
        have bound := parts (c :: part) ((List.prefix_cons_inj c).2 isPart)
        rw [count ')' part, count '(' part] at bound
        omega

/-- The depth is positive where more is opened than closed, but not where more is closed than open
in between. -/
theorem exists_depth_succ_iff :
    (∃ depth, depthAfter? 0 text = some (depth + 1)) ↔
      (∀ part, part <+: text → part.count ')' ≤ part.count '(') ∧
        text.count ')' < text.count '(' := by
  constructor
  · rintro ⟨depth, after⟩
    obtain ⟨parts, total⟩ := depthAfter?_eq_some_iff.1 after
    rw [Nat.zero_add] at total
    refine ⟨?_, by omega⟩
    intro part isPart
    have bound := parts part isPart
    rwa [Nat.zero_add] at bound
  · rintro ⟨parts, more⟩
    refine ⟨text.count '(' - text.count ')' - 1, depthAfter?_eq_some_iff.2 ⟨?_, by omega⟩⟩
    intro part isPart
    rw [Nat.zero_add]
    exact parts part isPart

/-! ## Balanced parts -/

theorem depthAfter?_of_isBalanced (balanced : text.isBalanced = true) (depth : Nat) :
    depthAfter? depth text = some depth := by
  have kept := depthAfter?_add depth (isBalanced_iff.1 balanced)
  rwa [Nat.zero_add] at kept

theorem depthAfter?_append_left (balanced : inside.isBalanced = true) :
    depthAfter? depth (inside ++ right) = depthAfter? depth right := by
  rw [depthAfter?_append, depthAfter?_of_isBalanced balanced]
  rfl

/-- Balanced text can be put in anywhere, and the depth behind it is what it was. -/
theorem depthAfter?_insert (balanced : inside.isBalanced = true) :
    depthAfter? depth (left ++ (inside ++ right)) = depthAfter? depth (left ++ right) := by
  rw [depthAfter?_append, depthAfter?_append]
  simp only [depthAfter?_append_left balanced]

theorem isBalanced_append_left (balanced : inside.isBalanced = true) :
    (inside ++ right).isBalanced = right.isBalanced := by
  rw [Bool.eq_iff_iff, isBalanced_iff, isBalanced_iff, depthAfter?_append_left balanced]

/-- To put balanced text in makes no text balanced that was not, and none unbalanced. -/
theorem isBalanced_insert (balanced : inside.isBalanced = true) :
    (left ++ (inside ++ right)).isBalanced = (left ++ right).isBalanced := by
  rw [Bool.eq_iff_iff, isBalanced_iff, isBalanced_iff, depthAfter?_insert balanced]

theorem isBalanced_singleton (opening : c ≠ '(') (closing : c ≠ ')') :
    isBalanced [c] = true := by
  rw [isBalanced_iff, depthAfter?_cons, depthAfter?_other 0 opening closing]
  rfl

theorem isBalanced_parenthesized (balanced : inside.isBalanced = true) :
    isBalanced ('(' :: (inside ++ [')'])) = true := by
  rw [isBalanced_iff, depthAfter?_cons, depthAfter?_opening, Option.bind_some,
    depthAfter?_append, depthAfter?_of_isBalanced balanced]
  rfl

theorem isBalanced_expandShorthand : text.expandShorthand.isBalanced = text.isBalanced := by
  rw [Bool.eq_iff_iff, isBalanced_iff, isBalanced_iff, depthAfter?_expandShorthand]

/-! ## Partners -/

/-- What has no depth after it closes a parenthesis without a partner, and the first such one
stands where all is closed that was open. -/
theorem exists_unmatched (unmatched : depthAfter? depth text = none) :
    ∃ inside right, text = inside ++ ')' :: right ∧ depthAfter? depth inside = some 0 := by
  induction text generalizing depth with
  | nil => cases unmatched
  | cons c rest ih =>
    cases first : Redex.depthAfter? depth c with
    | none =>
      obtain ⟨rfl, rfl⟩ := Redex.depthAfter?_eq_none_iff.1 first
      exact ⟨[], rest, rfl, rfl⟩
    | some between =>
      rw [depthAfter?_cons, first, Option.bind_some] at unmatched
      obtain ⟨inside, right, rfl, closes⟩ := ih unmatched
      refine ⟨c :: inside, right, rfl, ?_⟩
      rw [depthAfter?_cons, first]
      exact closes

theorem closingFrom_append {pos : Nat} (after : depthAfter? depth inside = some next) :
    closingFrom pos depth (inside ++ right) = closingFrom (pos + inside.length) next right := by
  induction inside generalizing pos depth with
  | nil =>
    cases after
    rfl
  | cons c rest ih =>
    obtain ⟨between, first, after⟩ := Option.bind_eq_some_iff.1 after
    rw [List.cons_append, closingFrom, first, List.length_cons, Nat.add_comm rest.length,
      ← Nat.add_assoc]
    exact ih after

theorem closing?_append :
    closing? (left ++ '(' :: right) left.length = closingFrom (left.length + 1) 0 right := by
  rw [closing?_of_lt (by simp), List.drop_length_add_append]
  rfl

/-- The partner of a parenthesis is the one with only balanced text in between. -/
theorem closing?_matched (balanced : inside.isBalanced = true) :
    closing? (left ++ '(' :: (inside ++ ')' :: right)) left.length =
      some (left.length + 1 + inside.length) := by
  rw [closing?_append, closingFrom_append (isBalanced_iff.1 balanced)]
  rfl

/-- A parenthesis has no partner where the rest of the text closes only what it opens itself. -/
theorem closing?_unmatched (unclosed : depthAfter? 0 right = some next) :
    closing? (left ++ '(' :: right) left.length = none := by
  have all : closingFrom (left.length + 1) 0 (right ++ []) = none := closingFrom_append unclosed
  rw [closing?_append, ← all, List.append_nil]

/-- A parenthesis without a partner is still open at the end of the text. -/
theorem isBalanced_unmatched (unclosed : depthAfter? 0 right = some next) :
    (left ++ '(' :: right).isBalanced = false := by
  rw [Bool.eq_false_iff, Ne, isBalanced_iff, depthAfter?_append]
  intro balanced
  obtain ⟨before, _, balanced⟩ := Option.bind_eq_some_iff.1 balanced
  rw [depthAfter?_cons, depthAfter?_opening, Option.bind_some] at balanced
  have stays := depthAfter?_add (before + 1) unclosed
  rw [Nat.zero_add, balanced] at stays
  cases stays

/-- What is opened in a balanced part is closed in it. -/
theorem closing?_ne_none_of_isBalanced (balanced : inside.isBalanced = true) {pos : Nat}
    (opening : inside[pos]? = some '(') : closing? (inside ++ right) pos ≠ none := by
  obtain ⟨bound, char⟩ := List.getElem?_eq_some_iff.1 opening
  have split : inside = inside.take pos ++ '(' :: inside.drop (pos + 1) := by
    rw [← char, ← List.drop_eq_getElem_cons bound, List.take_append_drop]
  have length : (inside.take pos).length = pos := List.length_take_of_le (Nat.le_of_lt bound)
  generalize inside.take pos = before at split length
  generalize inside.drop (pos + 1) = after at split
  subst split length
  cases depth : depthAfter? 0 after with
  | some next =>
    rw [isBalanced_unmatched depth] at balanced
    cases balanced
  | none =>
    obtain ⟨between, rest, rfl, closes⟩ := exists_unmatched depth
    have partner : closing? (before ++ '(' :: (between ++ ')' :: (rest ++ right))) before.length =
        some (before.length + 1 + between.length) :=
      closing?_matched (isBalanced_iff.2 closes)
    simp only [List.append_assoc, List.cons_append, partner]
    exact Option.some_ne_none _

end

end Text

end Redex
