import Redex.Text.Basic

/-!
# Matching parentheses

Parentheses are counted from left to right. The depth at a point of a text says how many of them
are open there; a closing parenthesis at depth zero has no partner. A text is balanced if all its
parentheses find partners, and the partner of an opening one is the first closing one that finds
none among those after it.

* `depthAfter?_opening`, `depthAfter?_closing_zero`, `depthAfter?_closing_succ`,
  `depthAfter?_other`: what one character does to the depth.
* `Text.closing?_of_lt`, `Text.closing?_of_lt_word`: where the search for a partner begins.
-/

namespace Redex

/-- How many parentheses are open after one more character, or nothing if the character closes a
parenthesis and none is open. -/
def depthAfter? : Nat → Char → Option Nat
  | depth, '(' => some (depth + 1)
  | 0, ')' => none
  | depth + 1, ')' => some depth
  | depth, _ => some depth

@[simp] theorem depthAfter?_opening (depth : Nat) : depthAfter? depth '(' = some (depth + 1) := by
  rw [depthAfter?]

@[simp] theorem depthAfter?_closing_zero : depthAfter? 0 ')' = none := rfl

@[simp] theorem depthAfter?_closing_succ (depth : Nat) :
    depthAfter? (depth + 1) ')' = some depth := rfl

theorem depthAfter?_other (depth : Nat) {c : Char} (opening : c ≠ '(') (closing : c ≠ ')') :
    depthAfter? depth c = some depth := by
  unfold depthAfter?
  split
  · exact absurd rfl opening
  · exact absurd rfl closing
  · exact absurd rfl closing
  · rfl

namespace Text

/-- Whether every parenthesis of a text has a partner in it. -/
def isBalanced (text : Text) : Bool := text.foldlM depthAfter? 0 == some 0

/-- Where the first closing parenthesis without a partner stands, in a text whose first character
stands at `pos` and before which `depth` parentheses are open. -/
def closingFrom (pos depth : Nat) : Text → Option Nat
  | [] => none
  | c :: rest =>
    match depthAfter? depth c with
    | some next => closingFrom (pos + 1) next rest
    | none => some pos

/-- The number that follows the one of a position. Numbers of positions are words of 64 bits, so the
greatest of them is followed by zero, but no position of a text has that number. -/
def following (text : Text) (pos : Nat) : Nat :=
  if pos < text.length then pos + 1 else (pos + 1) % UInt64.size

/-- Where the parenthesis that closes the one at `start` stands. -/
def closing? (text : Text) (start : Nat) : Option Nat :=
  closingFrom (text.following start) 0 (text.drop (text.following start))

theorem following_of_lt {text : Text} {pos : Nat} (within : pos < text.length) :
    text.following pos = pos + 1 := if_pos within

/-- The search for a partner begins behind a parenthesis of the text. -/
theorem closing?_of_lt {text : Text} {start : Nat} (within : start < text.length) :
    text.closing? start = closingFrom (start + 1) 0 (text.drop (start + 1)) := by
  rw [closing?, following_of_lt within]

/-- It begins behind any other number as well, but for the greatest. -/
theorem closing?_of_lt_word {start : Nat} (text : Text) (small : start < UInt64.size - 1) :
    text.closing? start = closingFrom (start + 1) 0 (text.drop (start + 1)) := by
  have next : text.following start = start + 1 := by
    unfold following
    split
    · rfl
    · exact Nat.mod_eq_of_lt (Nat.add_lt_of_lt_sub small)
  rw [closing?, next]

end Text

end Redex
