/-!
# Texts and spans

A text is read as a list of characters, and every position counts characters from its start.
-/

namespace Redex

/-- What is read or edited, as a list of characters. -/
abbrev Text := List Char

/-- A stretch of a text: the positions from `start` up to, and without, `stop`. -/
structure Span where
  start : Nat
  stop : Nat
  deriving DecidableEq, Repr

namespace Span

def single (pos : Nat) : Span := ⟨pos, pos + 1⟩

/-- The empty span at `pos`, such as a selection that is only a cursor. -/
def collapsed (pos : Nat) : Span := ⟨pos, pos⟩

def render (span : Span) : String :=
  toString span.start ++ ".." ++ toString span.stop

end Span

/-- The part of a text that a span covers. -/
def Text.slice (text : Text) (span : Span) : Text :=
  (text.drop span.start).take (span.stop - span.start)

theorem Text.slice_append (left piece right : Text) :
    (left ++ (piece ++ right)).slice ⟨left.length, left.length + piece.length⟩ = piece := by
  rw [slice, List.drop_left, Nat.add_sub_cancel_left, List.take_left]

theorem Text.length_slice {text : Text} {span : Span} (within : span.stop ≤ text.length) :
    (text.slice span).length = span.stop - span.start := by
  rw [slice, List.length_take, List.length_drop]
  omega

theorem Text.slice_append_drop (text : Text) {start stop : Nat} (order : start ≤ stop) :
    text.slice ⟨start, stop⟩ ++ text.drop stop = text.drop start := by
  obtain ⟨n, rfl⟩ := Nat.exists_eq_add_of_le order
  rw [slice, Nat.add_sub_cancel_left, ← List.drop_drop, List.take_append_drop]

theorem Text.slice_append_slice (text : Text) {start middle stop : Nat} (first : start ≤ middle)
    (second : middle ≤ stop) :
    text.slice ⟨start, middle⟩ ++ text.slice ⟨middle, stop⟩ = text.slice ⟨start, stop⟩ := by
  obtain ⟨m, rfl⟩ := Nat.exists_eq_add_of_le first
  obtain ⟨n, rfl⟩ := Nat.exists_eq_add_of_le second
  have whole : start + m + n - start = m + n := by omega
  simp only [slice, whole, Nat.add_sub_cancel_left, ← List.drop_drop, List.take_add]

theorem Text.slice_cons {text : Text} {start stop : Nat} {c : Char} (char : text[start]? = some c)
    (inside : start < stop) : text.slice ⟨start, stop⟩ = c :: text.slice ⟨start + 1, stop⟩ := by
  obtain ⟨bound, char⟩ := List.getElem?_eq_some_iff.1 char
  obtain ⟨n, rfl⟩ := Nat.exists_eq_add_of_le inside
  have count : start.succ + n - start = n + 1 := by omega
  rw [slice, slice, count, List.drop_eq_getElem_cons bound, char, List.take_succ_cons,
    Nat.add_sub_cancel_left]

end Redex
