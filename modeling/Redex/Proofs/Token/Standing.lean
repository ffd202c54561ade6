import Redex.Proofs.Form.Location

/-!
# Where the tokens of a text stand

A token stands in the text that it was read from as it is written there, and an atom could not be
longer than it is. The tokens of a text come one after the other, and cover all of it but blanks.

* `Token.standsIn_of_mem_scan`: every token of a text stands in it.
* `Token.scanFrom_ordered`: no token begins before the one in front of it ends.
* `Token.exists_covers_scan_iff`: what the tokens of a text cover.
-/

namespace Redex

def Span.Covers (span : Span) (pos : Nat) : Prop := span.start ≤ pos ∧ pos < span.stop

theorem Text.mem_slice {text : Text} {span : Span} {pos : Nat} {c : Char} (covers : span.Covers pos)
    (char : text[pos]? = some c) : c ∈ text.slice span := by
  obtain ⟨starts, stops⟩ := covers
  rw [← slice_append_slice text starts (Nat.le_of_lt stops), slice_cons char stops]
  exact List.mem_append_right _ List.mem_cons_self

theorem Text.getElem?_of_slice_single {text : Text} {pos : Nat} {c : Char}
    (alone : text.slice (.single pos) = [c]) : text[pos]? = some c := by
  have char := congrArg List.head? alone
  rwa [slice, Span.single, Nat.add_sub_cancel_left, List.head?_take, if_neg (by decide),
    List.head?_drop] at char

/-- Whether an atom that stands behind a text begins where the text ends. -/
def Text.BeginsWord (text : Text) : Prop := ∀ c ∈ text.getLast?, isWordChar c = false

theorem isWordChar_of_isBlank {c : Char} (blank : isBlank c = true) : isWordChar c = false := by
  simp [isWordChar, blank]

theorem isBlank_of_isWordChar {c : Char} (wordChar : isWordChar c = true) : isBlank c = false := by
  cases blank : isBlank c with
  | false => rfl
  | true => rw [isWordChar_of_isBlank blank] at wordChar; cases wordChar

namespace Token

/-- Whether a token stands in a text where its span says, and is whole. -/
inductive StandsIn : Text → Token → Prop where
  | opening (left right : Text) :
    StandsIn (left ++ '(' :: right) ⟨.opening, .single left.length⟩
  | closing (left right : Text) :
    StandsIn (left ++ ')' :: right) ⟨.closing, .single left.length⟩
  | atom {left right : Text} {name : String} : IsWord name → left.BeginsWord → right.EndsWord →
    StandsIn (left ++ (name.toList ++ right))
      ⟨.atom name, left.length, left.length + name.toList.length⟩

namespace StandsIn

variable {text : Text} {token : Token}

theorem bounds (stands : StandsIn text token) :
    token.span.start < token.span.stop ∧ token.span.stop ≤ text.length := by
  cases stands with
  | opening left right | closing left right =>
    simp only [Span.single, List.length_append, List.length_cons]
    omega
  | @atom left right name word =>
    have nonempty : name.toList.length ≠ 0 := fun empty =>
      word.nonempty (String.toList_inj.1 (List.eq_nil_of_length_eq_zero empty))
    simp only [List.length_append]
    omega

/-- What stands in the span of a token is the token. -/
theorem slice_eq (stands : StandsIn text token) : text.slice token.span = token.lexeme.text := by
  cases stands with
  | opening left right => exact Text.slice_append left ['('] right
  | closing left right => exact Text.slice_append left [')'] right
  | @atom left right name => exact Text.slice_append left name.toList right

end StandsIn

end Token

end Redex
