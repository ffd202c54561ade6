import Redex.Proofs.Form.Assembly
import Redex.Proofs.Name

/-!
# Reading piece by piece

A piece of a text can be read as some forms whatever stands after it, as long as no atom runs over
its end. What is read of such pieces is put together as the pieces are.

* `Text.pieceInduction`: what holds of a text may be proved piece by piece.
* `ReadsAs.atom`, `ReadsAs.list`: how atoms and lists are read.
* `ReadsAs.append`: pieces one after the other are read as all their forms.
* `ReadsAs.parse`: a text that is one piece has the forms of that piece.
-/

namespace Redex

/-- Whether an atom that stands before a text ends where the text begins. -/
def Text.EndsWord (text : Text) : Prop := ∀ c ∈ text.head?, isWordChar c = false

theorem Text.EndsWord.nil : Text.EndsWord [] := by simp [Text.EndsWord]

theorem Text.EndsWord.cons {c : Char} (rest : Text) (ends : isWordChar c = false) :
    Text.EndsWord (c :: rest) := by simp [Text.EndsWord, ends]

theorem Text.EndsWord.takeWhile {text : Text} (ends : text.EndsWord) :
    text.takeWhile isWordChar = [] := by
  cases text with
  | nil => rfl
  | cons c rest => exact List.takeWhile_cons_of_neg (by simp [ends c rfl])

theorem Text.EndsWord.dropWhile {text : Text} (ends : text.EndsWord) :
    text.dropWhile isWordChar = text := by
  cases text with
  | nil => rfl
  | cons c rest => exact List.dropWhile_cons_of_neg (by simp [ends c rfl])

theorem Text.EndsWord.of_append {left right : Text} (ends : (left ++ right).EndsWord) :
    left.EndsWord := by
  cases left with
  | nil => exact .nil
  | cons c rest => exact ends

/-- An atom ends where the first of two texts begins, or where the second does if there is no first.
-/
theorem Text.EndsWord.append {left right : Text} (first : left.EndsWord)
    (second : right.EndsWord) : (left ++ right).EndsWord := by
  cases left with
  | nil => exact second
  | cons c rest => exact first

/-- Induction over the pieces that a text is read in: blanks, parentheses and whole atoms. -/
@[elab_as_elim]
theorem Text.pieceInduction {motive : Text → Prop} (text : Text) (nil : motive [])
    (blank : ∀ c rest, Redex.isBlank c = true → motive rest → motive (c :: rest))
    (opening : ∀ rest, motive rest → motive ('(' :: rest))
    (closing : ∀ rest, motive rest → motive (')' :: rest))
    (word : ∀ name rest, IsWord name → rest.EndsWord → motive rest →
      motive (name.toList ++ rest)) : motive text := by
  induction 0, text using Token.scanFrom.induct with
  | case1 => exact nil
  | case2 _ c rest isBlank ih => exact blank c rest isBlank ih
  | case3 _ rest _ ih => exact opening rest ih
  | case4 _ rest _ _ ih => exact closing rest ih
  | case5 _ c rest notBlank notOpening notClosing chars _ ih =>
    have first : isWordChar c = true := by simp [isWordChar, notBlank, notOpening, notClosing]
    have others : ∀ d ∈ rest.takeWhile isWordChar, isWordChar d = true :=
      List.all_eq_true.1 List.all_takeWhile
    have isWord : IsWord (String.ofList chars) :=
      isWord_ofList (List.cons_ne_nil c _) (List.forall_mem_cons.2 ⟨first, others⟩)
    have ends : Text.EndsWord (rest.dropWhile isWordChar) := by
      intro d head
      have stops := List.head?_dropWhile_not isWordChar rest
      rw [Option.mem_def.1 head] at stops
      simpa using stops
    have whole := word _ _ isWord ends ih
    rw [String.toList_ofList, List.cons_append, List.takeWhile_append_dropWhile] at whole
    exact whole

/-- A word is a token as a whole, if what follows it is no part of it. -/
theorem Token.scanFrom_name {name : String} (word : IsWord name) {rest : Text}
    (ends : rest.EndsWord) (pos : Nat) :
    scanFrom pos (name.toList ++ rest) =
      ⟨.atom name, pos, pos + name.toList.length⟩ ::
        scanFrom (pos + name.toList.length) rest := by
  have whole : String.ofList name.toList = name := String.ofList_toList
  have wordChars := word.wordChars
  cases chars : name.toList with
  | nil => exact absurd (String.toList_inj.1 chars) word.nonempty
  | cons c cs =>
    rw [chars] at whole wordChars
    have inside : ∀ d ∈ cs, isWordChar d = true := fun d mem => wordChars d (.tail c mem)
    rw [List.cons_append, scanFrom_word (wordChars c List.mem_cons_self),
      List.takeWhile_append_of_pos inside, List.dropWhile_append_of_pos inside, ends.takeWhile,
      ends.dropWhile, List.append_nil, whole]

namespace Reading

def ofText (stop pos : Nat) (text : Text) : Reading := ofTokens stop (Token.scanFrom pos text)

section

variable {stop pos : Nat} {rest : Text}

theorem ofText_nil : ofText stop pos [] = empty := by
  rw [ofText, Token.scanFrom_nil]
  rfl

theorem ofText_blank {c : Char} (blank : isBlank c = true) :
    ofText stop pos (c :: rest) = ofText stop (pos + 1) rest := by
  rw [ofText, Token.scanFrom_blank blank]
  rfl

theorem ofText_opening :
    ofText stop pos ('(' :: rest) =
      prepend stop ⟨.opening, .single pos⟩ (ofText stop (pos + 1) rest) := by
  rw [ofText, Token.scanFrom_opening]
  rfl

theorem ofText_closing :
    ofText stop pos (')' :: rest) =
      prepend stop ⟨.closing, .single pos⟩ (ofText stop (pos + 1) rest) := by
  rw [ofText, Token.scanFrom_closing]
  rfl

theorem ofText_word {name : String} (word : IsWord name) (ends : rest.EndsWord) :
    ofText stop pos (name.toList ++ rest) =
      after [.atom name ⟨pos, pos + name.toList.length⟩]
        (ofText stop (pos + name.toList.length) rest) := by
  rw [ofText, Token.scanFrom_name word ends]
  rfl

end

end Reading

/-- Forms are read off the characters of a text from right to left. -/
theorem Form.parse_eq_ofText (text : Text) :
    parse text = (Reading.ofText text.length 0 text).forms := by
  rw [parse_eq_ofTokens, Token.scan, Reading.ofText]

/-- Whether a piece of a text that begins at `pos` is read as some forms, whatever is after it. -/
def ReadsAs (pos : Nat) (text : Text) (forms : List Form) : Prop :=
  ∀ stop rest, Text.EndsWord rest →
    Reading.ofText stop pos (text ++ rest) =
      Reading.after forms (Reading.ofText stop (pos + text.length) rest)

namespace ReadsAs

variable {pos : Nat} {text more : Text} {forms others : List Form}

theorem nil (pos : Nat) : ReadsAs pos [] [] := fun _ _ _ => rfl

theorem atom {name : String} (word : IsWord name) (pos : Nat) :
    ReadsAs pos name.toList [.atom name ⟨pos, pos + name.toList.length⟩] :=
  fun _ _ ends => Reading.ofText_word word ends

theorem append (first : ReadsAs pos text forms) (ends : ∀ rest, Text.EndsWord rest →
    Text.EndsWord (more ++ rest)) (second : ReadsAs (pos + text.length) more others) :
    ReadsAs pos (text ++ more) (forms ++ others) := by
  intro stop rest endsRest
  rw [List.append_assoc, first stop _ (ends rest endsRest), second stop rest endsRest,
    Reading.after_after, List.length_append, Nat.add_assoc]

/-- A space ends what is before it and is no part of what is after it. -/
theorem space (reads : ReadsAs (pos + 1) text forms) : ReadsAs pos (' ' :: text) forms := by
  intro stop rest ends
  rw [List.cons_append, Reading.ofText_blank (by decide), reads stop rest ends, List.length_cons,
    Nat.add_assoc, Nat.add_comm 1]

theorem append_space (first : ReadsAs pos text forms)
    (second : ReadsAs (pos + text.length + 1) more others) :
    ReadsAs pos (text ++ ' ' :: more) (forms ++ others) :=
  first.append (fun _ _ => .cons _ (by decide)) second.space

theorem list (inner : ReadsAs (pos + 1) text forms) :
    ReadsAs pos ('(' :: (text ++ [')']))
      [.list forms ⟨pos, pos + ('(' :: (text ++ [')'])).length⟩] := by
  intro stop rest ends
  have closing : Text.EndsWord (')' :: rest) := .cons rest (by decide)
  have length : ('(' :: (text ++ [')'])).length = text.length + 2 := by simp
  have after : pos + 1 + text.length + 1 = pos + (text.length + 2) := by omega
  rw [List.cons_append, List.append_assoc, List.singleton_append, Reading.ofText_opening,
    inner stop _ closing, Reading.ofText_closing, Reading.prepend_closing, Reading.after,
    Reading.prepend_opening_matched rfl, length, after]
  simp only [Reading.after, Span.single, List.append_nil, List.singleton_append, after]

theorem parse (reads : ReadsAs 0 text forms) : Form.parse text = forms := by
  have whole := reads text.length [] .nil
  rw [List.append_nil, Reading.ofText_nil] at whole
  rw [Form.parse_eq_ofText, whole, Reading.after, Reading.empty, List.append_nil]

end ReadsAs

end Redex
