import Redex.Proofs.Form.Reading
import Redex.Proofs.Form.Tokens
import Redex.Proofs.Text.Brackets

/-!
# How forms are written in a text

The reader works on tokens, from the last to the first. Here is what it comes to: the forms of a
text are written in it from left to right, an atom as its name and a list as the forms inside it
between two parentheses, with nothing but blanks around them. Only a list that the end of the text
cuts short has no closing parenthesis.

* `Spells.ofText`: what is written in a text is read.
* `Form.spells_parse`: what is read is written in the text, up to the first closing parenthesis
  without a partner.
* `Form.extent_parse`: which lists are closed, and where the reading ends.
* `Form.spells_of_isBalanced`: the forms of a balanced text are written in all of it.
-/

namespace Redex

/-- Whether a piece of a text is a sequence of forms in writing, where the piece begins at `pos`.
If it is `cut` it goes up to the end of the text, which may leave lists open. -/
inductive Spells : (cut : Bool) → (pos : Nat) → Text → List Form → Prop where
  | nil {cut : Bool} {pos : Nat} : Spells cut pos [] []
  | blank {cut : Bool} {pos : Nat} {c : Char} {rest : Text} {forms : List Form} :
    isBlank c = true → Spells cut (pos + 1) rest forms → Spells cut pos (c :: rest) forms
  | atom {cut : Bool} {pos : Nat} {name : String} {rest : Text} {forms : List Form} :
    IsWord name → rest.EndsWord → Spells cut (pos + name.toList.length) rest forms →
      Spells cut pos (name.toList ++ rest)
        (.atom name ⟨pos, pos + name.toList.length⟩ :: forms)
  | list {cut : Bool} {pos : Nat} {inside rest : Text} {children forms : List Form} :
    Spells false (pos + 1) inside children → Spells cut (pos + inside.length + 2) rest forms →
      Spells cut pos ('(' :: (inside ++ ')' :: rest))
        (.list children ⟨pos, pos + inside.length + 2⟩ :: forms)
  | unclosed {pos : Nat} {inside : Text} {children : List Form} :
    Spells true (pos + 1) inside children →
      Spells true pos ('(' :: inside) [.unclosed children ⟨pos, pos + inside.length + 1⟩]

theorem add_length_cons (pos : Nat) (c : Char) (rest : Text) :
    pos + (c :: rest).length = pos + 1 + rest.length := by
  rw [List.length_cons, Nat.add_assoc, Nat.add_comm 1]

theorem add_length_parenthesized (pos : Nat) (inside rest : Text) :
    pos + ('(' :: (inside ++ ')' :: rest)).length = pos + inside.length + 2 + rest.length := by
  simp only [List.length_cons, List.length_append]
  omega

theorem isBlank_ne_parenthesis {c : Char} (blank : isBlank c = true) : c ≠ '(' ∧ c ≠ ')' := by
  constructor <;> rintro rfl <;> cases blank

theorem isBalanced_of_isWord {name : String} (word : IsWord name) :
    Text.isBalanced name.toList = true := by
  have wordChars := (isWord_iff.1 word).2
  generalize name.toList = chars at wordChars
  induction chars with
  | nil => rfl
  | cons c rest ih =>
    obtain ⟨⟨_, opening, closing⟩, others⟩ := List.forall_mem_cons.1 wordChars
    have alone := Text.isBalanced_singleton opening closing
    exact (Text.isBalanced_append_left alone).trans (ih others)

namespace Spells

section

variable {cut : Bool} {pos : Nat} {text : Text} {forms : List Form}

theorem isClosed (spells : Spells false pos text forms) : ∀ form ∈ forms, form.IsClosed := by
  generalize whole : false = cut at spells
  induction spells with
  | nil => exact List.forall_mem_nil _
  | blank _ _ ih => exact ih whole
  | atom _ _ _ ih => exact List.forall_mem_cons.2 ⟨.atom _ _, ih whole⟩
  | list _ _ ihInside ih => exact List.forall_mem_cons.2 ⟨.list _ (ihInside rfl), ih whole⟩
  | unclosed => cases whole

/-! ## Depths -/

theorem exists_depth (spells : Spells cut pos text forms) :
    ∃ depth, text.depthAfter? 0 = some depth ∧ (cut = false → depth = 0) := by
  -- all but a list that is never closed is balanced, and leaves the depth as it is
  induction spells with
  | nil => exact ⟨0, rfl, fun _ => rfl⟩
  | @blank _ _ c rest _ isBlank _ ih =>
    obtain ⟨opening, closing⟩ := isBlank_ne_parenthesis isBlank
    have alone := Text.isBalanced_singleton opening closing
    have same : Text.depthAfter? 0 (c :: rest) = rest.depthAfter? 0 :=
      Text.depthAfter?_append_left alone
    rw [same]
    exact ih
  | atom word _ _ ih =>
    rw [Text.depthAfter?_append_left (isBalanced_of_isWord word)]
    exact ih
  | @list _ _ inside rest _ _ _ _ ihInside ih =>
    obtain ⟨depth, after, closed⟩ := ihInside
    have balanced : inside.isBalanced = true := by
      rw [Text.isBalanced_iff, after, closed rfl]
    have same : Text.depthAfter? 0 ('(' :: (inside ++ [')']) ++ rest) = rest.depthAfter? 0 :=
      Text.depthAfter?_append_left (Text.isBalanced_parenthesized balanced)
    rw [List.cons_append, List.append_assoc, List.singleton_append] at same
    rw [same]
    exact ih
  | unclosed _ ih =>
    obtain ⟨depth, after, _⟩ := ih
    refine ⟨depth + 1, ?_, nofun⟩
    have stays := Text.depthAfter?_add 1 after
    rwa [Nat.zero_add] at stays

/-- Forms that are all closed have a partner for every parenthesis. -/
theorem isBalanced (spells : Spells false pos text forms) : text.isBalanced = true := by
  obtain ⟨depth, after, closed⟩ := spells.exists_depth
  rw [Text.isBalanced_iff, after, closed rfl]

/-- At most the last of some forms in writing is cut short, and it takes up all that is left. -/
theorem closed_or_unclosed (spells : Spells cut pos text forms) :
    Spells false pos text forms ∨
      ∃ before inside closed children depth, text = before ++ '(' :: inside ∧
        forms = closed ++ [.unclosed children ⟨pos + before.length, pos + text.length⟩] ∧
        Spells false pos before closed ∧ Text.depthAfter? 0 inside = some depth := by
  induction spells with
  | nil => exact .inl .nil
  | @blank _ pos c rest _ isBlank _ ih =>
    rcases ih with closed | ⟨before, inside, closed, children, depth, rfl, rfl, spells, after⟩
    · exact .inl (.blank isBlank closed)
    · refine .inr ⟨c :: before, inside, closed, children, depth, rfl, ?_, .blank isBlank spells,
        after⟩
      rw [add_length_cons, add_length_cons]
  | @atom _ pos name rest _ word ends _ ih =>
    rcases ih with closed | ⟨before, inside, closed, children, depth, rfl, rfl, spells, after⟩
    · exact .inl (.atom word ends closed)
    · refine .inr ⟨name.toList ++ before, inside, _ :: closed, children, depth, ?_, ?_,
        .atom word (.of_append ends) spells, after⟩
      · rw [List.append_assoc]
      · simp only [List.length_append, List.cons_append, Nat.add_assoc]
  | @list _ pos between rest _ _ inside _ _ ih =>
    rcases ih with closed | ⟨before, tail, closed, children, depth, rfl, rfl, spells, after⟩
    · exact .inl (.list inside closed)
    · refine .inr ⟨'(' :: (between ++ ')' :: before), tail, _ :: closed, children, depth, ?_, ?_,
        .list inside spells, after⟩
      · simp
      · rw [add_length_parenthesized, add_length_parenthesized, List.cons_append]
  | @unclosed pos inside children spells =>
    obtain ⟨depth, after, _⟩ := spells.exists_depth
    exact .inr ⟨[], inside, [], children, depth, rfl, rfl, .nil, after⟩

/-! ## What is written is read -/

theorem ofText (spells : Spells cut pos text forms) {stop : Nat} {rest : Text}
    (ends : rest.EndsWord) (whole : cut = true → rest = [] ∧ stop = pos + text.length) :
    Reading.ofText stop pos (text ++ rest) =
      Reading.after forms (Reading.ofText stop (pos + text.length) rest) := by
  induction spells generalizing rest with
  | nil => rfl
  | @blank _ pos c text forms isBlank _ ih =>
    rw [add_length_cons] at whole ⊢
    rw [List.cons_append, Reading.ofText_blank isBlank, ih ends whole]
  | @atom _ pos name text forms word endsName _ ih =>
    have length : pos + (name.toList ++ text).length = pos + name.toList.length + text.length := by
      rw [List.length_append, Nat.add_assoc]
    rw [length] at whole ⊢
    rw [List.append_assoc, Reading.ofText_word word (endsName.append ends), ih ends whole,
      Reading.after_after, List.singleton_append]
  | @list _ pos inside text children forms _ _ ihInside ih =>
    have behind : pos + 1 + inside.length + 1 = pos + inside.length + 2 := by omega
    rw [add_length_parenthesized] at whole ⊢
    have closing : Text.EndsWord (')' :: (text ++ rest)) := .cons _ (by decide)
    rw [List.cons_append, List.append_assoc, List.cons_append, Reading.ofText_opening,
      ihInside closing nofun, Reading.ofText_closing, Reading.prepend_closing, behind,
      ih ends whole]
    simp only [Reading.after, Span.single, List.append_nil, List.cons_append, behind]
    rfl
  | @unclosed pos inside children _ ih =>
    obtain ⟨rfl, rfl⟩ := whole rfl
    have length := add_length_cons pos '(' inside
    rw [List.cons_append, Reading.ofText_opening, ih .nil fun _ => ⟨rfl, length⟩,
      Reading.ofText_nil, Reading.ofText_nil]
    simp only [Reading.after, Reading.empty, List.append_nil]
    rfl

theorem readsAs (spells : Spells false pos text forms) : ReadsAs pos text forms :=
  fun _ _ ends => spells.ofText ends nofun

end

end Spells

/-! ## What is read is written -/

namespace Reading

/-- Whether a reading tells what is written in a tail of a text, where the tail begins at `pos`. A
closing parenthesis without a partner stands between the forms before it and those after it. -/
inductive Tells : (pos : Nat) → Text → Reading → Prop where
  | last {pos : Nat} {text : Text} {forms : List Form} :
    Spells true pos text forms → Tells pos text ⟨forms, []⟩
  | before {pos closed : Nat} {text rest : Text} {forms after : List Form}
    {unmatched : List (Nat × List Form)} :
    closed = pos + text.length + 1 → Spells false pos text forms →
      Tells closed rest ⟨after, unmatched⟩ →
      Tells pos (text ++ ')' :: rest) ⟨forms, (closed, after) :: unmatched⟩

section

variable {pos : Nat} {text : Text} {reading : Reading}

theorem Tells.blank {c : Char} (isBlank : isBlank c = true) (tells : Tells (pos + 1) text reading) :
    Tells pos (c :: text) reading := by
  cases tells with
  | last spells => exact .last (.blank isBlank spells)
  | before closed spells rest =>
    rw [← List.cons_append]
    refine .before ?_ (.blank isBlank spells) rest
    rw [List.length_cons]
    omega

theorem Tells.atom {name : String} (word : IsWord name) (ends : text.EndsWord)
    (tells : Tells (pos + name.toList.length) text reading) :
    Tells pos (name.toList ++ text)
      (after [.atom name ⟨pos, pos + name.toList.length⟩] reading) := by
  cases tells with
  | last spells => exact .last (.atom word ends spells)
  | before closed spells rest =>
    rw [← List.append_assoc]
    refine .before ?_ (.atom word (.of_append ends) spells) rest
    rw [List.length_append]
    omega

theorem Tells.list {inside : Text} {children : List Form}
    (spells : Spells false (pos + 1) inside children)
    (tells : Tells (pos + inside.length + 2) text reading) :
    Tells pos ('(' :: (inside ++ ')' :: text))
      (after [.list children ⟨pos, pos + inside.length + 2⟩] reading) := by
  cases tells with
  | last rest => exact .last (.list spells rest)
  | @before _ _ between text _ _ _ closed spellsBetween rest =>
    have whole : '(' :: (inside ++ ')' :: (between ++ ')' :: text)) =
        '(' :: (inside ++ ')' :: between) ++ ')' :: text := by simp
    rw [whole]
    refine .before ?_ (.list spells spellsBetween) rest
    simp only [List.length_cons, List.length_append]
    omega

/-- An opening parenthesis takes the first closing one without a partner, if there is one. -/
theorem Tells.opening {stop : Nat} (whole : stop = pos + text.length + 1)
    (tells : Tells (pos + 1) text reading) :
    Tells pos ('(' :: text) (prepend stop ⟨.opening, .single pos⟩ reading) := by
  cases tells with
  | last spells =>
    subst whole
    exact .last (.unclosed spells)
  | @before _ closed inside _ _ _ _ isClosed spells rest =>
    have behind : closed = pos + inside.length + 2 := by omega
    subst behind
    exact .list spells rest

/-- What is read of a tail of a text is written there, parenthesis by parenthesis. -/
theorem tells_ofText {stop : Nat} (whole : stop = pos + text.length) :
    Tells pos text (ofText stop pos text) := by
  induction text using Text.pieceInduction generalizing pos with
  | nil =>
    rw [ofText_nil]
    exact .last .nil
  | blank c rest isBlank ih =>
    rw [List.length_cons] at whole
    rw [ofText_blank isBlank]
    exact .blank isBlank (ih (by omega))
  | opening rest ih =>
    rw [List.length_cons] at whole
    rw [ofText_opening]
    exact .opening (by omega) (ih (by omega))
  | closing rest ih =>
    rw [List.length_cons] at whole
    rw [ofText_closing]
    exact .before rfl .nil (ih (by simp only [List.length_nil]; omega))
  | word name rest word ends ih =>
    rw [List.length_append] at whole
    rw [ofText_word word ends]
    exact .atom word ends (ih (by omega))

end

end Reading

namespace Form

/-- **What is read of a text is written in it.** The forms are the whole text, or all that stands
before a closing parenthesis that has no partner; in that case none of them is cut short. -/
theorem spells_parse (text : Text) :
    Spells true 0 text (parse text) ∨
      ∃ front rest, text = front ++ ')' :: rest ∧ Spells false 0 front (parse text) := by
  have tells : Reading.Tells 0 text (Reading.ofText text.length 0 text) :=
    Reading.tells_ofText (Nat.zero_add _).symm
  rw [parse_eq_ofText]
  generalize Reading.ofText text.length 0 text = reading at tells
  cases tells with
  | last spells => exact .inl spells
  | before _ spells _ => exact .inr ⟨_, _, rfl, spells⟩

/-- How a text is made up that some forms are read of. They are closed and fill the text, or the
last of them is cut short and those before it are closed, or they are closed and end where a
parenthesis closes nothing. -/
inductive Extent : Text → List Form → Prop where
  | whole {text : Text} {forms : List Form} : Spells false 0 text forms → Extent text forms
  | cut {before inside : Text} {closed : List Form} (children : List Form) {depth : Nat} :
    Spells false 0 before closed → Text.depthAfter? 0 inside = some depth →
      Extent (before ++ '(' :: inside)
        (closed ++ [.unclosed children ⟨before.length, (before ++ '(' :: inside).length⟩])
  | stray {front : Text} (rest : Text) {forms : List Form} : Spells false 0 front forms →
    Extent (front ++ ')' :: rest) forms

theorem extent_parse (text : Text) : Extent text (parse text) := by
  rcases spells_parse text with spells | ⟨front, rest, same, spells⟩
  · rcases spells.closed_or_unclosed with
      closed | ⟨before, inside, _, children, _, same, forms, closed, depth⟩
    · exact .whole closed
    · rw [Nat.zero_add, Nat.zero_add] at forms
      rw [forms, same]
      exact .cut children closed depth
  · have stray := Extent.stray rest spells
    rwa [← same] at stray

/-- A balanced text is nothing but its forms and the blanks around them. -/
theorem spells_of_isBalanced {text : Text} (balanced : text.isBalanced = true) :
    Spells false 0 text (parse text) := by
  have extent := extent_parse text
  generalize parse text = forms at extent
  cases extent with
  | whole spells => exact spells
  | cut _ _ depth =>
    rw [Text.isBalanced_unmatched depth] at balanced
    cases balanced
  | stray _ spells =>
    rw [Text.isBalanced_append_left spells.isBalanced] at balanced
    cases balanced

end Form

end Redex
