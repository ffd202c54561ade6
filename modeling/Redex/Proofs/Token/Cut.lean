import Redex.Proofs.Token.Standing

/-!
# How a text is cut into tokens

The tokens of a text are what there is to read in it, and nothing but blanks is between them. There
is only one way to cut up a text like this.

* `Text.isCutInto_scan`: the tokens of a text are a way to cut it up.
* `Text.IsCutInto.unique`: there is no other way.
-/

namespace Redex

/-- Whether tokens are what there is to read in a text, and nothing but blanks is between them. -/
structure Text.IsCutInto (text : Text) (tokens : List Token) : Prop where
  nonempty : ∀ token ∈ tokens, token.span.start < token.span.stop
  within : ∀ token ∈ tokens, token.span.stop ≤ text.length
  ordered : tokens.Pairwise fun first second => first.span.stop ≤ second.span.start
  slice_eq : ∀ token ∈ tokens, text.slice token.span = token.lexeme.text
  uncovered_iff : ∀ (pos : Nat) (c : Char), text[pos]? = some c →
    ((∀ token ∈ tokens, ¬ token.span.Covers pos) ↔ Redex.isBlank c = true)
  opening_iff : ∀ pos : Nat, text[pos]? = some '(' ↔ ⟨.opening, .single pos⟩ ∈ tokens
  closing_iff : ∀ pos : Nat, text[pos]? = some ')' ↔ ⟨.closing, .single pos⟩ ∈ tokens
  /-- An atom has no character that could not stand in one, and next to it there is none that
  could. -/
  atom_whole : ∀ name span, ⟨.atom name, span⟩ ∈ tokens →
    IsWord name ∧ Text.BeginsWord (text.take span.start) ∧ Text.EndsWord (text.drop span.stop)

namespace Text.IsCutInto

variable {text : Text} {tokens others : List Token} {token : Token} {name other : String}
  {span place : Span} {pos : Nat} {c : Char}

theorem mem_text (cut : text.IsCutInto tokens) (mem : token ∈ tokens)
    (covers : token.span.Covers pos) (char : text[pos]? = some c) : c ∈ token.lexeme.text :=
  cut.slice_eq token mem ▸ mem_slice covers char

theorem exists_char (cut : text.IsCutInto tokens) (mem : token ∈ tokens)
    (covers : token.span.Covers pos) : ∃ c, text[pos]? = some c ∧ c ∈ token.lexeme.text := by
  have within := Nat.lt_of_lt_of_le covers.2 (cut.within token mem)
  have char : text[pos]? = some text[pos] := List.getElem?_eq_getElem within
  exact ⟨_, char, cut.mem_text mem covers char⟩

theorem exists_covers (cut : text.IsCutInto tokens) (char : text[pos]? = some c)
    (notBlank : Redex.isBlank c = false) : ∃ token ∈ tokens, token.span.Covers pos := by
  apply Classical.byContradiction
  intro uncovered
  have blank : Redex.isBlank c = true :=
    (cut.uncovered_iff pos c char).1 fun token mem covers => uncovered ⟨token, mem, covers⟩
  rw [notBlank] at blank
  cases blank

/-- Next to an atom there is no character of another one, wherever that other one was found. -/
theorem not_covers_next (cut : text.IsCutInto tokens) (cutToo : text.IsCutInto others)
    (mem : ⟨.atom name, span⟩ ∈ tokens) (memToo : ⟨.atom other, place⟩ ∈ others)
    (next : pos + 1 = span.start ∨ pos = span.stop) : ¬ place.Covers pos := by
  intro covers
  obtain ⟨c, char, inOther⟩ := cutToo.exists_char memToo covers
  have wordChar := (cutToo.atom_whole other place memToo).1.wordChars c inOther
  obtain ⟨_, begins, ends⟩ := cut.atom_whole name span mem
  suffices isWordChar c = false by rw [this] at wordChar; cases wordChar
  rcases next with next | rfl
  · apply begins c
    rw [← next, List.getLast?_take, if_neg (Nat.succ_ne_zero pos), Nat.add_sub_cancel, char]
    rfl
  · apply ends c
    rw [List.head?_drop, char]
    rfl

/-- Where there is an atom, a cut has no other choice: the next character on either side would
belong to it. -/
theorem atom_mem (cut : text.IsCutInto tokens) (cutToo : text.IsCutInto others)
    (mem : ⟨.atom name, span⟩ ∈ tokens) : ⟨.atom name, span⟩ ∈ others := by
  have nonempty : span.start < span.stop := cut.nonempty _ mem
  have here : span.Covers span.start := ⟨Nat.le_refl _, nonempty⟩
  obtain ⟨c, char, inName⟩ := cut.exists_char mem here
  have wordChar := (cut.atom_whole name span mem).1.wordChars c inName
  -- the first character is part of some token, which can only be an atom, as no other has it
  obtain ⟨⟨lexeme, place⟩, memToo, covers⟩ :=
    cutToo.exists_covers char (isBlank_of_isWordChar wordChar)
  have inLexeme := cutToo.mem_text memToo covers char
  cases lexeme with
  | opening =>
    rw [List.mem_singleton.1 inLexeme] at wordChar
    cases wordChar
  | closing =>
    rw [List.mem_singleton.1 inLexeme] at wordChar
    cases wordChar
  | atom other =>
    obtain ⟨starts, stops⟩ : place.start ≤ span.start ∧ span.start < place.stop := covers
    have start : ¬ place.start < span.start := fun before =>
      cut.not_covers_next cutToo mem memToo (.inl (Nat.sub_add_cancel (by omega)))
        ⟨Nat.le_sub_one_of_lt before, by omega⟩
    have stop : ¬ span.stop < place.stop := fun longer =>
      cut.not_covers_next cutToo mem memToo (.inr rfl) ⟨by omega, longer⟩
    have stopToo : ¬ place.stop < span.stop := fun shorter =>
      cutToo.not_covers_next cut memToo mem (.inr rfl) ⟨by omega, shorter⟩
    have same : place = span := by
      obtain ⟨first, last⟩ := place
      obtain ⟨first', last'⟩ := span
      simp only [Span.mk.injEq] at *
      omega
    subst same
    have chars : name.toList = other.toList :=
      (cut.slice_eq _ mem).symm.trans (cutToo.slice_eq _ memToo)
    rw [String.toList_inj.1 chars]
    exact memToo

theorem parenthesis_single {lexeme : Lexeme} (cut : text.IsCutInto tokens)
    (mem : ⟨lexeme, span⟩ ∈ tokens) (parenthesis : lexeme.text = [c]) :
    span = .single span.start ∧ text[span.start]? = some c := by
  have alone : text.slice span = [c] := (cut.slice_eq _ mem).trans parenthesis
  have nonempty : span.start < span.stop := cut.nonempty _ mem
  have within : span.stop ≤ text.length := cut.within _ mem
  have length := congrArg List.length alone
  rw [length_slice within, List.length_singleton] at length
  have single : span = .single span.start := by
    have stop : span.stop = span.start + 1 := by omega
    rw [Span.single, ← stop]
  rw [single] at alone
  exact ⟨single, getElem?_of_slice_single alone⟩

/-- Two ways to cut up a text have the same tokens. -/
theorem subset (cut : text.IsCutInto tokens) (cutToo : text.IsCutInto others) :
    tokens ⊆ others := by
  rintro ⟨lexeme, span⟩ mem
  cases lexeme with
  | opening =>
    obtain ⟨single, char⟩ := cut.parenthesis_single mem rfl
    rw [single]
    exact (cutToo.opening_iff _).1 char
  | closing =>
    obtain ⟨single, char⟩ := cut.parenthesis_single mem rfl
    rw [single]
    exact (cutToo.closing_iff _).1 char
  | atom name => exact cut.atom_mem cutToo mem

theorem starts_increasing (cut : text.IsCutInto tokens) :
    tokens.Pairwise fun first second => first.span.start < second.span.start := by
  refine cut.ordered.imp_of_mem fun mem _ ordered => ?_
  exact Nat.lt_of_lt_of_le (cut.nonempty _ mem) ordered

theorem nodup (cut : text.IsCutInto tokens) : tokens.Nodup := by
  refine List.Pairwise.imp ?_ cut.starts_increasing
  rintro token _ before rfl
  exact Nat.lt_irrefl _ before

/-- There is one way at most to cut up a text. -/
theorem unique (cut : text.IsCutInto tokens) (cutToo : text.IsCutInto others) :
    tokens = others := by
  have same : tokens.Perm others :=
    (List.perm_ext_iff_of_nodup cut.nodup cutToo.nodup).2
      fun token => ⟨@cut.subset _ _ _ cutToo token, @cutToo.subset _ _ _ cut token⟩
  exact same.eq_of_pairwise (fun _ _ _ _ before after => absurd before (Nat.lt_asymm after))
    cut.starts_increasing cutToo.starts_increasing

end Text.IsCutInto

end Redex
