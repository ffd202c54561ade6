import Redex.Proofs.Form.Shift
import Redex.Proofs.Form.Spelling

/-!
# Where forms stand

The span of a form is the stretch of text that it is written in, at whatever depth the form is.
Read alone, that stretch is the form again.

* `Form.located_of_mem_parse`: every node of the forms of a text stands where its span says.
* `Form.Located.parse_slice`: what a node is written in is read as that node.
* `Form.exists_form_of_mem_scan`: in a balanced text every token is part of a form.
-/

namespace Redex

theorem Span.eq_of_shift {span : Span} {start length : Nat}
    (moved : span.shift start = ⟨start, start + length⟩) : span = ⟨0, length⟩ := by
  obtain ⟨first, last⟩ := span
  simp only [shift, Span.mk.injEq] at moved ⊢
  omega

namespace Form

/-- Whether a piece of a text is a form in writing, with nothing around it. -/
inductive Written : (cut : Bool) → (pos : Nat) → Text → Form → Prop where
  | atom {cut : Bool} {pos : Nat} {name : String} : IsWord name →
    Written cut pos name.toList (.atom name ⟨pos, pos + name.toList.length⟩)
  | list {cut : Bool} {pos : Nat} {inside : Text} {children : List Form} :
    Spells false (pos + 1) inside children →
      Written cut pos ('(' :: (inside ++ [')'])) (.list children ⟨pos, pos + inside.length + 2⟩)
  | unclosed {pos : Nat} {inside : Text} {children : List Form} :
    Spells true (pos + 1) inside children →
      Written true pos ('(' :: inside) (.unclosed children ⟨pos, pos + inside.length + 1⟩)

/-- Whether a form is in writing where its span says. -/
inductive Located : Text → Form → Prop where
  | intro {cut : Bool} (left : Text) {piece right : Text} {node : Form} :
    Written cut left.length piece node → (cut = true → right = []) →
      Located (left ++ (piece ++ right)) node

namespace Written

variable {cut : Bool} {pos : Nat} {piece : Text} {node : Form}

theorem span (written : Written cut pos piece node) :
    node.span = ⟨pos, pos + piece.length⟩ := by
  cases written with
  | atom => rfl
  | list =>
    simp only [Form.span, List.length_cons, List.length_append, List.length_nil]
    congr 1
  | unclosed => rfl

theorem ne_nil (written : Written cut pos piece node) : piece ≠ [] := by
  cases written with
  | atom word =>
    intro empty
    exact word.nonempty (String.toList_inj.1 empty)
  | list => exact List.cons_ne_nil _ _
  | unclosed => exact List.cons_ne_nil _ _

theorem eq_name {name : String} {span : Span} (written : Written cut pos piece (.atom name span)) :
    piece = name.toList := by
  cases written with
  | atom => rfl

theorem eq_parenthesized {children : List Form} {span : Span}
    (written : Written cut pos piece (.list children span)) :
    ∃ inside, piece = '(' :: (inside ++ [')']) := by
  cases written with
  | @list _ _ inside => exact ⟨inside, rfl⟩

theorem spells (written : Written cut pos piece node) : Spells cut pos piece [node] := by
  cases written with
  | @atom _ _ name word =>
    have spells : Spells cut pos (name.toList ++ []) _ := .atom word .nil .nil
    rwa [List.append_nil] at spells
  | list inside => exact .list inside .nil
  | unclosed inside => exact .unclosed inside

end Written

end Form

namespace Spells

open Form

variable {cut : Bool} {pos : Nat} {text : Text} {forms : List Form}

theorem located (spells : Spells cut pos text forms) {left right : Text} (start : left.length = pos)
    (whole : cut = true → right = []) {level depth : Nat} {node : Form}
    (mem : (depth, node) ∈ nodesAtAll level forms) : Located (left ++ (text ++ right)) node := by
  have notCut {p : Prop} : false = true → p := fun isCut => absurd isCut Bool.false_ne_true
  -- the text before the piece and the one behind it grow with every step into the piece
  induction spells generalizing left right level with
  | nil => cases mem
  | @blank _ _ c rest _ _ _ ih =>
    have moved : left ++ (c :: rest ++ right) = (left ++ [c]) ++ (rest ++ right) := by simp
    rw [moved]
    exact ih (by simp [start]) whole mem
  | @atom cut _ name rest _ word _ _ ih =>
    subst start
    rw [nodesAtAll, List.mem_append] at mem
    rcases mem with here | later
    · rw [nodesAt, List.mem_singleton] at here
      cases here
      have written : Written false left.length name.toList _ := .atom word
      rw [List.append_assoc]
      exact .intro left written notCut
    · have moved : left ++ (name.toList ++ rest ++ right) =
          (left ++ name.toList) ++ (rest ++ right) := by simp
      rw [moved]
      exact ih List.length_append whole later
  | @list _ _ inside rest children _ spells _ ihInside ih =>
    subst start
    rw [nodesAtAll, List.mem_append, nodesAt, List.mem_cons] at mem
    rcases mem with (here | within) | later
    · cases here
      have moved : left ++ ('(' :: (inside ++ ')' :: rest) ++ right) =
          left ++ ('(' :: (inside ++ [')']) ++ (rest ++ right)) := by simp
      have written : Written false left.length _ _ := .list spells
      rw [moved]
      exact .intro left written notCut
    · have moved : left ++ ('(' :: (inside ++ ')' :: rest) ++ right) =
          (left ++ ['(']) ++ (inside ++ ')' :: (rest ++ right)) := by simp
      rw [moved]
      exact ihInside (by simp) notCut within
    · have moved : left ++ ('(' :: (inside ++ ')' :: rest) ++ right) =
          (left ++ '(' :: (inside ++ [')'])) ++ (rest ++ right) := by simp
      rw [moved]
      refine ih ?_ whole later
      simp only [List.length_append, List.length_cons, List.length_nil]
      omega
  | @unclosed _ inside children spells ih =>
    subst start
    rw [nodesAtAll, List.mem_append, nodesAt, List.mem_cons] at mem
    rcases mem with (here | within) | nothing
    · cases here
      exact .intro left (.unclosed spells) whole
    · have moved : left ++ ('(' :: inside ++ right) = (left ++ ['(']) ++ (inside ++ right) := by
        simp
      rw [moved]
      exact ih (by simp) whole within
    · cases nothing

/-- A piece of a text is read alone as the same forms, only that it begins at zero then. -/
theorem map_shift_parse (spells : Spells cut pos text forms) :
    (Form.parse text).map (Form.shift pos) = forms := by
  have whole : Reading.ofText (text.length + pos) pos (text ++ []) =
      Reading.after forms (Reading.ofText (text.length + pos) (pos + text.length) []) :=
    spells.ofText .nil fun _ => ⟨rfl, Nat.add_comm _ _⟩
  have moved : Reading.ofText (text.length + pos) (0 + pos) text =
      (Reading.ofText text.length 0 text).shift pos := Reading.ofText_shift 0 text
  rw [Nat.zero_add] at moved
  rw [List.append_nil, Reading.ofText_nil, moved] at whole
  have same := congrArg Reading.forms whole
  simp only [Reading.shift, Reading.after, Reading.empty, List.append_nil] at same
  rw [Form.parse_eq_ofText, same]

end Spells

namespace Form

/-- Every form of a text is in writing where its span says, however deep in others it is. -/
theorem located_of_mem_parse {text : Text} {depth : Nat} {node : Form}
    (mem : (depth, node) ∈ nodesAtAll 0 (parse text)) : Located text node := by
  have start : ([] : Text).length = 0 := rfl
  rcases spells_parse text with spells | ⟨front, rest, same, spells⟩
  · have whole : true = true → ([] : Text) = [] := fun _ => rfl
    have located := spells.located start whole mem
    rwa [List.nil_append, List.append_nil] at located
  · rw [same]
    exact spells.located start nofun mem

namespace Located

variable {text : Text} {node : Form}

theorem bounds (located : Located text node) :
    node.span.start < node.span.stop ∧ node.span.stop ≤ text.length := by
  obtain ⟨left, written, _⟩ := located
  have nonempty := List.length_pos_iff.2 written.ne_nil
  rw [written.span]
  simp only [List.length_append]
  omega

theorem written_slice (located : Located text node) :
    ∃ cut, Written cut node.span.start (text.slice node.span) node := by
  obtain ⟨left, written, _⟩ := located
  rw [written.span, Text.slice_append]
  exact ⟨_, written⟩

/-- What a node is written in is read alone as nothing but that node, in other words as one that
stands where the text begins and takes up all of it. -/
theorem parse_slice (located : Located text node) :
    ∃ form, parse (text.slice node.span) = [form] ∧ form.shift node.span.start = node ∧
      form.span = ⟨0, (text.slice node.span).length⟩ := by
  obtain ⟨cut, written⟩ := located.written_slice
  have moved := written.spells.map_shift_parse
  obtain ⟨form, alone, same⟩ := List.map_eq_singleton_iff.1 moved
  refine ⟨form, alone, same, ?_⟩
  apply Span.eq_of_shift
  rw [← span_shift, same]
  exact written.span

end Located

end Form

/-! ## Tokens -/

theorem Token.within_of_mem_scanFrom {pos : Nat} {text : Text} {token : Token}
    (mem : token ∈ scanFrom pos text) :
    pos ≤ token.span.start ∧ token.span.stop ≤ pos + text.length := by
  induction text using Text.pieceInduction generalizing pos with
  | nil =>
    rw [scanFrom_nil] at mem
    cases mem
  | blank c rest isBlank ih =>
    rw [scanFrom_blank isBlank] at mem
    have later := ih mem
    rw [List.length_cons]
    omega
  | opening rest ih =>
    rw [scanFrom_opening] at mem
    rw [List.length_cons]
    rcases List.mem_cons.1 mem with rfl | mem
    · simp only [Span.single]
      omega
    · have later := ih mem
      omega
  | closing rest ih =>
    rw [scanFrom_closing] at mem
    rw [List.length_cons]
    rcases List.mem_cons.1 mem with rfl | mem
    · simp only [Span.single]
      omega
    · have later := ih mem
      omega
  | word name rest word ends ih =>
    rw [scanFrom_name word ends] at mem
    rw [List.length_append]
    rcases List.mem_cons.1 mem with rfl | mem
    · simp only
      omega
    · have later := ih mem
      omega

/-- The tokens of what is written as some forms are theirs, and the rest of the text has its own. -/
theorem Spells.scanFrom_append {cut : Bool} {pos : Nat} {text : Text} {forms : List Form}
    (spells : Spells cut pos text forms) {rest : Text} (ends : rest.EndsWord) :
    Token.scanFrom pos (text ++ rest) =
      Form.tokensOfAll forms ++ Token.scanFrom (pos + text.length) rest := by
  induction spells generalizing rest with
  | nil => rfl
  | @blank _ pos c text forms isBlank _ ih =>
    rw [List.cons_append, Token.scanFrom_blank isBlank, ih ends, add_length_cons]
  | @atom _ pos name text forms word endsName _ ih =>
    rw [List.append_assoc, Token.scanFrom_name word (endsName.append ends), ih ends,
      List.length_append, Nat.add_assoc]
    rfl
  | @list _ pos inside text children forms _ _ ihInside ih =>
    have closing : Text.EndsWord (')' :: (text ++ rest)) := .cons _ (by decide)
    have behind : pos + 1 + inside.length + 1 = pos + inside.length + 2 := by omega
    have last : pos + inside.length + 2 - 1 = pos + 1 + inside.length := by omega
    rw [List.cons_append, List.append_assoc, List.cons_append, Token.scanFrom_opening,
      ihInside closing, Token.scanFrom_closing, behind, ih ends, add_length_parenthesized]
    simp only [Form.tokensOfAll, Form.tokens, Span.single, last, behind, List.cons_append,
      List.append_assoc, List.nil_append]
  | @unclosed pos inside children _ ih =>
    rw [List.cons_append, Token.scanFrom_opening, ih ends, add_length_cons]
    simp only [Form.tokensOfAll, Form.tokens, Span.single, List.cons_append, List.append_nil]

/-- What is written as some forms has their tokens and no others. -/
theorem Spells.scanFrom_eq {cut : Bool} {pos : Nat} {text : Text} {forms : List Form}
    (spells : Spells cut pos text forms) : Token.scanFrom pos text = Form.tokensOfAll forms := by
  have tokens := spells.scanFrom_append .nil
  rwa [List.append_nil, Token.scanFrom_nil, List.append_nil] at tokens

namespace Form

theorem mem_tokensOfAll {forms : List Form} {token : Token} :
    token ∈ tokensOfAll forms ↔ ∃ form ∈ forms, token ∈ form.tokens := by
  induction forms with
  | nil => simp [tokensOfAll]
  | cons form rest ih => simp [tokensOfAll, ih]

theorem Located.token_within {text : Text} {node : Form} (located : Located text node)
    {token : Token} (mem : token ∈ node.tokens) :
    node.span.start ≤ token.span.start ∧ token.span.stop ≤ node.span.stop := by
  obtain ⟨cut, written⟩ := located.written_slice
  have tokens := written.spells.scanFrom_eq
  have mem : token ∈ Token.scanFrom node.span.start (text.slice node.span) := by
    rw [tokens]
    exact mem_tokensOfAll.2 ⟨node, List.mem_cons_self, mem⟩
  rw [written.span]
  exact Token.within_of_mem_scanFrom mem

/-- In a balanced text every token is part of a form. -/
theorem exists_form_of_mem_scan {text : Text} (balanced : text.isBalanced = true) {token : Token}
    (mem : token ∈ Token.scan text) :
    ∃ form ∈ parse text, token ∈ form.tokens ∧ form.span.start ≤ token.span.start ∧
      token.span.stop ≤ form.span.stop := by
  rw [Token.scan, (spells_of_isBalanced balanced).scanFrom_eq] at mem
  obtain ⟨form, isForm, mem⟩ := mem_tokensOfAll.1 mem
  have node : (0, form) ∈ nodesAtAll 0 (parse text) :=
    mem_nodesAtAll.2 ⟨form, isForm, mem_nodesAt_self 0 form⟩
  exact ⟨form, isForm, mem, (located_of_mem_parse node).token_within mem⟩

end Form

end Redex
