import Redex.Proofs.Form.Assembly

/-!
# The tokens of forms

Forms are read from tokens, and the tokens can be had back from them: an atom is one, a list is the
two parentheses around its forms, and a list that is never closed has the first of them only.

* `Reading.tokensAt_ofTokens`: a reading keeps the tokens it was made of.
* `Form.tokensOfAll_parse`: nothing is lost or added when a text is read.
-/

namespace Redex

/-- How many parentheses are open after one more lexeme, or nothing if the lexeme closes a
parenthesis and none is open. -/
def Lexeme.depthAfter? : Nat → Lexeme → Option Nat
  | depth, .atom _ => some depth
  | depth, .opening => some (depth + 1)
  | 0, .closing => none
  | depth + 1, .closing => some depth

namespace Token

/-- The tokens before the first closing parenthesis that has no partner, where `depth` parentheses
are open before all of them. -/
def untilUnmatched (depth : Nat) : List Token → List Token
  | [] => []
  | token :: rest =>
    match token.lexeme.depthAfter? depth with
    | some next => token :: untilUnmatched next rest
    | none => []

end Token

namespace Form

mutual

def tokens : Form → List Token
  | .atom name span => [⟨.atom name, span⟩]
  | .list children span =>
    ⟨.opening, span.start, span.start + 1⟩ ::
      (tokensOfAll children ++ [⟨.closing, span.stop - 1, span.stop⟩])
  | .unclosed children span => ⟨.opening, span.start, span.start + 1⟩ :: tokensOfAll children

def tokensOfAll : List Form → List Token
  | [] => []
  | form :: rest => form.tokens ++ tokensOfAll rest

end

/-- Whether every list in a form is closed. -/
inductive IsClosed : Form → Prop where
  | atom (name : String) (span : Span) : IsClosed (.atom name span)
  | list {children : List Form} (span : Span) :
    (∀ child ∈ children, IsClosed child) → IsClosed (.list children span)

/-- Whether every list in some forms is closed, except that the end of the text, at `stop`, may
cut short the last of them and the last form inside that, and so on. -/
inductive CutShort (stop : Nat) : List Form → Prop where
  | nowhere {forms : List Form} : (∀ form ∈ forms, form.IsClosed) → CutShort stop forms
  | last {forms children : List Form} (start : Nat) :
    (∀ form ∈ forms, form.IsClosed) → CutShort stop children →
      CutShort stop (forms ++ [.unclosed children ⟨start, stop⟩])

theorem CutShort.cons {stop : Nat} {form : Form} {forms : List Form} (closed : form.IsClosed)
    (rest : CutShort stop forms) : CutShort stop (form :: forms) := by
  cases rest with
  | nowhere allClosed => exact .nowhere (List.forall_mem_cons.2 ⟨closed, allClosed⟩)
  | last start allClosed inside =>
    exact .last start (List.forall_mem_cons.2 ⟨closed, allClosed⟩) inside

end Form

namespace Reading

/-! ## No token is lost -/

/-- The tokens of a reading before its closing parenthesis that has no partner where `depth`
parentheses are open before it. -/
def tokensAt (depth : Nat) (reading : Reading) : List Token :=
  Form.tokensOfAll reading.forms ++ (reading.unmatched.take depth).flatMap fun entry =>
    ⟨.closing, entry.1 - 1, entry.1⟩ :: Form.tokensOfAll entry.2

section

variable {stop depth : Nat} {name : String} {span : Span} {reading : Reading}

theorem tokensAt_prepend_atom :
    (prepend stop ⟨.atom name, span⟩ reading).tokensAt depth =
      ⟨.atom name, span⟩ :: reading.tokensAt depth := rfl

theorem tokensAt_prepend_closing_succ (read : Token.IsRead ⟨.closing, span⟩) :
    (prepend stop ⟨.closing, span⟩ reading).tokensAt (depth + 1) =
      ⟨.closing, span⟩ :: reading.tokensAt depth := by
  cases read
  simp [prepend_closing, tokensAt, Form.tokensOfAll, Span.single]

/-- The partner of an opening parenthesis is the first unmatched one after it, so one more of the
unmatched ones counts. -/
theorem tokensAt_prepend_opening (read : Token.IsRead ⟨.opening, span⟩) :
    (prepend stop ⟨.opening, span⟩ reading).tokensAt depth =
      ⟨.opening, span⟩ :: reading.tokensAt (depth + 1) := by
  cases read
  cases unmatched : reading.unmatched with
  | nil =>
    rw [prepend_opening_unmatched unmatched]
    simp [tokensAt, unmatched, Form.tokensOfAll, Form.tokens, Span.single]
  | cons entry rest =>
    rw [prepend_opening_matched unmatched]
    simp [tokensAt, unmatched, Form.tokensOfAll, Form.tokens, Span.single]

end

theorem tokensAt_ofTokens (stop depth : Nat) {tokens : List Token}
    (read : ∀ token ∈ tokens, token.IsRead) :
    (ofTokens stop tokens).tokensAt depth = Token.untilUnmatched depth tokens := by
  induction tokens generalizing depth with
  | nil => simp [ofTokens, empty, tokensAt, Form.tokensOfAll, Token.untilUnmatched]
  | cons token tokens ih =>
    obtain ⟨head, rest⟩ := List.forall_mem_cons.1 read
    obtain ⟨lexeme, span⟩ := token
    rw [ofTokens_cons]
    cases lexeme with
    | atom name =>
      rw [tokensAt_prepend_atom, ih depth rest]
      rfl
    | opening =>
      rw [tokensAt_prepend_opening head, ih (depth + 1) rest]
      rfl
    | closing =>
      cases depth with
      | zero => rfl
      | succ depth =>
        rw [tokensAt_prepend_closing_succ head, ih depth rest]
        rfl

/-! ## Only the end of the text leaves a list open -/

/-- Whether only the forms after the last closing parenthesis without a partner are cut short by
the end of the text. -/
inductive CutShort (stop : Nat) : Reading → Prop where
  | last {forms : List Form} : Form.CutShort stop forms → CutShort stop ⟨forms, []⟩
  | before {forms after : List Form} (closed : Nat) {rest : List (Nat × List Form)} :
    (∀ form ∈ forms, form.IsClosed) → CutShort stop ⟨after, rest⟩ →
      CutShort stop ⟨forms, (closed, after) :: rest⟩

section

variable {stop : Nat} {reading : Reading}

theorem CutShort.forms (cutShort : CutShort stop reading) : Form.CutShort stop reading.forms := by
  cases cutShort with
  | last forms => exact forms
  | before closed forms after => exact .nowhere forms

theorem CutShort.cons {form : Form} (closed : form.IsClosed) (cutShort : CutShort stop reading) :
    CutShort stop ⟨form :: reading.forms, reading.unmatched⟩ := by
  cases cutShort with
  | last forms => exact .last (forms.cons closed)
  | before closedAt forms after =>
    exact .before closedAt (List.forall_mem_cons.2 ⟨closed, forms⟩) after

theorem CutShort.prepend (cutShort : CutShort stop reading) (token : Token) :
    CutShort stop (prepend stop token reading) := by
  obtain ⟨lexeme, span⟩ := token
  cases lexeme with
  | atom name => exact cutShort.cons (.atom name span)
  | closing => exact .before span.stop (List.forall_mem_nil _) cutShort
  | opening =>
    cases cutShort with
    | last forms => exact .last (.last span.start (List.forall_mem_nil _) forms)
    | before closed forms after => exact after.cons (.list ⟨span.start, closed⟩ forms)

theorem cutShort_ofTokens (stop : Nat) (tokens : List Token) :
    CutShort stop (ofTokens stop tokens) := by
  induction tokens with
  | nil => exact .last (.nowhere (List.forall_mem_nil _))
  | cons token tokens ih => exact ih.prepend token

end

end Reading

/-- Only the end of the text leaves a list without its closing parenthesis. -/
theorem Form.cutShort_parse (text : Text) : CutShort text.length (parse text) := by
  rw [parse_eq_ofTokens]
  exact (Reading.cutShort_ofTokens text.length (Token.scan text)).forms

/-- **Reading a text loses none of its tokens and adds none.** The tokens of the forms are those of
the text, place for place, up to the first closing parenthesis without a partner. The lists that
are never closed are cut short by the end of the text, and they are in no other list than one
another. -/
theorem Form.tokensOfAll_parse (text : Text) :
    tokensOfAll (parse text) = Token.untilUnmatched 0 (Token.scan text) ∧
      CutShort text.length (parse text) := by
  have read : ∀ token ∈ Token.scan text, token.IsRead := fun _ => Token.isRead_of_mem_scanFrom
  have kept := Reading.tokensAt_ofTokens text.length 0 read
  rw [Reading.tokensAt, List.take_zero, List.flatMap_nil, List.append_nil] at kept
  refine ⟨?_, cutShort_parse text⟩
  rw [parse_eq_ofTokens, kept]

/-- What follows a closing parenthesis without a partner is not read. -/
example : Form.tokensOfAll (Form.parse ['(', 'a', ')', ')', 'b']) =
    [⟨.opening, 0, 1⟩, ⟨.atom "a", 1, 2⟩, ⟨.closing, 2, 3⟩] := by cbv

end Redex
