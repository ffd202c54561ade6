import Redex.Form.Assembly

/-!
# Reading from right to left

What the tokens of a tail of a text amount to can be said without regard to what stands before the
tail. It is a `Reading`: the forms that stand before the first closing parenthesis with no partner
in the tail, and what follows each such parenthesis. An opening parenthesis in front of the tail
takes the first of them for its partner, or is never closed if there is none. So the tokens can be
read from the last to the first, and properties of the forms of a text be proved token by token.

The lists that are open before a tail are closed by its unmatched closing parentheses, one after
the other, and the tail decides in this way what becomes of them.

* `Reading.prepend_closing`, `Reading.prepend_opening_unmatched`,
  `Reading.prepend_opening_matched`: what one more parenthesis does to a reading.
* `Assembly.around_of_read?`, `Assembly.around_of_stray`: it does not matter whether a token is
  read on the one side or on the other.
* `Assembly.unwind_readAll`, `Form.parse_eq_ofTokens`: both ways of reading find the same forms.
-/

namespace Redex

/-- What the tokens of a tail of a text amount to, whatever stands before that tail. -/
structure Reading where
  /-- The forms before the first closing parenthesis that has no partner in the tail. -/
  forms : List Form
  /-- For each closing parenthesis without a partner where it ends, and the forms after it. -/
  unmatched : List (Nat × List Form)

namespace Reading

def empty : Reading := ⟨[], []⟩

/-- Opens a list at `start` around the first forms of a reading, of a text that ends at `stop`. -/
def enclose (stop start : Nat) (reading : Reading) : Reading :=
  match reading.unmatched with
  | [] => ⟨[.unclosed reading.forms ⟨start, stop⟩], []⟩
  | (closed, after) :: unmatched => ⟨.list reading.forms ⟨start, closed⟩ :: after, unmatched⟩

/-- Reads one more token, of a text that ends at `stop`, in front of a reading. -/
def prepend (stop : Nat) (token : Token) (reading : Reading) : Reading :=
  match token.lexeme with
  | .atom name => ⟨.atom name token.span :: reading.forms, reading.unmatched⟩
  | .opening => reading.enclose stop token.span.start
  | .closing => ⟨[], (token.span.stop, reading.forms) :: reading.unmatched⟩

def ofTokens (stop : Nat) (tokens : List Token) : Reading :=
  tokens.foldr (prepend stop) empty

def after (forms : List Form) (reading : Reading) : Reading :=
  ⟨forms ++ reading.forms, reading.unmatched⟩

theorem after_after (left right : List Form) (reading : Reading) :
    after left (after right reading) = after (left ++ right) reading := by
  simp only [after, List.append_assoc]

section

variable {stop : Nat} {span : Span} {reading : Reading}

theorem ofTokens_cons (token : Token) (tokens : List Token) :
    ofTokens stop (token :: tokens) = prepend stop token (ofTokens stop tokens) := rfl

theorem prepend_closing :
    prepend stop ⟨.closing, span⟩ reading =
      ⟨[], (span.stop, reading.forms) :: reading.unmatched⟩ := rfl

theorem prepend_opening_unmatched (h : reading.unmatched = []) :
    prepend stop ⟨.opening, span⟩ reading =
      ⟨[.unclosed reading.forms ⟨span.start, stop⟩], []⟩ := by
  simp only [prepend, enclose, h]

theorem prepend_opening_matched {closed : Nat} {after : List Form}
    {rest : List (Nat × List Form)} (h : reading.unmatched = (closed, after) :: rest) :
    prepend stop ⟨.opening, span⟩ reading =
      ⟨.list reading.forms ⟨span.start, closed⟩ :: after, rest⟩ := by
  simp only [prepend, enclose, h]

end

end Reading

namespace Assembly

variable {stop : Nat} {assembly next : Assembly} {token : Token} {reading : Reading}

/-- The forms of a text that ends at `stop`, from what was put together before some point of it and
the reading of what is behind. -/
def around (stop : Nat) (assembly : Assembly) (reading : Reading) : List Form :=
  assembly.forest ++ (assembly.opened.foldl (fun inner list =>
    (inner.after list.2).enclose stop list.1) reading).forms

/-- A form that is added last before the tail may be added as the first one of the tail. -/
theorem around_attach (form : Form) :
    (assembly.attach form).around stop reading = assembly.around stop (reading.after [form]) := by
  obtain ⟨opened, forest⟩ := assembly
  cases opened with
  | nil => simp [attach, around, Reading.after]
  | cons list opened => simp [attach, around, Reading.after_after]

theorem around_opened (start : Nat) (children : List Form) (opened : List (Nat × List Form))
    (forest : List Form) :
    around stop ⟨(start, children) :: opened, forest⟩ reading =
      around stop ⟨opened, forest⟩ ((reading.after children).enclose stop start) := rfl

/-- A token of the tail may be read as the last one before it. -/
theorem around_of_read? (step : assembly.read? token = some next) :
    assembly.around stop (.prepend stop token reading) = next.around stop reading := by
  obtain ⟨opened, forest⟩ := assembly
  obtain ⟨lexeme, span⟩ := token
  cases lexeme with
  | atom name =>
    cases step
    exact (around_attach _).symm
  | opening =>
    cases step
    exact (around_opened span.start [] opened forest).symm
  | closing =>
    cases opened with
    | nil => cases step
    | cons list opened =>
      obtain ⟨start, children⟩ := list
      cases step
      rw [around_attach, around_opened, Reading.prepend_closing]
      simp [Reading.after, Reading.enclose]

/-- What follows a closing parenthesis that finds no list open is not read. -/
theorem around_of_stray (stray : assembly.read? token = none) :
    assembly.around stop (.prepend stop token reading) = assembly.around stop .empty := by
  obtain ⟨opened, forest⟩ := assembly
  obtain ⟨lexeme, span⟩ := token
  cases lexeme with
  | atom name => cases stray
  | opening => cases stray
  | closing =>
    cases opened with
    | nil => rfl
    | cons list opened => cases stray

/-- At the end of the text there is nothing behind to close a list. -/
theorem unwind_eq_around (stop : Nat) (assembly : Assembly) :
    assembly.unwind stop = assembly.around stop .empty := by
  fun_induction unwind stop assembly with
  | case1 forest => exact (List.append_nil forest).symm
  | case2 start children opened forest ih =>
    rw [ih, around_attach, around_opened]
    simp [Reading.after, Reading.enclose, Reading.empty]

/-- The forms are the same wherever the reading from the left is broken off for the reading from
the right. -/
theorem unwind_readAll (stop : Nat) (assembly : Assembly) (tokens : List Token) :
    (assembly.readAll tokens).unwind stop =
      assembly.around stop (Reading.ofTokens stop tokens) := by
  induction tokens generalizing assembly with
  | nil => exact unwind_eq_around stop assembly
  | cons token tokens ih =>
    rw [Reading.ofTokens_cons]
    cases step : assembly.read? token with
    | some next => rw [readAll_next tokens step, around_of_read? step, ih next]
    | none => rw [readAll_end tokens step, around_of_stray step, unwind_eq_around]

end Assembly

/-- **Forms may be read from either end.** -/
theorem Form.parse_eq_ofTokens (text : Text) :
    parse text = (Reading.ofTokens text.length (Token.scan text)).forms :=
  Assembly.unwind_readAll text.length ⟨[], []⟩ (Token.scan text)

end Redex
