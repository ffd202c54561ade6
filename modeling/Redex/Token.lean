import Redex.Text.Blank

/-!
# Tokens

A text is a sequence of parentheses and atoms, with blanks in between. A parenthesis is a token
wherever it stands; an atom is a longest run of characters that are neither blank nor a
parenthesis. Every text can be read, and what no token covers is blank.

* `Token.scanFrom_blank`, `Token.scanFrom_opening`, `Token.scanFrom_closing`,
  `Token.scanFrom_word`: what the first character of a text decides.
* `Token.isRead_of_mem_scanFrom`: what the tokens of a text are like.
-/

namespace Redex

def isWordChar (c : Char) : Bool := !isBlank c && c != '(' && c != ')'

/-- What a token is, wherever it stands. -/
inductive Lexeme where
  | opening
  | closing
  | atom (name : String)
  deriving DecidableEq, Repr

def Lexeme.text : Lexeme → Text
  | .opening => ['(']
  | .closing => [')']
  | .atom name => name.toList

/-- A lexeme and the stretch of text that it was read from. -/
structure Token where
  lexeme : Lexeme
  span : Span
  deriving DecidableEq, Repr

namespace Token

/-- The tokens of a text whose first character stands at `pos`. -/
def scanFrom (pos : Nat) : Text → List Token
  | [] => []
  | c :: rest =>
    if isBlank c then scanFrom (pos + 1) rest
    else if c = '(' then ⟨.opening, .single pos⟩ :: scanFrom (pos + 1) rest
    else if c = ')' then ⟨.closing, .single pos⟩ :: scanFrom (pos + 1) rest
    else
      let word := c :: rest.takeWhile isWordChar
      let stop := pos + word.length
      ⟨.atom (.ofList word), pos, stop⟩ :: scanFrom stop (rest.dropWhile isWordChar)
termination_by text => text.length
decreasing_by
  all_goals simp only [List.length_cons]
  all_goals have := (List.dropWhile_sublist isWordChar (l := rest)).length_le
  all_goals omega

def scan (text : Text) : List Token := scanFrom 0 text

section

variable {pos : Nat} {c : Char} {rest : Text}

@[simp] theorem scanFrom_nil : scanFrom pos [] = [] := by
  rw [scanFrom]

theorem scanFrom_blank (h : isBlank c = true) :
    scanFrom pos (c :: rest) = scanFrom (pos + 1) rest := by
  rw [scanFrom, if_pos h]

theorem scanFrom_opening :
    scanFrom pos ('(' :: rest) = ⟨.opening, .single pos⟩ :: scanFrom (pos + 1) rest := by
  rw [scanFrom, if_neg (by decide), if_pos rfl]

theorem scanFrom_closing :
    scanFrom pos (')' :: rest) = ⟨.closing, .single pos⟩ :: scanFrom (pos + 1) rest := by
  rw [scanFrom, if_neg (by decide), if_neg (by decide), if_pos rfl]

theorem scanFrom_word (h : isWordChar c = true) :
    scanFrom pos (c :: rest) =
      ⟨.atom (.ofList (c :: rest.takeWhile isWordChar)), pos,
        pos + (c :: rest.takeWhile isWordChar).length⟩ ::
        scanFrom (pos + (c :: rest.takeWhile isWordChar).length) (rest.dropWhile isWordChar) := by
  have hc : (isBlank c = false ∧ c ≠ '(') ∧ c ≠ ')' := by simpa [isWordChar] using h
  rw [scanFrom, if_neg (by simp [hc.1.1]), if_neg hc.1.2, if_neg hc.2]

end

/-- What a token of a text is like: a parenthesis, or a word of at least one character, with a
position for each of its characters. -/
inductive IsRead : Token → Prop where
  | opening (pos : Nat) : IsRead ⟨.opening, .single pos⟩
  | closing (pos : Nat) : IsRead ⟨.closing, .single pos⟩
  | word (pos : Nat) {chars : Text} : chars ≠ [] → (∀ c ∈ chars, isWordChar c = true) →
    IsRead ⟨.atom (.ofList chars), pos, pos + chars.length⟩

/-- A token is never empty, and its span is as long as it is. -/
theorem isRead_of_mem_scanFrom {pos : Nat} {text : Text} {token : Token}
    (mem : token ∈ scanFrom pos text) : token.IsRead := by
  fun_induction scanFrom pos text with
  | case1 => cases mem
  | case2 pos c rest blank ih => exact ih mem
  | case3 pos rest notBlank ih =>
    rcases List.mem_cons.1 mem with rfl | mem
    · exact .opening pos
    · exact ih mem
  | case4 pos rest notBlank notOpening ih =>
    rcases List.mem_cons.1 mem with rfl | mem
    · exact .closing pos
    · exact ih mem
  | case5 pos c rest notBlank notOpening notClosing word stop ih =>
    rcases List.mem_cons.1 mem with rfl | mem
    · refine .word pos (List.cons_ne_nil c _) (List.forall_mem_cons.2 ⟨?_, ?_⟩)
      · simp [isWordChar, notBlank, notOpening, notClosing]
      · exact List.all_eq_true.1 List.all_takeWhile
    · exact ih mem

end Token

end Redex
