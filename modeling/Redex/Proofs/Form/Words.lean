import Redex.Proofs.Form.Assembly
import Redex.Proofs.Name

/-!
# Words in forms

The atoms in the forms of a text are atoms of the text, so they are made of what atoms are made of.

* `isWord_of_parse`: every word in a form of a text is one.
-/

namespace Redex

namespace Form

mutual

def words : Form → List String
  | .atom name _ => [name]
  | .list children _ => wordsOfAll children
  | .unclosed children _ => wordsOfAll children

def wordsOfAll : List Form → List String
  | [] => []
  | form :: rest => form.words ++ wordsOfAll rest

end

theorem wordsOfAll_eq_flatMap (forms : List Form) : wordsOfAll forms = forms.flatMap words := by
  induction forms with
  | nil => rfl
  | cons form rest ih => rw [wordsOfAll, ih, List.flatMap_cons]

theorem mem_wordsOfAll {forms : List Form} {name : String} :
    name ∈ wordsOfAll forms ↔ ∃ form ∈ forms, name ∈ form.words := by
  rw [wordsOfAll_eq_flatMap, List.mem_flatMap]

end Form

theorem isWord_of_scanFrom {pos : Nat} {text : Text} {token : Token} {name : String}
    (mem : token ∈ Token.scanFrom pos text) (atom : token.lexeme = .atom name) : IsWord name := by
  have read := Token.isRead_of_mem_scanFrom mem
  cases read with
  | opening | closing => cases atom
  | word pos nonempty wordChars =>
    cases atom
    exact isWord_ofList nonempty wordChars

namespace Reading

def words (reading : Reading) : List String :=
  Form.wordsOfAll reading.forms ++ reading.unmatched.flatMap fun entry => Form.wordsOfAll entry.2

theorem mem_words_prepend {stop : Nat} {token : Token} {reading : Reading} {name : String}
    (mem : name ∈ (prepend stop token reading).words) :
    token.lexeme = .atom name ∨ name ∈ reading.words := by
  obtain ⟨lexeme, span⟩ := token
  cases lexeme with
  | atom other =>
    have mem : name ∈ other :: reading.words := mem
    rcases List.mem_cons.1 mem with rfl | mem
    · exact .inl rfl
    · exact .inr mem
  | closing => exact .inr mem
  | opening =>
    right
    cases unmatched : reading.unmatched with
    | nil =>
      rw [prepend_opening_unmatched unmatched] at mem
      simpa [words, unmatched, Form.wordsOfAll, Form.words] using mem
    | cons entry rest =>
      rw [prepend_opening_matched unmatched] at mem
      simpa [words, unmatched, Form.wordsOfAll, Form.words] using mem

theorem words_ofTokens {stop : Nat} {tokens : List Token} {name : String}
    (mem : name ∈ (ofTokens stop tokens).words) :
    ∃ token ∈ tokens, token.lexeme = .atom name := by
  induction tokens with
  | nil => exact absurd mem List.not_mem_nil
  | cons token tokens ih =>
    rw [ofTokens_cons] at mem
    rcases mem_words_prepend mem with atom | mem
    · exact ⟨token, List.mem_cons_self, atom⟩
    · obtain ⟨other, mem, atom⟩ := ih mem
      exact ⟨other, .tail token mem, atom⟩

end Reading

theorem isWord_of_parse {text : Text} {form : Form} (parsed : form ∈ Form.parse text)
    {name : String} (mem : name ∈ form.words) : IsWord name := by
  have inAll : name ∈ Form.wordsOfAll (Form.parse text) :=
    Form.mem_wordsOfAll.2 ⟨form, parsed, mem⟩
  rw [Form.parse_eq_ofTokens] at inAll
  obtain ⟨token, mem, atom⟩ := Reading.words_ofTokens (List.mem_append_left _ inAll)
  exact isWord_of_scanFrom mem atom

end Redex
