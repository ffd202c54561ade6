import Redex.Proofs.Form.Words
import Redex.Proofs.Term.RoundTrip

/-!
# Terms are written like forms

A term is written the way its form is, parenthesis by parenthesis and with a space between
neighbours. So writing undoes reading as far as it can: what is lost is only how many blanks there
were.

* `text_of_ofForm`: a term is written like the form that it was read from.
* `parse_render_inverse`: reading and printing undo one another.
-/

namespace Redex

namespace Form

def spaced (forms : List Form) : Text := forms.flatMap fun form => ' ' :: form.text

theorem spaced_cons (form : Form) (rest : List Form) :
    spaced (form :: rest) = ' ' :: (form.text ++ spaced rest) := List.flatMap_cons

theorem spaced_concat (forms : List Form) (last : Form) :
    spaced (forms ++ [last]) = spaced forms ++ ' ' :: last.text := by
  simp [spaced]

theorem writeAll_cons (form : Form) (rest : List Form) (after : Text) :
    writeAll (form :: rest) after = form.text ++ (spaced rest ++ after) := by
  induction rest generalizing form with
  | nil => exact write_eq form after
  | cons next rest ih =>
    rw [writeAll, write_eq, ih next, spaced_cons, List.cons_append, List.append_assoc]

theorem text_atom (name : String) (span : Span) : (atom name span).text = name.toList :=
  List.append_nil _

theorem text_list (head : Form) (rest : List Form) (span : Span) :
    (list (head :: rest) span).text = '(' :: ((head.text ++ spaced rest) ++ [')']) := by
  rw [text, write, writeAll_cons, List.append_assoc]

end Form

namespace Term

theorem spaced_parameters {forms : List Form} {names : List String}
    (same : forms.map Form.name? = names.map some) :
    Form.spaced forms = writeNames names [] := by
  induction forms generalizing names with
  | nil =>
    obtain rfl : names = [] := List.map_eq_nil_iff.1 same.symm
    rfl
  | cons form rest ih =>
    obtain ⟨name, span, others, rfl, rfl, areAtoms⟩ := exists_atom_of_map_name?_cons same
    rw [Form.spaced_cons, Form.text_atom, writeNames_cons, ih areAtoms]

/-- Whether a form is written like the term that it is. -/
def WrittenAlike (form : Form) : Prop := ∀ term, ofForm form = .ok term → term.text = form.text

theorem spaced_arguments {forms : List Form} {terms : List Term}
    (alike : ∀ form ∈ forms, WrittenAlike form) (ok : forms.mapM ofForm = .ok terms) :
    Form.spaced forms = writeArguments terms [] := by
  induction forms generalizing terms with
  | nil =>
    cases ok
    rfl
  | cons form rest ih =>
    obtain ⟨first, others⟩ := List.forall_mem_cons.1 alike
    obtain ⟨term, terms, rfl, okTerm, okTerms⟩ := mapM_ofForm_cons_eq_ok ok
    rw [Form.spaced_cons, writeArguments_cons, first term okTerm, ih others okTerms]

/-- Of what is written, a term keeps everything: names, order and lists. -/
theorem text_of_ofForm (form : Form) : WrittenAlike form := by
  induction form with
  | atom name span =>
    intro term ok
    obtain ⟨_, rfl⟩ := ofForm_atom_eq_ok_iff.1 ok
    rfl
  | unclosed children span =>
    intro term ok
    cases ok
  | list children span ih =>
    intro term ok
    rcases ofForm_list_eq_ok_iff.1 ok with
      ⟨head, front, last, names, body, rfl, isGlyph, _, okNames, okBody, rfl⟩ |
      ⟨head, rest, function, arguments, rfl, _, okFunction, okArguments, rfl⟩
    · have isLast : last ∈ head :: (front ++ [last]) :=
        .tail head (List.mem_append_right front List.mem_cons_self)
      obtain ⟨glyphSpan, rfl⟩ := exists_atom_of_name? (isGlyph_iff.1 isGlyph)
      have parameters := spaced_parameters (parametersOf_eq_ok_iff.1 okNames).1
      rw [text_abs, ih last isLast body okBody, Form.text_list, Form.text_atom,
        Form.spaced_concat, parameters]
      simp only [List.append_assoc]
    · have others : ∀ form ∈ rest, WrittenAlike form := fun form mem => ih form (.tail head mem)
      rw [text_app, Form.text_list, ih head List.mem_cons_self function okFunction,
        spaced_arguments others okArguments]

/-- **Reading and printing undo one another.** A legible term is the only term of what is printed
of it, from the first character to the last. And if a form of a text is a term, that term is legible
and is printed like the form. -/
theorem parse_render_inverse :
    (∀ term : Term, term.IsLegible → ∃ form, Form.parse term.render.toList = [form] ∧
      form.span = ⟨0, term.render.length⟩ ∧ ofForm form = .ok term) ∧
    ∀ text, ∀ form ∈ Form.parse text, ∀ term, ofForm form = .ok term →
      term.IsLegible ∧ term.render = form.render := by
  refine ⟨fun term legible => legible.parse_render, fun text form parsed term ok => ⟨?_, ?_⟩⟩
  · apply isLegible_of_ofForm ok
    exact fun name mem => isWord_of_parse parsed mem
  · exact congrArg String.ofList (text_of_ofForm form term ok)

/-- A parameter that is there twice is printed twice, and blanks are printed as single spaces. -/
theorem parse_render_inverse_repeated :
    let term := Term.app (.abs ["x", "x"] (.var "x")) [.var "y"]
    let text : Text := "( (λ x x  x)y ) )".toList
    term.IsLegible ∧
      (∃ form, Form.parse term.render.toList = [form] ∧ ofForm form = .ok term) ∧
      ∃ form ∈ Form.parse text, ofForm form = .ok term ∧ term.render = form.render := by
  have parsed : Form.parse "( (λ x x  x)y ) )".toList =
      [.list [.list [.atom "λ" ⟨3, 4⟩, .atom "x" ⟨5, 6⟩, .atom "x" ⟨7, 8⟩, .atom "x" ⟨10, 11⟩]
        ⟨2, 12⟩, .atom "y" ⟨12, 13⟩] ⟨0, 15⟩] := by cbv
  intro term text
  have x : IsName "x" := ⟨⟨by decide, List.forall_mem_singleton.2 rfl⟩, by decide⟩
  have y : IsName "y" := ⟨⟨by decide, List.forall_mem_singleton.2 rfl⟩, by decide⟩
  have legible : term.IsLegible := by simp [term, x, y]
  obtain ⟨spread, mem, ok⟩ : ∃ form ∈ Form.parse text, ofForm form = .ok term := by
    rw [parsed]
    exact ⟨_, List.mem_singleton_self _, rfl⟩
  obtain ⟨form, alone, _, read⟩ := parse_render_inverse.1 term legible
  obtain ⟨_, same⟩ := parse_render_inverse.2 text spread mem term ok
  exact ⟨legible, ⟨form, alone, read⟩, spread, mem, ok, same⟩

end Term

end Redex
