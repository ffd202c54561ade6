import Redex.Term.Grammar

/-!
# Which forms are terms

The grammar is a function from forms to terms or faults. Here it is turned around: what a form has
to be if it is a term.

* `shape`: which kinds of lists there are.
* `parametersOf_eq_ok_iff`: which forms are parameters.
* `ofForm_atom_eq_ok_iff`, `ofForm_list_eq_ok_iff`: which forms are terms, and which terms.
-/

namespace Redex

namespace Term

theorem bind_eq_ok {α β : Type} {first : Except Fault α} {next : α → Except Fault β} {result : β}
    (ok : first >>= next = .ok result) : ∃ value, first = .ok value ∧ next value = .ok result := by
  cases first with
  | error fault => cases ok
  | ok value => exact ⟨value, rfl, ok⟩

/-- What a list is meant for, to judge by its length and its first form. -/
inductive Shape : List Form → Prop where
  | empty : Shape []
  | short {head : Form} {rest : List Form} : head.isGlyph = true → rest.length < 2 →
    Shape (head :: rest)
  | abstraction {head last : Form} {front : List Form} : head.isGlyph = true → front ≠ [] →
    Shape (head :: (front ++ [last]))
  | single {head : Form} : head.isGlyph = false → Shape [head]
  | application {head : Form} {rest : List Form} : head.isGlyph = false → rest ≠ [] →
    Shape (head :: rest)

theorem shape (children : List Form) : Shape children := by
  cases children with
  | nil => exact .empty
  | cons head rest =>
    cases isGlyph : head.isGlyph with
    | true =>
      by_cases few : rest.length < 2
      · exact .short isGlyph few
      · have nonempty : rest ≠ [] := by
          rintro rfl
          exact few Nat.two_pos
        obtain ⟨front, last, rfl⟩ : ∃ front last, rest = front ++ [last] :=
          ⟨_, _, (List.dropLast_concat_getLast nonempty).symm⟩
        refine .abstraction isGlyph ?_
        rintro rfl
        exact few Nat.one_lt_two
    | false =>
      cases rest with
      | nil => exact .single isGlyph
      | cons next more => exact .application isGlyph (List.cons_ne_nil next more)

theorem ofForm_short {head : Form} {rest : List Form} (span : Span)
    (isGlyph : head.isGlyph = true) (few : rest.length < 2) :
    ofForm (.list (head :: rest) span) = .error ⟨.tooFewTerms, span⟩ := by
  rw [ofForm, if_pos isGlyph, if_pos few]

theorem ofForm_single {head : Form} (span : Span) (isGlyph : head.isGlyph = false) :
    ofForm (.list [head] span) = .error ⟨.missingArgument, span⟩ := by
  rw [ofForm, isGlyph]
  rfl

theorem isGlyph_iff {form : Form} : form.isGlyph = true ↔ form.name? = some reservedName := by
  cases form with
  | atom name span => simp [Form.isGlyph, Form.name?]
  | list | unclosed => simp [Form.isGlyph, Form.name?]

theorem exists_atom_of_name? {form : Form} {name : String} (isAtom : form.name? = some name) :
    ∃ span, form = .atom name span := by
  cases form with
  | atom other span =>
    cases isAtom
    exact ⟨span, rfl⟩
  | list | unclosed => cases isAtom

theorem exists_atom_of_map_name?_cons {form : Form} {rest : List Form} {names : List String}
    (same : (form :: rest).map Form.name? = names.map some) :
    ∃ name span others, form = .atom name span ∧ names = name :: others ∧
      rest.map Form.name? = others.map some := by
  cases names with
  | nil => cases same
  | cons name others =>
    obtain ⟨isAtom, areAtoms⟩ := List.cons.inj same
    obtain ⟨span, rfl⟩ := exists_atom_of_name? isAtom
    exact ⟨name, span, others, rfl, rfl, areAtoms⟩

theorem map_name?_of_atoms {forms : List Form} (atoms : ∀ form ∈ forms, form.name? ≠ none) :
    forms.map Form.name? = (forms.filterMap Form.name?).map some := by
  induction forms with
  | nil => rfl
  | cons form rest ih =>
    obtain ⟨name, isAtom⟩ := Option.ne_none_iff_exists'.1 (atoms form List.mem_cons_self)
    have others := ih fun other mem => atoms other (.tail form mem)
    rw [List.map_cons, List.filterMap_cons_some isAtom, List.map_cons, isAtom, others]

/-- Forms are parameters if they are atoms and none of them is the reserved name. -/
theorem parametersOf_eq_ok_iff {forms : List Form} {names : List String} :
    parametersOf forms = .ok names ↔
      forms.map Form.name? = names.map some ∧ reservedName ∉ names := by
  constructor
  · intro ok
    unfold parametersOf at ok
    split at ok
    · cases ok
    · cases ok
    · rename_i atoms others
      cases ok
      rw [List.find?_eq_none] at atoms others
      constructor
      · exact map_name?_of_atoms fun form mem => by simpa using atoms form mem
      · intro mem
        obtain ⟨form, mem, reserved⟩ := List.mem_filterMap.1 mem
        exact others form mem (isGlyph_iff.2 reserved)
  · rintro ⟨same, notReserved⟩
    have atom (form : Form) (mem : form ∈ forms) : ∃ name ∈ names, form.name? = some name := by
      have mem' : form.name? ∈ names.map some := same ▸ List.mem_map_of_mem mem
      obtain ⟨name, mem', isAtom⟩ := List.mem_map.1 mem'
      exact ⟨name, mem', isAtom.symm⟩
    have noList : forms.find? (·.name?.isNone) = none := by
      rw [List.find?_eq_none]
      intro form mem
      obtain ⟨name, _, isAtom⟩ := atom form mem
      simp [isAtom]
    have noGlyph : forms.find? Form.isGlyph = none := by
      rw [List.find?_eq_none]
      intro form mem glyph
      obtain ⟨name, mem', isAtom⟩ := atom form mem
      rw [isGlyph_iff, isAtom] at glyph
      exact notReserved (Option.some.inj glyph ▸ mem')
    have all : forms.filterMap Form.name? = names := by
      have atoms := congrArg (List.filterMap id) same
      simpa [List.filterMap_map] using atoms
    rw [parametersOf, noList, noGlyph, all]

theorem mapM_ofForm_cons_eq_ok {form : Form} {rest : List Form} {terms : List Term}
    (ok : (form :: rest).mapM ofForm = .ok terms) :
    ∃ term others, terms = term :: others ∧ ofForm form = .ok term ∧
      rest.mapM ofForm = .ok others := by
  rw [List.mapM_cons] at ok
  obtain ⟨term, okTerm, ok⟩ := bind_eq_ok ok
  obtain ⟨others, okOthers, ok⟩ := bind_eq_ok ok
  cases ok
  exact ⟨term, others, rfl, okTerm, okOthers⟩

theorem mem_of_mapM_ofForm {forms : List Form} {terms : List Term}
    (ok : forms.mapM ofForm = .ok terms) {term : Term} (mem : term ∈ terms) :
    ∃ form ∈ forms, ofForm form = .ok term := by
  induction forms generalizing terms with
  | nil =>
    cases ok
    cases mem
  | cons form rest ih =>
    obtain ⟨first, others, rfl, okFirst, okOthers⟩ := mapM_ofForm_cons_eq_ok ok
    rcases List.mem_cons.1 mem with rfl | mem
    · exact ⟨form, List.mem_cons_self, okFirst⟩
    · obtain ⟨other, inRest, okOther⟩ := ih okOthers mem
      exact ⟨other, .tail form inRest, okOther⟩

theorem ofForm_atom_eq_ok_iff {name : String} {span : Span} {term : Term} :
    ofForm (.atom name span) = .ok term ↔ name ≠ reservedName ∧ term = .var name := by
  rw [ofForm]
  by_cases reserved : name = reservedName
  · simp [reserved]
  · simp [reserved, eq_comm]

/-- The reserved name is no term. -/
theorem isGlyph_of_ofForm {form : Form} {term : Term} (ok : ofForm form = .ok term) :
    form.isGlyph = false := by
  cases form with
  | list | unclosed => rfl
  | atom name span => exact beq_eq_false_iff_ne.2 (ofForm_atom_eq_ok_iff.1 ok).1

/-- A list is a term if it is an abstraction or an application, with full lists either way. -/
theorem ofForm_list_eq_ok_iff {children : List Form} {span : Span} {term : Term} :
    ofForm (.list children span) = .ok term ↔
      (∃ head front last names body, children = head :: (front ++ [last]) ∧
        head.isGlyph = true ∧ front ≠ [] ∧ parametersOf front = .ok names ∧
        ofForm last = .ok body ∧ term = .abs names body) ∨
      ∃ head rest function arguments, children = head :: rest ∧ rest ≠ [] ∧
        ofForm head = .ok function ∧ rest.mapM ofForm = .ok arguments ∧
        term = .app function arguments := by
  constructor
  · intro ok
    cases shape children with
    | empty => cases ok
    | short isGlyph few =>
      rw [ofForm_short span isGlyph few] at ok
      cases ok
    | single isGlyph =>
      rw [ofForm_single span isGlyph] at ok
      cases ok
    | abstraction isGlyph nonempty =>
      rw [ofForm_abstraction isGlyph nonempty] at ok
      obtain ⟨names, okNames, ok⟩ := bind_eq_ok ok
      obtain ⟨body, okBody, ok⟩ := bind_eq_ok ok
      cases ok
      exact .inl ⟨_, _, _, names, body, rfl, isGlyph, nonempty, okNames, okBody, rfl⟩
    | application isGlyph nonempty =>
      rw [ofForm_application isGlyph nonempty] at ok
      obtain ⟨function, okFunction, ok⟩ := bind_eq_ok ok
      obtain ⟨arguments, okArguments, ok⟩ := bind_eq_ok ok
      cases ok
      exact .inr ⟨_, _, function, arguments, rfl, nonempty, okFunction, okArguments, rfl⟩
  · rintro (⟨head, front, last, names, body, rfl, isGlyph, nonempty, okNames, okBody, rfl⟩ |
      ⟨head, rest, function, arguments, rfl, nonempty, okFunction, okArguments, rfl⟩)
    · rw [ofForm_abstraction isGlyph nonempty, okNames, okBody]
      rfl
    · rw [ofForm_application (isGlyph_of_ofForm okFunction) nonempty, okFunction, okArguments]
      rfl

end Term

end Redex
