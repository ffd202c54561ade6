import Redex.Proofs.Term.Grammar

/-!
# Derivations

The grammar of terms is three rules,

    term := name | (λ name name* term) | (term term term*)

where a name is any atom but the glyph. A derivation takes a form apart by these rules. It keeps
every name and every term in its place, so the term that it stands for can be told from it.

* `Derivation.unique`: no form can be taken apart in two ways.
* `ofForm_eq_ok_iff_derivation`: the terms that are accepted are those that have a derivation.
-/

namespace Redex

namespace Term

mutual

/-- How a form comes about by the rules for a term. -/
inductive Derivation : Form → Type where
  | name (name : String) (span : Span) (notReserved : name ≠ reservedName) :
    Derivation (.atom name span)
  | abstraction (glyphSpan span nameSpan : Span) (name : String) {rest : List Form}
    (notReserved : name ≠ reservedName) (scope : ScopeDerivation rest) :
    Derivation (.list (.atom reservedName glyphSpan :: .atom name nameSpan :: rest) span)
  | application (span : Span) {function first : Form} {rest : List Form}
    (functionTerm : Derivation function) (firstTerm : Derivation first)
    (others : RowDerivation rest) : Derivation (.list (function :: first :: rest) span)

/-- How the rest of an abstraction comes about: `name* term`. -/
inductive ScopeDerivation : List Form → Type where
  | last {form : Form} (term : Derivation form) : ScopeDerivation [form]
  | parameter (name : String) (span : Span) {rest : List Form} (notReserved : name ≠ reservedName)
    (scope : ScopeDerivation rest) : ScopeDerivation (.atom name span :: rest)

/-- How the rest of an application comes about: `term*`. -/
inductive RowDerivation : List Form → Type where
  | nil : RowDerivation []
  | cons {form : Form} {rest : List Form} (term : Derivation form) (others : RowDerivation rest) :
    RowDerivation (form :: rest)

end

def ScopeDerivation.names {forms : List Form} : ScopeDerivation forms → List String
  | .last _ => []
  | .parameter name _ _ scope => name :: scope.names

mutual

def Derivation.term {form : Form} : Derivation form → Term
  | .name name _ _ => .var name
  | .abstraction _ _ _ name _ scope => .abs (name :: scope.names) scope.body
  | .application _ functionTerm firstTerm others =>
    .app functionTerm.term (firstTerm.term :: others.terms)

def ScopeDerivation.body {forms : List Form} : ScopeDerivation forms → Term
  | .last term => term.term
  | .parameter _ _ _ scope => scope.body

def RowDerivation.terms {forms : List Form} : RowDerivation forms → List Term
  | .nil => []
  | .cons term others => term.term :: others.terms

end

mutual

/-- The rules leave no choice: the first form of a list tells what it is meant for. -/
theorem Derivation.unique {form : Form} : (first second : Derivation form) → first = second
  | .name _ _ _, .name _ _ _ => rfl
  | .abstraction _ _ _ _ _ scope, .abstraction _ _ _ _ _ other => by rw [scope.unique other]
  | .application _ f a row, .application _ g b other => by
    rw [f.unique g, a.unique b, row.unique other]
  | .abstraction _ _ _ _ _ _, .application _ g _ _ => by
    cases g with
    | name _ _ notReserved => exact absurd rfl notReserved
  | .application _ f _ _, .abstraction _ _ _ _ _ _ => by
    cases f with
    | name _ _ notReserved => exact absurd rfl notReserved

theorem ScopeDerivation.unique {forms : List Form} :
    (first second : ScopeDerivation forms) → first = second
  | .last term, .last other => by rw [term.unique other]
  | .parameter _ _ _ scope, .parameter _ _ _ other => by rw [scope.unique other]
  | .last _, .parameter _ _ _ other => nomatch other
  | .parameter _ _ _ scope, .last _ => nomatch scope

theorem RowDerivation.unique {forms : List Form} :
    (first second : RowDerivation forms) → first = second
  | .nil, .nil => rfl
  | .cons term row, .cons other more => by rw [term.unique other, row.unique more]

end

/-! ## A derivation makes a term -/

mutual

theorem Derivation.ofForm_eq {form : Form} : (derivation : Derivation form) →
    ofForm form = .ok derivation.term
  | .name name span notReserved => ofForm_atom_eq_ok_iff.2 ⟨notReserved, rfl⟩
  | .abstraction glyphSpan span nameSpan name notReserved scope => by
    obtain ⟨front, last, rfl, same, names, ok⟩ := scope.exists_append
    have isGlyph : (Form.atom reservedName glyphSpan).isGlyph = true := rfl
    have parameters : parametersOf (.atom name nameSpan :: front) = .ok (name :: scope.names) := by
      apply parametersOf_eq_ok_iff.2
      exact ⟨congrArg (some name :: ·) same,
        List.not_mem_cons_of_ne_of_not_mem notReserved.symm names⟩
    apply ofForm_list_eq_ok_iff.2
    exact .inl ⟨_, _, last, _, _, rfl, isGlyph, List.cons_ne_nil _ _, parameters, ok, rfl⟩
  | .application span functionTerm firstTerm others => by
    have arguments := (RowDerivation.cons firstTerm others).mapM_ofForm_eq
    apply ofForm_list_eq_ok_iff.2
    exact .inr ⟨_, _, _, _, rfl, List.cons_ne_nil _ _, functionTerm.ofForm_eq, arguments, rfl⟩

/-- What comes after the glyph is the parameters, none of which is the glyph, and a term. -/
theorem ScopeDerivation.exists_append {forms : List Form} : (scope : ScopeDerivation forms) →
    ∃ front last, forms = front ++ [last] ∧ front.map Form.name? = scope.names.map some ∧
      reservedName ∉ scope.names ∧ ofForm last = .ok scope.body
  | .last term => ⟨[], _, rfl, rfl, List.not_mem_nil, term.ofForm_eq⟩
  | .parameter name span notReserved scope => by
    obtain ⟨front, last, rfl, same, names, ok⟩ := scope.exists_append
    exact ⟨.atom name span :: front, last, rfl, congrArg (some name :: ·) same,
      List.not_mem_cons_of_ne_of_not_mem notReserved.symm names, ok⟩

theorem RowDerivation.mapM_ofForm_eq {forms : List Form} : (row : RowDerivation forms) →
    forms.mapM ofForm = .ok row.terms
  | .nil => rfl
  | .cons term others => by
    rw [List.mapM_cons, term.ofForm_eq, others.mapM_ofForm_eq]
    rfl

end

/-! ## A term has a derivation -/

def Derivable (form : Form) : Prop :=
  ∀ term, ofForm form = .ok term → ∃ derivation : Derivation form, derivation.term = term

theorem exists_scopeDerivation {front : List Form} {last : Form} {names : List String} {body : Term}
    (same : front.map Form.name? = names.map some) (notReserved : reservedName ∉ names)
    (derivable : Derivable last) (ok : ofForm last = .ok body) :
    ∃ scope : ScopeDerivation (front ++ [last]), scope.names = names ∧ scope.body = body := by
  induction front generalizing names with
  | nil =>
    obtain rfl : names = [] := List.map_eq_nil_iff.1 same.symm
    obtain ⟨derivation, rfl⟩ := derivable body ok
    exact ⟨.last derivation, rfl, rfl⟩
  | cons form front ih =>
    obtain ⟨name, span, others, rfl, rfl, areAtoms⟩ := exists_atom_of_map_name?_cons same
    obtain ⟨scope, rfl, rfl⟩ := ih areAtoms (List.not_mem_of_not_mem_cons notReserved)
    have other : name ≠ reservedName := (List.ne_of_not_mem_cons notReserved).symm
    exact ⟨.parameter name span other scope, rfl, rfl⟩

theorem exists_rowDerivation {forms : List Form} {terms : List Term}
    (derivable : ∀ form ∈ forms, Derivable form) (ok : forms.mapM ofForm = .ok terms) :
    ∃ row : RowDerivation forms, row.terms = terms := by
  induction forms generalizing terms with
  | nil =>
    cases ok
    exact ⟨.nil, rfl⟩
  | cons form rest ih =>
    obtain ⟨term, others, rfl, okTerm, okOthers⟩ := mapM_ofForm_cons_eq_ok ok
    obtain ⟨derivation, rfl⟩ := derivable form List.mem_cons_self term okTerm
    obtain ⟨row, rfl⟩ := ih (fun other mem => derivable other (.tail form mem)) okOthers
    exact ⟨.cons derivation row, rfl⟩

/-- Every term that a form is comes about by the rules. -/
theorem derivable (form : Form) : Derivable form := by
  induction form with
  | atom name span =>
    intro term ok
    obtain ⟨notReserved, rfl⟩ := ofForm_atom_eq_ok_iff.1 ok
    exact ⟨.name name span notReserved, rfl⟩
  | unclosed children span =>
    intro term ok
    cases ok
  | list children span ih =>
    intro term ok
    rcases ofForm_list_eq_ok_iff.1 ok with
      ⟨head, front, last, names, body, rfl, isGlyph, nonempty, okNames, okBody, rfl⟩ |
      ⟨head, rest, function, arguments, rfl, nonempty, okFunction, okArguments, rfl⟩
    · have isLast : last ∈ head :: (front ++ [last]) :=
        .tail head (List.mem_append_right front List.mem_cons_self)
      obtain ⟨same, notReserved⟩ := parametersOf_eq_ok_iff.1 okNames
      obtain ⟨glyphSpan, rfl⟩ := exists_atom_of_name? (isGlyph_iff.1 isGlyph)
      obtain ⟨scope, rfl, rfl⟩ := exists_scopeDerivation same notReserved (ih last isLast) okBody
      -- the rule asks for one name at least, so the scope does not begin with the term
      have two : 2 ≤ (front ++ [last]).length := two_le_length_concat nonempty
      generalize front ++ [last] = rest at scope two
      cases scope with
      | last => exact absurd two (Nat.lt_irrefl 1)
      | parameter name nameSpan other scope =>
        exact ⟨.abstraction glyphSpan span nameSpan name other scope, rfl⟩
    · have each : ∀ form ∈ rest, Derivable form := fun form mem => ih form (.tail head mem)
      obtain ⟨functionTerm, rfl⟩ := ih head List.mem_cons_self function okFunction
      obtain ⟨row, rfl⟩ := exists_rowDerivation each okArguments
      cases row with
      | nil => exact absurd rfl nonempty
      | cons firstTerm others => exact ⟨.application span functionTerm firstTerm others, rfl⟩

/-- **A form is a term if it has a derivation**, and only then. The term is the one that the
derivation stands for, and no form has two derivations. -/
theorem ofForm_eq_ok_iff_derivation (form : Form) :
    (∀ term, ofForm form = .ok term ↔ ∃ derivation : Derivation form, derivation.term = term) ∧
      ∀ first second : Derivation form, first = second := by
  refine ⟨fun term => ⟨derivable form term, ?_⟩, Derivation.unique⟩
  rintro ⟨derivation, rfl⟩
  exact derivation.ofForm_eq

end Term

end Redex
