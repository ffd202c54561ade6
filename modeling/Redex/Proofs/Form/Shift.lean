import Redex.Proofs.Form.Reading
import Redex.Proofs.Term.Grammar

/-!
# Moving a text

Where a text stands has no influence on what it says: if it begins further on, so do its forms and
their faults, and that is all.

* `Reading.ofText_shift`: the forms of a text that begins further on.
* `Term.ofForm_shift`: a form further on is the same term, or has the same fault further on.
-/

namespace Redex

def Span.shift (count : Nat) (span : Span) : Span := ⟨span.start + count, span.stop + count⟩

def Fault.shift (count : Nat) (fault : Fault) : Fault := ⟨fault.cause, fault.span.shift count⟩

theorem Span.shift_injective (count : Nat) : Function.Injective (Span.shift count) := by
  rintro ⟨start, stop⟩ ⟨start', stop'⟩ same
  simp only [shift, Span.mk.injEq] at same ⊢
  omega

theorem Fault.shift_injective (count : Nat) : Function.Injective (Fault.shift count) := by
  rintro ⟨cause, span⟩ ⟨cause', span'⟩ same
  obtain ⟨causes, spans⟩ := Fault.mk.inj same
  obtain rfl : cause = cause' := causes
  obtain rfl : span = span' := Span.shift_injective count spans
  rfl

namespace Form

mutual

/-- A form so many positions further on, with all that is in it. -/
def shift (count : Nat) : Form → Form
  | .atom name span => .atom name (span.shift count)
  | .list children span => .list (shiftAll count children) (span.shift count)
  | .unclosed children span => .unclosed (shiftAll count children) (span.shift count)

def shiftAll (count : Nat) : List Form → List Form
  | [] => []
  | form :: rest => form.shift count :: shiftAll count rest

end

section

variable {count : Nat} {name : String} {children : List Form} {span : Span} {form : Form}

theorem shiftAll_eq_map (forms : List Form) : shiftAll count forms = forms.map (shift count) := by
  induction forms with
  | nil => rfl
  | cons form rest ih => rw [shiftAll, ih, List.map_cons]

@[simp] theorem shift_atom : (atom name span).shift count = atom name (span.shift count) := by
  rw [shift]

@[simp] theorem shift_list :
    (list children span).shift count = list (children.map (shift count)) (span.shift count) := by
  rw [shift, shiftAll_eq_map]

@[simp] theorem shift_unclosed :
    (unclosed children span).shift count =
      unclosed (children.map (shift count)) (span.shift count) := by
  rw [shift, shiftAll_eq_map]

@[simp] theorem span_shift : (form.shift count).span = form.span.shift count := by
  cases form <;> simp [Form.span]

@[simp] theorem name?_shift : (form.shift count).name? = form.name? := by
  cases form <;> simp [name?]

@[simp] theorem isGlyph_shift : (form.shift count).isGlyph = form.isGlyph := by
  cases form <;> simp [isGlyph]

end

end Form

namespace Reading

def shift (count : Nat) (reading : Reading) : Reading :=
  ⟨reading.forms.map (Form.shift count), reading.unmatched.map fun entry =>
    (entry.1 + count, entry.2.map (Form.shift count))⟩

section

variable {stop count : Nat}

theorem shift_prepend (lexeme : Lexeme) (span : Span) (reading : Reading) :
    (prepend stop ⟨lexeme, span⟩ reading).shift count =
      prepend (stop + count) ⟨lexeme, span.shift count⟩ (reading.shift count) := by
  obtain ⟨forms, unmatched⟩ := reading
  cases lexeme with
  | atom name => simp [prepend, shift]
  | closing => simp [prepend, shift, Span.shift]
  | opening => cases unmatched <;> simp [prepend, enclose, shift, Span.shift]

theorem shift_after (forms : List Form) (reading : Reading) :
    (after forms reading).shift count =
      after (forms.map (Form.shift count)) (reading.shift count) := by
  simp only [after, shift, List.map_append]

/-- **A text that begins further on is read as the same forms further on.** -/
theorem ofText_shift (pos : Nat) (text : Text) :
    ofText (stop + count) (pos + count) text = (ofText stop pos text).shift count := by
  induction text using Text.pieceInduction generalizing pos with
  | nil =>
    rw [ofText_nil, ofText_nil]
    rfl
  | blank c rest isBlank ih =>
    rw [ofText_blank isBlank, ofText_blank isBlank, ← ih, Nat.add_right_comm]
  | opening rest ih =>
    rw [ofText_opening, ofText_opening, shift_prepend, ← ih, Nat.add_right_comm]
    simp only [Span.single, Span.shift, Nat.add_right_comm]
  | closing rest ih =>
    rw [ofText_closing, ofText_closing, shift_prepend, ← ih, Nat.add_right_comm]
    simp only [Span.single, Span.shift, Nat.add_right_comm]
  | word name rest word ends ih =>
    rw [ofText_word word ends, ofText_word word ends, shift_after, ← ih, Nat.add_right_comm]
    simp [Span.shift, Nat.add_right_comm]

end

end Reading

namespace Term

theorem mapError_bind {α β : Type} (change : Fault → Fault) (first : Except Fault α)
    (next : α → Except Fault β) :
    (first >>= next).mapError change =
      first.mapError change >>= fun value => (next value).mapError change := by
  cases first <;> rfl

section

variable {count : Nat}

theorem parametersOf_shift (forms : List Form) :
    parametersOf (forms.map (Form.shift count)) =
      (parametersOf forms).mapError (Fault.shift count) := by
  have lists : (fun form : Form => form.name?.isNone) ∘ Form.shift count =
      fun form => form.name?.isNone := by
    funext form
    exact congrArg Option.isNone Form.name?_shift
  have glyphs : Form.isGlyph ∘ Form.shift count = Form.isGlyph := by
    funext form
    exact Form.isGlyph_shift
  have names : Form.name? ∘ Form.shift count = Form.name? := by
    funext form
    exact Form.name?_shift
  have fault (cause : Cause) (form : Form) :
      (.error ⟨cause, (form.shift count).span⟩ : Except Fault (List String)) =
        (Except.error ⟨cause, form.span⟩).mapError (Fault.shift count) := by
    rw [Form.span_shift]
    rfl
  unfold parametersOf
  rw [List.find?_map, List.find?_map, List.filterMap_map, lists, glyphs, names]
  cases forms.find? (·.name?.isNone) with
  | some list => exact fault .listParameter list
  | none =>
    cases forms.find? Form.isGlyph with
    | some atom => exact fault .reservedParameter atom
    | none => rfl

theorem mapM_ofForm_shift {forms : List Form}
    (each : ∀ form ∈ forms, ofForm (form.shift count) =
      (ofForm form).mapError (Fault.shift count)) :
    (forms.map (Form.shift count)).mapM ofForm =
      (forms.mapM ofForm).mapError (Fault.shift count) := by
  induction forms with
  | nil => rfl
  | cons form rest ih =>
    obtain ⟨first, others⟩ := List.forall_mem_cons.1 each
    rw [List.map_cons, List.mapM_cons, List.mapM_cons, first, ih others, mapError_bind]
    simp only [mapError_bind]
    rfl

/-- **A form that stands further on is the same term, or has its fault further on.** -/
theorem ofForm_shift (form : Form) :
    ofForm (form.shift count) = (ofForm form).mapError (Fault.shift count) := by
  induction form with
  | atom name span =>
    rw [Form.shift_atom, ofForm, ofForm]
    split <;> rfl
  | unclosed children span =>
    rw [Form.shift_unclosed]
    rfl
  | list children span ih =>
    rw [Form.shift_list]
    cases shape children with
    | empty => rfl
    | @short head rest isGlyph few =>
      have few' : (rest.map (Form.shift count)).length < 2 := by
        rw [List.length_map]
        exact few
      rw [List.map_cons, ofForm_short _ (Form.isGlyph_shift.trans isGlyph) few',
        ofForm_short span isGlyph few]
      rfl
    | single isGlyph =>
      rw [List.map_cons, List.map_nil, ofForm_single _ (Form.isGlyph_shift.trans isGlyph),
        ofForm_single span isGlyph]
      rfl
    | @abstraction head last front isGlyph nonempty =>
      have shiftedNonempty : front.map (Form.shift count) ≠ [] := by
        intro empty
        exact nonempty (List.map_eq_nil_iff.1 empty)
      have isLast : last ∈ head :: (front ++ [last]) :=
        .tail head (List.mem_append_right front List.mem_cons_self)
      rw [List.map_cons, List.map_append, List.map_singleton,
        ofForm_abstraction (Form.isGlyph_shift.trans isGlyph) shiftedNonempty,
        ofForm_abstraction isGlyph nonempty, parametersOf_shift, ih last isLast, mapError_bind]
      simp only [mapError_bind]
      rfl
    | @application head rest isGlyph nonempty =>
      have shiftedNonempty : rest.map (Form.shift count) ≠ [] := by
        intro empty
        exact nonempty (List.map_eq_nil_iff.1 empty)
      rw [List.map_cons, ofForm_application (Form.isGlyph_shift.trans isGlyph) shiftedNonempty,
        ofForm_application isGlyph nonempty, ih head List.mem_cons_self,
        mapM_ofForm_shift fun form mem => ih form (.tail head mem), mapError_bind]
      simp only [mapError_bind]
      rfl

/-- No two faults are the same further on. -/
theorem ofForm_error_of_shift {form : Form} {fault : Fault}
    (error : ofForm (form.shift count) = .error (fault.shift count)) :
    ofForm form = .error fault := by
  rw [ofForm_shift] at error
  cases result : ofForm form with
  | ok term =>
    rw [result] at error
    cases error
  | error other =>
    rw [result] at error
    have same : other.shift count = fault.shift count := Except.error.inj error
    rw [Fault.shift_injective count same]

end

end Term

end Redex
