import Redex.Proofs.Form.Map
import Redex.Proofs.Form.Spelling
import Redex.Proofs.Form.Tokens
import Redex.Proofs.Form.Words

/-!
# Printing and reading forms

Forms are printed with a single space between neighbours, wherever they stood in the text that they
were read from. So they have other places when they are read again, but the same shape. A list that
is never closed is printed without its closing parenthesis, and everything that is printed after it
would be read as part of it; but nothing is, since only the end of a text cuts a list short.

* `Spells.append`: forms in writing one after the other.
* `Form.IsClosed.spellsShape`, `Form.CutShort.spellsShape`: how closed forms are printed, and forms
  that the end of a text cuts short.
* `Form.parse_renderAll`: what is printed of the forms of a text is read as the same forms.
-/

namespace Redex

namespace Spells

variable {cut : Bool} {pos : Nat} {left right : Text} {forms others : List Form}

theorem append (first : Spells false pos left forms)
    (second : Spells cut (pos + left.length) right others) (ends : right.EndsWord) :
    Spells cut pos (left ++ right) (forms ++ others) := by
  generalize whole : false = short at first
  induction first with
  | nil => exact second
  | blank isBlank _ ih =>
    rw [add_length_cons] at second
    exact .blank isBlank (ih second whole)
  | atom word endsName _ ih =>
    rw [List.length_append, ← Nat.add_assoc] at second
    rw [List.append_assoc]
    exact .atom word (endsName.append ends) (ih second whole)
  | list inside _ _ ih =>
    rw [add_length_parenthesized] at second
    rw [List.cons_append, List.append_assoc, List.cons_append]
    exact .list inside (ih second whole)
  | unclosed => cases whole

/-- A text is read as the forms that it is in writing. -/
theorem parse (spells : Spells cut 0 left forms) : Form.parse left = forms := by
  have whole : Reading.ofText left.length 0 (left ++ []) =
      Reading.after forms (Reading.ofText left.length (0 + left.length) []) :=
    spells.ofText .nil fun _ => ⟨rfl, (Nat.zero_add _).symm⟩
  rw [List.append_nil, Reading.ofText_nil] at whole
  rw [Form.parse_eq_ofText, whole, Reading.after, Reading.empty, List.append_nil]

end Spells

namespace Form

def unplaced : Form → Form := map id fun _ => ⟨0, 0⟩

@[simp] theorem unplaced_atom (name : String) (span : Span) :
    (atom name span).unplaced = atom name ⟨0, 0⟩ := map_atom name

@[simp] theorem unplaced_list (children : List Form) (span : Span) :
    (list children span).unplaced = list (children.map unplaced) ⟨0, 0⟩ := map_list

@[simp] theorem unplaced_unclosed (children : List Form) (span : Span) :
    (unclosed children span).unplaced = unclosed (children.map unplaced) ⟨0, 0⟩ := map_unclosed

def renderAll (forms : List Form) : String := " ".intercalate (forms.map render)

theorem toList_renderAll (forms : List Form) :
    (renderAll forms).toList = [' '].intercalate (forms.map text) := by
  have texts : String.toList ∘ render = text := by
    funext form
    exact String.toList_ofList
  rw [renderAll, String.toList_intercalate, List.map_map, texts]
  rfl

theorem toList_renderAll_singleton (form : Form) : (renderAll [form]).toList = form.text := by
  rw [toList_renderAll]
  exact List.intercalate_singleton

theorem toList_renderAll_cons (form : Form) {rest : List Form} (more : rest ≠ []) :
    (renderAll (form :: rest)).toList = form.text ++ ' ' :: (renderAll rest).toList := by
  have texts : rest.map text ≠ [] := fun empty => more (List.map_eq_nil_iff.1 empty)
  rw [toList_renderAll, toList_renderAll, List.map_cons, List.intercalate_cons_of_ne_nil texts]
  simp

theorem writeAll_nil (forms : List Form) : writeAll forms [] = (renderAll forms).toList := by
  induction forms with
  | nil => rfl
  | cons form rest ih =>
    cases rest with
    | nil => exact (toList_renderAll_singleton form).symm
    | cons next rest =>
      rw [writeAll, write_eq, ih, toList_renderAll_cons form (List.cons_ne_nil next rest)]

/-- Whether a text is some forms in writing wherever it begins, only that they have places there. -/
def SpellsShape (cut : Bool) (text : Text) (forms : List Form) : Prop :=
  ∀ pos, ∃ read, Spells cut pos text read ∧ read.map unplaced = forms.map unplaced

namespace SpellsShape

variable {cut : Bool} {inside left right : Text} {children forms others : List Form}

theorem nil : SpellsShape cut [] [] := fun _ => ⟨[], .nil, rfl⟩

theorem atom {name : String} (word : IsWord name) (span : Span) :
    SpellsShape cut name.toList [.atom name span] := by
  intro pos
  have spells : Spells cut pos (name.toList ++ []) _ := .atom word .nil .nil
  rw [List.append_nil] at spells
  exact ⟨_, spells, by simp⟩

theorem list (inner : SpellsShape false inside children) (span : Span) :
    SpellsShape false ('(' :: (inside ++ [')'])) [.list children span] := by
  intro pos
  obtain ⟨read, spells, same⟩ := inner (pos + 1)
  exact ⟨_, .list spells .nil, by simp [same]⟩

theorem unclosed (inner : SpellsShape true inside children) (span : Span) :
    SpellsShape true ('(' :: inside) [.unclosed children span] := by
  intro pos
  obtain ⟨read, spells, same⟩ := inner (pos + 1)
  exact ⟨_, .unclosed spells, by simp [same]⟩

theorem append (first : SpellsShape false left forms) (second : SpellsShape cut right others)
    (ends : right.EndsWord) : SpellsShape cut (left ++ right) (forms ++ others) := by
  intro pos
  obtain ⟨before, spellsBefore, sameBefore⟩ := first pos
  obtain ⟨after, spellsAfter, sameAfter⟩ := second (pos + left.length)
  refine ⟨before ++ after, spellsBefore.append spellsAfter ends, ?_⟩
  rw [List.map_append, List.map_append, sameBefore, sameAfter]

theorem space (shape : SpellsShape cut right others) : SpellsShape cut (' ' :: right) others := by
  intro pos
  obtain ⟨read, spells, same⟩ := shape (pos + 1)
  exact ⟨read, .blank (by decide) spells, same⟩

/-- Forms of which none is cut short may stand where others would be. -/
theorem whole (shape : SpellsShape false left forms) : SpellsShape cut left forms := by
  have before : SpellsShape cut (left ++ []) (forms ++ []) := shape.append .nil .nil
  rwa [List.append_nil, List.append_nil] at before

/-- Closed forms are printed in front of others. -/
theorem printed_append (each : ∀ form ∈ forms, SpellsShape false form.text [form])
    (rest : SpellsShape cut (renderAll others).toList others) :
    SpellsShape cut (renderAll (forms ++ others)).toList (forms ++ others) := by
  induction forms with
  | nil => exact rest
  | cons form forms ih =>
    obtain ⟨first, more⟩ := List.forall_mem_cons.1 each
    rw [List.cons_append]
    by_cases last : forms ++ others = []
    · rw [last, toList_renderAll_singleton]
      exact first.whole
    · rw [toList_renderAll_cons form last]
      exact first.append (ih more).space (.cons _ (by decide))

theorem printed (each : ∀ form ∈ forms, SpellsShape false form.text [form]) :
    SpellsShape false (renderAll forms).toList forms := by
  have shape : SpellsShape false (renderAll (forms ++ [])).toList (forms ++ []) :=
    printed_append each .nil
  rwa [List.append_nil] at shape

end SpellsShape

theorem IsClosed.spellsShape {form : Form} (closed : form.IsClosed)
    (words : ∀ name ∈ form.words, IsWord name) : SpellsShape false form.text [form] := by
  induction closed with
  | atom name span =>
    have text : (Form.atom name span).text = name.toList := List.append_nil _
    rw [text]
    exact .atom (words name List.mem_cons_self) span
  | @list children span _ ih =>
    have text : (Form.list children span).text = '(' :: ((renderAll children).toList ++ [')']) := by
      rw [Form.text, write, writeAll_eq, writeAll_nil]
    rw [text]
    refine .list (.printed fun child mem => ih child mem fun name isName => ?_) span
    exact words name (mem_wordsOfAll.2 ⟨child, mem, isName⟩)

/-- Only the last form has a list that is not closed, so nothing is printed behind one. -/
theorem CutShort.spellsShape {stop : Nat} {forms : List Form} (cutShort : CutShort stop forms)
    (words : ∀ form ∈ forms, ∀ name ∈ form.words, IsWord name) :
    SpellsShape true (renderAll forms).toList forms := by
  induction cutShort with
  | nowhere closed =>
    have shape := SpellsShape.printed fun form mem =>
      (closed form mem).spellsShape (words form mem)
    exact shape.whole
  | @last forms children start closed _ ih =>
    obtain ⟨before, inside⟩ := List.forall_mem_append.1 words
    refine .printed_append (fun form mem => (closed form mem).spellsShape (before form mem)) ?_
    have text : (renderAll [unclosed children ⟨start, stop⟩]).toList =
        '(' :: (renderAll children).toList := by
      rw [toList_renderAll_singleton, Form.text, write, writeAll_nil]
    rw [text]
    refine (ih fun child mem name isName => ?_).unclosed _
    exact inside _ (List.mem_singleton_self _) name (mem_wordsOfAll.2 ⟨child, mem, isName⟩)

/-- **What is printed of the forms of a text is read as the same forms.** They differ in their
places only: every list that was closed is closed, every list that was not is not, and nothing that
stood outside of a list is in it. -/
theorem parse_renderAll (text : Text) :
    (parse (renderAll (parse text)).toList).map unplaced = (parse text).map unplaced := by
  have words : ∀ form ∈ parse text, ∀ name ∈ form.words, IsWord name :=
    fun form parsed name mem => isWord_of_parse parsed mem
  obtain ⟨read, spells, same⟩ := (cutShort_parse text).spellsShape words 0
  rw [spells.parse, same]

/-- Of two lists inside another, one was closed in the text and one was not. -/
example : renderAll (parse ['x', '(', '(', ')', ' ', ' ', '(', 'y', ' ']) = "x (() (y" := by cbv

end Form

end Redex
