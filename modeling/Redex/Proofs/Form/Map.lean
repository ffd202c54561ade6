import Redex.Form.Basic

/-!
# Forms of the same shape

A form keeps its shape when other names and other spans are put into it: what was an atom, a list or
a list that is never closed is one still, at the same place among the forms.

* `Form.map_atom`, `Form.map_list`, `Form.map_unclosed`: what becomes of each kind of form.
-/

namespace Redex

namespace Form

mutual

/-- A form of the same shape, with `name` and `place` of all its names and spans. -/
def map (name : String → String) (place : Span → Span) : Form → Form
  | .atom own span => .atom (name own) (place span)
  | .list children span => .list (mapAll name place children) (place span)
  | .unclosed children span => .unclosed (mapAll name place children) (place span)

def mapAll (name : String → String) (place : Span → Span) : List Form → List Form
  | [] => []
  | form :: rest => form.map name place :: mapAll name place rest

end

section

variable {name : String → String} {place : Span → Span} {children : List Form} {span : Span}

theorem mapAll_eq_map (forms : List Form) :
    mapAll name place forms = forms.map (map name place) := by
  induction forms with
  | nil => rfl
  | cons form rest ih => rw [mapAll, ih, List.map_cons]

@[simp] theorem map_atom (own : String) :
    (atom own span).map name place = atom (name own) (place span) := by
  rw [map]

@[simp] theorem map_list :
    (list children span).map name place = list (children.map (map name place)) (place span) := by
  rw [map, mapAll_eq_map]

@[simp] theorem map_unclosed :
    (unclosed children span).map name place =
      unclosed (children.map (map name place)) (place span) := by
  rw [map, mapAll_eq_map]

end

end Form

end Redex
