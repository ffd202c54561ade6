import Redex.Curried.Basic
import Redex.Proofs.Path

/-!
# Parts of terms

A path leads to a part of a term, and another part can be put there. All that this changes is what
the path leads to: the parts beside it are the same as before, and so are the parameters and
applications around it.

* `part?_abs_eq_some`, `part?_app_eq_some`: where the parts of a term are.
* `part?_withPart`: what was put at a path is found there.
* `sameOutside_withPart`: nothing else is changed by it.
-/

namespace Redex

namespace Curried

/-- What a term is, apart from what is inside it. -/
inductive Node where
  | var (name : String)
  | abs (parameter : String)
  | app
  deriving DecidableEq, Repr

def node : Curried → Node
  | .var name => .var name
  | .abs parameter _ => .abs parameter
  | .app _ _ => .app

def children : Curried → List Curried
  | .var _ => []
  | .abs _ body => [body]
  | .app function argument => [function, argument]

/-- A term with another term directly inside it, in the place with this number. -/
def withChild : Curried → Nat → Curried → Curried
  | .abs parameter _, 0, child => .abs parameter child
  | .app _ argument, 0, child => .app child argument
  | .app function _, 1, child => .app function child
  | term, _, _ => term

/-- The part of a term at a path, or nothing if the path leads out of the term. -/
def part? (term : Curried) : Path → Option Curried
  | [] => some term
  | i :: path => term.children[i]?.bind (part? · path)

/-- A term with another part at a path, or the term itself if the path leads out of it. -/
def withPart (term : Curried) : Path → (part : Curried) → Curried
  | [], part => part
  | i :: path, part =>
    match term.children[i]? with
    | some child => term.withChild i (child.withPart path part)
    | none => term

structure SameOutside (path : Path) (t u : Curried) : Prop where
  /-- A part that is neither inside the one at the path nor around it is the same part. -/
  beside : ∀ other, ¬ path <+: other → ¬ other <+: path → u.part? other = t.part? other
  /-- A variable, parameter or application that is not inside the part at the path is the same. -/
  node : ∀ other, ¬ path <+: other → (u.part? other).map node = (t.part? other).map node

section

variable {x : String} {b f a u : Curried} {path : Path}

theorem part?_var_eq_some : (var x).part? path = some u ↔ path = [] ∧ u = var x := by
  constructor
  · intro leads
    match path, leads with
    | [], leads => exact ⟨rfl, (Option.some.inj leads).symm⟩
  · rintro ⟨rfl, rfl⟩
    rfl

theorem part?_abs_eq_some :
    (abs x b).part? path = some u ↔
      path = [] ∧ u = abs x b ∨ ∃ rest, path = 0 :: rest ∧ b.part? rest = some u := by
  constructor
  · intro leads
    match path, leads with
    | [], leads => exact .inl ⟨rfl, (Option.some.inj leads).symm⟩
    | 0 :: rest, leads => exact .inr ⟨rest, rfl, leads⟩
  · rintro (⟨rfl, rfl⟩ | ⟨rest, rfl, leads⟩)
    · rfl
    · exact leads

theorem part?_app_eq_some :
    (app f a).part? path = some u ↔
      path = [] ∧ u = app f a ∨ (∃ rest, path = 0 :: rest ∧ f.part? rest = some u) ∨
        ∃ rest, path = 1 :: rest ∧ a.part? rest = some u := by
  constructor
  · intro leads
    match path, leads with
    | [], leads => exact .inl ⟨rfl, (Option.some.inj leads).symm⟩
    | 0 :: rest, leads => exact .inr (.inl ⟨rest, rfl, leads⟩)
    | 1 :: rest, leads => exact .inr (.inr ⟨rest, rfl, leads⟩)
  · rintro (⟨rfl, rfl⟩ | ⟨rest, rfl, leads⟩ | ⟨rest, rfl, leads⟩)
    · rfl
    · exact leads
    · exact leads

end

theorem node_withChild (t : Curried) (i : Nat) (child : Curried) :
    (t.withChild i child).node = t.node := by
  unfold withChild
  split <;> rfl

theorem children_withChild (t : Curried) (i : Nat) (child : Curried) :
    (t.withChild i child).children = t.children.set i child := by
  match t, i with
  | .var _, _ => rfl
  | .abs _ _, 0 => rfl
  | .abs _ _, _ + 1 => rfl
  | .app _ _, 0 => rfl
  | .app _ _, 1 => rfl
  | .app _ _, _ + 2 => rfl

/-- A new term inside is found in its place, and all other places are untouched. -/
theorem part?_withChild {t child old : Curried} {i : Nat} (has : t.children[i]? = some old)
    (j : Nat) (path : Path) :
    (t.withChild i child).part? (j :: path) =
      if j = i then child.part? path else t.part? (j :: path) := by
  rw [part?, part?, children_withChild]
  split
  case isTrue here =>
    subst here
    rw [List.getElem?_set_self (List.getElem?_eq_some_iff.1 has).1]
    rfl
  case isFalse elsewhere => rw [List.getElem?_set_ne (Ne.symm elsewhere)]

theorem part?_withPart {t u : Curried} {path : Path} (leads : t.part? path = some u)
    (part : Curried) : (t.withPart path part).part? path = some part := by
  induction path generalizing t with
  | nil => rfl
  | cons i path ih =>
    obtain ⟨child, has, inner⟩ := Option.bind_eq_some_iff.1 leads
    rw [withPart, has]
    dsimp only
    rw [part?_withChild has, if_pos rfl]
    exact ih inner

/-- Terms that differ inside a child differ inside that part of the whole. -/
theorem SameOutside.withChild {t c d : Curried} {path : Path} {i : Nat}
    (has : t.children[i]? = some c) (same : SameOutside path c d) :
    SameOutside (i :: path) t (t.withChild i d) := by
  have inside (rest : Path) : t.part? (i :: rest) = c.part? rest := by
    rw [part?, has]
    rfl
  constructor
  · intro other apart around
    cases other with
    | nil => exact absurd List.nil_prefix around
    | cons j rest =>
      rw [part?_withChild has]
      split
      case isTrue here =>
        subst here
        rw [List.cons_prefix_cons, and_iff_right rfl] at apart around
        rw [inside]
        exact same.beside rest apart around
      case isFalse => rfl
  · intro other apart
    cases other with
    | nil => exact congrArg some (node_withChild t i d)
    | cons j rest =>
      rw [part?_withChild has]
      split
      case isTrue here =>
        subst here
        rw [List.cons_prefix_cons, and_iff_right rfl] at apart
        rw [inside]
        exact same.node rest apart
      case isFalse => rfl

theorem sameOutside_withPart (t : Curried) (path : Path) (part : Curried) :
    SameOutside path t (t.withPart path part) := by
  induction path generalizing t with
  | nil =>
    exact ⟨fun other no => absurd List.nil_prefix no, fun other no => absurd List.nil_prefix no⟩
  | cons i path ih =>
    rw [withPart]
    cases has : t.children[i]? with
    | none => exact ⟨fun _ _ _ => rfl, fun _ _ => rfl⟩
    | some child => exact (ih child).withChild has

end Curried

end Redex
