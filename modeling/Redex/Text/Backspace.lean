import Redex.Text.Cluster

/-!
# Backspaces

A line that does not come from a keyboard can have backspaces in it. They are carried out when
the line is read: a backspace takes back the last cluster before it that has not been taken back
yet, and itself is not part of the line. Where there is none left it does nothing.

How much a backspace has to take back is noted down as the cluster is read, as a number of bytes
in UTF-8. A single byte holds the note, so of a cluster of 256 bytes or more only the remainder
modulo 256 is taken back.

* `Text.applyBackspaces_of_not_mem`: a line without backspaces stays as it is.
-/

namespace Redex

def backspace : Char := '\x08'

namespace Text

def byteCount (text : Text) : Nat := text.foldl (fun count c => count + c.utf8Size) 0

/-- A text without as many bytes at its start. A number of bytes that ends inside a character is the
size of nothing; here that character goes as a whole. -/
def dropBytes : Text → Nat → Text
  | text, 0 => text
  | [], _ + 1 => []
  | c :: rest, count + 1 => dropBytes rest (count + 1 - c.utf8Size)

end Text

/-- What has been read of a line. -/
structure Typing where
  /-- The characters that the line has so far, from the last one to the first. -/
  shown : Text
  /-- What the next backspaces take back, each in bytes. -/
  sizes : List UInt8

namespace Typing

def start : Typing := ⟨[], []⟩

def add (typing : Typing) (cluster : Text) : Typing :=
  ⟨cluster.reverse ++ typing.shown, .ofNat cluster.byteCount :: typing.sizes⟩

/-- The last size is taken back, if there is one. -/
def takeBack (typing : Typing) : Typing :=
  match typing.sizes with
  | [] => typing
  | size :: rest => ⟨typing.shown.dropBytes size.toNat, rest⟩

/-- One more cluster, which may be a backspace, is read. -/
def read (typing : Typing) (cluster : Text) : Typing :=
  if cluster = [backspace] then typing.takeBack else typing.add cluster

theorem shown_foldl_read {clusters : List Text} {typing : Typing} (h : [backspace] ∉ clusters) :
    (clusters.foldl read typing).shown = clusters.flatten.reverse ++ typing.shown := by
  induction clusters generalizing typing with
  | nil => rfl
  | cons cluster rest ih =>
    have here : cluster ≠ [backspace] := by
      intro same
      exact h (same ▸ List.mem_cons_self)
    have later : [backspace] ∉ rest := by
      intro mem
      exact h (List.mem_cons_of_mem _ mem)
    have added : typing.read cluster = typing.add cluster := if_neg here
    rw [List.foldl_cons, ih later, added, add, List.flatten_cons, List.reverse_append,
      List.append_assoc]

end Typing

namespace Text

/-- What a line is once its backspaces are carried out. -/
def applyBackspaces (line : Text) : Text :=
  (line.clusters.foldl Typing.read .start).shown.reverse

/-- A line without backspaces stays as it is, whatever its clusters are. -/
theorem applyBackspaces_of_not_mem {line : Text} (h : backspace ∉ line) :
    line.applyBackspaces = line := by
  have alone : [backspace] ∉ line.clusters := by
    intro mem
    apply h
    rw [← flatten_clusters line]
    exact List.mem_flatten.2 ⟨_, mem, List.mem_singleton_self _⟩
  rw [applyBackspaces, Typing.shown_foldl_read alone, Typing.start, List.append_nil,
    List.reverse_reverse, flatten_clusters]

end Text

end Redex
