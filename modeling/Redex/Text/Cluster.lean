import Redex.Text.BreakTable

/-!
# Clusters

What a reader takes for one character can be several in a text: a letter with its accents, a
syllable, a flag, a family of pictographs. Such a cluster is an extended grapheme cluster of the
Unicode Standard. A text is cut into clusters from left to right: a cluster goes on with the next
character if one of the rules joins the two, and ends before it otherwise.

* `Text.flatten_clusters`: a text is its clusters, one after the other.
-/

namespace Redex

/-- How a character behaves where two characters meet. -/
inductive BreakClass where
  | carriageReturn
  | lineFeed
  | control
  /-- Belongs to the character before it. -/
  | mark
  /-- A mark that links consonants. -/
  | linker
  /-- A mark that keeps consonants apart. -/
  | nonJoiner
  /-- A mark that joins pictographs. -/
  | joiner
  /-- A mark with a width of its own. -/
  | spacing
  /-- Belongs to the character after it. -/
  | prepended
  /-- One half of a flag. -/
  | regional
  | pictograph
  | consonant
  /-- What a syllable of Hangul begins with. -/
  | leading
  | vowel
  | trailing
  /-- A syllable of Hangul that can still be closed. -/
  | openSyllable
  | closedSyllable
  | other
  deriving DecidableEq, Repr

namespace BreakClass

def table : List (BreakClass × Ranges) :=
  [(.lineFeed, [(0x000A, 0x000A)]),
   (.carriageReturn, [(0x000D, 0x000D)]),
   (.control, BreakTable.controlRanges),
   (.nonJoiner, [(0x200C, 0x200C)]),
   (.joiner, [(0x200D, 0x200D)]),
   (.mark, BreakTable.markRanges),
   (.linker, BreakTable.linkerRanges),
   (.spacing, BreakTable.spacingRanges),
   (.prepended, BreakTable.prependedRanges),
   (.regional, [(0x1F1E6, 0x1F1FF)]),
   (.pictograph, BreakTable.pictographRanges),
   (.consonant, BreakTable.consonantRanges),
   (.leading, [(0x1100, 0x115F), (0xA960, 0xA97C)]),
   (.vowel, [(0x1160, 0x11A7), (0xD7B0, 0xD7C6), (0x16D63, 0x16D63), (0x16D67, 0x16D6A)]),
   (.trailing, [(0x11A8, 0x11FF), (0xD7CB, 0xD7FB)])]

/-- The syllables of Hangul. They come in rows of twenty-eight, and the first of a row is open. -/
def syllables : Ranges := [(0xAC00, 0xD7A3)]

def ofChar (c : Char) : BreakClass :=
  if syllables.has c then
    if (c.toNat - 0xAC00) % 28 = 0 then .openSyllable else .closedSyllable
  else
    match table.find? (·.2.has c) with
    | some (kind, _) => kind
    | none => .other

/-- Whether a class stands alone, but for a line feed after a carriage return. -/
def isControl : BreakClass → Bool
  | .carriageReturn | .lineFeed | .control => true
  | _ => false

/-- Whether a class can stand between a pictograph and the joiner after it. -/
def isMark : BreakClass → Bool
  | .mark | .linker | .nonJoiner => true
  | _ => false

/-- Whether a class can stand between a consonant and the one that is linked to it. -/
def isConjunctMark : BreakClass → Bool
  | .mark | .linker | .joiner => true
  | _ => false

def joinsSyllable : BreakClass → BreakClass → Bool
  | .leading, .leading | .leading, .vowel => true
  | .leading, .openSyllable | .leading, .closedSyllable => true
  | .openSyllable, .vowel | .openSyllable, .trailing => true
  | .vowel, .vowel | .vowel, .trailing => true
  | .closedSyllable, .trailing | .trailing, .trailing => true
  | _, _ => false

/-- Whether a cluster ends in a consonant and marks after it, with a linker among the marks. -/
def endsInLink (cluster : List BreakClass) : Bool :=
  (cluster.takeWhile isConjunctMark).contains .linker &&
    (cluster.dropWhile isConjunctMark).head? == some .consonant

/-- Whether a cluster ends in a pictograph, marks, and a joiner. -/
def endsInJoin : List BreakClass → Bool
  | .joiner :: before => (before.dropWhile isMark).head? == some .pictograph
  | _ => false

/-- Whether a cluster ends in the first half of a flag. -/
def endsInHalfFlag (cluster : List BreakClass) : Bool :=
  (cluster.takeWhile (· == .regional)).length % 2 == 1

/-- Whether a cluster goes on with a character of the class `next`. The classes of the cluster are
given from the last one to the first. -/
def continues (cluster : List BreakClass) (next : BreakClass) : Bool :=
  match cluster with
  | [] => true
  | last :: _ =>
    if last.isControl || next.isControl then last == .carriageReturn && next == .lineFeed
    else
      next.isMark || next == .joiner || next == .spacing || last == .prepended ||
      last.joinsSyllable next ||
      next == .consonant && endsInLink cluster ||
      next == .pictograph && endsInJoin cluster ||
      next == .regional && endsInHalfFlag cluster

end BreakClass

namespace Text

/-- The clusters of a text that begins with some characters of one cluster. These and their
classes are given from the last one to the first. -/
def clustersFrom (cluster : Text) (classes : List BreakClass) : Text → List Text
  | [] => [cluster.reverse]
  | c :: rest =>
    let next := BreakClass.ofChar c
    if BreakClass.continues classes next then clustersFrom (c :: cluster) (next :: classes) rest
    else cluster.reverse :: clustersFrom [c] [next] rest

def clusters : Text → List Text
  | [] => []
  | c :: rest => clustersFrom [c] [.ofChar c] rest

theorem flatten_clustersFrom (cluster : Text) (classes : List BreakClass) (text : Text) :
    (clustersFrom cluster classes text).flatten = cluster.reverse ++ text := by
  induction text generalizing cluster classes with
  | nil => simp [clustersFrom]
  | cons c rest ih =>
    rw [clustersFrom]
    split
    · rw [ih, List.reverse_cons, List.append_assoc]
      rfl
    · rw [List.flatten_cons, ih]
      rfl

/-- Clusters are cut from a text without loss. -/
theorem flatten_clusters (text : Text) : text.clusters.flatten = text := by
  cases text with
  | nil => rfl
  | cons c rest => exact flatten_clustersFrom [c] [.ofChar c] rest

end Text

end Redex
