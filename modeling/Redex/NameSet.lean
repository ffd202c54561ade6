import Redex.Text.Basic

/-!
# Sets of names

A set of names is the list of its members in strictly increasing order, by code point. The order
is part of the type, so two sets with the same members are the same list. A name is looked for by
halves, and a new one goes where the search for it ends.

* `NameSet.search_finds`: what a search among increasing names tells.
* `NameSet.mem_insert`, `NameSet.mem_union`, `NameSet.mem_difference`, `NameSet.mem_ofList`: the
  operations have the members that their names promise.
* `NameSet.ext`: a set is determined by its members.
-/

namespace Redex

structure NameSet where
  /-- The members, each once, in increasing order. -/
  toList : List String
  increasing : toList.Pairwise (· < ·)

namespace NameSet

/-- Where a name stands in a stretch of increasing names, or else where it belongs there: the middle
of the stretch tells in which half to go on. -/
def searchBetween (name : String) (names : List String) (low high : Nat)
    (within : high ≤ names.length) : Except Nat Nat :=
  if inside : low < high then
    let middle := low + (high - low) / 2
    have : middle < names.length := by omega
    if names[middle] < name then searchBetween name names (middle + 1) high within
    else if name < names[middle] then searchBetween name names low middle (by omega)
    else .ok middle
  else .error low
termination_by high - low

def search (name : String) (names : List String) : Except Nat Nat :=
  searchBetween name names 0 names.length (Nat.le_refl _)

def contains (name : String) (names : List String) : Bool := (search name names).isOk

def insertInto (name : String) (names : List String) : List String :=
  match search name names with
  | .ok _ => names
  | .error i => names.insertIdx i name

/-- Merges increasing names with increasing names; a name that both have is taken once. -/
def merge : List String → List String → List String
  | [], right => right
  | left, [] => left
  | l :: left, r :: right =>
    if l < r then l :: merge left (r :: right)
    else if l = r then l :: merge left right
    else r :: merge (l :: left) right

def without (left right : List String) : List String := left.filter fun name => !contains name right

/-- Names with one of each run of equal ones. -/
def dropRepeats : List String → List String
  | first :: second :: rest =>
    if first = second then dropRepeats (second :: rest)
    else first :: dropRepeats (second :: rest)
  | names => names

def gather (names : List String) : List String := dropRepeats (names.mergeSort (· ≤ ·))

/-- What a search for a name tells: that it stands between others, or that it belongs between those
that are less and those that are greater. -/
inductive Finds (name : String) : List String → Except Nat Nat → Prop where
  | found (left right : List String) : Finds name (left ++ name :: right) (.ok left.length)
  | vacant {left right : List String} : (∀ x ∈ left, x < name) → (∀ x ∈ right, name < x) →
    Finds name (left ++ right) (.error left.length)

section

variable {x : String} {names left right : List String}

/-- All names before the stretch are less and all behind it are greater, and so it stays as the
stretch is halved. -/
theorem searchBetween_finds (h : names.Pairwise (· < ·)) {low high : Nat}
    (within : high ≤ names.length) (order : low ≤ high) (below : ∀ y ∈ names.take low, y < x)
    (above : ∀ y ∈ names.drop high, x < y) :
    Finds x names (searchBetween x names low high within) := by
  have split {i : Nat} (bound : i < names.length) :
      names = names.take i ++ names[i] :: names.drop (i + 1) := by
    rw [← List.drop_eq_getElem_cons bound, List.take_append_drop]
  have parts {i : Nat} (bound : i < names.length) :
      (∀ y ∈ names.take i, y < names[i]) ∧ ∀ y ∈ names.drop (i + 1), names[i] < y := by
    rw [split bound, List.pairwise_append, List.pairwise_cons] at h
    exact ⟨fun y mem => h.2.2 y mem _ List.mem_cons_self, h.2.1.1⟩
  fun_induction searchBetween x names low high within with
  | case1 low high within inside middle bound less ih =>
    refine ih (by omega) ?_ above
    intro y mem
    rw [← List.take_append_getElem bound, List.mem_append, List.mem_singleton] at mem
    rcases mem with mem | rfl
    · exact String.lt_trans ((parts bound).1 y mem) less
    · exact less
  | case2 low high within inside middle bound notLess greater ih =>
    refine ih (by omega) below ?_
    intro y mem
    rw [List.drop_eq_getElem_cons bound, List.mem_cons] at mem
    rcases mem with rfl | mem
    · exact greater
    · exact String.lt_trans greater ((parts bound).2 y mem)
  | case3 low high within inside middle bound notLess notGreater =>
    have same : names[middle] = x :=
      String.le_antisymm (String.not_lt.1 notGreater) (String.not_lt.1 notLess)
    have length : (names.take middle).length = middle := List.length_take_of_le (by omega)
    have here : Finds names[middle] (names.take middle ++ names[middle] :: _) _ :=
      .found _ (names.drop (middle + 1))
    rwa [← split bound, length, same] at here
  | case4 low high within outside =>
    have met : high = low := by omega
    subst met
    have length : (names.take high).length = high := List.length_take_of_le within
    have here : Finds x (names.take high ++ names.drop high) _ := .vacant below above
    rwa [List.take_append_drop, length] at here

theorem search_finds (h : names.Pairwise (· < ·)) (x : String) : Finds x names (search x names) :=
  searchBetween_finds h (Nat.le_refl _) (Nat.zero_le _) (by simp) (by simp)

theorem contains_iff (h : names.Pairwise (· < ·)) : contains x names = true ↔ x ∈ names := by
  unfold contains
  have finds := search_finds h x
  generalize search x names = outcome at finds
  cases finds with
  | found left right => exact iff_of_true rfl (List.mem_append_right _ List.mem_cons_self)
  | vacant below above =>
    refine iff_of_false Bool.false_ne_true fun mem => String.lt_irrefl x ?_
    exact (List.mem_append.1 mem).elim (below x) (above x)

theorem insertIdx_length_append :
    (left ++ right).insertIdx left.length x = left ++ x :: right := by
  induction left with
  | nil => rfl
  | cons first rest ih =>
    rw [List.cons_append, List.length_cons, List.insertIdx_succ_cons, ih, List.cons_append]

/-- The names stay in increasing order, and there is none of them twice. -/
theorem insertInto_spec (h : names.Pairwise (· < ·)) :
    (∀ y, y ∈ insertInto x names ↔ y = x ∨ y ∈ names) ∧
      (insertInto x names).Pairwise (· < ·) := by
  unfold insertInto
  have finds := search_finds h x
  generalize search x names = outcome at finds
  cases finds with
  | found left right =>
    refine ⟨fun y => ?_, h⟩
    simp only [List.mem_append, List.mem_cons]
    grind
  | @vacant left right below above =>
    dsimp only
    rw [insertIdx_length_append]
    obtain ⟨orderLeft, orderRight, between⟩ := List.pairwise_append.1 h
    refine ⟨fun y => ?_, ?_⟩
    · simp only [List.mem_append, List.mem_cons]
      grind
    · refine List.pairwise_append.2 ⟨orderLeft, List.pairwise_cons.2 ⟨above, orderRight⟩, ?_⟩
      intro a memA b memB
      rcases List.mem_cons.1 memB with rfl | memB
      · exact below a memA
      · exact between a memA b memB

theorem mem_without (h : right.Pairwise (· < ·)) :
    x ∈ without left right ↔ x ∈ left ∧ x ∉ right := by
  rw [without, List.mem_filter, Bool.not_eq_true', ← Bool.not_eq_true, contains_iff h]

theorem mem_dropRepeats : x ∈ dropRepeats names ↔ x ∈ names := by
  fun_induction dropRepeats names with
  | case1 second rest ih => simp only [ih, List.mem_cons, or_self_left]
  | case2 first second rest ne ih => simp only [ih, List.mem_cons]
  | case3 => rfl

theorem dropRepeats_increasing (h : names.Pairwise (· ≤ ·)) :
    (dropRepeats names).Pairwise (· < ·) := by
  fun_induction dropRepeats names with
  | case1 second rest ih => exact ih h.of_cons
  | case2 first second rest ne ih =>
    obtain ⟨least, below⟩ := List.pairwise_cons.1 h
    refine List.pairwise_cons.2 ⟨fun y mem => ?_, ih below⟩
    have first_lt : first < second := Std.lt_of_le_of_ne (least second List.mem_cons_self) ne
    rcases List.mem_cons.1 (mem_dropRepeats.1 mem) with rfl | mem
    · exact first_lt
    · exact Std.lt_of_lt_of_le first_lt ((List.pairwise_cons.1 below).1 y mem)
  | case3 names short =>
    match names, short with
    | [], _ => exact .nil
    | [name], _ => exact List.pairwise_singleton _ _
    | first :: second :: rest, short => exact absurd rfl (short first second rest)

theorem mem_gather : x ∈ gather names ↔ x ∈ names := by
  rw [gather, mem_dropRepeats, List.mem_mergeSort]

theorem gather_increasing (names : List String) : (gather names).Pairwise (· < ·) := by
  apply dropRepeats_increasing
  have sorted : (names.mergeSort (· ≤ ·)).Pairwise (fun a b => decide (a ≤ b) = true) := by
    refine List.pairwise_mergeSort ?_ ?_ names
    · intro a b c ab bc
      simp only [decide_eq_true_eq] at *
      exact String.le_trans ab bc
    · intro a b
      simp only [Bool.or_eq_true, decide_eq_true_eq]
      exact String.le_total a b
  simpa only [decide_eq_true_eq] using sorted

theorem mem_merge : x ∈ merge left right ↔ x ∈ left ∨ x ∈ right := by
  fun_induction merge left right with
  | case1 => simp
  | case2 => simp
  | case3 l left r right lt ih => simp only [List.mem_cons, ih, or_assoc]
  | case4 l left right notLt ih => simp only [List.mem_cons, ih]; grind
  | case5 l left r right notLt ne ih => simp only [List.mem_cons, ih]; grind

theorem merge_increasing (hl : left.Pairwise (· < ·)) (hr : right.Pairwise (· < ·)) :
    (merge left right).Pairwise (· < ·) := by
  fun_induction merge left right with
  | case1 => exact hr
  | case2 => exact hl
  | case3 l left r right lt ih =>
    obtain ⟨leastL, belowL⟩ := List.pairwise_cons.1 hl
    obtain ⟨leastR, belowR⟩ := List.pairwise_cons.1 hr
    refine List.pairwise_cons.2 ⟨fun y mem => ?_, ih belowL hr⟩
    rcases mem_merge.1 mem with mem | mem
    · exact leastL y mem
    · rcases List.mem_cons.1 mem with rfl | mem
      · exact lt
      · exact String.lt_trans lt (leastR y mem)
  | case4 l left right notLt ih =>
    obtain ⟨leastL, belowL⟩ := List.pairwise_cons.1 hl
    obtain ⟨leastR, belowR⟩ := List.pairwise_cons.1 hr
    refine List.pairwise_cons.2 ⟨fun y mem => ?_, ih belowL belowR⟩
    exact (mem_merge.1 mem).elim (leastL y) (leastR y)
  | case5 l left r right notLt ne ih =>
    obtain ⟨leastL, belowL⟩ := List.pairwise_cons.1 hl
    obtain ⟨leastR, belowR⟩ := List.pairwise_cons.1 hr
    have lt : r < l := Std.lt_of_le_of_ne notLt (Ne.symm ne)
    refine List.pairwise_cons.2 ⟨fun y mem => ?_, ih hl belowR⟩
    rcases mem_merge.1 mem with mem | mem
    · rcases List.mem_cons.1 mem with rfl | mem
      · exact lt
      · exact String.lt_trans lt (leastL y mem)
    · exact leastR y mem

end

def empty : NameSet := ⟨[], .nil⟩

def singleton (name : String) : NameSet := ⟨[name], List.pairwise_singleton _ _⟩

def insert (name : String) (set : NameSet) : NameSet :=
  ⟨insertInto name set.toList, (insertInto_spec set.increasing).2⟩

def union (left right : NameSet) : NameSet :=
  ⟨merge left.toList right.toList, merge_increasing left.increasing right.increasing⟩

instance : Membership String NameSet := ⟨fun set name => name ∈ set.toList⟩

instance (name : String) (set : NameSet) : Decidable (name ∈ set) :=
  decidable_of_iff (contains name set.toList = true) (contains_iff set.increasing)

instance : HasSubset NameSet := ⟨fun left right => ∀ name ∈ left, name ∈ right⟩

def difference (left right : NameSet) : NameSet :=
  ⟨without left.toList right.toList, left.increasing.filter _⟩

def ofList (names : List String) : NameSet := ⟨gather names, gather_increasing names⟩

def size (set : NameSet) : Nat := set.toList.length

/-- A set as it is printed, `[a, b]`. -/
def render (set : NameSet) : String := "[" ++ ", ".intercalate set.toList ++ "]"

section

variable {x y : String} {s t : NameSet}

@[simp] theorem mem_toList : x ∈ s.toList ↔ x ∈ s := .rfl

@[simp] theorem not_mem_empty : x ∉ empty := List.not_mem_nil

@[simp] theorem mem_singleton : x ∈ singleton y ↔ x = y := List.mem_singleton

@[simp] theorem mem_insert : x ∈ insert y s ↔ x = y ∨ x ∈ s :=
  (insertInto_spec s.increasing).1 x

@[simp] theorem mem_union : x ∈ union s t ↔ x ∈ s ∨ x ∈ t := mem_merge

@[simp] theorem mem_difference : x ∈ difference s t ↔ x ∈ s ∧ x ∉ t :=
  mem_without t.increasing

@[simp] theorem mem_ofList {names : List String} : x ∈ ofList names ↔ x ∈ names := mem_gather

theorem nodup_toList : s.toList.Nodup :=
  List.Pairwise.imp (S := (· ≠ ·)) (fun lt => by rintro rfl; exact String.lt_irrefl _ lt)
    s.increasing

/-- There is one list only for a set, so sets with the same members are equal. -/
theorem ext (h : ∀ x, x ∈ s ↔ x ∈ t) : s = t := by
  have same : s.toList = t.toList :=
    List.Perm.eq_of_pairwise (fun _ _ _ _ ab ba => absurd ab (String.lt_asymm ba))
      s.increasing t.increasing
      ((List.perm_ext_iff_of_nodup nodup_toList nodup_toList).2 h)
  cases s
  cases t
  cases same
  rfl

end

end NameSet

end Redex
