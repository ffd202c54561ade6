import Redex.NameSet
import Mathlib.Data.Finset.Card

/-!
# How sets of names are built

A set of names begins with nothing, with one name or with the names of a list, and names are added,
sets joined and taken away. All of that is done with lists of names, and each operation finds its
way in a list only because the one before it left the names in order.

* `Recipe.names_increasing`: the order is kept by every operation.
* `Recipe.mem_names`: the operations do to the members what they are named for.
* `names_recipe`: the list that is kept says which set it is, and nothing more.
-/

namespace Redex

namespace NameSet

inductive Recipe where
  | empty
  | singleton (name : String)
  | ofList (names : List String)
  | insert (name : String) (set : Recipe)
  | union (left right : Recipe)
  | difference (left right : Recipe)

namespace Recipe

/-- The list of names that comes out, computed with bare lists. -/
def names : Recipe → List String
  | empty => []
  | singleton name => [name]
  | ofList names => gather names
  | insert name set => insertInto name set.names
  | union left right => merge left.names right.names
  | difference left right => without left.names right.names

def build : Recipe → NameSet
  | empty => .empty
  | singleton name => .singleton name
  | ofList names => .ofList names
  | insert name set => set.build.insert name
  | union left right => left.build.union right.build
  | difference left right => left.build.difference right.build

/-- The set that is meant. -/
def members : Recipe → Finset String
  | empty => ∅
  | singleton name => {name}
  | ofList names => names.toFinset
  | insert name set => Insert.insert name set.members
  | union left right => left.members ∪ right.members
  | difference left right => left.members \ right.members

theorem names_increasing (recipe : Recipe) : recipe.names.Pairwise (· < ·) := by
  induction recipe with
  | empty => exact .nil
  | singleton name => exact List.pairwise_singleton _ _
  | ofList names => exact gather_increasing names
  | insert name set ih => exact (insertInto_spec ih).2
  | union left right ihl ihr => exact merge_increasing ihl ihr
  | difference left right ihl _ => exact ihl.filter _

/-- A name comes out if and only if it is meant to. -/
theorem mem_names {recipe : Recipe} {x : String} : x ∈ recipe.names ↔ x ∈ recipe.members := by
  induction recipe with
  | empty => simp [names, members]
  | singleton name => simp [names, members]
  | ofList names => rw [Recipe.names, mem_gather, members, List.mem_toFinset]
  | insert name set ih =>
    rw [names, (insertInto_spec set.names_increasing).1, ih, members, Finset.mem_insert]
  | union left right ihl ihr => rw [names, mem_merge, ihl, ihr, members, Finset.mem_union]
  | difference left right ihl ihr =>
    rw [names, mem_without right.names_increasing, ihl, ihr, members, Finset.mem_sdiff]

/-- Every operation on sets does to the list what the one on bare lists does. -/
theorem toList_build (recipe : Recipe) : recipe.build.toList = recipe.names := by
  induction recipe with
  | empty | singleton | ofList => rfl
  | insert name set ih => exact congrArg (insertInto name) ih
  | union left right ihl ihr => exact congrArg₂ merge ihl ihr
  | difference left right ihl ihr => exact congrArg₂ without ihl ihr

theorem toFinset_names (recipe : Recipe) : recipe.names.toFinset = recipe.members := by
  ext x
  rw [List.mem_toFinset, mem_names]

theorem nodup_names (recipe : Recipe) : recipe.names.Nodup := by
  rw [← toList_build]
  exact nodup_toList

end Recipe

/-- **Sets of names are sets.** However a set is built, its names are kept in strictly increasing
order by code point. A search by halves finds a name if and only if it is a member, the operations
have the members that the set operations of mathematics have, and there are as many names as
members. Two sets are the same list if and only if they have the same members, however each was
built. -/
theorem names_recipe (recipe : Recipe) :
    recipe.build.toList = recipe.names ∧
      recipe.names.Pairwise (· < ·) ∧
      (∀ x, contains x recipe.names = true ↔ x ∈ recipe.members) ∧
      (∀ x, x ∈ recipe.names ↔ x ∈ recipe.members) ∧
      recipe.build.size = recipe.members.card ∧
      ∀ other : Recipe, recipe.names = other.names ↔ recipe.members = other.members := by
  refine ⟨recipe.toList_build, recipe.names_increasing, ?_, fun x => Recipe.mem_names, ?_, ?_⟩
  · intro x
    rw [contains_iff recipe.names_increasing, Recipe.mem_names]
  · rw [size, recipe.toList_build, ← recipe.toFinset_names,
      List.toFinset_card_of_nodup recipe.nodup_names]
  · intro other
    refine ⟨fun same => ?_, fun same => ?_⟩
    · rw [← recipe.toFinset_names, same, other.toFinset_names]
    have sets : recipe.build = other.build := by
      apply NameSet.ext
      intro x
      rw [← mem_toList, ← mem_toList, recipe.toList_build, other.toList_build, Recipe.mem_names,
        Recipe.mem_names, same]
    rw [← recipe.toList_build, sets, other.toList_build]

example : (Recipe.insert "λ" (.union (.ofList ["d", "b", "B", "b"]) (.singleton "a1"))).names =
    ["B", "a1", "b", "d", "λ"] := by cbv

end NameSet

end Redex
