import ApiContract.NameSet
import Mathlib.Data.List.Sort
import Mathlib.Data.String.Basic

/-!
# Sets of names as lists

A set of names is kept as the increasing list of its members, and the order is part of its type. So
a set is determined by its members (`NameSet.eq_of_mem_iff`), and so is the list of them: it is
without repetition, and the set is made again from it (`NameSet.ofList_toList`).

That sets with the same members are *equal* is what statements about whole values need: two plans,
two graphs or two schemas are compared by equality, and which names are recursive or required is a
set in them. Increasing lists with the same members are compared from their heads on; the head of
each is the least member.

Unions along a list, as the lists of references are made, are reasoned about by membership alone
(`NameSet.mem_foldl_union`).
-/

namespace ApiContract.NameSet

theorem eq_of_toList_eq : ∀ {s t : NameSet}, s.toList = t.toList → s = t
  | ⟨_, _⟩, ⟨_, _⟩, rfl => rfl

/-- **Sets with the same members are equal.** -/
theorem eq_of_mem_iff {s t : NameSet} (h : ∀ name, name ∈ s ↔ name ∈ t) : s = t :=
  eq_of_toList_eq (s.increasing.eq_of_mem_iff t.increasing h)

theorem nodup_toList (s : NameSet) : s.toList.Nodup := s.increasing.imp ne_of_lt

/-- A set is made again from its members. -/
@[simp] theorem ofList_toList (s : NameSet) : ofList s.toList = s :=
  eq_of_mem_iff fun _ ↦ mem_ofList

theorem empty_union (s : NameSet) : (∅ : NameSet).union s = s := ofList_toList s

/-- The members of a set and of those of a list. -/
theorem mem_foldl_union {α : Type} {f : α → NameSet} {list : List α} {s : NameSet} {name : String} :
    name ∈ list.foldl (fun done x ↦ done.union (f x)) s ↔ name ∈ s ∨ ∃ x ∈ list, name ∈ f x := by
  induction list generalizing s with
  | nil => simp
  | cons x rest ih => simp [ih, mem_union, or_assoc]

end ApiContract.NameSet
