/-!
# Sets of names

A `NameSet` is the strictly increasing list of its members, so that two sets with the same members
are equal and listing a set gives one order, that of code points.

The order is part of the type, as a proof that the list is increasing; so a set can be compared by
`=`, and whatever is generated from a set does not depend on how the set came about. Membership is
that of the list, and `mem_insert`, `mem_ofList` and `mem_union` are all that other modules need to
know of the operations.
-/

namespace ApiContract

/-- Adds a name to an increasing list, at its place, unless it is there already. -/
def insertName (name : String) : List String → List String
  | [] => [name]
  | head :: tail =>
    if name < head then name :: head :: tail
    else if head < name then head :: insertName name tail
    else head :: tail

theorem mem_insertName {name x : String} {names : List String} :
    x ∈ insertName name names ↔ x = name ∨ x ∈ names := by
  induction names with
  | nil => simp [insertName]
  | cons head tail ih =>
    unfold insertName
    split
    · simp
    · split
      · simp only [List.mem_cons, ih]
        exact or_left_comm
      · next h₁ h₂ =>
        have : name = head := String.le_antisymm (String.not_lt.1 h₂) (String.not_lt.1 h₁)
        subst this
        simp

theorem pairwise_insertName {name : String} {names : List String}
    (h : names.Pairwise (· < ·)) : (insertName name names).Pairwise (· < ·) := by
  induction names with
  | nil => simp [insertName]
  | cons head tail ih =>
    have ⟨hHead, hTail⟩ := List.pairwise_cons.1 h
    unfold insertName
    split
    · next hLt =>
      refine List.pairwise_cons.2 ⟨fun x hx ↦ ?_, h⟩
      rcases List.mem_cons.1 hx with rfl | hx
      · exact hLt
      · exact String.lt_trans hLt (hHead x hx)
    · split
      · next hLt =>
        refine List.pairwise_cons.2 ⟨fun x hx ↦ ?_, ih hTail⟩
        rcases mem_insertName.1 hx with rfl | hx
        · exact hLt
        · exact hHead x hx
      · exact h

/-- A finite set of names, listed in increasing order. -/
structure NameSet where
  toList : List String
  increasing : toList.Pairwise (· < ·) := by exact List.Pairwise.nil
  deriving DecidableEq

namespace NameSet

/-- The set without members. -/
def empty : NameSet := { toList := [] }

instance : EmptyCollection NameSet := ⟨empty⟩
instance : Inhabited NameSet := ⟨empty⟩

/-- The set with one more member. -/
def insert (s : NameSet) (name : String) : NameSet :=
  ⟨insertName name s.toList, pairwise_insertName s.increasing⟩

/-- The set of the members of a list. -/
def ofList (names : List String) : NameSet :=
  names.foldl insert empty

/-- The members of either set. -/
def union (s t : NameSet) : NameSet :=
  t.toList.foldl insert s

/-- Whether a name is a member. -/
def contains (s : NameSet) (name : String) : Bool :=
  s.toList.contains name

instance : Membership String NameSet := ⟨fun s name ↦ name ∈ s.toList⟩

theorem mem_iff {s : NameSet} {name : String} : name ∈ s ↔ name ∈ s.toList := Iff.rfl

theorem contains_iff {s : NameSet} {name : String} : s.contains name = true ↔ name ∈ s := by
  simp [contains, mem_iff]

theorem mem_insert {s : NameSet} {name x : String} : x ∈ s.insert name ↔ x = name ∨ x ∈ s :=
  mem_insertName

theorem mem_foldl_insert {names : List String} {s : NameSet} {x : String} :
    x ∈ names.foldl insert s ↔ x ∈ s ∨ x ∈ names := by
  induction names generalizing s with
  | nil => simp
  | cons name rest ih =>
    simp only [List.foldl_cons, ih, mem_insert, List.mem_cons]
    constructor
    · rintro ((rfl | h) | h)
      · exact .inr (.inl rfl)
      · exact .inl h
      · exact .inr (.inr h)
    · rintro (h | rfl | h)
      · exact .inl (.inr h)
      · exact .inl (.inl rfl)
      · exact .inr h

theorem mem_ofList {names : List String} {x : String} : x ∈ ofList names ↔ x ∈ names := by
  have h : ¬ x ∈ empty := fun h ↦ nomatch h
  simp [ofList, mem_foldl_insert, h]

theorem mem_union {s t : NameSet} {x : String} : x ∈ s.union t ↔ x ∈ s ∨ x ∈ t := by
  rw [union, mem_foldl_insert, @mem_iff t]

end NameSet

end ApiContract
