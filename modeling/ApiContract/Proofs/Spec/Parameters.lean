import ApiContract.Proofs.Put

/-!
# Parameters by declarations

A path item and an operation declare parameters one after the other, and a name may be declared as
often as one likes. What merging makes of them is said here twice.

* By declarations: a name stands where it is declared first, as it is declared last
  (`lastDeclarations`).
* By levels: the path item's parameters come first, each as the operation declares it if it does,
  and behind them come those that only the operation has (`overriding`).

## Main result

`merging_by_declarations`, for all lists of either side: merging is both, no name is repeated, and a
parameter is in the result exactly if it is the last declaration of its name.

## Proof

Parameters are put by their names, so that the first description is the one of `Proofs.Put` for this
key. For the second, the names of both levels together are those of the path item and then those
that are new in the operation, and the two parts are looked at one by one: the last declaration of a
name of the path item is the operation's, if it has one (`filterMap_shared_eq`), and a further name
is declared by the operation alone (`filterMap_own_eq`).

The place of a parameter is no part of its key: a name that is declared in the path and in the query
is one parameter, the one that was declared last.
-/

namespace ApiContract

/-- The last declaration of each name, in the order in which the names are declared first. -/
def lastDeclarations (declared : List Parameter) : List Parameter :=
  (declared.map Parameter.name).eraseDups.filterMap fun name ↦
    declared.findRev? (·.name = name)

/-- The parameters of a path item, each replaced by the operation's of that name if there is one,
and then those of the operation that the path item lacks. -/
def overriding (shared own : List Parameter) : List Parameter :=
  (lastDeclarations shared).map (fun parameter ↦
      (own.findRev? (·.name = parameter.name)).getD parameter) ++
    lastDeclarations (own.filter fun parameter ↦ parameter.name ∉ shared.map Parameter.name)

/-! ### Last declarations -/

section

variable {declared : List Parameter} {name : String} {parameter : Parameter}

/-- What is declared later is found first. -/
theorem findRev?_append (declared more : List Parameter) (name : String) :
    (declared ++ more).findRev? (·.name = name) =
      (more.findRev? (·.name = name)).or (declared.findRev? (·.name = name)) := by
  simp only [List.findRev?_eq_find?_reverse, List.reverse_append, List.find?_append]

/-- The declaration that is found has the name. -/
theorem name_of_findRev? (h : declared.findRev? (·.name = name) = some parameter) :
    parameter.name = name := by
  rw [List.findRev?_eq_find?_reverse] at h
  simpa using List.find?_some h

theorem findRev?_eq_none_iff :
    declared.findRev? (·.name = name) = none ↔ name ∉ declared.map Parameter.name := by
  simp [List.findRev?_eq_find?_reverse]

/-- Declarations of other names may be left out. -/
theorem findRev?_filter {keeps : Parameter → Bool}
    (h : ∀ parameter, parameter.name = name → keeps parameter = true) :
    (declared.filter keeps).findRev? (·.name = name) = declared.findRev? (·.name = name) := by
  rw [List.findRev?_eq_find?_reverse, List.findRev?_eq_find?_reverse, ← List.filter_reverse,
    List.find?_filter]
  congr 1
  funext parameter
  by_cases hname : parameter.name = name
  · simp [hname, h parameter hname]
  · simp [hname]

/-- **Merging keeps the last declaration of each name.** -/
theorem mergeParameters_eq_lastDeclarations (shared own : List Parameter) :
    mergeParameters shared own = lastDeclarations (shared ++ own) := by
  rw [mergeParameters, putParameter_eq_putBy, foldl_putBy_eq, lastDeclarations]

/-- The merged names stand in the order of their first declarations. -/
theorem map_name_mergeParameters (shared own : List Parameter) :
    (mergeParameters shared own).map Parameter.name =
      ((shared ++ own).map Parameter.name).eraseDups := by
  rw [mergeParameters, putParameter_eq_putBy, map_foldl_putBy]

/-- A merged parameter is the last declaration of its name, and every such one is merged. -/
theorem mem_mergeParameters_iff {shared own : List Parameter} :
    parameter ∈ mergeParameters shared own ↔
      (shared ++ own).findRev? (·.name = parameter.name) = some parameter := by
  rw [mergeParameters_eq_lastDeclarations, lastDeclarations, List.mem_filterMap]
  constructor
  · rintro ⟨name, -, hlast⟩
    rwa [name_of_findRev? hlast]
  · intro hlast
    refine ⟨parameter.name, List.mem_eraseDups.2 ?_, hlast⟩
    by_contra hnone
    exact absurd (hlast.symm.trans (findRev?_eq_none_iff.2 hnone)) (Option.some_ne_none _)

end

/-! ### Levels -/

/-- The names of the path item keep their places and have the operation's last word. -/
theorem filterMap_shared_eq (shared own : List Parameter) :
    ((shared.map Parameter.name).eraseDups.filterMap fun name ↦
        (shared ++ own).findRev? (·.name = name)) =
      (lastDeclarations shared).map fun parameter ↦
        (own.findRev? (·.name = parameter.name)).getD parameter := by
  rw [lastDeclarations, List.map_filterMap]
  refine List.filterMap_congr fun name hname ↦ ?_
  rw [findRev?_append]
  cases hlast : shared.findRev? (·.name = name) with
  | none => exact absurd (List.mem_eraseDups.1 hname) (findRev?_eq_none_iff.1 hlast)
  | some parameter =>
    rw [Option.map_some, name_of_findRev? hlast]
    cases own.findRev? (·.name = name) <;> rfl

/-- The further names are those that only the operation declares. -/
theorem filterMap_own_eq (shared own : List Parameter) :
    (((own.map Parameter.name).removeAll (shared.map Parameter.name)).eraseDups.filterMap
        fun name ↦ (shared ++ own).findRev? (·.name = name)) =
      lastDeclarations (own.filter fun parameter ↦
        parameter.name ∉ shared.map Parameter.name) := by
  have hnames : (own.map Parameter.name).removeAll (shared.map Parameter.name) =
      (own.filter fun parameter ↦ parameter.name ∉ shared.map Parameter.name).map
        Parameter.name := by
    rw [List.removeAll, List.filter_map]
    refine congrArg (List.map Parameter.name) (List.filter_congr fun parameter _ ↦ ?_)
    rw [Function.comp_apply, decide_not, List.elem_eq_mem]
  rw [lastDeclarations, ← hnames]
  refine List.filterMap_congr fun name hname ↦ ?_
  obtain ⟨-, hshared⟩ := List.mem_filter.1 (List.mem_eraseDups.1 hname)
  have hshared : name ∉ shared.map Parameter.name := by simpa using hshared
  have hkeeps : ∀ parameter : Parameter, parameter.name = name →
      decide (parameter.name ∉ shared.map Parameter.name) = true :=
    fun parameter hsame ↦ decide_eq_true (hsame ▸ hshared)
  rw [findRev?_append, findRev?_eq_none_iff.2 hshared, Option.or_none, findRev?_filter hkeeps]

/-- **Merging lets the operation override the path item.** -/
theorem mergeParameters_eq_overriding (shared own : List Parameter) :
    mergeParameters shared own = overriding shared own := by
  rw [mergeParameters_eq_lastDeclarations, lastDeclarations, List.map_append,
    List.eraseDups_append, List.filterMap_append, filterMap_shared_eq, filterMap_own_eq, overriding]

/-- **Merging goes by declarations.** Whatever a path item and an operation declare, the merged
names are distinct and are those declared, in the order of their first declarations; each has its
last declaration, and every name has one; so an operation's parameter stands in the place of the
path item's of that name, and what only the operation declares comes behind. -/
theorem merging_by_declarations (shared own : List Parameter) :
    mergeParameters shared own = lastDeclarations (shared ++ own) ∧
      ((mergeParameters shared own).map Parameter.name).Nodup ∧
      (mergeParameters shared own).map Parameter.name =
        ((shared ++ own).map Parameter.name).eraseDups ∧
      (∀ parameter, parameter ∈ mergeParameters shared own ↔
        (shared ++ own).findRev? (·.name = parameter.name) = some parameter) ∧
      mergeParameters shared own = overriding shared own :=
  ⟨mergeParameters_eq_lastDeclarations shared own, nodup_map_name_mergeParameters shared own,
    map_name_mergeParameters shared own, fun _ ↦ mem_mergeParameters_iff,
    mergeParameters_eq_overriding shared own⟩

end ApiContract
