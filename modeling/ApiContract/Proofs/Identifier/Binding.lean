import ApiContract.Proofs.Identifier.Words

/-!
# Names that are bound

What is bound for a name is its camel case, with an underscore in front of a digit or behind a
reserved word. Camel case itself has no underscore, so it is read back from the binding by keeping
letters and digits (`filter_binding`).

## Which names are told apart

Two names are bound alike exactly if they agree in camel case (`binding_eq_binding_iff`): the
underscores neither join nor separate any names. So questions about functions, keys and local names,
all of which are bound, become questions about camel case; `nodup_map_binding_iff` and
`binding_mem_iff` are the forms for lists of names and for a few fixed ones.

## What is never bound

No binding is a reserved word (`binding_not_mem_reserved`), since of the reserved words none ends in
an underscore. No binding begins with a capital.
-/

namespace ApiContract.Identifier

/-! ### Taking the underscores off -/

/-- The guard in front of a digit is no letter or digit. -/
theorem filter_guardDigit {cs : List Char} (h : ∀ c ∈ cs, c.isAlphanum = true) :
    (guardDigit cs).filter Char.isAlphanum = cs := by
  cases cs with
  | nil => rfl
  | cons c rest =>
    rw [guardDigit]
    split
    · exact (List.filter_cons_of_neg Bool.false_ne_true).trans (List.filter_eq_self.2 h)
    · exact List.filter_eq_self.2 h

/-- The guard behind a reserved word is no letter or digit. -/
theorem filter_guardReserved (name : String) :
    (guardReserved name).toList.filter Char.isAlphanum = name.toList.filter Char.isAlphanum := by
  rw [guardReserved]
  split
  · rw [String.toList_append, List.filter_append]
    exact List.append_nil _
  · rfl

/-- **The camel case of a name is what its binding has of letters and digits.** -/
theorem filter_binding (s : String) :
    (binding s).toList.filter Char.isAlphanum = camelChars s.toList := by
  rw [binding, filter_guardReserved, String.toList_ofList,
    filter_guardDigit fun _ ↦ isAlphanum_of_mem_camelChars]

/-- **Names are bound alike exactly if they agree in camel case.** -/
theorem binding_eq_binding_iff {s t : String} :
    binding s = binding t ↔ camelCase s = camelCase t := by
  constructor
  · intro h
    rw [camelCase, camelCase, ← filter_binding, ← filter_binding, h]
  · intro h
    have hchars : camelChars s.toList = camelChars t.toList := String.ofList_injective h
    rw [binding, binding, hchars]

theorem binding_camelCase (s : String) : binding (camelCase s) = binding s :=
  binding_eq_binding_iff.2 (camelCase_camelCase s)

/-- Camel case tells apart as many names as their bindings do. -/
theorem nodup_map_binding_iff {α : Type} (list : List α) (name : α → String) :
    (list.map fun x ↦ binding (name x)).Nodup ↔ (list.map fun x ↦ camelCase (name x)).Nodup := by
  simp only [List.nodup_iff_pairwise_ne, List.pairwise_map, ne_eq, binding_eq_binding_iff]

/-- **Among names that are converted to themselves** a name is bound just if its camel case is one
of them. -/
theorem binding_mem_iff {names : List String}
    (hnames : ∀ name ∈ names, binding name = name ∧ camelCase name = name) {s : String} :
    binding s ∈ names ↔ camelCase s ∈ names := by
  have heach : ∀ name ∈ names, (binding s = name ↔ camelCase s = name) := by
    intro name hname
    obtain ⟨hbinding, hcamel⟩ := hnames name hname
    calc
      binding s = name ↔ binding s = binding name := by rw [hbinding]
      _ ↔ camelCase s = camelCase name := binding_eq_binding_iff
      _ ↔ camelCase s = name := by rw [hcamel]
  constructor
  · exact fun hmem ↦ (heach _ hmem).1 rfl ▸ hmem
  · exact fun hmem ↦ (heach _ hmem).2 rfl ▸ hmem

/-- Bindings are apart from such names exactly if the camel case of what is bound is. -/
theorem disjoint_map_binding_iff {α : Type} {names : List String}
    (hnames : ∀ name ∈ names, binding name = name ∧ camelCase name = name) (list : List α)
    (name : α → String) :
    names.Disjoint (list.map fun x ↦ binding (name x)) ↔
      ∀ x ∈ list, camelCase (name x) ∉ names := by
  constructor
  · intro hapart x hx hmem
    exact hapart ((binding_mem_iff hnames).2 hmem) (List.mem_map_of_mem hx)
  · intro hfree bound hmem hbound
    obtain ⟨x, hx, rfl⟩ := List.mem_map.1 hbound
    exact hfree x hx ((binding_mem_iff hnames).1 hmem)

/-! ### What is never bound -/

/-- **A binding is no reserved word.** -/
theorem binding_not_mem_reserved (s : String) : binding s ∉ reserved := by
  have hlast : ∀ word ∈ reserved, word.toList.getLast? ≠ some '_' := by decide +kernel
  rw [binding, guardReserved]
  split
  · intro hmem
    refine hlast _ hmem ?_
    rw [String.toList_append]
    exact List.getLast?_concat
  · next hnot => exact fun hmem ↦ hnot (List.contains_iff_mem.2 hmem)

/-- A binding begins with no capital. -/
theorem isUpper_head_binding (s : String) : ∀ c ∈ (binding s).toList.head?, c.isUpper = false := by
  have hguarded : ∀ c ∈ (guardDigit (camelChars s.toList)).head?, c.isUpper = false := by
    have hhead := isUpper_head_camelChars s.toList
    cases hcamel : camelChars s.toList with
    | nil => simp [guardDigit]
    | cons c rest =>
      rw [guardDigit]
      split
      · rintro d ⟨⟩
        rfl
      · exact hcamel ▸ hhead
  intro c hc
  rw [binding, guardReserved] at hc
  split at hc
  · next hmem =>
    -- a reserved word is not empty, so the underscore behind it is not its first letter
    have hne : ∀ word ∈ reserved, word.toList ≠ [] := by decide +kernel
    rw [String.toList_append, List.head?_append_of_ne_nil _ (hne _ (List.contains_iff_mem.1 hmem)),
      String.toList_ofList] at hc
    exact hguarded c hc
  · rw [String.toList_ofList] at hc
    exact hguarded c hc

end ApiContract.Identifier
