import ApiContract.Proofs.Artifact.Client
import ApiContract.Proofs.Identifier.Binding
import ApiContract.Proofs.TypeScript.Use

/-!
# The scope of a function

The parameters of a function and the names that its statements bind share one scope: a name that
stands twice among them is an error when the module is read, and so is one that no binding can have.

## Names that can be bound

Modules are strict code, which refuses a few more names than the reserved words. What is bound for a
name of a contract is never a reserved word, but it may be one of the others
(`isBindable_binding_iff`). A name without a letter or digit is bound as nothing, which cannot be
bound either.

## Main result

`isWellScoped_map_binding_iff`: a scope of bindings is well formed exactly if what is bound has a
letter or digit, is not protected and differs in camel case. The scope of a generated function is
made of its parameters and of the names that its body binds, which are the generator's own or again
bindings, so that a condition on scopes becomes one on the names in a contract.

## Nested scopes

Blocks inside a body would have a scope of their own; the constants that generated functions bind
stand at the top of their bodies, and those are the ones that are listed (`Declaration.scope`).
-/

namespace ApiContract.TypeScript

/-! ### Names that can be bound -/

/-- The reserved words, also those of strict code alone. -/
def reservedWords : List String := [
  "await", "break", "case", "catch", "class", "const", "continue", "debugger", "default", "delete",
  "do", "else", "enum", "export", "extends", "false", "finally", "for", "function", "if",
  "implements", "import", "in", "instanceof", "interface", "let", "new", "null", "package",
  "private", "protected", "public", "return", "static", "super", "switch", "this", "throw", "true",
  "try", "typeof", "var", "void", "while", "with", "yield"]

/-- The names that are not reserved and that strict code does not let be bound. -/
def protectedNames : List String := ["arguments", "eval"]

/-- A name that can be bound in a module. -/
structure IsBindable (name : String) : Prop where
  plain : Identifier.isPlainProperty name = true
  free : name ∉ reservedWords ++ protectedNames

/-- **What a name is bound as can be bound**, unless it is empty or protected. -/
theorem isBindable_binding_iff (s : String) :
    IsBindable (Identifier.binding s) ↔
      (∃ c ∈ s.toList, c.isAlphanum = true) ∧ Identifier.camelCase s ∉ protectedNames := by
  have hreserved : reservedWords ⊆ Identifier.reserved := by decide +kernel
  have hnot : Identifier.binding s ∉ reservedWords := fun hmem ↦
    Identifier.binding_not_mem_reserved s (hreserved hmem)
  have hprotected : Identifier.binding s ∈ protectedNames ↔
      Identifier.camelCase s ∈ protectedNames :=
    Identifier.binding_mem_iff (by decide +kernel)
  rw [← Identifier.isPlainProperty_binding_iff, ← hprotected]
  constructor
  · intro h
    exact ⟨h.plain, fun hmem ↦ h.free (List.mem_append_right _ hmem)⟩
  · rintro ⟨hplain, hfree⟩
    exact ⟨hplain, fun hmem ↦ (List.mem_append.1 hmem).elim hnot hfree⟩

/-! ### Names that are bound -/

/-- The names that the left-hand side of a constant binds. -/
def Binding.names : Binding → List String
  | .name binder => [binder]
  | .destructure fields rest => fields.map Prod.snd ++ rest.toList

/-- The names that a statement binds for those after it. -/
def Statement.boundNames : Statement → List String
  | .const binding _ => binding.names
  | _ => []

/-- The names in the scope of a function: its parameters, and what its statements bind. -/
def Declaration.scope (d : Declaration) : List String :=
  d.params.map Param.name ++ d.body.flatMap Statement.boundNames

/-- The names of a scope are distinct, and can be bound. -/
structure IsWellScoped (names : List String) : Prop where
  distinct : names.Nodup
  bindable : ∀ name ∈ names, IsBindable name

/-- Two parts of a scope are well formed, and apart from each other. -/
theorem isWellScoped_append_iff {xs ys : List String} :
    IsWellScoped (xs ++ ys) ↔ IsWellScoped xs ∧ IsWellScoped ys ∧ xs.Disjoint ys := by
  constructor
  · rintro ⟨hdistinct, hbindable⟩
    obtain ⟨hxs, hys, hapart⟩ := List.nodup_append'.1 hdistinct
    obtain ⟨hfirst, hsecond⟩ := List.forall_mem_append.1 hbindable
    exact ⟨⟨hxs, hfirst⟩, ⟨hys, hsecond⟩, hapart⟩
  · rintro ⟨hxs, hys, hapart⟩
    exact ⟨List.nodup_append'.2 ⟨hxs.distinct, hys.distinct, hapart⟩,
      List.forall_mem_append.2 ⟨hxs.bindable, hys.bindable⟩⟩

/-- The order of the names does not matter. -/
theorem isWellScoped_congr {xs ys : List String} (h : xs.Perm ys) :
    IsWellScoped xs ↔ IsWellScoped ys := by
  constructor
  · rintro ⟨hdistinct, hbindable⟩
    exact ⟨h.nodup_iff.1 hdistinct, fun name hname ↦ hbindable name (h.symm.subset hname)⟩
  · rintro ⟨hdistinct, hbindable⟩
    exact ⟨h.nodup_iff.2 hdistinct, fun name hname ↦ hbindable name (h.subset hname)⟩

/-- **A scope of bindings is well formed** if what is bound has a letter or digit, is not protected
and differs in camel case. -/
theorem isWellScoped_map_binding_iff {α : Type} (list : List α) (name : α → String) :
    IsWellScoped (list.map fun x ↦ Identifier.binding (name x)) ↔
      (∀ x ∈ list, ∃ c ∈ (name x).toList, c.isAlphanum = true) ∧
        (list.map fun x ↦ Identifier.camelCase (name x)).Nodup ∧
        ∀ x ∈ list, Identifier.camelCase (name x) ∉ protectedNames := by
  constructor
  · rintro ⟨hdistinct, hbindable⟩
    have hbind (x) (hx : x ∈ list) :=
      (isBindable_binding_iff (name x)).1 (hbindable _ (List.mem_map_of_mem hx))
    exact ⟨fun x hx ↦ (hbind x hx).1, (Identifier.nodup_map_binding_iff list name).1 hdistinct,
      fun x hx ↦ (hbind x hx).2⟩
  · rintro ⟨hnamed, hdistinct, hfree⟩
    refine ⟨(Identifier.nodup_map_binding_iff list name).2 hdistinct, fun bound hbound ↦ ?_⟩
    obtain ⟨x, hx, rfl⟩ := List.mem_map.1 hbound
    exact (isBindable_binding_iff (name x)).2 ⟨hnamed x hx, hfree x hx⟩

end ApiContract.TypeScript
