import Mathlib.Data.List.Forall2

/-!
# Computations that may fail

When a chain of computations succeeds, and when a traversal does: the laws by which the functions
that make artifacts are taken apart. They hold of every type of failure.

## Sequences

`bind_eq_ok_iff` and `bind_eq_error_iff` open a sequence into its steps. A step whose success and
result are known by a condition is opened by `bind_eq_ok_iff_of_iff`, which gives the condition of
the whole sequence when nothing after it can fail.

## Traversals

A traversal succeeds if every step does, and its results correspond to the elements one by one:
`List.Forall₂` relates the two lists, and what is collected from the one is read off the other by
its lemmas (`List.Forall₂.flatMap_eq`, `List.Forall₂.map_eq`). `mapM_eq_ok_iff_map` is the case in
which each step has a condition and a known result. `mapM_map_of_eq` and `mapM_map_of_map` carry a
change of the elements through.

## Ways to fail

`FailsOnly p` says that a computation fails only in ways of which `p` holds; it is closed under
sequences and traversals, so it is shown for a function along its text.
-/

namespace List.Forall₂

variable {α β : Type} {R : α → β → Prop} {xs : List α} {ys : List β}

/-- An element on the left has a partner on the right. -/
theorem exists_of_mem_left (h : Forall₂ R xs ys) {x : α} (hx : x ∈ xs) : ∃ y ∈ ys, R x y := by
  induction h with
  | nil => exact absurd hx not_mem_nil
  | cons hfirst _ ih =>
    rcases mem_cons.1 hx with rfl | hlater
    · exact ⟨_, mem_cons_self, hfirst⟩
    · obtain ⟨y, hy, hxy⟩ := ih hlater
      exact ⟨y, mem_cons_of_mem _ hy, hxy⟩

/-- An element on the right has a partner on the left. -/
theorem exists_of_mem_right (h : Forall₂ R xs ys) {y : β} (hy : y ∈ ys) : ∃ x ∈ xs, R x y := by
  induction h with
  | nil => exact absurd hy not_mem_nil
  | cons hfirst _ ih =>
    rcases mem_cons.1 hy with rfl | hlater
    · exact ⟨_, mem_cons_self, hfirst⟩
    · obtain ⟨x, hx, hxy⟩ := ih hlater
      exact ⟨x, mem_cons_of_mem _ hx, hxy⟩

/-- What is told of related elements alike is collected alike. -/
theorem flatMap_eq {γ : Type} {f : α → List γ} {g : β → List γ} (h : Forall₂ R xs ys)
    (heq : ∀ x y, R x y → f x = g y) : xs.flatMap f = ys.flatMap g := by
  induction h with
  | nil => rfl
  | cons hfirst _ ih => rw [flatMap_cons, flatMap_cons, heq _ _ hfirst, ih]

theorem map_eq {γ : Type} {f : α → γ} {g : β → γ} (h : Forall₂ R xs ys)
    (heq : ∀ x y, R x y → f x = g y) : xs.map f = ys.map g := by
  induction h with
  | nil => rfl
  | cons hfirst _ ih => rw [map_cons, map_cons, heq _ _ hfirst, ih]

/-- Where each pair is related through something between, the lists are too. -/
theorem exists_between {γ : Type} {P : α → γ → Prop} {Q : γ → β → Prop} (h : Forall₂ R xs ys)
    (hbetween : ∀ x y, R x y → ∃ z, P x z ∧ Q z y) :
    ∃ zs, Forall₂ P xs zs ∧ Forall₂ Q zs ys := by
  induction h with
  | nil => exact ⟨[], .nil, .nil⟩
  | cons hfirst _ ih =>
    obtain ⟨z, hz, hzy⟩ := hbetween _ _ hfirst
    obtain ⟨zs, hzs, hrest⟩ := ih
    exact ⟨z :: zs, .cons hz hzs, .cons hzy hrest⟩

end List.Forall₂

namespace Except

variable {ε α β : Type}

/-- A sequence succeeds if both its steps do. -/
theorem bind_eq_ok_iff {x : Except ε α} {f : α → Except ε β} {b : β} :
    (x >>= f) = .ok b ↔ ∃ a, x = .ok a ∧ f a = .ok b := by
  cases x with
  | error e =>
    constructor
    · intro h
      cases h
    · rintro ⟨_, h, -⟩
      cases h
  | ok a =>
    constructor
    · intro h
      exact ⟨a, rfl, h⟩
    · rintro ⟨_, ha, h⟩
      cases ha
      exact h

/-- A step that succeeds under a condition, with a known result, on which something follows that
cannot fail. -/
theorem bind_eq_ok_iff_of_iff {x : Except ε α} {f : α → Except ε β} {p : Prop} {a : α} {b c : β}
    (hx : ∀ a', x = .ok a' ↔ p ∧ a' = a) (hf : f a = .ok b) :
    (x >>= f) = .ok c ↔ p ∧ c = b := by
  rw [bind_eq_ok_iff]
  constructor
  · rintro ⟨a', ha, hc⟩
    obtain ⟨hp, rfl⟩ := (hx a').1 ha
    exact ⟨hp, ok.inj (hc.symm.trans hf)⟩
  · rintro ⟨hp, rfl⟩
    exact ⟨a, (hx a).2 ⟨hp, rfl⟩, hf⟩

theorem map_eq_ok_iff {x : Except ε α} {f : α → β} {b : β} :
    x.map f = .ok b ↔ ∃ a, x = .ok a ∧ f a = b := by
  cases x with
  | error e =>
    constructor
    · intro h
      cases h
    · rintro ⟨_, h, -⟩
      cases h
  | ok a =>
    constructor
    · intro h
      exact ⟨a, rfl, ok.inj h⟩
    · rintro ⟨_, ha, rfl⟩
      cases ha
      rfl

/-- A step on which another follows, and then something that cannot fail. -/
theorem bind_map_eq_ok_iff {γ : Type} {x : Except ε α} {f : α → Except ε β} {g : β → γ} {c : γ} :
    (x >>= fun a ↦ (f a).map g) = .ok c ↔ ∃ a b, x = .ok a ∧ f a = .ok b ∧ c = g b := by
  rw [bind_eq_ok_iff]
  constructor
  · rintro ⟨a, ha, hmap⟩
    obtain ⟨b, hb, hc⟩ := map_eq_ok_iff.1 hmap
    exact ⟨a, b, ha, hb, hc.symm⟩
  · rintro ⟨a, b, ha, hb, rfl⟩
    exact ⟨a, ha, map_eq_ok_iff.2 ⟨b, hb, rfl⟩⟩

/-- A sequence fails in its first step, or in its second after the first has succeeded. -/
theorem bind_eq_error_iff {x : Except ε α} {f : α → Except ε β} {e : ε} :
    (x >>= f) = .error e ↔ x = .error e ∨ ∃ a, x = .ok a ∧ f a = .error e := by
  cases x with
  | error e' =>
    constructor
    · intro h
      exact .inl (congrArg error (error.inj h))
    · rintro (h | ⟨_, h, -⟩)
      · exact congrArg error (error.inj h)
      · cases h
  | ok a =>
    constructor
    · intro h
      exact .inr ⟨a, rfl, h⟩
    · rintro (h | ⟨_, ha, h⟩)
      · cases h
      · cases ha
        exact h

theorem map_eq_error_iff {x : Except ε α} {f : α → β} {e : ε} :
    x.map f = .error e ↔ x = .error e := by
  cases x with
  | error e' => exact ⟨fun h ↦ congrArg error (error.inj h), fun h ↦ congrArg error (error.inj h)⟩
  | ok a => exact ⟨nofun, nofun⟩

/-- A traversal succeeds if every step does. -/
theorem mapM_eq_ok_iff {f : α → Except ε β} {xs : List α} {ys : List β} :
    xs.mapM f = .ok ys ↔ List.Forall₂ (fun x y ↦ f x = .ok y) xs ys := by
  induction xs generalizing ys with
  | nil =>
    rw [List.mapM_nil, List.forall₂_nil_left_iff]
    exact ⟨fun h ↦ (ok.inj h).symm, fun h ↦ congrArg ok h.symm⟩
  | cons x xs ih =>
    rw [List.mapM_cons, bind_eq_ok_iff, List.forall₂_cons_left_iff]
    constructor
    · rintro ⟨y, hy, hrest⟩
      obtain ⟨rest, hrest, heq⟩ := bind_eq_ok_iff.1 hrest
      exact ⟨y, rest, hy, ih.1 hrest, (ok.inj heq).symm⟩
    · rintro ⟨y, rest, hy, hrest, rfl⟩
      exact ⟨y, hy, bind_eq_ok_iff.2 ⟨rest, ih.2 hrest, rfl⟩⟩

/-- What a traversal gives comes from its steps. -/
theorem exists_of_mem_of_mapM_eq_ok {f : α → Except ε β} {xs : List α} {ys : List β}
    (h : xs.mapM f = .ok ys) {y : β} (hy : y ∈ ys) : ∃ x ∈ xs, f x = .ok y :=
  (mapM_eq_ok_iff.1 h).exists_of_mem_right hy

/-- A traversal succeeds if each step gives something. -/
theorem exists_mapM_eq_ok {f : α → Except ε β} {R : α → β → Prop} {xs : List α}
    (h : ∀ x ∈ xs, ∃ y, f x = .ok y ∧ R x y) :
    ∃ ys, xs.mapM f = .ok ys ∧ List.Forall₂ R xs ys := by
  induction xs with
  | nil => exact ⟨[], rfl, .nil⟩
  | cons x xs ih =>
    obtain ⟨⟨y, hy, hxy⟩, hrest⟩ := List.forall_mem_cons.1 h
    obtain ⟨ys, hys, hall⟩ := ih hrest
    refine ⟨y :: ys, ?_, .cons hxy hall⟩
    rw [mapM_eq_ok_iff] at hys ⊢
    exact .cons hy hys

/-- A traversal fails as one of its steps does. -/
theorem exists_of_mapM_eq_error {f : α → Except ε β} {xs : List α} {e : ε}
    (h : xs.mapM f = .error e) : ∃ x ∈ xs, f x = .error e := by
  induction xs with
  | nil => exact absurd h nofun
  | cons x xs ih =>
    rw [List.mapM_cons] at h
    rcases bind_eq_error_iff.1 h with hfirst | ⟨y, -, hrest⟩
    · exact ⟨x, List.mem_cons_self, hfirst⟩
    · rcases bind_eq_error_iff.1 hrest with hlater | ⟨ys, -, hpure⟩
      · obtain ⟨x', hx', hstep⟩ := ih hlater
        exact ⟨x', List.mem_cons_of_mem _ hx', hstep⟩
      · exact absurd hpure nofun

/-- A traversal whose steps succeed under a condition, each with a known result. -/
theorem mapM_eq_ok_iff_map {f : α → Except ε β} {p : α → Prop} {g : α → β}
    (h : ∀ x y, f x = .ok y ↔ p x ∧ y = g x) {xs : List α} {ys : List β} :
    xs.mapM f = .ok ys ↔ (∀ x ∈ xs, p x) ∧ ys = xs.map g := by
  simp only [mapM_eq_ok_iff, h]
  induction xs generalizing ys with
  | nil => simp
  | cons x xs ih =>
    simp only [List.forall₂_cons_left_iff, ih, List.forall_mem_cons, List.map_cons]
    constructor
    · rintro ⟨y, rest, ⟨hx, rfl⟩, ⟨hxs, rfl⟩, rfl⟩
      exact ⟨⟨hx, hxs⟩, rfl⟩
    · rintro ⟨⟨hx, hxs⟩, rfl⟩
      exact ⟨g x, xs.map g, ⟨hx, rfl⟩, ⟨hxs, rfl⟩, rfl⟩

/-- Where a step does on a changed element what it did before, so does the traversal. -/
theorem mapM_map_of_eq {α' : Type} {f : α → Except ε β} {f' : α' → Except ε β} {e : α → α'}
    (h : ∀ x, f' (e x) = f x) (xs : List α) : (xs.map e).mapM f' = xs.mapM f := by
  rw [List.mapM_map]
  exact congrArg (xs.mapM ·) (funext h)

/-- Where a change of the element changes the result of a step, it changes each result of the
traversal. -/
theorem mapM_map_of_map {α' β' : Type} {f : α → Except ε β} {f' : α' → Except ε β'} {e : α → α'}
    {g : β → β'} (h : ∀ x, f' (e x) = g <$> f x) (xs : List α) :
    (xs.map e).mapM f' = List.map g <$> xs.mapM f := by
  induction xs with
  | nil => rfl
  | cons x xs ih =>
    rw [List.map_cons, List.mapM_cons, List.mapM_cons, h, ih]
    simp only [map_bind, bind_map_left, map_pure, List.map_cons]

/-! ### Ways to fail -/

/-- A computation fails only in ways of which `p` holds. -/
def FailsOnly (p : ε → Prop) (x : Except ε α) : Prop := ∀ e, x = .error e → p e

section FailsOnly

variable {p : ε → Prop}

theorem failsOnly_ok (a : α) : FailsOnly p (.ok a : Except ε α) := nofun

/-- A sequence fails as its steps do. -/
theorem FailsOnly.bind {x : Except ε α} {f : α → Except ε β} (hx : FailsOnly p x)
    (hf : ∀ a, FailsOnly p (f a)) : FailsOnly p (x >>= f) := by
  intro e h
  rcases bind_eq_error_iff.1 h with hfirst | ⟨a, -, hlater⟩
  · exact hx e hfirst
  · exact hf a e hlater

theorem FailsOnly.map {x : Except ε α} (hx : FailsOnly p x) (f : α → β) :
    FailsOnly p (x.map f) :=
  fun e h ↦ hx e (map_eq_error_iff.1 h)

/-- A traversal fails as its steps do. -/
theorem FailsOnly.mapM {f : α → Except ε β} (hf : ∀ a, FailsOnly p (f a)) (xs : List α) :
    FailsOnly p (xs.mapM f) := by
  intro e h
  obtain ⟨x, -, hstep⟩ := exists_of_mapM_eq_error h
  exact hf x e hstep

end FailsOnly

end Except
