import Mathlib.Data.List.Infix

/-!
# Texts that tell things apart

A text that something else follows may be read in more than one way, unless what follows is known to
end it. The texts of two things tell them apart if there is only one way for the two of them
(`TellApart`): if they are the same with what follows, then the two things are the same, and so is
what follows.

## Lists

Lists of such things are told apart too, with a separator between them (`TellApart.intercalate`) or
without (`TellApart.flatMap`). With a separator, it has to end the text of a thing, and must not
follow the list; without one, what follows must not begin as one of the things. Both are inductions
on the two lists at once.

## Why not a reader

That printed things can be told apart could be shown with a reader for each kind of them. For
values, types and expressions there would be nothing else to use it for; and `TellApart` composes: a
thing that is made of others is told apart if they are, by the lemma for the way in which it is put
together. What ends a text is a parameter, since a number ends where no digit follows, a name where
no letter does, and a quoted text at its quote.
-/

namespace ApiContract.Text

variable {α β : Type}

/-! ### Lists with separators -/

/-- Separators between two lists and within each. -/
theorem intercalate_append {separator : List α} {xs ys : List (List α)} (hxs : xs ≠ [])
    (hys : ys ≠ []) :
    separator.intercalate (xs ++ ys) =
      separator.intercalate xs ++ separator ++ separator.intercalate ys := by
  induction xs with
  | nil => exact absurd rfl hxs
  | cons x xs ih =>
    cases xs with
    | nil =>
      rw [List.singleton_append, List.intercalate_cons_of_ne_nil hys, List.intercalate_singleton]
    | cons y xs =>
      have hrest : y :: xs ++ ys ≠ [] := List.cons_ne_nil _ _
      rw [List.cons_append, List.intercalate_cons_of_ne_nil hrest, ih (List.cons_ne_nil _ _),
        List.intercalate_cons_cons]
      simp only [List.append_assoc]

/-- Lists of texts that are put one after the other may get their separators one by one. -/
theorem intercalate_flatMap {separator : List α} {f : β → List (List α)} {xs : List β}
    (h : ∀ x ∈ xs, f x ≠ []) :
    separator.intercalate (xs.flatMap f) =
      separator.intercalate (xs.map fun x ↦ separator.intercalate (f x)) := by
  induction xs with
  | nil => rfl
  | cons x xs ih =>
    obtain ⟨hx, hxs⟩ := List.forall_mem_cons.1 h
    rw [List.flatMap_cons, List.map_cons]
    cases xs with
    | nil => rw [List.flatMap_nil, List.append_nil, List.map_nil, List.intercalate_singleton]
    | cons y xs =>
      have hne : (y :: xs).flatMap f ≠ [] := by
        rw [List.flatMap_cons]
        exact List.append_ne_nil_of_left_ne_nil (hxs y List.mem_cons_self) _
      rw [intercalate_append hx hne, ih hxs, List.map_cons, List.intercalate_cons_cons]

/-! ### Texts that something follows -/

/-- The texts of two things tell them apart, whatever follows them, as long as that ends a text: if
they are the same with what follows, the two things are the same, and so is what follows. -/
def TellApart (text : α → List Char) (ends : List Char → Prop) (x y : α) : Prop :=
  ∀ ⦃r s : List Char⦄, ends r → ends s → text x ++ r = text y ++ s → x = y ∧ r = s

/-- What follows a word is left when its characters are dropped. -/
theorem dropWhile_word_append {p : Char → Bool} {word rest : List Char}
    (hword : ∀ c ∈ word, p c = true) (hrest : ∀ c ∈ rest.head?, p c = false) :
    (word ++ rest).dropWhile p = rest := by
  rw [List.dropWhile_append_of_pos hword]
  cases rest with
  | nil => rfl
  | cons c rest =>
    refine List.dropWhile_cons_of_neg ?_
    rw [hrest c rfl]
    exact Bool.false_ne_true

/-- A word in front is taken up to where its characters end. -/
theorem takeWhile_word_append {p : Char → Bool} {word rest : List Char}
    (hword : ∀ c ∈ word, p c = true) (hrest : ∀ c ∈ rest.head?, p c = false) :
    (word ++ rest).takeWhile p = word := by
  rw [List.takeWhile_append_of_pos hword]
  cases rest with
  | nil => rw [List.takeWhile_nil, List.append_nil]
  | cons c rest =>
    have hc : ¬p c = true := by
      rw [hrest c rfl]
      exact Bool.false_ne_true
    rw [List.takeWhile_cons_of_neg hc, List.append_nil]

/-- Words are told apart if they have characters that do not follow them. -/
theorem eq_of_word_append_eq {p : Char → Bool} {v w r s : List Char} (hv : ∀ c ∈ v, p c = true)
    (hw : ∀ c ∈ w, p c = true) (hr : ∀ c ∈ r.head?, p c = false)
    (hs : ∀ c ∈ s.head?, p c = false) (h : v ++ r = w ++ s) : v = w ∧ r = s := by
  have hrest : r = s := by rw [← dropWhile_word_append hv hr, h, dropWhile_word_append hw hs]
  exact ⟨List.append_cancel_right (hrest ▸ h), hrest⟩

namespace TellApart

variable {text : α → List Char} {ends : List Char → Prop} {xs ys : List α} {r s : List Char}

/-- Lists with a separator between their things are told apart if it ends the text of one and does
not follow the list. -/
theorem intercalate {separator : List Char} (hends : ∀ cs, ends (separator ++ cs))
    (h : ∀ x ∈ xs, ∀ y ∈ ys, TellApart text ends x y) (hxs : xs ≠ []) (hys : ys ≠ [])
    (hr : ends r) (hs : ends s) (hmore : ¬separator <+: r) (hmore' : ¬separator <+: s)
    (heq : separator.intercalate (xs.map text) ++ r = separator.intercalate (ys.map text) ++ s) :
    xs = ys ∧ r = s := by
  induction xs generalizing ys with
  | nil => exact absurd rfl hxs
  | cons x xs ih =>
    obtain ⟨y, ys, rfl⟩ := List.exists_cons_of_ne_nil hys
    have hfirst : TellApart text ends x y := h x List.mem_cons_self y List.mem_cons_self
    have hrest : ∀ x ∈ xs, ∀ y ∈ ys, TellApart text ends x y :=
      fun x hx y hy ↦ h x (List.mem_cons_of_mem _ hx) y (List.mem_cons_of_mem _ hy)
    rw [List.map_cons, List.map_cons] at heq
    -- What one list has more than the other begins with a separator, and neither rest does.
    cases xs with
    | nil =>
      rw [List.map_nil, List.intercalate_singleton] at heq
      cases ys with
      | nil =>
        rw [List.map_nil, List.intercalate_singleton] at heq
        obtain ⟨rfl, hrs⟩ := hfirst hr hs heq
        exact ⟨rfl, hrs⟩
      | cons z ys =>
        rw [List.map_cons, List.intercalate_cons_cons, List.append_assoc, List.append_assoc] at heq
        obtain ⟨-, hrs⟩ := hfirst hr (hends _) heq
        exact absurd ⟨_, hrs.symm⟩ hmore
    | cons z xs =>
      rw [List.map_cons, List.intercalate_cons_cons, List.append_assoc, List.append_assoc] at heq
      cases ys with
      | nil =>
        rw [List.map_nil, List.intercalate_singleton] at heq
        obtain ⟨-, hrs⟩ := hfirst (hends _) hs heq
        exact absurd ⟨_, hrs⟩ hmore'
      | cons z' ys =>
        rw [List.map_cons, List.intercalate_cons_cons, List.append_assoc, List.append_assoc] at heq
        obtain ⟨rfl, htail⟩ := hfirst (hends _) (hends _) heq
        obtain ⟨hlists, hrs⟩ := ih hrest (List.cons_ne_nil _ _) (List.cons_ne_nil _ _)
          (List.append_cancel_left htail)
        exact ⟨congrArg (x :: ·) hlists, hrs⟩

/-- A list may be empty as well if what follows it does not begin as one of its things. -/
theorem intercalate_or_nil {separator : List Char} (hends : ∀ cs, ends (separator ++ cs))
    (h : ∀ x ∈ xs, ∀ y ∈ ys, TellApart text ends x y) (hr : ends r) (hs : ends s)
    (hmore : ¬separator <+: r) (hmore' : ¬separator <+: s) (hbegins : ∀ y ∈ ys, ¬text y <+: r)
    (hbegins' : ∀ x ∈ xs, ¬text x <+: s)
    (heq : separator.intercalate (xs.map text) ++ r = separator.intercalate (ys.map text) ++ s) :
    xs = ys ∧ r = s := by
  have hfirst {x : α} {xs : List α} :
      text x <+: separator.intercalate ((x :: xs).map text) := by
    cases xs with
    | nil => rw [List.map_cons, List.map_nil, List.intercalate_singleton]
    | cons =>
      rw [List.map_cons, List.map_cons, List.intercalate_cons_cons, List.append_assoc]
      exact List.prefix_append _ _
  rcases xs with - | ⟨x, xs⟩ <;> rcases ys with - | ⟨y, ys⟩
  · exact ⟨rfl, heq⟩
  · refine absurd ?_ (hbegins y List.mem_cons_self)
    have heq : r = _ := heq
    exact heq ▸ hfirst.trans (List.prefix_append _ _)
  · refine absurd ?_ (hbegins' x List.mem_cons_self)
    have heq : _ = s := heq
    exact heq ▸ hfirst.trans (List.prefix_append _ _)
  · exact intercalate hends h (List.cons_ne_nil _ _) (List.cons_ne_nil _ _) hr hs hmore hmore' heq

/-- Lists without anything between their things are told apart if what follows a list does not begin
as one of its things. -/
theorem flatMap (h : ∀ x ∈ xs, ∀ y ∈ ys, TellApart text (fun _ ↦ True) x y)
    (hbegins : ∀ y ∈ ys, ¬text y <+: r) (hbegins' : ∀ x ∈ xs, ¬text x <+: s)
    (heq : xs.flatMap text ++ r = ys.flatMap text ++ s) : xs = ys ∧ r = s := by
  induction xs generalizing ys with
  | nil =>
    cases ys with
    | nil => exact ⟨rfl, heq⟩
    | cons y ys =>
      rw [List.flatMap_cons, List.append_assoc] at heq
      exact absurd ⟨_, heq.symm⟩ (hbegins y List.mem_cons_self)
  | cons x xs ih =>
    rw [List.flatMap_cons, List.append_assoc] at heq
    cases ys with
    | nil => exact absurd ⟨_, heq⟩ (hbegins' x List.mem_cons_self)
    | cons y ys =>
      rw [List.flatMap_cons, List.append_assoc] at heq
      obtain ⟨rfl, htail⟩ := h x List.mem_cons_self y List.mem_cons_self trivial trivial heq
      obtain ⟨hlists, hrs⟩ := ih
        (fun x hx y hy ↦ h x (List.mem_cons_of_mem _ hx) y (List.mem_cons_of_mem _ hy))
        (fun y hy ↦ hbegins y (List.mem_cons_of_mem _ hy))
        (fun x hx ↦ hbegins' x (List.mem_cons_of_mem _ hx)) htail
      exact ⟨congrArg (x :: ·) hlists, hrs⟩

end TellApart

end ApiContract.Text
