import ApiContract.Json.Fields

/-!
# Reading back what was written

The document that a specification is echoed as is written by a codec for each of its records, and
read by the decoder beside it. This module has one law for each piece that codecs are made of, so
that reading a record back is a matter of simplification.

## Fields

Looking a field up distributes over the fields of a record in their order (`field?_append`). A field
is always written, or only for a value that is there, or only under a condition; each of these has a
law about looking up any name, which gives the value, if the names agree, or nothing. So a record
whose fields have distinct names gives back each of them.

## Values

`readOptional` says how a field that may be absent is read once it has been looked up. It cannot
tell an absent value from `null`, so what is written for a value must not be `null`
(`readOptional_map`). Lists are read item by item (`list?_map`), and of records it is known which
names they may have.

The laws are tagged for the simplifier. Those about `Binary64` hold for every double, finite or not:
the tree carries the double itself, and only its text could lose it.
-/

namespace ApiContract

variable {name key : String} {value : Json}

/-! ### Looking up -/

@[simp] theorem field?_nil : field? name [] = none := rfl

@[simp] theorem field?_cons {fields : List (String × Json)} :
    field? name ((key, value) :: fields) = if key = name then some value else field? name fields :=
  rfl

/-- **Fields are looked up in their order.** -/
@[simp] theorem field?_append (front back : List (String × Json)) :
    field? name (front ++ back) = (field? name front).or (field? name back) := by
  induction front with
  | nil => rfl
  | cons field front ih =>
    rw [List.cons_append, field?_cons, field?_cons, ih]
    split <;> rfl

namespace Json

variable {α : Type} {write : α → Json} {read : Json → Option α}

@[simp] theorem field?_always :
    field? name (always key value) = if key = name then some value else none := rfl

@[simp] theorem field?_optional (value : Option α) :
    field? name (optional key write value) = if key = name then value.map write else none := by
  cases value with
  | none => split <;> rfl
  | some value => rfl

/-- Fields that may be left out altogether. -/
@[simp] theorem field?_ite (condition : Prop) [Decidable condition]
    (whenTrue whenFalse : List (String × Json)) :
    field? name (if condition then whenTrue else whenFalse) =
      if condition then field? name whenTrue else field? name whenFalse :=
  apply_ite (field? name) condition whenTrue whenFalse

/-! ### Reading -/

/-- A step of a reader after one that gave a value. It stands for `Option.bind_eq_bind`, under which
the simplifier goes through the rest of a long reader twice at every step. -/
@[simp] theorem some_bind {β : Type} (a : α) (f : α → Option β) : (some a >>= f) = f a := rfl

/-- A value that was looked up and may be absent or `null`. -/
def readOptional (read : Json → Option α) : Option Json → Option (Option α)
  | none => some none
  | some null => some none
  | some value => (read value).map some

/-- Reading an optional field is looking it up and reading what was found. -/
theorem optional?_eq {fields : List (String × Json)} :
    optional? read name fields = readOptional read (field? name fields) := by
  unfold optional? readOptional
  split <;> simp_all

/-- A field with a default is read if it is there. -/
theorem defaulted?_eq {default : α} {fields : List (String × Json)} :
    defaulted? read default name fields = (field? name fields).elim (some default) read := by
  unfold defaulted?
  split <;> simp_all

/-- A value that is there and not `null` is read. -/
theorem readOptional_some (h : value ≠ null) :
    readOptional read (some value) = (read value).map some := by
  cases value with
  | null => exact absurd rfl h
  | _ => rfl

/-- A value is read back if no value is written as `null`. -/
theorem readOptional_map (value : Option α) (hnull : ∀ v, write v ≠ null)
    (hread : ∀ v, read (write v) = some v) : readOptional read (value.map write) = some value := by
  cases value with
  | none => rfl
  | some value => rw [Option.map_some, readOptional_some (hnull value), hread]; rfl

@[simp] theorem asString?_string (value : String) : asString? (string value) = some value := rfl

@[simp] theorem asBool?_bool (value : Bool) : asBool? (bool value) = some value := rfl

@[simp] theorem asArray?_array (items : List Json) : asArray? (array items) = some items := rfl

@[simp] theorem word?_string (value : String) : word? (string value) = some value := rfl

@[simp] theorem nat?_ofNat (n : Nat) : nat? (ofNat n) = some n := by
  simp [nat?, ofNat, asNumber?, Number.toNat?]

@[simp] theorem float?_number (x : Binary64) : float? (number (.float x)) = some x := rfl

@[simp] theorem record?_object (names : List String) (fields : List (String × Json)) :
    record? names (object fields) = some fields := rfl

@[simp] theorem readOptional_string (value : Option String) :
    readOptional asString? (value.map string) = some value :=
  readOptional_map value (fun _ ↦ nofun) asString?_string

@[simp] theorem readOptional_nat (value : Option Nat) :
    readOptional nat? (value.map ofNat) = some value :=
  readOptional_map value (fun _ ↦ nofun) nat?_ofNat

@[simp] theorem readOptional_float (value : Option Binary64) :
    readOptional float? (value.map fun x ↦ number (.float x)) = some value :=
  readOptional_map value (fun _ ↦ nofun) float?_number

/-- A list is read from its first item on. -/
theorem list?_cons (item : Json) (rest : List Json) :
    list? read (array (item :: rest)) =
      (read item).bind fun value ↦ (list? read (array rest)).map (value :: ·) := by
  rw [list?, list?, List.mapM_cons]
  cases read item <;> cases rest.mapM read <;> rfl

/-- **A list is read back if its items are.** -/
theorem list?_map {values : List α} (h : ∀ value ∈ values, read (write value) = some value) :
    list? read (array (values.map write)) = some values := by
  induction values with
  | nil => rfl
  | cons value rest ih =>
    obtain ⟨hvalue, hrest⟩ := List.forall_mem_cons.1 h
    rw [List.map_cons, list?_cons, hvalue, ih hrest]
    rfl

@[simp] theorem list?_strings (values : List String) :
    list? asString? (strings values) = some values :=
  list?_map fun value _ ↦ asString?_string value

end Json

end ApiContract
