import Mathlib.Data.List.Sort
import SealedBid.Foundation.DecimalNotation
import SealedBid.Foundation.MapEnumeration

/-!
# Plain objects used as maps

An object literal of a scripting language that is filled by assignments and read by its own fields.
A field that exists is assigned in place and a new one is added at the end. One name is special:
`__proto__` is no field of an object literal but the access to its prototype, and an assignment of a
value that is no object to it is ignored (`assign`).

`entries` lists the fields the way the language does, names that are array indices first, in
ascending order, and the others in the order in which they were added. The order does not matter to
a lookup (`lookup_entries`).

Scope. The values are primitive values.
-/

set_option autoImplicit false
set_option relaxedAutoImplicit false

namespace SealedBid

open DecimalNotation MapEnumeration

/-- An object literal with its own fields, oldest first. -/
structure PlainObject (Value : Type) where
  fields : List (String × Value)
  nodup_names : (fields.map Prod.fst).Nodup

/-! ### Lists of fields -/

section Fields

variable {Value : Type}

/-- The fields after an assignment to one of them. -/
def putField (name : String) (value : Value) : List (String × Value) → List (String × Value)
  | [] => [(name, value)]
  | field :: fields =>
    if field.1 = name then (name, value) :: fields else field :: putField name value fields

theorem map_fst_putField (name : String) (value : Value) (fields : List (String × Value)) :
    (putField name value fields).map Prod.fst =
      if name ∈ fields.map Prod.fst then fields.map Prod.fst
      else fields.map Prod.fst ++ [name] := by
  induction fields with
  | nil => rfl
  | cons field fields ih =>
    by_cases hname : field.1 = name
    · simp [putField, hname]
    · by_cases hmem : name ∈ fields.map Prod.fst
      · rw [if_pos hmem] at ih
        simp [putField, hname, ih, List.mem_cons_of_mem _ hmem]
      · rw [if_neg hmem] at ih
        rw [List.map_cons, if_neg (by simpa [Ne.symm hname] using hmem)]
        simp [putField, hname, ih]

theorem nodup_putField {name : String} {value : Value} {fields : List (String × Value)}
    (h : (fields.map Prod.fst).Nodup) : ((putField name value fields).map Prod.fst).Nodup := by
  rw [map_fst_putField]
  split_ifs with hmem
  · exact h
  · rw [← List.concat_eq_append]
    exact h.concat hmem

theorem lookup_putField (name other : String) (value : Value) (fields : List (String × Value)) :
    (putField name value fields).lookup other =
      if other = name then some value else fields.lookup other := by
  induction fields with
  | nil => simp [putField, lookup_cons_eq_ite]
  | cons field fields ih =>
    by_cases hname : field.1 = name
    · by_cases hother : other = name <;> simp [putField, lookup_cons_eq_ite, hname, hother]
    · rw [putField, if_neg hname, lookup_cons_eq_ite, lookup_cons_eq_ite, ih]
      by_cases hother : other = name
      · simp [hother, Ne.symm hname]
      · simp [hother]

end Fields

/-! ### Objects -/

namespace PlainObject

variable {Value : Type}

/-- The object literal without fields. -/
def empty : PlainObject Value := ⟨[], List.nodup_nil⟩

/-- The object after `object[name] = value`. -/
def assign (object : PlainObject Value) (name : String) (value : Value) : PlainObject Value :=
  if name = "__proto__" then object
  else ⟨putField name value object.fields, nodup_putField object.nodup_names⟩

/-- An own field. -/
def get (object : PlainObject Value) (name : String) : Option Value := object.fields.lookup name

/-- The array index that a name is. -/
def arrayIndex (name : String) : Option ℕ :=
  match readDigits name.toList with
  | some index => if name = toString index ∧ index < 4294967295 then some index else none
  | none => none

/-- `Object.entries(object)`. -/
def entries (object : PlainObject Value) : List (String × Value) :=
  (object.fields.filter fun field ↦ (arrayIndex field.1).isSome).insertionSort
      (fun first second ↦ (arrayIndex first.1).getD 0 ≤ (arrayIndex second.1).getD 0) ++
    object.fields.filter fun field ↦ !(arrayIndex field.1).isSome

@[simp] theorem get_empty (name : String) : (empty : PlainObject Value).get name = none := rfl

theorem get_assign (object : PlainObject Value) (name other : String) (value : Value) :
    (object.assign name value).get other =
      if name = "__proto__" then object.get other
      else if other = name then some value else object.get other := by
  unfold assign get
  split_ifs with hproto hother
  · rfl
  · rw [lookup_putField, if_pos hother]
  · rw [lookup_putField, if_neg hother]

/-- The last assignment to a name decides. -/
theorem get_foldl_assign (assignments : List (String × Value)) (object : PlainObject Value)
    (name : String) :
    (assignments.foldl (fun object field ↦ object.assign field.1 field.2) object).get name =
      if name = "__proto__" then object.get name
      else (assignments.reverse.lookup name).or (object.get name) := by
  induction assignments generalizing object with
  | nil => simp
  | cons field assignments ih =>
    rw [List.foldl_cons, ih, get_assign, List.reverse_cons, List.lookup_append]
    split_ifs with hname hproto hfield hproto hfield
    · rfl
    · exact absurd (hfield ▸ hname) hproto
    · rfl
    · rw [lookup_cons_eq_ite, if_neg (hproto ▸ hname)]
      simp
    · rw [lookup_cons_eq_ite, if_pos hfield, Option.or_assoc, Option.some_or]
    · rw [lookup_cons_eq_ite, if_neg hfield]
      simp

theorem entries_perm (object : PlainObject Value) : object.entries.Perm object.fields :=
  ((List.perm_insertionSort _ _).append_right _).trans (List.filter_append_perm _ _)

/-- Listing the fields changes no lookup. -/
theorem lookup_entries (object : PlainObject Value) (name : String) :
    object.entries.lookup name = object.get name :=
  lookup_eq_of_perm object.nodup_names object.entries_perm name

end PlainObject

end SealedBid
