import SealedBid.Foundation.NumberValues

/-!
# Parsed documents in a script

The values that parsing a document yields (`Json`) and what a script does with them without
knowing their shape: reading a property, which needs a value that is neither undefined nor null
(`property`), the guarded reading (`optionalProperty`), the default for a missing value (`orElse`),
the truth of a value (`truthy`), its conversion to a text and to a number, and its text as a
document (`Json.stringify`). An undefined value is `none`.

The conversions can fail: an object that has a property called `toString` of its own has no text,
and neither has an array that holds one. `Json.convertible` says when they succeed
(`exists_toText_iff`, `exists_toNumber_iff`).

Scope. The fields of an object are its own properties in their order, with distinct names. Documents
nested deeper than the stack of the script engine are left out.
-/

set_option autoImplicit false
set_option relaxedAutoImplicit false

namespace SealedBid

/-- The value of a parsed document. -/
inductive Json
  | null
  | bool (b : Bool)
  | number (x : Number)
  | string (s : String)
  | array (elements : List Json)
  | object (fields : List (String × Json))

/-- What a script throws when a value is not what it is used as. -/
inductive TypeError
  | noProperties (name : String)
  | noPrimitive
  | noFunction (name : String)
  deriving DecidableEq

/-! ### Properties -/

/-- The property of a value under a name. Values that are no objects have none of the names that
documents use. -/
def Json.own (v : Json) (name : String) : Option Json :=
  match v with
  | .object fields => fields.lookup name
  | _ => none

/-- `v.name`. -/
def property (v : Option Json) (name : String) : Except TypeError (Option Json) :=
  match v with
  | none => .error (.noProperties name)
  | some .null => .error (.noProperties name)
  | some v => .ok (v.own name)

/-- `v?.name`. -/
def optionalProperty (v : Option Json) (name : String) : Option Json := v.bind fun v ↦ v.own name

/-- `v ?? default`. -/
def orElse (v : Option Json) (default : Json) : Json :=
  match v with
  | none => default
  | some .null => default
  | some v => v

/-- Whether a condition on a value holds. -/
def truthy (v : Option Json) : Bool :=
  match v with
  | none => false
  | some .null => false
  | some (.bool b) => b
  | some (.number x) => x ≠ .nan ∧ x ≠ .zero
  | some (.string s) => s ≠ ""
  | some (.array _) => true
  | some (.object _) => true

/-- `v === text`. -/
def isText (v : Option Json) (text : String) : Bool :=
  match v with
  | some (.string s) => s = text
  | _ => false

/-- `v.map(f)`: only arrays have that function. -/
def mapElements {α : Type} (v : Json) (f : Json → Except TypeError α) :
    Except TypeError (List α) :=
  match v with
  | .array elements => elements.mapM f
  | _ => .error (.noFunction "map")

/-- Reading a property of a value that is not null is reading it guarded. -/
theorem property_of_ne_null {v : Json} (h : v ≠ .null) (name : String) :
    property (some v) name = .ok (v.own name) := by
  cases v with
  | null => exact absurd rfl h
  | _ => rfl

theorem property_of_truthy {v : Option Json} (h : truthy v = true) (name : String) :
    property v name = .ok (optionalProperty v name) := by
  cases v with
  | none => cases h
  | some v =>
    have hnull : v ≠ .null := by
      rintro rfl
      cases h
    rw [property_of_ne_null hnull]
    rfl

/-! ### Conversions -/

/-- The text of an element of an array, from its text as a value. -/
def Json.asElement (v : Json) (text : Except TypeError String) : Except TypeError String :=
  match v with
  | .null => .ok ""
  | _ => text

mutual

/-- `String(v)`. The elements of an array are separated by commas, and null elements are blank. -/
def Json.toText : Json → Except TypeError String
  | .null => .ok "null"
  | .bool b => .ok (if b then "true" else "false")
  | .number x => .ok x.toString
  | .string s => .ok s
  | .array elements => do
    let texts ← elementTexts elements
    return String.intercalate "," texts
  | .object fields =>
    if (fields.lookup "toString").isSome then .error .noPrimitive else .ok "[object Object]"

def elementTexts : List Json → Except TypeError (List String)
  | [] => .ok []
  | v :: rest => do
    let text ← v.asElement v.toText
    let texts ← elementTexts rest
    return text :: texts

end

/-- `Number(v)`. -/
def Json.toNumber : Json → Except TypeError Number
  | .null => .ok .zero
  | .bool b => .ok (if b then .ofRat 1 else .zero)
  | .number x => .ok x
  | .string s => .ok (.ofString s)
  | .array elements => do
    let text ← (Json.array elements).toText
    return .ofString text
  | .object fields => do
    let text ← (Json.object fields).toText
    return .ofString text

mutual

/-- No object with a property `toString` of its own is reached through arrays. -/
def Json.convertible : Json → Bool
  | .array elements => elementsConvertible elements
  | .object fields => (fields.lookup "toString").isNone
  | _ => true

def elementsConvertible : List Json → Bool
  | [] => true
  | v :: rest => v.convertible && elementsConvertible rest

end

mutual

theorem exists_toText_iff (v : Json) : (∃ text, v.toText = .ok text) ↔ v.convertible = true := by
  cases v with
  | null => simp [Json.toText, Json.convertible]
  | bool b => simp [Json.toText, Json.convertible]
  | number x => simp [Json.toText, Json.convertible]
  | string s => simp [Json.toText, Json.convertible]
  | array elements =>
    have helements := exists_elementTexts_iff elements
    rw [Json.convertible, ← helements, Json.toText]
    cases elementTexts elements <;> simp [bind, Except.bind, pure, Except.pure]
  | object fields =>
    rw [Json.convertible, Json.toText]
    cases fields.lookup "toString" <;> simp

theorem exists_elementTexts_iff (elements : List Json) :
    (∃ texts, elementTexts elements = .ok texts) ↔ elementsConvertible elements = true := by
  cases elements with
  | nil => simp [elementTexts, elementsConvertible]
  | cons v rest =>
    have hfirst := exists_toText_iff v
    have hrest := exists_elementTexts_iff rest
    have helement : (∃ text, v.asElement v.toText = .ok text) ↔ v.convertible = true := by
      rw [← hfirst]
      cases v <;> simp [Json.asElement, Json.toText]
    rw [elementsConvertible, Bool.and_eq_true, ← helement, ← hrest, elementTexts]
    cases v.asElement v.toText <;> cases elementTexts rest <;>
      simp [bind, Except.bind, pure, Except.pure]

end

theorem exists_toNumber_iff (v : Json) :
    (∃ x, v.toNumber = .ok x) ↔ v.convertible = true := by
  have htext := exists_toText_iff v
  cases v with
  | null => simp [Json.toNumber, Json.convertible]
  | bool b => simp [Json.toNumber, Json.convertible]
  | number x => simp [Json.toNumber, Json.convertible]
  | string s => simp [Json.toNumber, Json.convertible]
  | array elements =>
    rw [← htext, Json.toNumber]
    cases (Json.array elements).toText <;> simp [bind, Except.bind, pure, Except.pure]
  | object fields =>
    rw [← htext, Json.toNumber]
    cases (Json.object fields).toText <;> simp [bind, Except.bind, pure, Except.pure]

/-- A missing value has the default to be converted in its place. -/
def convertibleOption (v : Option Json) : Bool :=
  match v with
  | none => true
  | some v => v.convertible

theorem convertible_orElse (v : Option Json) {default : Json} (h : default.convertible = true) :
    (orElse v default).convertible = convertibleOption v := by
  unfold orElse
  split
  · exact h
  · exact h
  · rfl

theorem exists_toText_orElse_iff (v : Option Json) (default : String) :
    (∃ text, (orElse v (.string default)).toText = .ok text) ↔ convertibleOption v = true := by
  rw [exists_toText_iff, convertible_orElse v rfl]

theorem exists_toNumber_orElse_iff (v : Option Json) (default : Number) :
    (∃ x, (orElse v (.number default)).toNumber = .ok x) ↔ convertibleOption v = true := by
  rw [exists_toNumber_iff, convertible_orElse v rfl]

/-! ### Documents -/

/-- A character of a quoted text. -/
def quoteChar (c : Char) : List Char :=
  if c = '\u0022' then ['\u005C', '\u0022']
  else if c = '\u005C' then ['\u005C', '\u005C']
  else if c = '\u0008' then ['\u005C', 'b']
  else if c = '\u000C' then ['\u005C', 'f']
  else if c = '\n' then ['\u005C', 'n']
  else if c = '\r' then ['\u005C', 'r']
  else if c = '\t' then ['\u005C', 't']
  else if c.toNat < 16 then ['\u005C', 'u', '0', '0', '0'] ++ Nat.toDigits 16 c.toNat
  else if c.toNat < 32 then ['\u005C', 'u', '0', '0'] ++ Nat.toDigits 16 c.toNat
  else [c]

def quote (s : String) : String :=
  String.ofList ('\u0022' :: s.toList.flatMap quoteChar ++ ['\u0022'])

mutual

/-- `JSON.stringify(v)`. -/
def Json.stringify : Json → String
  | .null => "null"
  | .bool b => if b then "true" else "false"
  | .number (.finite x) => (Number.finite x).toString
  | .number _ => "null"
  | .string s => quote s
  | .array elements => "[" ++ String.intercalate "," (stringifyElements elements) ++ "]"
  | .object fields => "\x7b" ++ String.intercalate "," (stringifyFields fields) ++ "\x7d"

def stringifyElements : List Json → List String
  | [] => []
  | v :: rest => v.stringify :: stringifyElements rest

def stringifyFields : List (String × Json) → List String
  | [] => []
  | (name, v) :: rest => (quote name ++ ":" ++ v.stringify) :: stringifyFields rest

end

end SealedBid
