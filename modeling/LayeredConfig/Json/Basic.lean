import LayeredConfig.Entries

/-!
# JSON values

A value as it stands in a JSON text: the fields of an object in the order they are written, with
repetitions. A text can spell half of a surrogate pair by an escape; such a string is no text, but
it may stand where nobody reads it, so a string and a key are texts or nothing.

The decoders below say what a value may be read as. They are strict: `null` is not an empty table,
a number is not a text, and a record refuses a repeated field.
-/

set_option autoImplicit false

namespace LayeredConfig

/-- A JSON value. A number is kept as it was written. -/
inductive Json
  | null
  | bool (b : Bool)
  | number (written : String)
  | string (content : Option String)
  | array (items : List Json)
  | object (fields : List (Option String × Json))

namespace Json

def text (s : String) : Json := .string (some s)

/-- An object whose keys are texts. -/
def record (fields : List (String × Json)) : Json :=
  .object (fields.map fun field => (some field.1, field.2))

/-- A table as an object, its keys in order. -/
def ofEntries (table : Entries) : Json :=
  record (table.toList.map fun entry => (entry.1, text entry.2))

def ofKeys (keys : Keys) : Json := .array (keys.toList.map text)

/-! ## Decoders -/

def text? : Json → Option String
  | .string content => content
  | _ => none

def bool? : Json → Option Bool
  | .bool b => some b
  | _ => none

/-- The fields of an object all of whose keys are texts. -/
def fields? : Json → Option (List (String × Json))
  | .object fields => fields.mapM fun field => field.1.map fun key => (key, field.2)
  | _ => none

/-- The table that an object with texts in its fields is; of equal keys the last counts. -/
def entries? (json : Json) : Option Entries := do
  let fields ← json.fields?
  let pairs ← fields.mapM fun field => field.2.text?.map fun value => (field.1, value)
  some (Entries.ofPairs pairs)

def keys? : Json → Option Keys
  | .array items => (items.mapM text?).map Keys.ofKeys
  | _ => none

/-- What an object says about one field: its value, or that the field is missing. A field that is
    given twice makes the whole record unreadable. -/
def field? (fields : List (String × Json)) (name : String) : Option (Option Json) :=
  match fields.filter fun field => field.1 == name with
  | [] => some none
  | [field] => some (some field.2)
  | _ => none

/-- The values of a record's fields in the order of their names. The record is an object, in which
    other fields do not matter, or an array of the values in the same order, which may stop early
    but not go on. -/
def record? (names : List String) : Json → Option (List (Option Json))
  | .array items =>
    if items.length ≤ names.length then
      some (items.map some ++ List.replicate (names.length - items.length) none)
    else none
  | json => json.fields?.bind fun fields => names.mapM (field? fields)

/-- A field that has to be there. -/
def required? {α : Type} (decode : Json → Option α) : Option Json → Option α
  | some json => decode json
  | none => none

/-- A field that stands for `default` when it is missing. -/
def optional? {α : Type} (default : α) (decode : Json → Option α) : Option Json → Option α
  | some json => decode json
  | none => some default

end Json

end LayeredConfig
