import LayeredConfig.Json.Reader
import LayeredConfig.Property.MetaKey

/-!
# Values with their provenance

A value as a source answers it: the key, the text, the name of the source, and notes on it. A key
without a value is the absence of a `PropertyValue`; an empty text is a value.

The key and the name of the source are texts that a source writes down itself. That they are the key
it was asked for and its own name is a property of the sources here and not of this type.
-/

set_option autoImplicit false

namespace LayeredConfig

/-- A value together with the name of the source that supplied it and notes on it. -/
structure PropertyValue where
  key : String
  value : String
  source : String
  metadata : Entries
  deriving DecidableEq

namespace PropertyValue

def plain (key value source : String) : PropertyValue := ⟨key, value, source, ∅⟩

/-- The value with a note entered, in place of an earlier one of that name. -/
def withNote (v : PropertyValue) (name text : String) : PropertyValue :=
  { v with metadata := v.metadata.insert name text }

/-- The value with another text; key, source and notes stay. -/
def withText (v : PropertyValue) (text : String) : PropertyValue := { v with value := text }

/-- The notes under their meta keys. The source is a note too, unless there is one of that name. -/
def metaEntries (v : PropertyValue) : Entries :=
  v.metadata.foldl (fun table name text => table.insert (MetaKey.toKey ⟨v.key, name⟩) text)
    ((∅ : Entries).insert (MetaKey.toKey ⟨v.key, "source"⟩) v.source)

/-- The value as a JSON record; the notes are left out when there are none. -/
def toJson (v : PropertyValue) : Json :=
  Json.record (
    [("key", Json.text v.key), ("value", Json.text v.value), ("source", Json.text v.source)] ++
    if v.metadata.isEmpty then [] else [("metadata", Json.ofEntries v.metadata)])

def ofJson? (json : Json) : Option PropertyValue := do
  match ← json.record? ["key", "value", "source", "metadata"] with
  | [key, value, source, metadata] =>
    let key ← Json.required? Json.text? key
    let value ← Json.required? Json.text? value
    let source ← Json.required? Json.text? source
    let metadata ← Json.optional? ∅ Json.entries? metadata
    some ⟨key, value, source, metadata⟩
  | _ => none

end PropertyValue

end LayeredConfig
