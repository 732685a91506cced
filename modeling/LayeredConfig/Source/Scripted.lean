import LayeredConfig.Source.Basic

/-!
# Scripted sources

A table that fails where it is told to: at every look-up, at the look-up of some keys, or when it
is listed. It marks each value that it does answer with a note naming the key.

A configuration has to live with sources that fail, and this one fails on demand. Its table takes no
note of its failing look-ups: a key that cannot be looked up is listed all the same, so the two ways
of reading a source can be told apart by it.
-/

set_option autoImplicit false

namespace LayeredConfig

/-- A table with the failures it answers. -/
structure Scripted where
  name : String
  ordinal : Int
  entries : Entries
  failsGet : Bool
  failingKeys : List String
  failsListing : Bool

namespace Scripted

def value? (s : Scripted) (key : String) : Option PropertyValue :=
  s.entries[key]?.map fun value => (PropertyValue.plain key value s.name).withNote "stub" key

/-- Reading fails where the script says so. -/
def reader (s : Scripted) : Reader where
  name := s.name
  ordinal := s.ordinal
  scannable := true
  get key :=
    if s.failsGet || s.failingKeys.contains key then .error (.failed s.name "get refused")
    else .ok (s.value? key)
  properties :=
    if s.failsListing then .error (.failed s.name "bulk refused") else .ok s.entries

instance : Source Scripted := Source.readOnly reader

end Scripted

end LayeredConfig
