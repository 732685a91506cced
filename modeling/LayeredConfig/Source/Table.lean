import LayeredConfig.Numeral.Whole
import LayeredConfig.Source.Basic
import LayeredConfig.Text.Blank

/-!
# Fixed tables

A source whose content was read once and stays: the entries of a file, or the environment of the
process. A table may state its own ordinal among its entries; the environment does not, and ranks
above what is usually shipped with a program.

The entries are asked for the ordinal once, when the table is made. A table that is cut out of it by
a prefix keeps the ordinal, even where the entry that states it is cut away.
-/

set_option autoImplicit false

namespace LayeredConfig

/-- A named table of fixed content. -/
structure Table where
  name : String
  ordinal : Int
  entries : Entries
  deriving DecidableEq

namespace Table

/-- The entry by which a table states its ordinal. -/
def ordinalKey : String := "strata.ordinal"

/-- The ordinal that entries state: a decimal number of 32 bits with blanks around it. Any other
    text is as good as none. -/
def ordinalOf (entries : Entries) : Int :=
  (entries[ordinalKey]?.bind fun text =>
    Numeral.WholeKind.i32.ofDecimal? (Text.trimmed text.toList)).getD Reader.defaultOrdinal

/-- A table of pairs, ranked as its entries say. -/
def ofPairs (name : String) (pairs : List (String × String)) : Table :=
  let entries := Entries.ofPairs pairs
  ⟨name, ordinalOf entries, entries⟩

def environmentName : String := "environment-properties"

def environmentOrdinal : Int := 300

/-- The table of environment variables. -/
def environment (vars : List (String × String)) : Table :=
  ⟨environmentName, environmentOrdinal, Entries.ofPairs vars⟩

/-- The table of environment variables given as bytes. A pair is left out if either part is not
    the encoding of a text. -/
def environmentOfBytes (vars : List (ByteArray × ByteArray)) : Table :=
  environment (vars.filterMap fun pair =>
    (String.fromUTF8? pair.1).bind fun name =>
      (String.fromUTF8? pair.2).map fun value => (name, value))

def withOrdinal (t : Table) (ordinal : Int) : Table := { t with ordinal := ordinal }

/-- The entries whose key goes on after the prefix, under the rest of their key. -/
def withPrefix (t : Table) (start : String) : Table :=
  { t with
    entries := t.entries.foldl (fun kept key value =>
      match Text.afterPrefix? start key with
      | some rest => if rest.isEmpty then kept else kept.insert rest value
      | none => kept) ∅ }

def value? (t : Table) (key : String) : Option PropertyValue :=
  t.entries[key]?.map fun value => .plain key value t.name

/-- A table never fails. -/
def reader (t : Table) : Reader where
  name := t.name
  ordinal := t.ordinal
  scannable := true
  get key := .ok (t.value? key)
  properties := .ok t.entries

instance : Source Table := Source.readOnly reader

end Table

end LayeredConfig
