import Std.Data.ExtTreeMap
import Std.Data.ExtTreeSet

/-!
# Tables of entries

The content of a source, of a metadata block and of a set of staged writes is a finite table from
keys to values, both texts. Tables are extensional: two tables with the same look-ups are equal,
and listing one answers its keys in the order of their code points.
-/

set_option autoImplicit false

namespace LayeredConfig

/-- A finite table of keys and values. -/
abbrev Entries := Std.ExtTreeMap String String

/-- A finite set of keys. -/
abbrev Keys := Std.ExtTreeSet String

namespace Entries

/-- The table in which each pair has been entered after the ones before it, so of two pairs with
    one key the later counts. -/
def ofPairs (pairs : List (String × String)) : Entries :=
  pairs.foldl (fun table pair => table.insert pair.1 pair.2) ∅

/-- The table `low` with every entry of `high` entered over it. -/
def overlay (high low : Entries) : Entries :=
  high.foldl (fun table key value => table.insert key value) low

end Entries

def Keys.ofKeys (keys : List String) : Keys :=
  keys.foldl (fun set key => set.insert key) ∅

end LayeredConfig
