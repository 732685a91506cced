import LayeredConfig.Lookup.Context

/-!
# Listing all properties

The tables of all sources are laid over each other, the highest on top, and every entry passes the
filters by itself. A source whose table cannot be read is left out, and so is an entry that a
filter vetoes. The combination policy has no say: of the values of one key the highest counts.

No key is looked up for it. A source is free to answer a look-up with something else than its table
says, and then the two ways of reading differ; when they agree is said in `Proofs/Lookup/Agreement`.
-/

set_option autoImplicit false

namespace LayeredConfig.Context

/-- The entries of several sources, each with its provenance; a source covers those after it. -/
def overlay : List Reader → Logged (Std.ExtTreeMap String PropertyValue)
  | [] => .quiet ∅
  | source :: lower =>
    let below := overlay lower
    match source.properties with
    | .ok entries =>
      below.map fun table =>
        entries.foldl (fun table key value =>
          table.insert key (PropertyValue.plain key value source.name)) table
    | .error e => ⟨below.value, below.warnings ++ [.sourceSkipped source.name e]⟩

variable {σ : Type} [Source σ]

/-- What the filters leave of an entry in a listing. -/
def filterListed (c : Context σ) (key : String) (v : PropertyValue) :
    Logged (Option PropertyValue) :=
  Filter.chain ⟨key, false⟩ c.filters v

/-- Every key with its filtered text. -/
def properties (c : Context σ) : Logged Entries :=
  let merged := overlay c.readers
  { value := merged.value.filterMap fun key v =>
      (c.filterListed key v).value.map PropertyValue.value
    warnings := merged.warnings ++
      merged.value.toList.flatMap fun entry => (c.filterListed entry.1 entry.2).warnings }

def count (c : Context σ) : Logged Nat := c.properties.map fun entries => entries.size

end LayeredConfig.Context
