import LayeredConfig.Lookup.Context

/-!
# Looking up one key

The value of a key is collected from the sources and passes the filters. A key that no source has
may be a meta key; then it is answered from the notes on the value of the key that it describes,
which is looked up in the same way, filters included, and the answer passes the filters under its
own key. The described key is shorter, so this ends.
-/

set_option autoImplicit false

namespace LayeredConfig.Context

variable {σ : Type} [Source σ]

/-- The value that the sources have for a key. -/
def collect (c : Context σ) (key : String) : Logged (Option PropertyValue) :=
  c.policy.collect key c.readers none

/-- What the filters leave of a value looked up alone. -/
def filterSingle (c : Context σ) (key : String) (v : PropertyValue) :
    Logged (Option PropertyValue) :=
  Filter.chain ⟨key, true⟩ c.filters v

/-- The note that a meta key asks for, among those on the value it describes. The note has the
    source of the value. -/
def noteOf (key : String) (winner : PropertyValue) : Option PropertyValue :=
  winner.metaEntries[key]?.map fun text => .plain key text winner.source

/-- The filtered value of a key with its provenance. -/
def getValue (c : Context σ) (key : String) : Logged (Option PropertyValue) :=
  let collected := c.collect key
  match collected.value with
  | some v => (c.filterSingle key v).after collected.warnings
  | none =>
    match _h : MetaKey.ofKey? key with
    | none => ⟨none, collected.warnings⟩
    | some m =>
      -- The described key passes the filters as if it were asked for itself.
      let described := (c.getValue m.described).after collected.warnings
      match described.value.bind (noteOf key) with
      | none => ⟨none, described.warnings⟩
      | some note => (c.filterSingle key note).after described.warnings
termination_by key.toList.length
decreasing_by exact MetaKey.length_described ‹_›

def get (c : Context σ) (key : String) : Logged (Option String) :=
  (c.getValue key).map (Option.map PropertyValue.value)

def getOrDefault (c : Context σ) (key default : String) : Logged String :=
  (c.get key).map fun text => text.getD default

end LayeredConfig.Context
