import LayeredConfig.Lookup.Bulk
import LayeredConfig.Lookup.Single
import LayeredConfig.Proofs.Entries

/-!
# The first source that has something

Both kinds of look-ups go through the sources in their ranking, and both come to the first source
that has something. A single look-up under the overriding policy takes the first value that is found
and asks no further (`CombinationPolicy.collect_overriding_value`, `collect_overriding_append`); a
listing lays the tables over each other, and of the entries of one key the first is on top
(`Context.overlay_value`). What cannot be read counts as empty in both.
-/

set_option autoImplicit false

namespace LayeredConfig

namespace Reader

variable {r : Reader} {key : String} {v : PropertyValue}

/-- What a look-up finds in a source; one that fails finds nothing. -/
def value? (r : Reader) (key : String) : Option PropertyValue :=
  match r.get key with
  | .ok found => found
  | .error _ => none

/-- What the table of a source has for a key, with its provenance; a table that cannot be read has
    nothing. -/
def listed? (r : Reader) (key : String) : Option PropertyValue :=
  match r.properties with
  | .ok entries => entries[key]?.map fun text => .plain key text r.name
  | .error _ => none

theorem value?_of_ok {found : Option PropertyValue} (answer : r.get key = .ok found) :
    r.value? key = found := by
  rw [value?, answer]

theorem value?_of_error {e : SourceError} (failed : r.get key = .error e) : r.value? key = none := by
  rw [value?, failed]

theorem listed?_of_ok {entries : Entries} (listed : r.properties = .ok entries) :
    r.listed? key = entries[key]?.map fun text => .plain key text r.name := by
  rw [listed?, listed]

theorem listed?_of_error {e : SourceError} (failed : r.properties = .error e) :
    r.listed? key = none := by
  rw [listed?, failed]

theorem value?_eq_some_iff : r.value? key = some v ↔ r.get key = .ok (some v) := by
  rw [value?]
  cases r.get key with
  | ok found => simp
  | error e => simp

/-- The look-up of the key in the source succeeds with a value. -/
def Finds (r : Reader) (key : String) : Prop := ∃ v, r.get key = .ok (some v)

theorem finds_iff_isSome : r.Finds key ↔ (r.value? key).isSome = true := by
  rw [Option.isSome_iff_exists]
  exact exists_congr fun v => value?_eq_some_iff.symm

theorem value?_eq_none_iff : r.value? key = none ↔ ¬r.Finds key := by
  rw [finds_iff_isSome, Option.not_isSome_iff_eq_none]

/-- The table of the source can be read and has the key. -/
def Lists (r : Reader) (key : String) : Prop := ∃ entries, r.properties = .ok entries ∧ key ∈ entries

theorem lists_iff_isSome : r.Lists key ↔ (r.listed? key).isSome = true := by
  rw [Lists, listed?]
  cases r.properties with
  | ok entries => simp
  | error e => simp

/-- A source in which every look-up fails, and the reading of the table too. -/
def AlwaysFails (r : Reader) : Prop :=
  (∀ key, ∃ e, r.get key = .error e) ∧ ∃ e, r.properties = .error e

theorem AlwaysFails.value?_eq_none (fails : r.AlwaysFails) : r.value? key = none := by
  obtain ⟨e, failed⟩ := fails.1 key
  exact value?_of_error failed

theorem AlwaysFails.listed?_eq_none (fails : r.AlwaysFails) : r.listed? key = none := by
  obtain ⟨e, failed⟩ := fails.2
  exact listed?_of_error failed

end Reader

/-! ## Looking up one key -/

namespace CombinationPolicy

variable {key : String} {v : PropertyValue}

/-- Once there is a value no source is asked any more, so none can fail either. -/
theorem collect_overriding_of_some (key : String) (readers : List Reader) (v : PropertyValue) :
    overriding.collect key readers (some v) = .quiet (some v) := by
  induction readers with
  | nil => rfl
  | cons r readers ih => exact ih

/-- Failures on the way are logged, and count as having nothing. -/
theorem collect_overriding_value (key : String) (readers : List Reader) :
    (overriding.collect key readers none).value = readers.findSome? fun r => r.value? key := by
  induction readers with
  | nil => rfl
  | cons r readers ih =>
    rw [List.findSome?_cons, Reader.value?, collect, overriding]
    cases r.get key with
    | error e => exact ih
    | ok found =>
      cases found with
      | none => exact ih
      | some v => exact congrArg Logged.value (collect_overriding_of_some key readers v)

/-- What comes after a source that finds a value does not matter, not even for what is logged. -/
theorem collect_overriding_append {winner : Reader} (finds : winner.Finds key)
    (above below : List Reader) (current : Option PropertyValue) :
    overriding.collect key (above ++ winner :: below) current =
      overriding.collect key (above ++ [winner]) current := by
  induction above generalizing current with
  | nil =>
    obtain ⟨v, found⟩ := finds
    cases current with
    | none =>
      rw [List.nil_append, List.nil_append, collect, collect, overriding, found]
      exact collect_overriding_of_some key below v
    | some v =>
      rw [collect_overriding_of_some, collect_overriding_of_some]
  | cons r above ih =>
    rw [List.cons_append, List.cons_append, collect, collect]
    cases overriding current key r with
    | ok next => exact ih next
    | error e => exact congrArg (Logged.after _) (ih current)

end CombinationPolicy

/-! ## Listing -/

namespace Context

/-- Tables are laid over each other from the lowest up; the highest one that has the key is seen. -/
theorem overlay_value (readers : List Reader) (key : String) :
    (overlay readers).value[key]? = readers.findSome? fun r => r.listed? key := by
  induction readers with
  | nil => rfl
  | cons r readers ih =>
    rw [List.findSome?_cons, Reader.listed?, overlay]
    cases r.properties with
    | error e => exact ih
    | ok entries =>
      -- The table of this source is laid over those below it.
      refine (Entries.getElem?_foldl_insert _ entries _ key).trans ?_
      rw [ih]
      dsimp only
      cases entries[key]? with
      | none => rfl
      | some text => rfl

variable {σ : Type} [Source σ] {c : Context σ} {key : String}

/-- A listing has a key if the tables have it and the filters leave something of it. -/
theorem properties_value (c : Context σ) (key : String) :
    c.properties.value[key]? = (c.readers.findSome? fun r => r.listed? key).bind fun v =>
      (c.filterListed key v).value.map PropertyValue.value := by
  rw [← overlay_value, properties, Std.ExtTreeMap.getElem?_filterMap']

theorem getValue_of_collected {v : PropertyValue} (collected : (c.collect key).value = some v) :
    (c.getValue key).value = (c.filterSingle key v).value := by
  rw [getValue]
  simp only [collected, Logged.after_value]

/-- Without filters a value is answered as it is collected. -/
theorem answers_of_collected {v : PropertyValue} (unfiltered : c.filters = [])
    (collected : (c.collect key).value = some v) :
    (c.getValue key).value = some v ∧ (c.get key).value = some v.value := by
  have value : (c.getValue key).value = some v := by
    rw [getValue_of_collected collected, filterSingle, unfiltered]
    rfl
  exact ⟨value, by rw [get, Logged.map_value, value]; rfl⟩

/-- Under the overriding policy a look-up collects the first value that is found. -/
theorem collect_value (policy : c.policy = .overriding) (key : String) :
    (c.collect key).value = c.readers.findSome? fun r => r.value? key := by
  rw [collect, policy, CombinationPolicy.collect_overriding_value]

end Context

end LayeredConfig
