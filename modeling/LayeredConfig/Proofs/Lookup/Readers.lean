import LayeredConfig.Lookup.Bulk
import LayeredConfig.Lookup.Single
import LayeredConfig.Lookup.Typed

/-!
# What a look-up depends on

A look-up asks the sources as readers, and nothing else of them. So two contexts with the same
readers, filters, combination policy and converters answer alike, with the same warnings, whatever
their sources are otherwise (`Context.alike`). What writers have staged in a source is no part of
its reader.

Contexts that agree on less can be compared as well. What a look-up answers for a key is settled by
what the sources have for it after the filters (`Context.direct`) and, for a meta key, by the answer
for the shorter key that it describes; so contexts that agree on the first for every key agree on
every look-up (`Context.getValue_congr_of_direct`).
-/

set_option autoImplicit false

namespace LayeredConfig.Context

variable {σ τ : Type} {c : Context σ} {c' : Context τ}

theorem filterSingle_congr (filters : c.filters = c'.filters) (key : String) (v : PropertyValue) :
    c.filterSingle key v = c'.filterSingle key v := by
  rw [filterSingle, filterSingle, filters]

theorem filterListed_congr (filters : c.filters = c'.filters) (key : String) (v : PropertyValue) :
    c.filterListed key v = c'.filterListed key v := by
  rw [filterListed, filterListed, filters]

variable [Source σ] [Source τ]

theorem collect_congr (readers : c.readers = c'.readers) (policy : c.policy = c'.policy)
    (key : String) : c.collect key = c'.collect key := by
  rw [collect, collect, readers, policy]

/-! ## One look-up in steps -/

/-- What the filters leave of the value that the sources have for a key, if they have one. -/
def direct (c : Context σ) (key : String) : Logged (Option (Option PropertyValue)) :=
  match (c.collect key).value with
  | some v => ((c.filterSingle key v).map some).after (c.collect key).warnings
  | none => ⟨none, (c.collect key).warnings⟩

/-- A key that the sources do not have is asked for as a meta key. -/
theorem getValue_eq (c : Context σ) (key : String) :
    c.getValue key = (c.direct key).andThen fun found =>
      match found with
      | some answer => .quiet answer
      | none =>
        match MetaKey.ofKey? key with
        | none => .quiet none
        | some m => (c.getValue m.described).andThen fun winner =>
          match winner.bind (noteOf key) with
          | none => .quiet none
          | some note => c.filterSingle key note := by
  rw [getValue, direct]
  cases (c.collect key).value with
  | some v => simp [Logged.andThen, Logged.after, Logged.map, Logged.quiet]
  | none =>
    dsimp only
    split
    · simp [*, Logged.andThen, Logged.after, Logged.quiet]
    · next m hm =>
      simp only [hm, Logged.andThen, Logged.after_value]
      cases (c.getValue m.described).value.bind (noteOf key) with
      | none => simp [Logged.after, Logged.quiet]
      | some note => simp [Logged.after]

/-- A meta key is answered from the key that it describes, which is shorter. -/
theorem getValue_congr_of_direct (direct : ∀ key, c.direct key = c'.direct key)
    (filtered : ∀ key v, c.filterSingle key v = c'.filterSingle key v) (key : String) :
    c.getValue key = c'.getValue key := by
  induction h : key.toList.length using Nat.strongRecOn generalizing key with
  | ind n ih =>
    rw [getValue_eq, getValue_eq, direct]
    congr 1
    funext found
    cases found with
    | some answer => rfl
    | none =>
      cases hm : MetaKey.ofKey? key with
      | none => rfl
      | some m =>
        have described := ih _ (h ▸ MetaKey.length_described hm) m.described rfl
        simp only [described, filtered]

/-- The same for the answers alone, whatever is logged. -/
theorem getValue_value_congr (direct : ∀ key, (c.direct key).value = (c'.direct key).value)
    (filtered : ∀ key v, (c.filterSingle key v).value = (c'.filterSingle key v).value)
    (key : String) : (c.getValue key).value = (c'.getValue key).value := by
  induction h : key.toList.length using Nat.strongRecOn generalizing key with
  | ind n ih =>
    rw [getValue_eq, getValue_eq, Logged.andThen_value, Logged.andThen_value, direct]
    cases (c'.direct key).value with
    | some answer => rfl
    | none =>
      cases hm : MetaKey.ofKey? key with
      | none => rfl
      | some m =>
        have described := ih _ (h ▸ MetaKey.length_described hm) m.described rfl
        simp only [Logged.andThen_value, described]
        cases (c'.getValue m.described).value.bind (noteOf key) with
        | none => rfl
        | some note => exact filtered key note

theorem getValue_congr (readers : c.readers = c'.readers) (filters : c.filters = c'.filters)
    (policy : c.policy = c'.policy) (key : String) : c.getValue key = c'.getValue key := by
  refine getValue_congr_of_direct ?_ (filterSingle_congr filters) key
  intro key
  simp only [direct, collect_congr readers policy, filterSingle_congr filters]

theorem properties_congr (readers : c.readers = c'.readers) (filters : c.filters = c'.filters) :
    c.properties = c'.properties := by
  unfold properties
  simp only [readers, filterListed_congr filters]

theorem getAs_value (c : Context σ) (key : String) (target : TypeKey) :
    (c.getAs key target).map (·.1) = (c.get key).map fun text =>
      match text with
      | none => .ok none
      | some text => (c.convert key text target).1.map some := by
  unfold getAs
  obtain ⟨value, warnings⟩ := c.get key
  cases value with
  | none => rfl
  | some text => rfl

/-- A converter is told the text and the names of all sources. -/
theorem getAs_congr_of_get {key : String} (found : c.get key = c'.get key)
    (converters : c.converters = c'.converters) (names : c.sourceNames = c'.sourceNames)
    (target : TypeKey) : (c.getAs key target).map (·.1) = (c'.getAs key target).map (·.1) := by
  have converted (text : String) :
      (c.convert key text target).1 = (c'.convert key text target).1 := by
    simp only [convert, converters, names]
  rw [getAs_value, getAs_value, found]
  simp only [converted]

theorem getAs_congr (readers : c.readers = c'.readers) (filters : c.filters = c'.filters)
    (policy : c.policy = c'.policy) (converters : c.converters = c'.converters)
    (names : c.sourceNames = c'.sourceNames) (key : String) (target : TypeKey) :
    (c.getAs key target).map (·.1) = (c'.getAs key target).map (·.1) := by
  have found : c.get key = c'.get key := by
    rw [get, get, getValue_congr readers filters policy]
  exact getAs_congr_of_get found converters names target

/-- Two contexts that answer every look-up in the same way. -/
structure Alike (c : Context σ) (c' : Context τ) : Prop where
  value : ∀ key, c.getValue key = c'.getValue key
  typed : ∀ key target, (c.getAs key target).map (·.1) = (c'.getAs key target).map (·.1)
  properties : c.properties = c'.properties

theorem Alike.symm (alike : Alike c c') : Alike c' c where
  value key := (alike.value key).symm
  typed key target := (alike.typed key target).symm
  properties := alike.properties.symm

theorem Alike.trans {υ : Type} [Source υ] {c'' : Context υ} (alike : Alike c c')
    (alike' : Alike c' c'') : Alike c c'' where
  value key := (alike.value key).trans (alike'.value key)
  typed key target := (alike.typed key target).trans (alike'.typed key target)
  properties := alike.properties.trans alike'.properties

theorem alike (readers : c.readers = c'.readers) (filters : c.filters = c'.filters)
    (policy : c.policy = c'.policy) (converters : c.converters = c'.converters)
    (names : c.sourceNames = c'.sourceNames) : Alike c c' where
  value := getValue_congr readers filters policy
  typed := getAs_congr readers filters policy converters names
  properties := properties_congr readers filters

end LayeredConfig.Context
