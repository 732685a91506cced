import LayeredConfig.Proofs.Lookup.FirstFound
import LayeredConfig.Proofs.Lookup.Readers
import LayeredConfig.Proofs.Property.Notes
import LayeredConfig.Source.Any

/-!
# Values that are joined

Under the appending policy no source overrides another one: **the values of all sources that have
the key are joined, from the highest source to the lowest** (`Context.appending_joins`). The value
that comes of it is the first one with another text, and a note on it has the names of all sources.

The policy sees one source at a time and keeps what it has so far in a value, the list of names in
its note. What the value is after any number of sources is `PropertyValue.joined`, and one more
source adds to both lists (`CombinationPolicy.join_joined`). A source that fails or does not have
the key changes nothing.

Who finds something and what is written on it are two things. The joined value is told by the values
that are found, whatever is on them; that these have the key and the names of their sources on them
is `Reader.Labels`, which every source of this library has (`AnySource.labels`).
-/

set_option autoImplicit false

namespace LayeredConfig

open CombinationPolicy

/-- What several values come to: the first one, with the texts of all and a note of all sources. -/
def PropertyValue.joined (separator : String) (first : PropertyValue) (rest : List PropertyValue) :
    PropertyValue :=
  (first.withText (separator.intercalate ((first :: rest).map value))).withNote sourcesNote
    (separator.intercalate ((first :: rest).map source))

/-! ## One source after another -/

namespace CombinationPolicy

variable {separator key : String} {first : PropertyValue}

/-- A single value is joined with nothing, but gets the note. -/
theorem joined_nil (separator : String) (first : PropertyValue) :
    first.joined separator [] = first.withNote sourcesNote first.source := by
  rw [PropertyValue.joined, List.map_singleton, List.map_singleton, String.intercalate_singleton,
    String.intercalate_singleton]
  rfl

/-- One more value comes after all that have been joined. -/
theorem join_joined (separator : String) (first : PropertyValue) (rest : List PropertyValue)
    (found : PropertyValue) :
    join separator (first.joined separator rest) found = first.joined separator (rest ++ [found]) := by
  have step (f : PropertyValue → String) : separator.intercalate ((first :: (rest ++ [found])).map f) =
      separator.intercalate ((first :: rest).map f) ++ separator ++ f found := by
    rw [← List.cons_append, List.map_append,
      String.intercalate_append_of_ne_nil (by simp) (by simp), List.map_singleton,
      String.intercalate_singleton]
  -- The names so far are read back from the note, which is how the policy remembers them.
  have noted : (first.joined separator rest).metadata[sourcesNote]? =
      some (separator.intercalate ((first :: rest).map PropertyValue.source)) :=
    Std.ExtTreeMap.getElem?_insert_self
  rw [join, noted, Option.getD_some]
  simp only [PropertyValue.joined, PropertyValue.withText, PropertyValue.withNote, step]
  congr 1
  refine Std.ExtTreeMap.ext_getElem? fun note => ?_
  simp only [Std.ExtTreeMap.getElem?_insert]
  split
  · rfl
  · rfl

theorem collect_appending_joined (separator key : String) (readers : List Reader)
    (first : PropertyValue) (rest : List PropertyValue) :
    ((appending separator).collect key readers (some (first.joined separator rest))).value =
      some (first.joined separator (rest ++ readers.filterMap fun r => r.value? key)) := by
  induction readers generalizing rest with
  | nil => rw [List.filterMap_nil, List.append_nil, collect, Logged.quiet_value]
  | cons r readers ih =>
    rw [List.filterMap_cons, collect, appending, Reader.value?]
    cases r.get key with
    | error e => exact ih rest
    | ok found =>
      cases found with
      | none => exact ih rest
      | some found =>
        dsimp only
        rw [join_joined, ih, List.append_assoc, List.singleton_append]

/-- **The values that are found are joined in their order.** -/
theorem collect_appending_value (separator key : String) (readers : List Reader) :
    ((appending separator).collect key readers none).value =
      match readers.filterMap fun r => r.value? key with
      | [] => none
      | first :: rest => some (first.joined separator rest) := by
  induction readers with
  | nil => rfl
  | cons r readers ih =>
    rw [List.filterMap_cons, collect, appending, Reader.value?]
    cases r.get key with
    | error e => exact ih
    | ok found =>
      cases found with
      | none => exact ih
      | some found =>
        dsimp only
        -- The first value is joined with none so far; from there on each one that is found is
        -- added.
        rw [← joined_nil separator, collect_appending_joined, List.nil_append]

end CombinationPolicy

/-! ## Whose values they are -/

/-- What a source finds for a key has that key and the name of the source on it. -/
def Reader.Labels (r : Reader) (key : String) : Prop :=
  ∀ v, r.get key = .ok (some v) → v.key = key ∧ v.source = r.name

theorem Reader.labels_of_value? {r : Reader} {key : String}
    (labelled : ∀ v, r.value? key = some v → v.key = key ∧ v.source = r.name) : r.Labels key :=
  fun v found => labelled v (value?_eq_some_iff.mpr found)

/-- Every kind of source in this library labels what it finds. -/
theorem AnySource.labels (s : AnySource) (key : String) : (Source.reader s).Labels key := by
  refine Reader.labels_of_value? fun v found => ?_
  cases s with
  | table t =>
    obtain ⟨text, -, rfl⟩ := Option.map_eq_some_iff.mp found
    exact ⟨rfl, rfl⟩
  | memory m =>
    obtain ⟨text, -, rfl⟩ := Option.map_eq_some_iff.mp found
    exact ⟨rfl, rfl⟩
  | scripted s =>
    rw [Reader.value?_eq_some_iff] at found
    simp only [Source.reader, ask, Scripted.reader] at found
    split at found
    · exact nomatch found
    · obtain ⟨text, -, rfl⟩ := Option.map_eq_some_iff.mp (Except.ok.inj found)
      exact ⟨rfl, rfl⟩
  | guarded g =>
    rw [Reader.value?_eq_some_iff] at found
    simp only [Source.reader, ask, Guarded.reader] at found
    split at found
    · exact nomatch found
    · obtain ⟨text, -, rfl⟩ := Option.map_eq_some_iff.mp (Except.ok.inj found)
      exact ⟨rfl, rfl⟩

/-- The names on the values that are found are those of the sources that find something. -/
theorem Reader.map_source_of_labels {readers : List Reader} {key : String}
    (labelled : ∀ r ∈ readers, r.Labels key) :
    (readers.filterMap fun r => r.value? key).map PropertyValue.source =
      (readers.filter fun r => (r.value? key).isSome).map Reader.name := by
  induction readers with
  | nil => rfl
  | cons r rest ih =>
    obtain ⟨here, below⟩ := List.forall_mem_cons.mp labelled
    rw [List.filterMap_cons, List.filter_cons]
    cases found : r.value? key with
    | none => exact ih below
    | some v =>
      have label := here v (value?_eq_some_iff.mp found)
      rw [if_pos Option.isSome_some, List.map_cons, List.map_cons, ih below, label.2]

/-! ## Looking up -/

namespace Context

variable {σ : Type} [Source σ] {c : Context σ} {key note separator : String} {v : PropertyValue}

/-- Under the appending policy a look-up collects all that is found. -/
theorem collect_joined (appending : c.policy = .appending separator) (key : String) :
    (c.collect key).value = match c.readers.filterMap fun r => r.value? key with
      | [] => none
      | first :: rest => some (first.joined separator rest) := by
  rw [collect, appending, CombinationPolicy.collect_appending_value]

/-- Without filters a note on an answer is answered under its meta key, unless a source has that key
    itself. -/
theorem getValue_note (unfiltered : c.filters = []) (answer : (c.getValue key).value = some v)
    (label : v.key = key) (described : key ≠ "") (named : note ≠ "") (pointless : '.' ∉ note.toList)
    (undefined : (c.collect (MetaKey.toKey ⟨key, note⟩)).value = none) :
    (c.getValue (MetaKey.toKey ⟨key, note⟩)).value =
      (v.metadata[note]?.or (if note = "source" then some v.source else none)).map fun text =>
        .plain (MetaKey.toKey ⟨key, note⟩) text v.source := by
  have parsed : MetaKey.ofKey? (MetaKey.toKey ⟨key, note⟩) = some ⟨key, note⟩ :=
    MetaKey.ofKey?_toKey described named pointless
  have entry := v.getElem?_metaEntries note
  rw [label] at entry
  rw [getValue_eq, Logged.andThen_value, direct, undefined]
  simp only [parsed, Logged.andThen_value, answer, Option.bind_some, noteOf, entry]
  cases v.metadata[note]?.or _ with
  | none => rfl
  | some text =>
    simp only [Option.map_some, filterSingle, unfiltered]
    rfl

theorem get_note (unfiltered : c.filters = []) (collected : (c.collect key).value = some v)
    (label : v.key = key) (described : key ≠ "") (named : note ≠ "") (pointless : '.' ∉ note.toList)
    (undefined : (c.collect (MetaKey.toKey ⟨key, note⟩)).value = none) :
    (c.get (MetaKey.toKey ⟨key, note⟩)).value =
      v.metadata[note]?.or (if note = "source" then some v.source else none) := by
  have answer := (answers_of_collected unfiltered collected).1
  rw [get, Logged.map_value,
    getValue_note unfiltered answer label described named pointless undefined, Option.map_map]
  exact Option.map_id'

/-- **All values that are found are joined.** Under the appending policy with any separator,
    whatever the sources are: if no source finds a value for the key, nothing is collected.
    Otherwise

    * the text is that of all values that are found, joined from the highest source to the lowest,
      and a note has their sources, joined in the same order;
    * key, source and the other notes are those of the first value;
    * without filters the note is found under its meta key, unless a source has that meta key itself
      or the key is empty. The note is looked for by the key on the answer, so that the first value
      has to have the key it was asked for on it, but nothing is asked of the others;
    * if the sources put the key and their names on what they find, then the first value has, and
      the note has the names of the sources that find something. -/
theorem appending_joins (appending : c.policy = .appending separator) (key : String) :
    let found := c.readers.filterMap fun r => r.value? key
    let finders := c.readers.filter fun r => (r.value? key).isSome
    let metaKey := MetaKey.toKey ⟨key, "sources"⟩
    (found = [] → (c.collect key).value = none) ∧
    ∀ first rest, found = first :: rest →
      (∃ v, (c.collect key).value = some v ∧
        v.value = separator.intercalate (found.map PropertyValue.value) ∧
        v.metadata["sources"]? = some (separator.intercalate (found.map PropertyValue.source)) ∧
        v.key = first.key ∧ v.source = first.source ∧
        ∀ note, note ≠ "sources" → v.metadata[note]? = first.metadata[note]?) ∧
      (first.key = key → c.filters = [] → key ≠ "" → (∀ r ∈ c.readers, ¬r.Finds metaKey) →
        (c.get metaKey).value = some (separator.intercalate (found.map PropertyValue.source))) ∧
      ((∀ r ∈ c.readers, r.Labels key) →
        first.key = key ∧ found.map PropertyValue.source = finders.map Reader.name) := by
  intro found finders metaKey
  refine ⟨fun nothing => ?_, fun first rest listed => ?_⟩
  · rw [collect_joined appending, show c.readers.filterMap _ = [] from nothing]
  have collected : (c.collect key).value = some (first.joined separator rest) := by
    rw [collect_joined appending, show c.readers.filterMap _ = first :: rest from listed]
  have noted : (first.joined separator rest).metadata["sources"]? =
      some (separator.intercalate (found.map PropertyValue.source)) := by
    rw [listed]
    exact Std.ExtTreeMap.getElem?_insert_self
  refine ⟨⟨_, collected, by rw [listed]; rfl, noted, rfl, rfl, ?other⟩, ?asked, ?labelled⟩
  case other =>
    intro note differs
    have other : compare "sources" note ≠ .eq :=
      fun same => differs (Std.LawfulEqCmp.eq_of_compare same).symm
    exact Std.ExtTreeMap.getElem?_insert.trans (if_neg other)
  case asked =>
    intro label unfiltered described undefined
    -- No source finds the meta key, so that it is not collected and the described key is asked.
    have uncollected : (c.collect metaKey).value = none := by
      rw [collect_joined appending, List.filterMap_eq_nil_iff.mpr fun r mem =>
        Reader.value?_eq_none_iff.mpr (undefined r mem)]
    rw [get_note unfiltered collected label described (by decide) (by decide) uncollected, noted,
      Option.some_or]
  case labelled =>
    intro labelled
    refine ⟨?_, Reader.map_source_of_labels labelled⟩
    have mem : first ∈ found := listed ▸ List.mem_cons_self
    obtain ⟨r, mem, finds⟩ := List.mem_filterMap.mp mem
    exact (labelled r mem first (Reader.value?_eq_some_iff.mp finds)).1

/-- Of five sources one fails, one does not know the key, and the highest of the others fails for
    the meta key. Two have the same name, and one has an empty text. -/
theorem appending_joins_among_failures :
    let entries := Entries.ofPairs
    let sources : List AnySource := [
      .scripted ⟨"broken", 9, entries [("x", "0")], true, [], false⟩,
      .scripted ⟨"high", 5, entries [("x", "1")], false, ["_x.sources"], false⟩,
      .table (.ofPairs "other" [("y", "2")]),
      .memory (.ofPairs "low" 0 [] [("x", "3")]),
      .table (.ofPairs "low" [("x", "")])]
    let c : Context AnySource := ⟨sources, [], .appending "; ", .empty ⟨[], []⟩⟩
    ∃ v, (c.collect "x").value = some v ∧ v.value = "1; 3; " ∧ v.source = "high" ∧
      v.metadata["stub"]? = some "x" ∧ (c.get "_x.sources").value = some "high; low; low" := by
  intro entries sources c
  have found : (c.readers.filterMap fun r => r.value? "x") =
      [⟨"x", "1", "high", entries [("stub", "x")]⟩, .plain "x" "3" "low", .plain "x" "" "low"] := by
    decide +kernel
  have finders : (c.readers.filter fun r => (r.value? "x").isSome).map Reader.name =
      ["high", "low", "low"] := by decide +kernel
  have labelled : ∀ r ∈ c.readers, r.Labels "x" :=
    List.forall_mem_map.mpr fun s _ => AnySource.labels s "x"
  have undefined : ∀ r ∈ c.readers, ¬r.Finds (MetaKey.toKey ⟨"x", "sources"⟩) := by
    have nothing : ∀ s ∈ sources,
        (Source.reader s).value? (MetaKey.toKey ⟨"x", "sources"⟩) = none := by decide +kernel
    exact List.forall_mem_map.mpr fun s mem => Reader.value?_eq_none_iff.mp (nothing s mem)
  have metaKey : MetaKey.toKey ⟨"x", "sources"⟩ = "_x.sources" := by decide
  have appending : c.policy = .appending "; " := rfl
  obtain ⟨-, joined⟩ := appending_joins appending "x"
  obtain ⟨⟨v, collected, text, -, -, source, notes⟩, asked, named⟩ := joined _ _ found
  obtain ⟨label, names⟩ := named labelled
  refine ⟨v, collected, ?_, source, (notes "stub" (by decide)).trans (by decide +kernel), ?_⟩
  · rw [text, found]
    decide
  · rw [← metaKey, asked label rfl (by decide) undefined, names, finders]
    decide

end Context

end LayeredConfig
