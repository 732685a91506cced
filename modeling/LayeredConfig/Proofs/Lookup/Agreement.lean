import LayeredConfig.Proofs.Lookup.Filters
import LayeredConfig.Proofs.Lookup.FirstFound
import LayeredConfig.Source.Any
import Mathlib.Data.List.Basic

/-!
# Single look-ups and listings agree

A key can be looked up alone or be read off the listing of all properties. The two go different
ways: one asks the sources for the key through the combination policy, the other lays whole tables
over each other, and the filters are told which of the two it is. **`Context.get_iff_listed` says
when both come to the same text**: the policy is the overriding one, every source answers look-ups
from the table that it lists or cannot be read at all, and the filters go by key and text.

The notes that a source attaches to a value do not stand in its table, so a listing knows nothing of
them and only texts are compared.
-/

set_option autoImplicit false

namespace LayeredConfig

namespace Reader

variable {r : Reader}

/-- A source that answers look-ups with the texts of the table that it lists. -/
def AnswersFromTable (r : Reader) : Prop :=
  ∃ entries, r.properties = .ok entries ∧
    ∀ key, ∃ found, r.get key = .ok found ∧ found.map PropertyValue.value = entries[key]?

theorem text_eq_text (consistent : r.AlwaysFails ∨ r.AnswersFromTable) (key : String) :
    (r.value? key).map PropertyValue.value = (r.listed? key).map PropertyValue.value := by
  -- A source that cannot be read has neither; any other has the text of its table in both.
  rcases consistent with fails | ⟨entries, listed, answers⟩
  · rw [fails.value?_eq_none, fails.listed?_eq_none]
  · obtain ⟨found, answer, text⟩ := answers key
    rw [value?_of_ok answer, listed?_of_ok listed, text]
    cases entries[key]? with
    | none => rfl
    | some t => rfl

end Reader

theorem Table.answersFromTable (t : Table) : t.reader.AnswersFromTable := by
  refine ⟨t.entries, rfl, fun key => ⟨t.value? key, rfl, ?_⟩⟩
  rw [value?]
  cases t.entries[key]? with
  | none => rfl
  | some text => rfl

theorem Memory.answersFromTable (m : Memory) : m.reader.AnswersFromTable := by
  refine ⟨m.committed, rfl, fun key => ⟨m.value? key, rfl, ?_⟩⟩
  rw [value?]
  cases m.committed[key]? with
  | none => rfl
  | some text => rfl

namespace Context

variable {σ : Type} [Source σ] {c : Context σ} {key : String}

/-- Both ways come to the same text before the filters. -/
theorem collected_text
    (consistent : ∀ s ∈ c.sources,
      (Source.reader s).AlwaysFails ∨ (Source.reader s).AnswersFromTable) (key : String) :
    (c.readers.findSome? fun r => r.value? key).map PropertyValue.value =
      (c.readers.findSome? fun r => r.listed? key).map PropertyValue.value := by
  rw [List.map_findSome?, List.map_findSome?, ← List.head?_filterMap, ← List.head?_filterMap]
  refine congrArg List.head? (List.filterMap_congr ?_)
  intro r mem
  obtain ⟨s, there, rfl⟩ := List.mem_map.mp mem
  exact Reader.text_eq_text (consistent s there) key

/-- A key that is in no table is in no listing, whatever the filters make of the others. -/
theorem exists_lists_of_mem_properties (mem : key ∈ c.properties.value) :
    ∃ s ∈ c.sources, (Source.reader s).Lists key := by
  rw [Std.ExtTreeMap.mem_iff_isSome_getElem?, properties_value] at mem
  obtain ⟨text, there⟩ := Option.isSome_iff_exists.mp mem
  obtain ⟨v, entry, -⟩ := Option.bind_eq_some_iff.mp there
  obtain ⟨r, mem, first⟩ := List.exists_of_findSome?_eq_some entry
  obtain ⟨s, there, rfl⟩ := List.mem_map.mp mem
  exact ⟨s, there, Reader.lists_iff_isSome.mpr (by simp [first])⟩

/-- **Single look-ups and listings agree.** Under the overriding policy, over sources that answer
    from their tables or always fail, and through filters that go by key and text, a key that is in
    the table of a source has a text if and only if it is listed with that text, and no other key is
    listed. -/
theorem get_iff_listed (policy : c.policy = .overriding)
    (consistent : ∀ s ∈ c.sources,
      (Source.reader s).AlwaysFails ∨ (Source.reader s).AnswersFromTable)
    (textOnly : ∀ f ∈ c.filters, f.TextOnly) :
    (∀ key, (∃ s ∈ c.sources, (Source.reader s).Lists key) → ∀ text,
      (c.get key).value = some text ↔ c.properties.value[key]? = some text) ∧
    ∀ key ∈ c.properties.value, ∃ s ∈ c.sources, (Source.reader s).Lists key := by
  refine ⟨?_, fun key mem => exists_lists_of_mem_properties mem⟩
  intro key ⟨s, mem, lists⟩ text
  have texts := collected_text consistent key
  -- The key is in some table, so the listing has an entry for it, and a single look-up a value.
  have listed : (c.readers.findSome? fun r => r.listed? key).isSome := by
    rw [List.findSome?_isSome_iff]
    exact ⟨_, List.mem_map_of_mem mem, Reader.lists_iff_isSome.mp lists⟩
  obtain ⟨w, entry⟩ := Option.isSome_iff_exists.mp listed
  rw [entry, Option.map_some, Option.map_eq_some_iff] at texts
  obtain ⟨v, found, same⟩ := texts
  have collected : (c.collect key).value = some v := (collect_value policy key).trans found
  -- The filters are told the kind of look-up, but they go by key and text.
  have filtered : (c.filterSingle key v).value.map PropertyValue.value =
      (c.filterListed key w).value.map PropertyValue.value :=
    Filter.chain_text textOnly same rfl
  rw [get, Logged.map_value, getValue_of_collected collected, filtered, properties_value, entry,
    Option.bind_some]

/-- The highest source cannot be read, two others overlap, a mask hides one text, one rule vetoes a
    key and another adds to a text. -/
theorem get_iff_listed_vetoed_and_masked :
    let down := AnySource.scripted ⟨"down", 9, .ofPairs [("db.user", "root")], true, [], true⟩
    let high := AnySource.memory (.ofPairs "high" 5 [] [("db.user", "app"), ("db.password", "s3")])
    let low := AnySource.table ⟨"low", 1, .ofPairs [("db.user", "nobody"), ("tmp.dir", "/t")]⟩
    let hide : FilterRule := ⟨"hide", "tmp.", none, .veto⟩
    let mark : FilterRule := ⟨"mark", "db.", none, .append "!"⟩
    let c : Context AnySource := ⟨[down, high, low],
      [Masking.standard.filter, hide.filter, mark.filter], .overriding, .empty ⟨[], []⟩⟩
    c.policy = .overriding ∧
      (∀ s ∈ c.sources, (Source.reader s).AlwaysFails ∨ (Source.reader s).AnswersFromTable) ∧
      (∀ f ∈ c.filters, f.TextOnly) ∧ (Source.reader low).Lists "db.user" ∧
      c.properties.value["db.user"]? = some "app!" ∧
      c.properties.value["db.password"]? = some "*****!" ∧
      c.properties.value["tmp.dir"]? ≠ some "/t" := by
  intro down high low hide mark c
  have consistent : ∀ s ∈ c.sources,
      (Source.reader s).AlwaysFails ∨ (Source.reader s).AnswersFromTable := by
    intro s mem
    simp only [c, List.mem_cons, List.not_mem_nil, or_false] at mem
    rcases mem with rfl | rfl | rfl
    · exact .inl ⟨fun key => ⟨_, rfl⟩, _, rfl⟩
    · exact .inr (Memory.answersFromTable _)
    · exact .inr (Table.answersFromTable _)
  have textOnly : ∀ f ∈ c.filters, f.TextOnly := by
    intro f mem
    simp only [c, List.mem_cons, List.not_mem_nil, or_false] at mem
    rcases mem with rfl | rfl | rfl
    · exact Masking.standard.filter_textOnly
    · exact FilterRule.filter_textOnly rfl
    · exact FilterRule.filter_textOnly rfl
  have user : (Source.reader low).Lists "db.user" := ⟨_, rfl, by decide +kernel⟩
  have password : (Source.reader high).Lists "db.password" := ⟨_, rfl, by decide +kernel⟩
  have directory : (Source.reader low).Lists "tmp.dir" := ⟨_, rfl, by decide +kernel⟩
  have agree := (get_iff_listed (c := c) rfl consistent textOnly).1
  refine ⟨rfl, consistent, textOnly, user, ?_, ?_, ?_⟩
  · exact (agree "db.user" ⟨low, by simp [c], user⟩ _).mp (by decide +kernel)
  · exact (agree "db.password" ⟨high, by simp [c], password⟩ _).mp (by decide +kernel)
  · exact fun text => absurd ((agree "tmp.dir" ⟨low, by simp [c], directory⟩ _).mpr text)
      (by decide +kernel)

end Context

end LayeredConfig
