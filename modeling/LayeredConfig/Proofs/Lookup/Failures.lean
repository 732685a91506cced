import LayeredConfig.Proofs.Lookup.Filters
import LayeredConfig.Proofs.Lookup.FirstFound
import LayeredConfig.Proofs.Lookup.Readers
import LayeredConfig.Source.Any

/-!
# Failures are isolated

A look-up survives every failure: a source that fails is logged and passed over, wherever it stands
between others that answer, and a filter that fails leaves the value as it came. What was collected
before a failure is neither lost nor changed by it, provided that the combination policy does not
make something of the failure itself (`CombinationPolicy.Tolerant`); no policy of this library does.

**`Context.failures_isolated` says that what fails might as well not be there**: a value is
collected from the sources in which its look-up succeeds, a listing is made from the tables that can
be read, and sources and filters that always fail can be left out of a context unnoticed.
-/

set_option autoImplicit false

namespace LayeredConfig

theorem exists_error_of_isOk_eq_false {α : Type} {answer : Except SourceError α}
    (failed : answer.isOk = false) : ∃ e, answer = .error e := by
  cases answer with
  | ok a => exact nomatch failed
  | error e => exact ⟨e, rfl⟩

/-! ## Policies -/

namespace CombinationPolicy

/-- A policy that, where the look-up in a source fails, fails as well or leaves the value as it was
    before. -/
def Tolerant (policy : CombinationPolicy) : Prop :=
  ∀ previous key (source : Reader) e, source.get key = .error e →
    policy previous key source = .ok previous ∨ ∃ e', policy previous key source = .error e'

theorem overriding_tolerant : overriding.Tolerant := by
  intro previous key source e failed
  cases previous with
  | none => exact .inr ⟨e, failed⟩
  | some v => exact .inl rfl

theorem appending_tolerant (separator : String) : (appending separator).Tolerant := by
  intro previous key source e failed
  exact .inr ⟨e, by simp only [appending, failed]⟩

variable {policy : CombinationPolicy} {key : String} {σ : Type} [Source σ]

/-- A source that fails is passed over, and the value before it is the value after it. -/
theorem Tolerant.collect_cons_failed (tolerant : policy.Tolerant) {r : Reader} {e : SourceError}
    (failed : r.get key = .error e) (readers : List Reader) (current : Option PropertyValue) :
    (policy.collect key (r :: readers) current).value =
      (policy.collect key readers current).value := by
  rw [collect]
  rcases tolerant current key r e failed with kept | ⟨e', failed'⟩
  · rw [kept]
  · rw [failed']
    rfl

theorem Tolerant.collect_filter (tolerant : policy.Tolerant) {sources : List σ} {keeps : σ → Bool}
    (left : ∀ s ∈ sources, keeps s = false → ∃ e, (Source.reader s).get key = .error e)
    (current : Option PropertyValue) :
    (policy.collect key ((sources.filter keeps).map Source.reader) current).value =
      (policy.collect key (sources.map Source.reader) current).value := by
  induction sources generalizing current with
  | nil => rfl
  | cons s sources ih =>
    have rest := ih fun t mem => left t (List.mem_cons_of_mem s mem)
    -- A source that is kept is asked in both; one that is left out fails, and is passed over.
    cases kept : keeps s with
    | true =>
      rw [List.filter_cons_of_pos kept, List.map_cons, List.map_cons, collect, collect]
      cases policy current key (Source.reader s) with
      | ok next => exact rest next
      | error e => exact rest current
    | false =>
      obtain ⟨e, failed⟩ := left s List.mem_cons_self kept
      rw [List.filter_cons_of_neg (by simp [kept]), List.map_cons, rest,
        tolerant.collect_cons_failed failed]

end CombinationPolicy

/-! ## Contexts -/

namespace Context

variable {σ : Type} [Source σ] {c : Context σ}

theorem overlay_filter {sources : List σ} {keeps : σ → Bool}
    (left : ∀ s ∈ sources, keeps s = false → ∃ e, (Source.reader s).properties = .error e) :
    (overlay ((sources.filter keeps).map Source.reader)).value =
      (overlay (sources.map Source.reader)).value := by
  induction sources with
  | nil => rfl
  | cons s sources ih =>
    have rest := ih fun t mem => left t (List.mem_cons_of_mem s mem)
    cases kept : keeps s with
    | true =>
      rw [List.filter_cons_of_pos kept, List.map_cons, List.map_cons, overlay, overlay]
      cases (Source.reader s).properties with
      | ok entries => simp only [Logged.map_value, rest]
      | error e => exact rest
    | false =>
      obtain ⟨e, failed⟩ := left s List.mem_cons_self kept
      rw [List.filter_cons_of_neg (by simp [kept]), List.map_cons, rest, overlay, failed]

/-- The context with only some of its sources and filters. -/
def keeping (c : Context σ) (keepsSource : σ → Bool) (keepsFilter : Filter → Bool) : Context σ :=
  { c with sources := c.sources.filter keepsSource, filters := c.filters.filter keepsFilter }

variable {keepsSource : σ → Bool} {keepsFilter : Filter → Bool}

/-- Which filters are kept does not matter yet: values are collected before they are filtered. -/
theorem collect_keeping (tolerant : c.policy.Tolerant) {key : String}
    (left : ∀ s ∈ c.sources, keepsSource s = false → ∃ e, (Source.reader s).get key = .error e) :
    ((c.keeping keepsSource keepsFilter).collect key).value = (c.collect key).value :=
  tolerant.collect_filter left none

theorem properties_keeping
    (sources : ∀ s ∈ c.sources, keepsSource s = false → ∃ e, (Source.reader s).properties = .error e)
    (filters : ∀ f ∈ c.filters, keepsFilter f = false → f.AlwaysFails) :
    (c.keeping keepsSource keepsFilter).properties.value = c.properties.value := by
  have filtered (key : String) (v : PropertyValue) :
      ((c.keeping keepsSource keepsFilter).filterListed key v).value = (c.filterListed key v).value :=
    Filter.chain_filter_value filters ⟨key, false⟩ v
  have merged : (overlay (c.keeping keepsSource keepsFilter).readers).value =
      (overlay c.readers).value := overlay_filter sources
  simp only [properties, merged, filtered]

theorem getValue_keeping (tolerant : c.policy.Tolerant)
    (sources : ∀ s ∈ c.sources, keepsSource s = false → (Source.reader s).AlwaysFails)
    (filters : ∀ f ∈ c.filters, keepsFilter f = false → f.AlwaysFails) (key : String) :
    ((c.keeping keepsSource keepsFilter).getValue key).value = (c.getValue key).value := by
  have filtered (key : String) (v : PropertyValue) :
      ((c.keeping keepsSource keepsFilter).filterSingle key v).value = (c.filterSingle key v).value :=
    Filter.chain_filter_value filters ⟨key, true⟩ v
  refine getValue_value_congr ?_ filtered key
  intro key
  -- Only what is collected for one key has to be compared; meta keys follow by themselves.
  have collected : ((c.keeping keepsSource keepsFilter).collect key).value = (c.collect key).value :=
    collect_keeping tolerant fun s mem out => (sources s mem out).1 key
  rw [direct, direct, collected]
  cases (c.collect key).value with
  | none => rfl
  | some v => exact congrArg some (filtered key v)

/-- **Failures are isolated.** Under a policy that makes nothing of a failure,

    * the value collected for a key is the one collected from the sources in which its look-up
      succeeds alone;
    * the listing is the one made from the sources whose tables can be read alone;
    * a filter that fails on the value that comes to it can be taken out of the chain;
    * whichever sources and filters that always fail are left out, every look-up and the listing
      answer the same. -/
theorem failures_isolated (c : Context σ) (tolerant : c.policy.Tolerant) :
    (∀ key, (c.collect key).value = (({ c with
      sources := c.sources.filter fun s => ((Source.reader s).get key).isOk } : Context σ).collect
        key).value) ∧
    c.properties.value = ({ c with
      sources := c.sources.filter fun s => (Source.reader s).properties.isOk } :
        Context σ).properties.value ∧
    (∀ before f after ctx v w e, c.filters = before ++ f :: after →
      (Filter.chain ctx before v).value = some w → f.apply w ctx = .error e →
      (Filter.chain ctx c.filters v).value = (Filter.chain ctx (before ++ after) v).value) ∧
    ∀ keepsSource keepsFilter,
      (∀ s ∈ c.sources, keepsSource s = false → (Source.reader s).AlwaysFails) →
      (∀ f ∈ c.filters, keepsFilter f = false → f.AlwaysFails) →
      let c' := c.keeping keepsSource keepsFilter
      (∀ key, (c'.getValue key).value = (c.getValue key).value ∧
        (c'.get key).value = (c.get key).value) ∧
      c'.properties.value = c.properties.value := by
  refine ⟨?_, ?_, ?_, ?_⟩
  · intro key
    refine (tolerant.collect_filter ?_ none).symm
    intro s _ failed
    exact exists_error_of_isOk_eq_false failed
  · have merged : (overlay ((c.sources.filter fun s => (Source.reader s).properties.isOk).map
        Source.reader)).value = (overlay c.readers).value :=
      overlay_filter fun s _ failed => exists_error_of_isOk_eq_false failed
    simp only [properties, ← merged]
    rfl
  · intro before f after ctx v w e filters comes failed
    rw [filters]
    exact Filter.chain_without_failed comes failed
  · intro keepsSource keepsFilter sources filters c'
    have values (key : String) := getValue_keeping tolerant sources filters key
    refine ⟨fun key => ⟨values key, congrArg (Option.map PropertyValue.value) (values key)⟩, ?_⟩
    exact properties_keeping (fun s mem out => (sources s mem out).2) filters

/-- Two sources that answer, one between them that fails for one of its keys, one above them that
    always fails, and a filter that always fails. The notes of the joined value are read as meta
    keys. -/
theorem failures_isolated_joined_notes :
    let down := AnySource.scripted ⟨"down", 9, .ofPairs [("a", "9")], true, [], true⟩
    let high := AnySource.table ⟨"high", 5, .ofPairs [("a", "5"), ("b", "5")]⟩
    let spotty := AnySource.scripted ⟨"spotty", 3, .ofPairs [("a", "3"), ("b", "3")], false, ["a"], true⟩
    let low := AnySource.table ⟨"low", 1, .ofPairs [("a", "1"), ("c", "1")]⟩
    let broken : Filter := ⟨"broken", fun _ ctx => .error (.filter "broken" ctx.key "boom")⟩
    let c : Context AnySource := ⟨[down, high, spotty, low], [broken, Masking.standard.filter],
      .appending ",", .empty ⟨[], []⟩⟩
    let c' := c.keeping (fun s => Source.name s != "down") fun f => f.name != "broken"
    let joined : PropertyValue := ⟨"a", "5,1", "high", Entries.ofPairs [("sources", "high,low")]⟩
    c.policy.Tolerant ∧ (Source.reader down).AlwaysFails ∧ broken.AlwaysFails ∧
      (c.collect "a").value = some joined ∧
      c.properties.value = ({ c with sources := [high, low] } : Context AnySource).properties.value ∧
      (Filter.chain ⟨"a", true⟩ c.filters joined).value = some joined ∧
      (c'.getValue "_a.sources").value = (c.getValue "_a.sources").value ∧
      (c.getValue "_a.sources").value = some (.plain "_a.sources" "high,low" "high") := by
  intro down high spotty low broken c c' joined
  have tolerant : c.policy.Tolerant := CombinationPolicy.appending_tolerant ","
  have fails : (Source.reader down).AlwaysFails := ⟨fun key => ⟨_, rfl⟩, _, rfl⟩
  have breaks : broken.AlwaysFails := fun v ctx => ⟨_, rfl⟩
  have sources : ∀ s ∈ c.sources, (Source.name s != "down") = false →
      (Source.reader s).AlwaysFails := by
    intro s mem out
    simp only [c, List.mem_cons, List.not_mem_nil, or_false] at mem
    rcases mem with rfl | rfl | rfl | rfl
    · exact fails
    all_goals exact absurd out (by decide)
  have filters : ∀ f ∈ c.filters, (f.name != "broken") = false → f.AlwaysFails := by
    intro f mem out
    simp only [c, List.mem_cons, List.not_mem_nil, or_false] at mem
    rcases mem with rfl | rfl
    · exact breaks
    · exact absurd out (by decide)
  obtain ⟨collected, listed, chained, unnoticed⟩ := failures_isolated c tolerant
  have note := ((unnoticed _ _ sources filters).1 "_a.sources").1
  refine ⟨tolerant, fails, breaks, (collected "a").trans (by decide +kernel), listed, ?_, note, ?_⟩
  · exact (chained [] broken _ ⟨"a", true⟩ joined joined _ rfl rfl rfl).trans (by decide +kernel)
  · exact note.symm.trans (by decide +kernel)

end Context

end LayeredConfig
