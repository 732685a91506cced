import LayeredConfig.Proofs.Lookup.FirstFound
import LayeredConfig.Proofs.Ranking
import LayeredConfig.Source.Any

/-!
# Which source supplies a value

A builder ranks its sources by their ordinals and, among equal ordinals, in the order in which they
were added. **`ContextBuilder.precedence` says what that means for a look-up**: who supplies a value
is decided by the ordinals and, between equal ones, by the order of addition, and by nothing else.

Who supplies the value is said of the sources as they were added (`ContextBuilder.Supplies`), with
no mention of a ranking. The ranking is stable, so the first source in it that has the key is the
foremost of those that were added and have it; this is a fact about ranked lists, in the module on
ranking.
-/

set_option autoImplicit false

namespace LayeredConfig

namespace ContextBuilder

variable {σ : Type} [Source σ] {b : ContextBuilder σ} {key : String}

/-- The source that supplies the value of a key: the foremost of those in which it is found. -/
abbrev Supplies (b : ContextBuilder σ) (key : String) (s : σ) : Prop :=
  Ranking.Foremost Source.ordinal (fun s => (Source.reader s).Finds key) s b.sources

/-- The foremost is the first in the ranking that has the key. -/
theorem supplies_iff {s : σ} : b.Supplies key s ↔
    b.build.sources.find? (fun s => ((Source.reader s).value? key).isSome) = some s := by
  rw [build, Ranking.find?_descending_eq_some_iff]
  simp only [Supplies, Reader.finds_iff_isSome]

theorem collect_eq_some_iff (policy : b.policy = .overriding) {v : PropertyValue} :
    (b.build.collect key).value = some v ↔
      ∃ s, b.Supplies key s ∧ (Source.reader s).get key = .ok (some v) := by
  rw [Context.collect_value (c := b.build) policy, Context.readers, List.findSome?_map,
    List.findSome?_eq_some_iff]
  simp only [supplies_iff, List.find?_eq_some_iff_append, ← Reader.value?_eq_some_iff]
  constructor
  · rintro ⟨above, s, below, ranked, found, nothing⟩
    refine ⟨s, ⟨by simpa using congrArg Option.isSome found, above, below, ranked, ?_⟩, found⟩
    intro t mem
    simpa using nothing t mem
  · rintro ⟨s, ⟨-, above, below, ranked, nothing⟩, found⟩
    refine ⟨above, s, below, ranked, found, ?_⟩
    intro t mem
    simpa using nothing t mem

theorem collect_eq_none_iff (policy : b.policy = .overriding) :
    (b.build.collect key).value = none ↔ ∀ s ∈ b.sources, ¬(Source.reader s).Finds key := by
  rw [Context.collect_value (c := b.build) policy, Context.readers, List.findSome?_map,
    List.findSome?_eq_none_iff]
  simp only [build, Ranking.mem_descending, Function.comp_apply, Reader.value?_eq_none_iff]

/-- If one source has a higher ordinal than all others in which the key is found, the order of
    addition does not matter. -/
theorem supplies_of_highest {s : σ} {others : List σ} (sources : b.sources.Perm (s :: others))
    (finds : (Source.reader s).Finds key)
    (highest : ∀ t ∈ others, (Source.reader t).Finds key → Source.ordinal t < Source.ordinal s) :
    b.Supplies key s := by
  obtain ⟨before, after, split⟩ := List.append_of_mem (sources.mem_iff.mpr List.mem_cons_self)
  -- The others stand before or after it, in whatever order they were added.
  have rest : (before ++ after).Perm others :=
    (List.perm_middle.symm.trans (split ▸ sources)).cons_inv
  refine ⟨before, after, split, finds, ?_, ?_⟩
  · intro t mem found
    exact highest t (rest.subset (List.mem_append_left _ mem)) found
  · intro t mem found
    exact (highest t (rest.subset (List.mem_append_right _ mem)) found).le

/-- Reorderings that move no two sources of one ordinal past each other are not seen. -/
theorem build_congr {added : List σ} (within : Ranking.SameWithin Source.ordinal added b.sources) :
    ({ b with sources := added } : ContextBuilder σ).build = b.build := by
  rw [build, build, Ranking.descending_eq_iff.mpr within]

/-- **Ordinals decide, and the order of addition between equal ones.** Take a builder to which
    sources have been added. Under the overriding policy

    * what is collected for a key is what is found in the source that has the highest ordinal among
      those in which the key is found, and was added first if there are several such; and it is
      nothing if the key is found in none;
    * a source in which the key is found hides the ones below it: with any others in their place,
      failing ones included, the same is collected and the same is logged;
    * where one source has a higher ordinal than all others in which the key is found, the look-up
      answers the same for every order in which the sources can be added.

    Under any policy, adding the sources in another order that is the same for the sources of each
    ordinal changes no look-up and no listing. -/
theorem precedence (b : ContextBuilder σ) :
    (b.policy = .overriding → ∀ key,
      (∀ v, (b.build.collect key).value = some v ↔
        ∃ s, b.Supplies key s ∧ (Source.reader s).get key = .ok (some v)) ∧
      ((b.build.collect key).value = none ↔ ∀ s ∈ b.sources, ¬(Source.reader s).Finds key) ∧
      (∀ above s below others, b.build.sources = above ++ s :: below →
        (Source.reader s).Finds key →
        ({ b.build with sources := above ++ s :: others } : Context σ).collect key =
          b.build.collect key) ∧
      (∀ s others added, b.sources.Perm (s :: others) → (Source.reader s).Finds key →
        (∀ t ∈ others, (Source.reader t).Finds key → Source.ordinal t < Source.ordinal s) →
        added.Perm b.sources →
        let c := ({ b with sources := added } : ContextBuilder σ).build
        (c.collect key).value = (b.build.collect key).value ∧
        (c.getValue key).value = (b.build.getValue key).value ∧
        (c.get key).value = (b.build.get key).value)) ∧
    ∀ added, Ranking.SameWithin Source.ordinal added b.sources →
      let c := ({ b with sources := added } : ContextBuilder σ).build
      (∀ key, c.getValue key = b.build.getValue key ∧ c.get key = b.build.get key) ∧
      c.properties = b.build.properties := by
  refine ⟨fun policy key => ⟨fun v => collect_eq_some_iff policy, collect_eq_none_iff policy, ?_, ?_⟩,
    ?_⟩
  · intro above s below others ranked finds
    have policy' : b.build.policy = .overriding := policy
    rw [Context.collect, Context.collect, Context.readers, Context.readers, ranked, policy',
      List.map_append, List.map_append, List.map_cons, List.map_cons,
      CombinationPolicy.collect_overriding_append finds _ (others.map _),
      CombinationPolicy.collect_overriding_append finds _ (below.map _)]
  · intro s others added sources finds highest reordered c
    obtain ⟨v, found⟩ := finds
    -- In both orders the source with the highest ordinal supplies the value.
    have here : (b.build.collect key).value = some v :=
      (collect_eq_some_iff policy).mpr ⟨s, supplies_of_highest sources ⟨v, found⟩ highest, found⟩
    have there : (c.collect key).value = some v := by
      refine (collect_eq_some_iff (b := { b with sources := added }) policy).mpr ⟨s, ?_, found⟩
      exact supplies_of_highest (reordered.trans sources) ⟨v, found⟩ highest
    have value : (c.getValue key).value = (b.build.getValue key).value := by
      rw [Context.getValue_of_collected there, Context.getValue_of_collected here]
      rfl
    refine ⟨there.trans here.symm, value, ?_⟩
    rw [Context.get, Context.get, Logged.map_value, Logged.map_value, value]
  · intro added within c
    have same : c = b.build := build_congr within
    rw [same]
    exact ⟨fun key => ⟨rfl, rfl⟩, rfl⟩

/-- The highest source fails, two sources share the ordinal below it, and a lower one was added
    before all of them. Of the two, only the later one has the key `m`. -/
theorem precedence_tie_under_failure :
    let low := AnySource.table ⟨"low", 1, .ofPairs [("k", "0"), ("m", "0")]⟩
    let first := AnySource.table ⟨"first", 5, .ofPairs [("k", "1")]⟩
    let down := AnySource.scripted ⟨"down", 9, .ofPairs [("k", "9")], true, [], true⟩
    let second := AnySource.table ⟨"second", 5, .ofPairs [("k", "2"), ("m", "2")]⟩
    let b := (start ⟨[], []⟩).withSources [low, first, down, second]
    let added (sources : List AnySource) := ({ b with sources := sources } : ContextBuilder _).build
    b.policy = .overriding ∧ (b.build.collect "k").value = some (.plain "k" "1" "first") ∧
      ({ b.build with sources := [down, first, down] } : Context AnySource).collect "k" =
        b.build.collect "k" ∧
      ((added [second, low, first, down]).getValue "m").value = (b.build.getValue "m").value ∧
      (added [first, second, low, down]).getValue "k" = b.build.getValue "k" := by
  intro low first down second b added
  have policy : b.policy = .overriding := rfl
  have finds : (Source.reader first).Finds "k" := ⟨.plain "k" "1" "first", by decide +kernel⟩
  have supplies : b.Supplies "k" first := by
    refine ⟨[low], [down, second], rfl, finds, ?_, ?_⟩
    · intro t mem _
      obtain rfl := List.mem_singleton.mp mem
      decide
    · intro t mem found
      rcases List.mem_pair.mp mem with rfl | rfl
      · exact absurd (Reader.finds_iff_isSome.mp found) (by decide +kernel)
      · decide
  have last : b.sources.Perm (second :: [low, first, down]) :=
    List.perm_append_singleton second [low, first, down]
  have highest : ∀ t ∈ [low, first, down], (Source.reader t).Finds "m" →
      Source.ordinal t < Source.ordinal second := by
    intro t mem found
    simp only [List.mem_cons, List.not_mem_nil, or_false] at mem
    rcases mem with rfl | rfl | rfl
    · decide
    · exact absurd (Reader.finds_iff_isSome.mp found) (by decide +kernel)
    · exact absurd (Reader.finds_iff_isSome.mp found) (by decide +kernel)
  have within : Ranking.SameWithin Source.ordinal [first, second, low, down] b.sources :=
    Ranking.descending_eq_iff.mp rfl
  obtain ⟨overriding, reordered⟩ := precedence b
  obtain ⟨supplied, -, hides, -⟩ := overriding policy "k"
  obtain ⟨-, -, -, anyOrder⟩ := overriding policy "m"
  exact ⟨policy, (supplied _).mpr ⟨first, supplies, by decide +kernel⟩,
    hides [down] first [second, low] [down] rfl finds,
    (anyOrder second _ _ last ⟨.plain "m" "2" "second", by decide +kernel⟩ highest last.symm).2.1,
    ((reordered _ within).1 "k").1⟩

end ContextBuilder

end LayeredConfig
