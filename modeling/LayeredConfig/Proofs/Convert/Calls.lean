import LayeredConfig.Proofs.Convert.Listing

/-!
# A registry in use

A registry answers one call after another: registrations, declarations and discoveries, queries, and
the wish that it forget its answers. What it keeps in the course of that is `Registry.Sound`: every
registration has an id of its own, below the next one, and a kept answer is the list that would be
worked out now, if the factory method had the id that it got at the time. **So every answer after
any calls is such a list** (`Registry.Sound.converters`, `Registry.sound_after`).

Nothing is said of single calls in later modules. A property of registries that entries, bundles
taken over, forgetting and queries keep is kept by every call (`Registry.perform_keeps`) and by
every run of calls (`Registry.after_keeps`), so an invariant is shown by these four.
-/

set_option autoImplicit false

namespace LayeredConfig

namespace Registry

/-- Everything that can be asked of a registry. -/
inductive Call
  | register (target : TypeKey) (name : String) (convert : Converter target)
  | declare (d : Declaration)
  | discover
  | clearCache
  | converters (target : TypeKey)
  | supports (target : TypeKey)

inductive Answer
  | registered (id : Nat)
  | done
  | discovered (count : Nat)
  | listed (handles : List ConverterHandle)
  | supported (yes : Bool)

def perform (r : Registry) : Call → Answer × Registry
  | .register target name convert => (.registered r.nextId, r.register target name convert)
  | .declare d => (.done, r.declare d)
  | .discover => (.discovered r.discover.1, r.discover.2)
  | .clearCache => (.done, r.clearCache)
  | .converters target => (.listed (r.converters target).1, (r.converters target).2)
  | .supports target => (.supported (r.supports target).1, (r.supports target).2)

def after (r : Registry) (calls : List Call) : Registry :=
  calls.foldl (fun r call => (r.perform call).2) r

variable {r : Registry} {id : Nat} {target : TypeKey}

/-! ## What is entered -/

/-- What the bundles hold that a registry has not taken over. -/
def undiscovered (r : Registry) : List RegistryEntry :=
  (Discovery.pending ConverterPlugin.name r.catalogue.plugins r.applied).1.flatMap
    ConverterPlugin.entries

/-- The names of the bundles that a registry has taken over after a discovery. -/
def takenOver (r : Registry) : List String :=
  (Discovery.pending ConverterPlugin.name r.catalogue.plugins r.applied).2

/-- What a call enters into a registry. -/
def entered (r : Registry) : Call → List RegistryEntry
  | .register target name convert => [.converter target name convert]
  | .declare d => [.declaration d]
  | .discover => r.undiscovered
  | _ => []

theorem discover_eq (r : Registry) :
    r.discover.2 = r.undiscovered.foldl enter { r with applied := r.takenOver } := by
  rw [undiscovered, List.foldl_flatMap]
  rfl

/-- A query adds to what the registry remembers, and to nothing else. -/
theorem converters_snd (r : Registry) (target : TypeKey) :
    ∃ cache nextId, (r.converters target).2 = { r with cache := cache, nextId := nextId } := by
  unfold converters
  split
  · exact ⟨r.cache, r.nextId, rfl⟩
  · exact ⟨_, _, rfl⟩

theorem supports_eq (r : Registry) (target : TypeKey) :
    r.supports target = (!(r.converters target).1.isEmpty, (r.converters target).2) := rfl

/-- A property of registries that every entry keeps is kept by any number of them. -/
theorem entries_keep {P : Registry → Prop} (entry : ∀ r e, P r → P (r.enter e)) (h : P r)
    (es : List RegistryEntry) : P (es.foldl enter r) :=
  List.foldlRecOn es enter h fun r h e _ => entry r e h

/-- If every query keeps it as well, and what is merely noted does not matter, then every call keeps
    it. -/
theorem perform_keeps {P : Registry → Prop} (entry : ∀ r e, P r → P (r.enter e))
    (applied : ∀ r names, P r → P { r with applied := names }) (clear : ∀ r, P r → P r.clearCache)
    (query : ∀ r target, P r → P (r.converters target).2) (h : P r) (call : Call) :
    P (r.perform call).2 := by
  cases call with
  | register target name convert => exact entry r (.converter target name convert) h
  | declare d => exact entry r (.declaration d) h
  | discover =>
    rw [perform, discover_eq]
    exact entries_keep entry (applied r _ h) _
  | clearCache => exact clear r h
  | converters target => exact query r target h
  | supports target => exact query r target h

theorem after_keeps {P : Registry → Prop} (step : ∀ r call, P r → P (r.perform call).2)
    (h : P r) (calls : List Call) : P (r.after calls) :=
  List.foldlRecOn calls _ h fun r h call _ => step r call h

theorem catalogue_after (r : Registry) (calls : List Call) :
    (r.after calls).catalogue = r.catalogue := by
  have entry (r' : Registry) (e : RegistryEntry) (same : r'.catalogue = r.catalogue) :
      (r'.enter e).catalogue = r.catalogue := by
    cases e <;> exact same
  have query (r' : Registry) (target : TypeKey) (same : r'.catalogue = r.catalogue) :
      (r'.converters target).2.catalogue = r.catalogue := by
    obtain ⟨cache, nextId, snd⟩ := r'.converters_snd target
    rw [snd]
    exact same
  exact after_keeps (P := fun r' => r'.catalogue = r.catalogue) (fun _ call same =>
    perform_keeps entry (fun _ _ same => same) (fun _ same => same) query same call) rfl calls

/-! ## What is kept -/

/-- A list that is right now, if its factory method got the given id before. -/
structure Resolved (r : Registry) (id : Nat) (target : TypeKey) (handles : List ConverterHandle) :
    Prop where
  unused : ∀ e ∈ r.registrations, e.id ≠ id
  below : (r.factoryFor? target).isSome = true → id < r.nextId
  eq : handles = r.listing id target

structure Sound (r : Registry) : Prop where
  numbered : r.Numbered
  below : ∀ e ∈ r.registrations, e.id < r.nextId
  cached : ∀ entry ∈ r.cache, ∃ id, r.Resolved id entry.1 entry.2

namespace Sound

theorem empty (catalogue : Catalogue) : Sound (empty catalogue) where
  numbered := List.nodup_nil
  below _ mem := nomatch mem
  cached _ mem := nomatch mem

theorem unused (s : Sound r) : ∀ e ∈ r.registrations, e.id ≠ r.nextId :=
  fun e mem => Nat.ne_of_lt (s.below e mem)

theorem register (s : Sound r) (target : TypeKey) (name : String) (convert : Converter target) :
    Sound (r.register target name convert) where
  numbered := by
    -- Every id in use is below the next one, which is the one that is given.
    have new : r.nextId ∉ r.registrations.map Registration.id := by
      intro mem
      obtain ⟨e, registered, same⟩ := List.mem_map.mp mem
      exact s.unused e registered same
    rw [Numbered, Registry.register, List.map_append, List.map_singleton, ← List.concat_eq_append]
    exact List.Nodup.concat new s.numbered
  below e mem := by
    rcases List.mem_append.mp mem with old | new
    · exact Nat.lt_succ_of_lt (s.below e old)
    · obtain rfl := List.mem_singleton.mp new
      exact Nat.lt_succ_self _
  cached _ mem := nomatch mem

theorem enter (s : Sound r) (entry : RegistryEntry) : Sound (r.enter entry) := by
  cases entry with
  | converter target name convert => exact s.register target name convert
  | declaration d => exact ⟨s.numbered, s.below, fun _ mem => nomatch mem⟩

theorem applied (s : Sound r) (names : List String) : Sound { r with applied := names } where
  numbered := s.numbered
  below := s.below
  cached entry mem := by
    obtain ⟨id, kept⟩ := s.cached entry mem
    exact ⟨id, kept.unused, kept.below, kept.eq⟩

theorem clearCache (s : Sound r) : Sound r.clearCache :=
  ⟨s.numbered, s.below, fun _ mem => nomatch mem⟩

theorem converters (s : Sound r) (target : TypeKey) :
    Sound (r.converters target).2 ∧
    ∃ id, (r.converters target).2.Resolved id target (r.converters target).1 := by
  unfold Registry.converters
  cases found : r.cache.find? fun entry => entry.1 == target with
  | some entry =>
    obtain rfl : entry.1 = target := by simpa using List.find?_some found
    exact ⟨s, s.cached entry (List.mem_of_find?_eq_some found)⟩
  | none =>
    -- The list is worked out now; an id is drawn only where it has a factory method.
    let next := if (r.factoryFor? target).isSome then r.nextId + 1 else r.nextId
    have grows : r.nextId ≤ next := by
      by_cases factory : (r.factoryFor? target).isSome = true
      · exact (Nat.le_succ _).trans (if_pos factory).ge
      · exact (if_neg factory).ge
    let r' : Registry := { r with cache := (target, r.compute target) :: r.cache, nextId := next }
    have resolved : r'.Resolved r.nextId target (r.compute target) :=
      ⟨s.unused, fun factory => Nat.lt_of_succ_le (if_pos factory).ge,
        compute_eq_listing s.numbered s.unused target⟩
    have sound : Sound r' := by
      refine ⟨s.numbered, fun e mem => (s.below e mem).trans_le grows, ?_⟩
      rintro entry (_ | ⟨_, old⟩)
      · exact ⟨r.nextId, resolved⟩
      · obtain ⟨id, kept⟩ := s.cached entry old
        exact ⟨id, kept.unused, fun factory => (kept.below factory).trans_le grows, kept.eq⟩
    exact ⟨sound, r.nextId, resolved⟩

theorem answer (s : Sound r) (target : TypeKey) :
    ∃ id, (∀ e ∈ r.registrations, e.id ≠ id) ∧ (r.converters target).1 = r.listing id target := by
  obtain ⟨-, id, resolved⟩ := s.converters target
  obtain ⟨cache, nextId, snd⟩ := r.converters_snd target
  rw [snd] at resolved
  exact ⟨id, resolved.unused, resolved.eq⟩

theorem perform (s : Sound r) (call : Call) : Sound (r.perform call).2 :=
  perform_keeps (fun _ e s => s.enter e) (fun _ names s => s.applied names)
    (fun _ s => s.clearCache) (fun _ target s => (s.converters target).1) s call

end Sound

/-- **Whatever a registry has been asked, it is sound.** -/
theorem sound_after (catalogue : Catalogue) (calls : List Call) :
    Sound ((empty catalogue).after calls) :=
  after_keeps (fun _ call s => s.perform call) (Sound.empty catalogue) calls

end Registry

end LayeredConfig
