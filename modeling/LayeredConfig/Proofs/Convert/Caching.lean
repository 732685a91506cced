import LayeredConfig.Proofs.Convert.Numbering
import LayeredConfig.Sample.Catalogue

/-!
# What the cache does to the answers

A registry that remembers its answers could answer with a list that is out of date, or use an id
twice. **`Registry.cache_transparent` says that it does neither**: besides the ids an answer is what
a registry without a memory would work out from everything entered so far, and queries leave no
trace in other answers; and ids are given to registrations and factory methods once. The memory
shows in one place only. The list for a type is the same, ids included, until something is entered
or the registry is told to forget its answers; after that its factory method, if it lists one, has a
new id.

Two things are followed through the calls after a query. The remembered list stays where it is as
long as nothing is entered or forgotten (`Registry.find?_after`). And an id that a factory method
has got is never got again (`Registry.Issued`): it is below the next one, no registration has it,
and the remembered answers in which it stands are those for one type, or for none after a call that
enters or forgets something.
-/

set_option autoImplicit false

namespace LayeredConfig

namespace ConverterHandle

def isFactory (h : ConverterHandle) : Bool :=
  match h.origin with
  | .factory _ => true
  | _ => false

/-- The handle as it would be if factory methods had the given id. -/
def renumbered (id : Nat) (h : ConverterHandle) : ConverterHandle :=
  if h.isFactory then { h with id := id } else h

end ConverterHandle

theorem Registration.isFactory_inherit (e : Registration) (a : Ancestor) :
    (e.inherit a).isFactory = false := by
  unfold ConverterHandle.isFactory Registration.inherit ConverterHandle.derive
  cases a.kind <;> rfl

namespace Registry

variable {r : Registry} {id id' : Nat} {target type : TypeKey} {h : ConverterHandle}
  {calls : List Call}

/-! ## The id of a factory method -/

theorem listing_renumbered (r : Registry) (id id' : Nat) (target : TypeKey) :
    r.listing id' target = (r.listing id target).map (ConverterHandle.renumbered id') := by
  have inherited (ps : List (Registration × Ancestor)) :
      (ps.map fun p => p.1.inherit p.2).map (ConverterHandle.renumbered id') =
        ps.map fun p => p.1.inherit p.2 := by
    rw [List.map_map]
    refine List.map_congr_left fun p _ => ?_
    simp [ConverterHandle.renumbered, Registration.isFactory_inherit]
  have direct : (r.directFor target).map (ConverterHandle.renumbered id') = r.directFor target := by
    rw [directFor, List.map_map]
    rfl
  rw [listing, listing, own, own, List.map_append, List.map_append, List.map_append, inherited,
    inherited, direct]
  cases r.factoryFor? target <;> rfl

/-- A listed factory method is the one of the type, under the given id. -/
theorem factory_of_mem_listing (mem : h ∈ r.listing id target) (factory : h.isFactory = true) :
    ∃ m, r.factoryFor? target = some m ∧ ConverterHandle.ofFactory id m = h := by
  have other {ps : List (Registration × Ancestor)}
      (mem : h ∈ ps.map fun p => p.1.inherit p.2) : False := by
    obtain ⟨p, -, rfl⟩ := List.mem_map.mp mem
    rw [Registration.isFactory_inherit] at factory
    exact nomatch factory
  rw [listing, List.append_assoc, List.mem_append, List.mem_append] at mem
  rcases mem with own | near | far
  · rcases mem_own_iff.mp own with ⟨e, -, -, rfl⟩ | found
    · exact absurd factory Bool.false_ne_true
    · exact found
  · exact (other near).elim
  · exact (other far).elim

theorem id_of_factory (mem : h ∈ r.listing id target) (factory : h.isFactory = true) : h.id = id := by
  obtain ⟨m, -, rfl⟩ := factory_of_mem_listing mem factory
  rfl

/-! ## What is remembered -/

theorem converters_cached (r : Registry) (target : TypeKey) :
    (r.converters target).2.cache.find? (fun entry => entry.1 == target) =
      some (target, (r.converters target).1) := by
  unfold converters
  cases found : r.cache.find? fun entry => entry.1 == target with
  | some entry =>
    obtain rfl : entry.1 = target := by simpa using List.find?_some found
    exact found
  | none => exact List.find?_cons_of_pos (by simp)

/-- A remembered list is answered as it is, and nothing is drawn. -/
theorem converters_of_cached {entry : TypeKey × List ConverterHandle}
    (found : r.cache.find? (fun entry => entry.1 == target) = some entry) :
    r.converters target = (entry.2, r) := by
  unfold converters
  rw [found]

/-- What is remembered is not worked out again for another query. -/
theorem find?_converters {entry : TypeKey × List ConverterHandle}
    (found : r.cache.find? (fun entry => entry.1 == type) = some entry) (target : TypeKey) :
    (r.converters target).2.cache.find? (fun entry => entry.1 == type) = some entry := by
  by_cases same : target = type
  · subst same
    rw [converters_of_cached found]
    exact found
  -- What is worked out for another type is put in front of it.
  · unfold converters
    split
    · exact found
    · exact (List.find?_cons_of_neg (by simpa using same)).trans found

/-- Nothing is entered and nothing forgotten by the calls. -/
def Undisturbed (r : Registry) (calls : List Call) : Prop :=
  r.enteredBy calls = [] ∧ .clearCache ∉ calls

/-- A call that enters nothing changes what is remembered, and nothing that answers depend on. -/
theorem perform_of_nothing_entered {call : Call} (nothing : r.entered call = []) :
    ∃ applied cache nextId, (r.perform call).2 =
      { r with applied := applied, cache := cache, nextId := nextId } := by
  cases call with
  | register | declare => exact nomatch nothing
  | discover =>
    rw [perform, discover_eq, show r.undiscovered = [] from nothing]
    exact ⟨_, _, _, rfl⟩
  | clearCache => exact ⟨_, _, _, rfl⟩
  | converters target | supports target =>
    obtain ⟨cache, nextId, snd⟩ := r.converters_snd target
    exact ⟨_, _, _, snd⟩

theorem after_of_nothing_entered (nothing : r.enteredBy calls = []) :
    ∃ applied cache nextId, r.after calls =
      { r with applied := applied, cache := cache, nextId := nextId } := by
  induction calls generalizing r with
  | nil => exact ⟨r.applied, r.cache, r.nextId, rfl⟩
  | cons call rest ih =>
    obtain ⟨first, others⟩ := List.append_eq_nil_iff.mp nothing
    obtain ⟨applied, cache, nextId, once⟩ := perform_of_nothing_entered first
    obtain ⟨applied', cache', nextId', all⟩ := ih others
    refine ⟨applied', cache', nextId', all.trans ?_⟩
    rw [once]

theorem find?_perform {entry : TypeKey × List ConverterHandle} {call : Call}
    (found : r.cache.find? (fun entry => entry.1 == type) = some entry)
    (nothing : r.entered call = []) (other : call ≠ .clearCache) :
    (r.perform call).2.cache.find? (fun entry => entry.1 == type) = some entry := by
  cases call with
  | register | declare => exact nomatch nothing
  | discover =>
    rw [perform, discover_eq, show r.undiscovered = [] from nothing]
    exact found
  | clearCache => exact absurd rfl other
  | converters target | supports target => exact find?_converters found target

theorem find?_after {entry : TypeKey × List ConverterHandle}
    (found : r.cache.find? (fun entry => entry.1 == type) = some entry)
    (quiet : r.Undisturbed calls) :
    (r.after calls).cache.find? (fun entry => entry.1 == type) = some entry := by
  induction calls generalizing r with
  | nil => exact found
  | cons call rest ih =>
    obtain ⟨nothing, kept⟩ := quiet
    obtain ⟨first, others⟩ := List.append_eq_nil_iff.mp nothing
    have next := find?_perform found first fun same => kept (same ▸ List.mem_cons_self)
    exact ih next ⟨others, fun mem => kept (List.mem_cons_of_mem _ mem)⟩

/-! ## Every id is given once -/

/-- An id that a factory method has got. No registration has it, no later id is the same, and among
    the remembered answers it stands in those for some types only. -/
structure Issued (r : Registry) (id : Nat) (types : TypeKey → Prop) : Prop where
  below : id < r.nextId
  unused : ∀ e ∈ r.registrations, e.id ≠ id
  remembered : ∀ entry ∈ r.cache, ∀ h ∈ entry.2, h.isFactory = true → h.id = id → types entry.1

namespace Issued

variable {types : TypeKey → Prop}

theorem clearCache (i : r.Issued id types) : r.clearCache.Issued id fun _ => False :=
  ⟨i.below, i.unused, fun _ mem => nomatch mem⟩

theorem enter (i : r.Issued id types) (e : RegistryEntry) : (r.enter e).Issued id fun _ => False := by
  cases e with
  | converter target name convert =>
    refine ⟨Nat.lt_succ_of_lt i.below, fun e mem => ?_, fun _ mem => nomatch mem⟩
    rcases List.mem_append.mp mem with old | new
    · exact i.unused e old
    · obtain rfl := List.mem_singleton.mp new
      exact Nat.ne_of_gt i.below
  | declaration d => exact ⟨i.below, i.unused, fun _ mem => nomatch mem⟩

theorem mono {types' : TypeKey → Prop} (i : r.Issued id types) (le : ∀ t, types t → types' t) :
    r.Issued id types' :=
  ⟨i.below, i.unused, fun entry mem h listed factory same =>
    le _ (i.remembered entry mem h listed factory same)⟩

/-- A query gives a new id or none. -/
theorem converters (i : r.Issued id types) (s : Sound r) (target : TypeKey) :
    (r.converters target).2.Issued id types := by
  unfold Registry.converters
  split
  · exact i
  -- The new list may have a factory method, but under the next id, which is not this one.
  · have grows : r.nextId ≤ if (r.factoryFor? target).isSome then r.nextId + 1 else r.nextId := by
      split <;> omega
    refine ⟨i.below.trans_le grows, i.unused, ?_⟩
    rintro entry (_ | ⟨_, old⟩) h listed factory same
    · dsimp only at listed
      rw [compute_eq_listing s.numbered s.unused] at listed
      exact absurd ((id_of_factory listed factory).symm.trans same) (Nat.ne_of_gt i.below)
    · exact i.remembered entry old h listed factory same

theorem perform (i : r.Issued id types) (s : Sound r) (call : Call) :
    Sound (r.perform call).2 ∧ (r.perform call).2.Issued id types :=
  perform_keeps (P := fun r => Sound r ∧ r.Issued id types)
    (fun _ e ⟨s, i⟩ => ⟨s.enter e, (i.enter e).mono fun _ => False.elim⟩)
    (fun _ names ⟨s, i⟩ => ⟨s.applied names, ⟨i.below, i.unused, i.remembered⟩⟩)
    (fun _ ⟨s, i⟩ => ⟨s.clearCache, i.clearCache.mono fun _ => False.elim⟩)
    (fun _ target ⟨s, i⟩ => ⟨(s.converters target).1, i.converters s target⟩) ⟨s, i⟩ call

theorem after (i : r.Issued id types) (s : Sound r) (calls : List Call) :
    Sound (r.after calls) ∧ (r.after calls).Issued id types :=
  after_keeps (P := fun r => Sound r ∧ r.Issued id types) (fun _ call ⟨s, i⟩ => i.perform s call)
    ⟨s, i⟩ calls

/-- After a call that enters or forgets something the id stands in no remembered answer. -/
theorem perform_of_disturbing (i : r.Issued id types) {call : Call}
    (disturbing : ¬ (r.entered call = [] ∧ call ≠ .clearCache)) :
    (r.perform call).2.Issued id fun _ => False := by
  cases call with
  | register target name convert => exact i.enter (.converter target name convert)
  | declare d => exact i.enter (.declaration d)
  | discover =>
    have some : r.undiscovered ≠ [] := fun none => disturbing ⟨none, by simp⟩
    -- The first entry makes the registry forget, and the others cannot bring an id back.
    obtain ⟨e, es, heads⟩ := List.exists_cons_of_ne_nil some
    have i' : Issued { r with applied := r.takenOver } id types := ⟨i.below, i.unused, i.remembered⟩
    rw [Registry.perform, discover_eq, heads]
    exact entries_keep (P := fun r => r.Issued id fun _ => False) (fun _ e i => i.enter e)
      (i'.enter e) es
  | clearCache => exact i.clearCache
  | converters | supports => exact absurd ⟨rfl, by simp⟩ disturbing

theorem after_of_disturbed (i : r.Issued id types) (s : Sound r)
    (disturbed : ¬ r.Undisturbed calls) : (r.after calls).Issued id fun _ => False := by
  induction calls generalizing r with
  | nil => exact absurd ⟨rfl, List.not_mem_nil⟩ disturbed
  | cons call rest ih =>
    obtain ⟨sound, kept⟩ := i.perform s call
    -- The first call that is not quiet clears the memory, and later answers have later ids.
    by_cases quiet : r.entered call = [] ∧ call ≠ .clearCache
    · refine ih kept sound fun ⟨nothing, others⟩ => disturbed ⟨?_, ?_⟩
      · exact List.append_eq_nil_iff.mpr ⟨quiet.1, nothing⟩
      · exact fun mem => (List.mem_cons.mp mem).elim (fun same => quiet.2 same.symm) others
    · exact ((i.perform_of_disturbing quiet).after sound rest).2

end Issued

/-- Every remembered factory method has its own id. -/
def Accounted (r : Registry) : Prop :=
  ∀ entry ∈ r.cache, ∀ h ∈ entry.2, h.isFactory = true → r.Issued h.id (· = entry.1)

namespace Accounted

theorem converters (a : r.Accounted) (s : Sound r) (target : TypeKey) :
    (r.converters target).2.Accounted := by
  obtain ⟨-, id, resolved⟩ := s.converters target
  have kept : ∀ entry ∈ r.cache, ∀ h ∈ entry.2, h.isFactory = true →
      (r.converters target).2.Issued h.id (· = entry.1) := fun entry mem h listed factory =>
    (a entry mem h listed factory).converters s target
  cases found : r.cache.find? fun entry => entry.1 == target with
  | some entry =>
    rw [converters_of_cached found]
    exact a
  | none =>
    have added : (r.converters target).2.cache = (target, r.compute target) :: r.cache := by
      rw [Registry.converters, found]
    have answer : (r.converters target).1 = r.compute target := by
      rw [Registry.converters, found]
    intro entry mem
    rw [added] at mem
    rcases List.mem_cons.mp mem with rfl | old
    · -- The id is the next one, so it is in no answer that was remembered before.
      intro h listed factory
      have next : h.id = r.nextId := by
        rw [compute_eq_listing s.numbered s.unused] at listed
        exact id_of_factory listed factory
      rw [← answer, resolved.eq] at listed
      obtain ⟨m, isFactory, rfl⟩ := factory_of_mem_listing listed factory
      refine ⟨resolved.below (isFactory ▸ rfl), resolved.unused, fun entry' mem' h' listed' factory'
        same => ?_⟩
      rw [added] at mem'
      rcases List.mem_cons.mp mem' with rfl | old'
      · rfl
      · have below := (a entry' old' h' listed' factory').below
        exact absurd (same.trans next) (Nat.ne_of_lt below)
    · exact kept entry old

theorem after (catalogue : Catalogue) (calls : List Call) :
    ((empty catalogue).after calls).Accounted := by
  have step : ∀ (r : Registry) (call : Call), Sound r ∧ r.Accounted →
      Sound (r.perform call).2 ∧ (r.perform call).2.Accounted := fun r call h =>
    perform_keeps (P := fun r => Sound r ∧ r.Accounted)
      (fun _ e ⟨s, _⟩ => ⟨s.enter e, by cases e <;> exact fun _ mem => nomatch mem⟩)
      (fun _ names ⟨s, a⟩ => ⟨s.applied names, fun entry mem h listed factory => by
        obtain ⟨below, unused, remembered⟩ := a entry mem h listed factory
        exact ⟨below, unused, remembered⟩⟩)
      (fun _ ⟨s, _⟩ => ⟨s.clearCache, fun _ mem => nomatch mem⟩)
      (fun _ target ⟨s, a⟩ => ⟨(s.converters target).1, a.converters s target⟩) h call
  have start : Sound (empty catalogue) ∧ (empty catalogue).Accounted :=
    ⟨Sound.empty catalogue, fun _ mem => nomatch mem⟩
  exact (after_keeps step start calls).2

end Accounted

/-- The id of a listed factory method has been issued for the type. -/
theorem issued_of_listed (s : Sound r) (a : r.Accounted) (mem : h ∈ (r.converters target).1)
    (factory : h.isFactory = true) : (r.converters target).2.Issued h.id (· = target) :=
  a.converters s target _ (List.mem_of_find?_eq_some (r.converters_cached target)) h mem factory

/-- As long as nothing is entered, another answer for a type has the same list but for the id of the
    factory method. -/
theorem answer_renumbered (s : Sound r) (nothing : (r.converters target).2.enteredBy calls = []) :
    ∃ id, (((r.converters target).2.after calls).converters target).1 =
      (r.converters target).1.map (ConverterHandle.renumbered id) := by
  obtain ⟨cache, nextId, once⟩ := r.converters_snd target
  obtain ⟨applied', cache', nextId', all⟩ := after_of_nothing_entered nothing
  obtain ⟨id, -, first⟩ := s.answer target
  have later : Sound ((r.converters target).2.after calls) :=
    after_keeps (fun _ call s => s.perform call) (s.converters target).1 calls
  obtain ⟨id', -, second⟩ := later.answer target
  -- Nothing that a list is made of has changed, so both have the same list for any id.
  have same : ((r.converters target).2.after calls).listing id' target = r.listing id' target := by
    rw [all, once]
    rfl
  exact ⟨id', by rw [second, same, first, listing_renumbered r id id']⟩

/-- As long as nothing is entered and nothing forgotten, the answer for a type is the same. -/
theorem answer_of_undisturbed (quiet : (r.converters target).2.Undisturbed calls) :
    (((r.converters target).2.after calls).converters target).1 = (r.converters target).1 := by
  rw [converters_of_cached (find?_after (r.converters_cached target) quiet)]

/-! ## Transparency -/

/-- **The cache shows in the ids of factory methods and nowhere else.** Take a registry after any
    calls, a query, any calls between, and another query.

    * Besides the ids, an answer is what is worked out by a registry that has not been asked
      anything, from the registrations made and the last declaration for each type.
    * Besides the ids, the answer to any call is the same after any calls that have the same
      registrations, declarations and discoveries among them.
    * If nothing is entered between two queries for a type, the second answer is the first one, with
      another id for the factory method if there is one; and if the registry is not told to forget
      its answers between them, it is the first one with all its ids.
    * No two registrations have the same id, nor has any registration the id of a factory method,
      and two listed factory methods have the same id only if they are the same one for that
      reason. -/
theorem cache_transparent (catalogue : Catalogue) (before between : List Call)
    (target other : TypeKey) :
    let r := (empty catalogue).after before
    let first := (r.converters target).1
    let asked := (r.converters target).2
    let r' := asked.after between
    let second := (r'.converters other).1
    let entries := (empty catalogue).enteredBy before
    let plain := ofEntries catalogue entries
    (plain.registrations.map Registration.unnumbered =
        entries.filterMap RegistryEntry.registration? ∧
      (∀ type, plain.hierarchy.find? type =
        (entries.filterMap RegistryEntry.declaration?).reverse.find? fun d => d.type == type) ∧
      first.map ConverterHandle.unnumbered =
        (plain.compute target).map ConverterHandle.unnumbered) ∧
    (∀ before', before'.filter Call.enters = before.filter Call.enters → ∀ call,
      (((empty catalogue).after before').perform call).1.unnumbered =
        (r.perform call).1.unnumbered) ∧
    (other = target → asked.enteredBy between = [] →
      (∃ id, second = first.map (ConverterHandle.renumbered id)) ∧
      (.clearCache ∉ between → second = first)) ∧
    (r'.registrations.map Registration.id).Nodup ∧
    ∀ h ∈ first, h.isFactory = true → (∀ e ∈ r'.registrations, e.id ≠ h.id) ∧
      ∀ h' ∈ second, h'.isFactory = true →
        (h'.id = h.id ↔ other = target ∧ asked.Undisturbed between) := by
  intro r first asked r' second entries plain
  have s : Sound r := sound_after catalogue before
  have a : r.Accounted := Accounted.after catalogue before
  have s' : Sound r' := after_keeps (fun _ call s => s.perform call) (s.converters target).1 between
  refine ⟨⟨ofEntries_registrations catalogue entries, ofEntries_find? catalogue entries,
    answer_eq_compute catalogue before target⟩, ?_, ?_, s'.numbered, ?_⟩
  · intro before' same call
    exact ((empty catalogue).alike_after same).answer (sound_after catalogue before') s call
  · rintro rfl nothing
    exact ⟨answer_renumbered s nothing, fun kept => answer_of_undisturbed ⟨nothing, kept⟩⟩
  · intro h listed factory
    have issued := issued_of_listed s a listed factory
    refine ⟨(issued.after (s.converters target).1 between).2.unused, fun h' listed' factory' => ?_⟩
    -- Where the id of the first one can stand at the second query.
    have within {types : TypeKey → Prop} (i : r'.Issued h.id types) (same : h'.id = h.id) :
        types other :=
      (i.converters s' other).remembered _ (List.mem_of_find?_eq_some (r'.converters_cached other))
        h' listed' factory' same
    constructor
    · intro same
      refine ⟨within (issued.after (s.converters target).1 between).2 same, ?_⟩
      by_contra disturbed
      exact within (issued.after_of_disturbed (s.converters target).1 disturbed) same
    · rintro ⟨rfl, quiet⟩
      have equal : second = first := answer_of_undisturbed quiet
      obtain ⟨id, -, answer⟩ := s.answer other
      rw [equal] at listed'
      rw [show first = r.listing id other from answer] at listed listed'
      exact (id_of_factory listed' factory').trans (id_of_factory listed factory).symm

/-- The factory method of the sample tokens has id 1, as a text converter was registered before it
    was asked for the first time, and keeps it in other queries. -/
theorem cache_transparent_token :
    let token := Sample.type "" "Token"
    let before : List Call :=
      [.register .text "t" (Traced.converter .text "t" [] "" .all), .supports token]
    let between : List Call := [.converters .text, .discover, .supports token]
    let r := ((empty ⟨Sample.factories "", []⟩).after before)
    let asked := (r.converters token).2
    let r' := asked.after between
    asked.enteredBy between = [] ∧ .clearCache ∉ between ∧
      (r.converters token).1.map (fun h => (h.id, h.isFactory)) = [(1, true)] ∧
      (r'.converters token).1 = (r.converters token).1 ∧ ∀ e ∈ r'.registrations, e.id ≠ 1 := by
  intro token before between r asked r'
  have nothing : asked.enteredBy between = [] := List.isEmpty_iff.mp (by decide +kernel)
  have kept : .clearCache ∉ between := by simp [between]
  have listed : (r.converters token).1.map (fun h => (h.id, h.isFactory)) = [(1, true)] := by
    decide +kernel
  have mem : (1, true) ∈ (r.converters token).1.map fun h => (h.id, h.isFactory) :=
    listed ▸ List.mem_singleton.mpr rfl
  obtain ⟨h, mem, same⟩ := List.mem_map.mp mem
  obtain ⟨id, factory⟩ := Prod.mk.inj same
  obtain ⟨-, -, unchanged, -, once⟩ :=
    cache_transparent ⟨Sample.factories "", []⟩ before between token token
  exact ⟨nothing, kept, listed, (unchanged rfl nothing).2 kept, id ▸ (once h mem factory).1⟩

/-- When the registry has been told to forget its answers, the factory method gets another id. -/
theorem forgotten_factory_renumbered :
    let token := Sample.type "" "Token"
    let asked := ((empty ⟨Sample.factories "", []⟩).converters token)
    let again := (asked.2.after [.clearCache]).converters token
    asked.2.enteredBy [.clearCache] = [] ∧
      asked.1.map ConverterHandle.id = [0] ∧ again.1.map ConverterHandle.id = [1] := by
  intro token asked again
  exact ⟨rfl, by decide +kernel, by decide +kernel⟩

end Registry

end LayeredConfig
