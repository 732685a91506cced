import LayeredConfig.Proofs.Convert.Calls

/-!
# A registry without its numbers

Queries take ids, so that the ids in later answers depend on the queries made before. Nothing else
does. What a registry knows besides its numbers (`Registry.bare`) comes from what was entered into
it, and what it answers, the numbers left out, comes from that: **`Registry.Alike.answer` says that
two registries that know the same answer every call alike, and `Registry.alike_after` that
registries know the same if the same calls have entered something.**

The lists are made from the registrations without looking at an id, so each of them can be made from
the bare registry as well, handle by handle (`Registry.listing_bare`). What is entered does not
depend on ids either (`Registry.Alike.entered`), and queries enter nothing.
-/

set_option autoImplicit false

namespace LayeredConfig

def ConverterHandle.unnumbered (h : ConverterHandle) : ConverterHandle := { h with id := 0 }

def Registration.unnumbered (e : Registration) : Registration := { e with id := 0 }

/-- The registration that an entry makes, without its number. -/
def RegistryEntry.registration? : RegistryEntry → Option Registration
  | .converter target name convert => some ⟨0, name, target, convert⟩
  | .declaration _ => none

def RegistryEntry.declaration? : RegistryEntry → Option Declaration
  | .converter .. => none
  | .declaration d => some d

namespace Registry

def Answer.unnumbered : Answer → Answer
  | registered _ => registered 0
  | listed handles => listed (handles.map ConverterHandle.unnumbered)
  | answer => answer

/-- What a registry knows, without its numbers and what it remembers of earlier answers. -/
def bare (r : Registry) : Registry where
  catalogue := r.catalogue
  registrations := r.registrations.map Registration.unnumbered
  hierarchy := r.hierarchy
  applied := []
  cache := []
  nextId := 0

variable {r r' : Registry} {id id' : Nat} {target : TypeKey}

/-! ## Lists -/

theorem directFor_bare (r : Registry) (target : TypeKey) :
    r.bare.directFor target = (r.directFor target).map ConverterHandle.unnumbered := by
  rw [directFor, directFor, bare, List.filter_map, List.map_map, List.map_map]
  rfl

theorem factoryFor?_bare (r : Registry) (target : TypeKey) :
    r.bare.factoryFor? target = r.factoryFor? target := by
  rw [factoryFor?, factoryFor?, directFor_bare, List.isEmpty_map]
  rfl

theorem own_bare (r : Registry) (id : Nat) (target : TypeKey) :
    r.bare.own 0 target = (r.own id target).map ConverterHandle.unnumbered := by
  rw [own, own, directFor_bare, factoryFor?_bare, List.map_append]
  cases r.factoryFor? target <;> rfl

theorem inherited_bare (r : Registry) (target : TypeKey) :
    r.bare.inherited target = (r.inherited target).map fun p => (p.1.unnumbered, p.2) := by
  rw [inherited, inherited, bare, List.filterMap_map, List.map_filterMap]
  refine List.filterMap_congr fun e _ => ?_
  rw [Option.map_map]
  rfl

theorem overSuperclass_bare (r : Registry) (target : TypeKey) :
    r.bare.overSuperclass target =
      (r.overSuperclass target).map fun p => (p.1.unnumbered, p.2) := by
  rw [overSuperclass, overSuperclass, inherited_bare, List.filter_map]
  rfl

theorem near_bare (r : Registry) (target : TypeKey) :
    r.bare.near target = (r.near target).map fun p => (p.1.unnumbered, p.2) := by
  rw [near, near, overSuperclass_bare, List.filter_map]
  simp only [List.all_map]
  rfl

theorem ranked_bare (r : Registry) (target : TypeKey) :
    r.bare.ranked target = (r.ranked target).map fun p => (p.1.unnumbered, p.2) := by
  rw [ranked, ranked, overInterface, overInterface, inherited_bare, List.filter_map,
    Ranking.ascending_map]
  rfl

theorem listing_bare (r : Registry) (id : Nat) (target : TypeKey) :
    r.bare.listing 0 target = (r.listing id target).map ConverterHandle.unnumbered := by
  rw [listing, listing, r.own_bare id, near_bare, ranked_bare]
  simp only [List.map_append, List.map_map]
  rfl

/-! ## Entries -/

theorem bare_enter (r : Registry) (e : RegistryEntry) : (r.enter e).bare = (r.bare.enter e).bare := by
  cases e with
  | converter target name convert =>
    simp only [enter, register, bare, List.map_append, List.map_map]
    rfl
  | declaration d =>
    simp only [enter, declare, bare, List.map_map]
    rfl

theorem bare_entries (same : r.bare = r'.bare) (es : List RegistryEntry) :
    (es.foldl enter r).bare = (es.foldl enter r').bare := by
  induction es generalizing r r' with
  | nil => exact same
  | cons e es ih => exact ih (by rw [bare_enter, same, ← bare_enter])

theorem bare_perform (r : Registry) (call : Call) :
    (r.perform call).2.bare = ((r.entered call).foldl enter r).bare := by
  have query (target : TypeKey) : (r.converters target).2.bare = r.bare := by
    obtain ⟨cache, nextId, snd⟩ := r.converters_snd target
    rw [snd]
    rfl
  cases call with
  | register | declare | clearCache => rfl
  | discover =>
    rw [perform, discover_eq]
    exact bare_entries (by rfl) _
  | converters target => exact query target
  | supports target => exact query target

/-! ## Calls -/

def Call.enters : Call → Bool
  | register .. | declare _ | discover => true
  | clearCache | converters _ | supports _ => false

/-- Two registries that know the same. -/
structure Alike (r r' : Registry) : Prop where
  bare : r.bare = r'.bare
  applied : r.applied = r'.applied

namespace Alike

theorem refl (r : Registry) : Alike r r := ⟨rfl, rfl⟩

theorem symm (h : Alike r r') : Alike r' r := ⟨h.bare.symm, h.applied.symm⟩

theorem trans {r'' : Registry} (h : Alike r r') (h' : Alike r' r'') : Alike r r'' :=
  ⟨h.bare.trans h'.bare, h.applied.trans h'.applied⟩

theorem catalogue (h : Alike r r') : r.catalogue = r'.catalogue := congrArg (·.catalogue) h.bare

theorem undiscovered (h : Alike r r') : r.undiscovered = r'.undiscovered := by
  rw [Registry.undiscovered, Registry.undiscovered, h.catalogue, h.applied]

theorem entered (h : Alike r r') (call : Call) : r.entered call = r'.entered call := by
  cases call with
  | discover => exact h.undiscovered
  | _ => rfl

theorem listing (h : Alike r r') (id id' : Nat) (target : TypeKey) :
    (r.listing id target).map ConverterHandle.unnumbered =
      (r'.listing id' target).map ConverterHandle.unnumbered := by
  rw [← listing_bare, h.bare, listing_bare]

end Alike

theorem applied_entries (es : List RegistryEntry) (r : Registry) :
    (es.foldl enter r).applied = r.applied := by
  refine entries_keep (P := fun r' => r'.applied = r.applied) (fun r' e same => ?_) rfl es
  cases e <;> exact same

theorem applied_perform (r : Registry) (call : Call) :
    (r.perform call).2.applied = match call with
      | .discover => r.takenOver
      | _ => r.applied := by
  cases call with
  | register | declare | clearCache => rfl
  | discover => rw [perform, discover_eq, applied_entries]
  | converters target | supports target =>
    obtain ⟨cache, nextId, snd⟩ := r.converters_snd target
    have same := congrArg Registry.applied snd
    exact same

namespace Alike

theorem perform (h : Alike r r') (call : Call) : Alike (r.perform call).2 (r'.perform call).2 where
  bare := by
    rw [bare_perform, bare_perform, h.entered call]
    exact bare_entries h.bare _
  applied := by
    rw [applied_perform, applied_perform]
    cases call with
    | discover => simp only [takenOver, h.catalogue, h.applied]
    | _ => exact h.applied

/-- A query changes nothing that is known. -/
theorem query (r : Registry) {call : Call} (other : call.enters = false) :
    Alike (r.perform call).2 r where
  bare := by
    rw [bare_perform]
    cases call with
    | register | declare | discover => exact nomatch other
    | _ => rfl
  applied := by
    rw [applied_perform]
    cases call with
    | discover => exact nomatch other
    | _ => rfl

theorem after (h : Alike r r') (calls : List Call) :
    Alike (r.after calls) (r'.after (calls.filter Call.enters)) := by
  induction calls generalizing r r' with
  | nil => exact h
  | cons call rest ih =>
    -- A call that enters something is on both sides; a query is on one and changes nothing known.
    cases kind : call.enters with
    | true =>
      rw [List.filter_cons_of_pos kind]
      exact ih (h.perform call)
    | false =>
      rw [List.filter_cons_of_neg (by simp [kind])]
      exact ih ((query r kind).trans h)

theorem answers (h : Alike r r') (s : Sound r) (s' : Sound r') (target : TypeKey) :
    (r.converters target).1.map ConverterHandle.unnumbered =
      (r'.converters target).1.map ConverterHandle.unnumbered := by
  obtain ⟨id, -, answer⟩ := s.answer target
  obtain ⟨id', -, answer'⟩ := s'.answer target
  rw [answer, answer', h.listing id id']

/-- **Registries that know the same answer alike.** -/
theorem answer (h : Alike r r') (s : Sound r) (s' : Sound r') (call : Call) :
    (r.perform call).1.unnumbered = (r'.perform call).1.unnumbered := by
  cases call with
  | register | declare | clearCache => rfl
  | discover =>
    have counts : r.discover.1 = r'.discover.1 := by
      simp only [discover, h.catalogue, h.applied]
    exact congrArg Answer.discovered counts
  | converters target => exact congrArg Answer.listed (h.answers s s' target)
  | supports target =>
    have none := congrArg List.isEmpty (h.answers s s' target)
    rw [List.isEmpty_map, List.isEmpty_map] at none
    simp only [Registry.perform, supports_eq, none, Answer.unnumbered]

end Alike

/-- **Registries know the same if the same calls have entered something.** -/
theorem alike_after (r : Registry) {calls calls' : List Call}
    (same : calls'.filter Call.enters = calls.filter Call.enters) :
    Alike (r.after calls') (r.after calls) := by
  have left := (Alike.refl r).after calls'
  have right := (Alike.refl r).after calls
  rw [same] at left
  exact left.trans right.symm

/-! ## A registry that has not been asked anything -/

def enteredBy (r : Registry) : List Call → List RegistryEntry
  | [] => []
  | call :: rest => r.entered call ++ (r.perform call).2.enteredBy rest

def ofEntries (catalogue : Catalogue) (entries : List RegistryEntry) : Registry :=
  entries.foldl enter (empty catalogue)

theorem ofEntries_registrations (catalogue : Catalogue) (entries : List RegistryEntry) :
    (ofEntries catalogue entries).registrations.map Registration.unnumbered =
      entries.filterMap RegistryEntry.registration? := by
  -- Entered into any registry, so that the induction can go by the next entry.
  have onto : ∀ (es : List RegistryEntry) (r : Registry),
      (es.foldl enter r).registrations.map Registration.unnumbered =
        r.registrations.map Registration.unnumbered ++
          es.filterMap RegistryEntry.registration? := by
    intro es
    induction es with
    | nil => exact fun r => (List.append_nil _).symm
    | cons e es ih =>
      intro r
      rw [List.foldl_cons, ih]
      cases e with
      | converter target name convert =>
        rw [enter, register, List.map_append, List.append_assoc]
        rfl
      | declaration d => rfl
  exact onto entries _

/-- Of several declarations for a type the last one counts. -/
theorem ofEntries_find? (catalogue : Catalogue) (entries : List RegistryEntry) (type : TypeKey) :
    (ofEntries catalogue entries).hierarchy.find? type =
      (entries.filterMap RegistryEntry.declaration?).reverse.find? fun d => d.type == type := by
  -- Entered into any registry: later declarations come first, and then those that it had.
  have onto : ∀ (es : List RegistryEntry) (r : Registry),
      (es.foldl enter r).hierarchy.find? type =
        ((es.filterMap RegistryEntry.declaration?).reverse.find? fun d => d.type == type).or
          (r.hierarchy.find? type) := by
    intro es
    induction es with
    | nil => exact fun _ => rfl
    | cons e es ih =>
      intro r
      rw [List.foldl_cons, ih]
      cases e with
      | converter target name convert => rfl
      | declaration d =>
        have heads : RegistryEntry.declaration? (.declaration d) = some d := rfl
        rw [List.filterMap_cons_some heads, List.reverse_cons, List.find?_append, Option.or_assoc,
          enter, declare, Hierarchy.find?_declare]
        by_cases same : d.type = type <;> simp [same]
  rw [ofEntries, onto]
  exact Option.or_none

/-- What is known after any calls is what they have entered, in order. -/
theorem bare_after (same : r.bare = r'.bare) (calls : List Call) :
    (r.after calls).bare = ((r.enteredBy calls).foldl enter r').bare := by
  induction calls generalizing r r' with
  | nil => exact same
  | cons call rest ih =>
    rw [enteredBy, List.foldl_append]
    exact ih ((bare_perform r call).trans (bare_entries same _))

theorem sound_ofEntries (catalogue : Catalogue) (entries : List RegistryEntry) :
    Sound (ofEntries catalogue entries) :=
  entries_keep (fun _ e s => s.enter e) (Sound.empty catalogue) entries

/-- What is answered after any calls is what is worked out from the entries. -/
theorem answer_eq_compute (catalogue : Catalogue) (calls : List Call) (target : TypeKey) :
    ((((empty catalogue).after calls).converters target).1).map ConverterHandle.unnumbered =
      ((ofEntries catalogue ((empty catalogue).enteredBy calls)).compute target).map
        ConverterHandle.unnumbered := by
  obtain ⟨id, -, answer⟩ := (sound_after catalogue calls).answer target
  have s := sound_ofEntries catalogue ((empty catalogue).enteredBy calls)
  -- The ids may differ, since queries have drawn some; without them both lists are the same.
  rw [answer, compute_eq_listing s.numbered s.unused, ← listing_bare, ← listing_bare,
    bare_after (by rfl) calls]
  rfl

end Registry

end LayeredConfig
