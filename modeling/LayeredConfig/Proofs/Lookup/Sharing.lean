import LayeredConfig.Proofs.Convert.Numbering
import LayeredConfig.Proofs.Discovery
import LayeredConfig.Proofs.Lookup.Rebuilding
import LayeredConfig.Sample.Catalogue
import LayeredConfig.Source.Any

/-!
# One registry for several contexts

A registry may be handed to any number of builders, and the builder of a context has that context's
registry. Each build may let the registry discover converters, and so may the program itself,
between registrations, declarations and queries. **Whatever the order, the bundles come in once, at
the first discovery** (`Registry.discovered_once`); every later one finds nothing and leaves the
registry as it is.

All that a build does to the registry is to discover or not (`Registry.use_eq`), so that a program
that shares a registry is a list of calls. Before the first discovery no bundle has been applied,
and after it the name of every bundle has (`Registry.Complete`), which no call undoes.

What a registry holds is told by a list of entries (`Registry.Holds`), and the list by the calls:
what each enters of its own, with the bundles at the place of the first discovery
(`Registry.enteredBy_first_discovery`). Answers are compared besides their ids, since queries draw
some; that a later discovery changes not even these follows from its leaving the registry as it is.
-/

set_option autoImplicit false

namespace LayeredConfig

/-- The bundles that a registry takes over when it discovers for the first time. -/
def Catalogue.bundles (catalogue : Catalogue) : List ConverterPlugin :=
  (Discovery.pending ConverterPlugin.name catalogue.plugins []).1

/-- If the bundles have different names, they are all taken over. -/
theorem Catalogue.bundles_eq {catalogue : Catalogue}
    (different : (catalogue.plugins.map ConverterPlugin.name).Nodup) :
    catalogue.bundles = catalogue.plugins :=
  Discovery.pending_of_new different fun _ _ => List.not_mem_nil

theorem Catalogue.bundles_nodup (catalogue : Catalogue) :
    (catalogue.bundles.map ConverterPlugin.name).Nodup := by
  have names := Discovery.pending_snd ConverterPlugin.name catalogue.plugins []
  rw [List.nil_append] at names
  rw [bundles, ← names]
  exact Discovery.nodup_pending_snd List.nodup_nil

namespace Registry

/-! ## What is entered by hand -/

/-- What a call enters of its own, without the bundles. -/
def Call.own : Call → List RegistryEntry
  | register target name convert => [.converter target name convert]
  | declare d => [.declaration d]
  | _ => []

def Call.discovers : Call → Bool
  | discover => true
  | _ => false

variable {r : Registry} {catalogue : Catalogue} {calls : List Call} {call : Call}

theorem enteredBy_append (r : Registry) (calls calls' : List Call) :
    r.enteredBy (calls ++ calls') = r.enteredBy calls ++ (r.after calls).enteredBy calls' := by
  induction calls generalizing r with
  | nil => rfl
  | cons call rest ih =>
    rw [List.cons_append, enteredBy, enteredBy, ih, List.append_assoc]
    rfl

theorem entered_of_not_discovers (other : call.discovers = false) : r.entered call = call.own := by
  cases call with
  | discover => exact nomatch other
  | _ => rfl

theorem applied_of_not_discovers (other : call.discovers = false) :
    (r.perform call).2.applied = r.applied := by
  rw [applied_perform]
  cases call with
  | discover => exact nomatch other
  | _ => rfl

/-- Calls without a discovery enter what they hold themselves. -/
theorem enteredBy_of_not_discovers (others : ∀ call ∈ calls, call.discovers = false) :
    r.enteredBy calls = calls.flatMap Call.own ∧ (r.after calls).applied = r.applied := by
  induction calls generalizing r with
  | nil => exact ⟨rfl, rfl⟩
  | cons call rest ih =>
    obtain ⟨here, below⟩ := List.forall_mem_cons.mp others
    obtain ⟨entries, applied⟩ := ih (r := (r.perform call).2) below
    rw [enteredBy, entries, entered_of_not_discovers here, List.flatMap_cons]
    exact ⟨rfl, applied.trans (applied_of_not_discovers here)⟩

/-! ## After the first discovery -/

/-- The name of every bundle has been applied. -/
def Complete (r : Registry) : Prop := ∀ p ∈ r.catalogue.plugins, p.name ∈ r.applied

/-- Nothing is left to be discovered, and nothing is changed by the attempt. -/
theorem Complete.discover (complete : r.Complete) : r.discover = (0, r) := by
  rw [Registry.discover, Discovery.pending_of_known complete]
  rfl

theorem Complete.perform (complete : r.Complete) (call : Call) : (r.perform call).2.Complete := by
  have same : (r.perform call).2.catalogue = r.catalogue := catalogue_after r [call]
  -- A discovery finds nothing to take over; no other call touches the names.
  cases call with
  | discover =>
    rw [Registry.perform, complete.discover]
    exact complete
  | _ => rwa [Complete, same, applied_of_not_discovers rfl]

theorem complete_discover (r : Registry) : r.discover.2.Complete := by
  have same : r.discover.2.catalogue = r.catalogue := catalogue_after r [.discover]
  have applied : r.discover.2.applied = r.takenOver := applied_perform r .discover
  intro p mem
  rw [applied]
  exact Discovery.mem_pending_snd.mpr (.inr (List.mem_map_of_mem (same ▸ mem)))

theorem Complete.entered (complete : r.Complete) (call : Call) : r.entered call = call.own := by
  cases call with
  | discover =>
    rw [Registry.entered, undiscovered, Discovery.pending_of_known complete]
    rfl
  | _ => rfl

theorem Complete.enteredBy (complete : r.Complete) (calls : List Call) :
    r.enteredBy calls = calls.flatMap Call.own ∧ (r.after calls).Complete := by
  induction calls generalizing r with
  | nil => exact ⟨rfl, complete⟩
  | cons call rest ih =>
    obtain ⟨entries, kept⟩ := ih (complete.perform call)
    rw [Registry.enteredBy, entries, complete.entered call, List.flatMap_cons]
    exact ⟨rfl, kept⟩

/-- Before the first discovery the bundles of the catalogue are pending. -/
theorem pending_after (others : ∀ call ∈ calls, call.discovers = false) :
    Discovery.pending ConverterPlugin.name ((empty catalogue).after calls).catalogue.plugins
      ((empty catalogue).after calls).applied =
        Discovery.pending ConverterPlugin.name catalogue.plugins [] := by
  rw [catalogue_after, (enteredBy_of_not_discovers others).2]
  rfl

/-- The bundles come in where the first discovery is made. -/
theorem enteredBy_first_discovery (others : ∀ call ∈ calls, call.discovers = false)
    (rest : List Call) :
    (empty catalogue).enteredBy (calls ++ .discover :: rest) = calls.flatMap Call.own ++
      (catalogue.bundles.flatMap ConverterPlugin.entries ++ rest.flatMap Call.own) := by
  have bundled : ((empty catalogue).after calls).entered .discover =
      catalogue.bundles.flatMap ConverterPlugin.entries :=
    congrArg (fun p => p.1.flatMap ConverterPlugin.entries) (pending_after others)
  have later := ((complete_discover ((empty catalogue).after calls)).enteredBy rest).1
  rw [enteredBy_append, (enteredBy_of_not_discovers others).1, Registry.enteredBy, bundled]
  exact congrArg (fun entries => _ ++ (_ ++ entries)) later

/-! ## What a registry holds -/

/-- A registry is what becomes of the entries: the registrations are theirs, the last declaration
    for each type counts, and the answers are, besides the ids, what is worked out from them. -/
structure Holds (r : Registry) (entries : List RegistryEntry) : Prop where
  registrations : r.registrations.map Registration.unnumbered =
    entries.filterMap RegistryEntry.registration?
  declarations : ∀ type, r.hierarchy.find? type =
    (entries.filterMap RegistryEntry.declaration?).reverse.find? fun d => d.type == type
  answers : ∀ target, (r.converters target).1.map ConverterHandle.unnumbered =
    ((ofEntries r.catalogue entries).compute target).map ConverterHandle.unnumbered

theorem holds_after (catalogue : Catalogue) (calls : List Call) :
    ((empty catalogue).after calls).Holds ((empty catalogue).enteredBy calls) := by
  have bare := bare_after (r := empty catalogue) rfl calls
  refine ⟨?_, fun type => ?_, fun target => ?_⟩
  · exact (congrArg Registry.registrations bare).trans (ofEntries_registrations catalogue _)
  · rw [← ofEntries_find? catalogue]
    exact congrArg (fun r => r.hierarchy.find? type) bare
  · rw [catalogue_after]
    exact answer_eq_compute catalogue calls target

end Registry

/-! ## Builds -/

/-- What a program does with a registry that it shares: a call; a build by a builder that is given
    the registry; or a build by the builder of a context that has it, after some edits. -/
inductive Use (σ : Type)
  | call (call : Registry.Call)
  | build (b : ContextBuilder σ)
  | rebuild (c : Context σ) (edits : List (Edit σ)) (discovers : Bool)

namespace Use

variable {σ : Type}

/-- What is entered without the bundles. -/
def own : Use σ → List RegistryEntry
  | .call c => c.own
  | _ => []

def discovers : Use σ → Bool
  | .call c => c.discovers
  | .build b => b.discovers
  | .rebuild _ _ discovers => discovers

/-- The calls that a use makes. -/
def calls : Use σ → List Registry.Call
  | .call c => [c]
  | .build b => if b.discovers then [.discover] else []
  | .rebuild _ _ discovers => if discovers then [.discover] else []

variable {u : Use σ}

theorem calls_of_discovers (discovers : u.discovers = true) : u.calls = [.discover] := by
  cases u with
  | call c =>
    cases c with
    | discover => rfl
    | _ => exact nomatch discovers
  | build b => exact if_pos discovers
  | rebuild c edits loads => exact if_pos discovers

theorem not_discovers_of_mem_calls (other : u.discovers = false) :
    ∀ call ∈ u.calls, call.discovers = false := by
  have loads : ¬u.discovers = true := by simp [other]
  cases u with
  | call c => exact List.forall_mem_singleton.mpr other
  | build b =>
    have none : (Use.build b).calls = [] := if_neg loads
    exact none ▸ List.forall_mem_nil _
  | rebuild c edits discovers =>
    have none : (Use.rebuild c edits discovers).calls = [] := if_neg loads
    exact none ▸ List.forall_mem_nil _

theorem flatMap_own_calls (uses : List (Use σ)) :
    (uses.flatMap calls).flatMap Registry.Call.own = uses.flatMap own := by
  have single (u : Use σ) : u.calls.flatMap Registry.Call.own = u.own := by
    cases u with
    | call c => exact List.flatMap_singleton ..
    | build b =>
      rw [calls]
      cases b.discovers <;> rfl
    | rebuild c edits discovers => cases discovers <;> rfl
  rw [List.flatMap_assoc]
  exact congrArg (uses.flatMap ·) (funext single)

end Use

namespace Registry

variable {σ : Type} [Source σ] {catalogue : Catalogue} {r : Registry}

/-- The registry after a use; a context that is built has it as it is then. -/
def use (r : Registry) : Use σ → Registry
  | .call call => (r.perform call).2
  | .build b => (b.withConverters r).build.converters
  | .rebuild c edits discovers =>
    ((({ c with converters := r } : Context σ).toBuilder.edited edits).withDiscovery
      discovers).build.converters

def usedBy (r : Registry) (uses : List (Use σ)) : Registry := uses.foldl use r

/-- A build discovers or does nothing to the registry. -/
theorem use_eq (r : Registry) (u : Use σ) : r.use u = r.after u.calls := by
  cases u with
  | call call => rfl
  | build b =>
    -- A build ranks sources and hands the registry on, after a discovery if it is set to make one.
    obtain ⟨sources, filters, policy, converters, discovers⟩ := b
    cases discovers <;> rfl
  | rebuild c edits discovers =>
    have shared := (ContextBuilder.edited_frame
      ({ c with converters := r } : Context σ).toBuilder edits).2
    simp only [use, ContextBuilder.build, ContextBuilder.withDiscovery, shared, Use.calls]
    cases discovers <;> rfl

theorem usedBy_eq (r : Registry) (uses : List (Use σ)) :
    r.usedBy uses = r.after (uses.flatMap Use.calls) := by
  induction uses generalizing r with
  | nil => rfl
  | cons u rest ih =>
    rw [List.flatMap_cons, after, List.foldl_append]
    exact (ih (r.use u)).trans (congrArg (fun r => Registry.after r _) (use_eq r u))

/-! ## Once and for all -/

/-- **The bundles come in once.** Take a registry that is shared by contexts, from its beginning to
    the first discovery.

    * Up to then it holds what was registered and declared by hand, and the discovery counts all
      bundles, or of several bundles with one name the first.
    * After the first discovery, whether it is made by the program or by the build of a context, and
      after any uses that follow, it holds the bundles where that discovery was made, among what is
      registered and declared by hand before and after it.
    * Any further discovery counts nothing and leaves the registry as it is. So it changes no list
      of converters for any type, not even the ids in it. -/
theorem discovered_once (catalogue : Catalogue) (before : List (Use σ))
    (undiscovered : ∀ u ∈ before, u.discovers = false) :
    let r := (empty catalogue).usedBy before
    let bundles := catalogue.bundles
    r.Holds (before.flatMap Use.own) ∧
    r.discover.1 = bundles.length ∧
    ((bundles.map ConverterPlugin.name).Nodup ∧ ∀ name,
      bundles.find? (fun p => p.name == name) = catalogue.plugins.find? fun p => p.name == name) ∧
    ((catalogue.plugins.map ConverterPlugin.name).Nodup → bundles = catalogue.plugins) ∧
    ∀ first : Use σ, first.discovers = true → ∀ rest : List (Use σ),
      let r' := r.usedBy (first :: rest)
      r'.Holds (before.flatMap Use.own ++ bundles.flatMap ConverterPlugin.entries ++
        rest.flatMap Use.own) ∧
      r'.discover.1 = 0 ∧ ∀ later : Use σ, later.discovers = true → r'.use later = r' := by
  intro r bundles
  -- Up to the first discovery the uses are calls of which none discovers.
  let calls := before.flatMap Use.calls
  have others : ∀ call ∈ calls, call.discovers = false := by
    intro call mem
    obtain ⟨u, used, called⟩ := List.mem_flatMap.mp mem
    exact Use.not_discovers_of_mem_calls (undiscovered u used) call called
  have called : r = (empty catalogue).after calls := usedBy_eq _ before
  have pending := called ▸ pending_after others
  refine ⟨?own, ?count, ⟨catalogue.bundles_nodup, fun name => ?names⟩, Catalogue.bundles_eq, ?first⟩
  case own =>
    have held := holds_after catalogue calls
    rwa [(enteredBy_of_not_discovers others).1, Use.flatMap_own_calls, ← called] at held
  case count => exact congrArg (fun p => p.1.length) pending
  case names => exact Discovery.find?_pending List.not_mem_nil
  case first =>
    intro first discovers rest r'
    let others' := rest.flatMap Use.calls
    have called' : r' = r.discover.2.after others' := by
      refine (usedBy_eq r (first :: rest)).trans ?_
      rw [List.flatMap_cons, Use.calls_of_discovers discovers]
      rfl
    -- From that discovery on every bundle is known, whoever made it and whatever came after.
    have complete : r'.Complete := called' ▸ ((complete_discover r).enteredBy others').2
    refine ⟨?_, congrArg Prod.fst complete.discover, fun later again => ?_⟩
    · have held := holds_after catalogue (calls ++ .discover :: others')
      have whole : (empty catalogue).after (calls ++ .discover :: others') = r' := by
        rw [after, List.foldl_append, called', called]
        rfl
      rwa [whole, enteredBy_first_discovery others, Use.flatMap_own_calls, Use.flatMap_own_calls,
        ← List.append_assoc] at held
    · rw [use_eq, Use.calls_of_discovers again]
      exact congrArg Prod.snd complete.discover

/-- Two builds without and with discovery, one by a builder that is given the registry and one by
    the builder of a context, and the sample bundles. -/
theorem discovered_once_sample :
    let catalogue := Sample.catalogue "sample" ""
    let before : List (Use AnySource) := [
      .call (.register (Sample.type "" "PlugC") "own" (Traced.converter _ "own" [] "" .all)),
      .build ((ContextBuilder.start catalogue).withDiscovery false)]
    let first : Use AnySource := .build (ContextBuilder.start catalogue)
    let rest : List (Use AnySource) := [.call (.supports (Sample.type "" "PlugA")),
      .rebuild ⟨[], [], .overriding, empty catalogue⟩ [.leaveOut "none"] true]
    let r := (empty catalogue).usedBy before
    let r' := r.usedBy (first :: rest)
    r.discover.1 = 2 ∧ catalogue.bundles = catalogue.plugins ∧ r'.discover.1 = 0 ∧
      r'.use (.call .discover : Use AnySource) = r' ∧
      (r'.converters (Sample.type "" "PlugA")).1.map ConverterHandle.name = ["own", "plug-c"] := by
  intro catalogue before first rest r r'
  have undiscovered : ∀ u ∈ before, u.discovers = false := by
    intro u mem
    rcases List.mem_pair.mp mem with rfl | rfl
    · rfl
    · rfl
  obtain ⟨-, count, -, different, later⟩ := discovered_once catalogue before undiscovered
  have all := different (by decide +kernel)
  obtain ⟨-, none, unchanged⟩ := later first rfl rest
  refine ⟨?_, all, none, unchanged _ rfl, by decide +kernel⟩
  rw [count, all]
  rfl

end Registry

end LayeredConfig
