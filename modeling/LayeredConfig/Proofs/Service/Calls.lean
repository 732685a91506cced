import LayeredConfig.Proofs.Discovery
import LayeredConfig.Proofs.Ranking
import LayeredConfig.Service.Registry

/-!
# Services in use

The services of a program answer one call after another: registrations, bundles of registrations,
and queries. Two things are known of them after any calls. What is registered is what the calls have
offered, each bundle where its name came first (`ServiceContext.after_entries`). **And what is kept
of earlier answers is what would be worked out anew** (`ServiceContext.sound_after`): a registration
drops the answers for its capability, and leaves every other ranking as it was.

What is offered is written down without looking at any state (`ServiceContext.offers`,
`ServiceContext.given`): a bundle counts where its name comes for the first time. Names of bundles
are compared as a set here, although services keep them as a list, because the order in which they
were applied decides nothing (`ServiceContext.given_congr`).
-/

set_option autoImplicit false

namespace LayeredConfig

namespace ServiceContext

variable {σ : Type} {c : ServiceContext σ} {capability : TypeKey}

/-! ## Calls and what they offer -/

/-- Everything that can be asked of the services. To register without a priority is to register with
    the default one. -/
inductive Call (σ : Type)
  | register (e : ServiceEntry σ)
  | bootstrap (plugins : List (ServicePlugin σ))
  | services (capability : TypeKey)
  | service (capability : TypeKey)

def perform (c : ServiceContext σ) : Call σ → ServiceContext σ
  | .register e => c.register e
  | .bootstrap plugins => (c.bootstrap plugins).2
  | .services capability => (c.services capability).2
  | .service capability => (c.service capability).2

def after (c : ServiceContext σ) (calls : List (Call σ)) : ServiceContext σ := calls.foldl perform c

/-- A registration by itself, or a bundle of them. -/
inductive Offer (σ : Type)
  | entry (e : ServiceEntry σ)
  | bundle (p : ServicePlugin σ)

def Offer.bundleName? : Offer σ → Option String
  | entry _ => none
  | bundle p => some p.name

def Call.offers : Call σ → List (Offer σ)
  | register e => [.entry e]
  | bootstrap plugins => plugins.map .bundle
  | services _ => []
  | service _ => []

/-- The bundles that a call asks to apply. -/
def Call.plugins : Call σ → List (ServicePlugin σ)
  | bootstrap plugins => plugins
  | _ => []

/-- Everything that calls offer, in order. -/
def offers (calls : List (Call σ)) : List (Offer σ) := calls.flatMap Call.offers

def bundleNames (os : List (Offer σ)) : List String := os.filterMap Offer.bundleName?

/-- What offers register, in order, if bundles of the given names have been offered before: each
    single entry, and the entries of each bundle whose name has not been offered before. -/
def given (names : List String) : List (Offer σ) → List (ServiceEntry σ)
  | [] => []
  | .entry e :: rest => e :: given names rest
  | .bundle p :: rest =>
    (if p.name ∈ names then [] else p.entries) ++ given (p.name :: names) rest

/-- The registrations that calls make on services without any. -/
def registrations (calls : List (Call σ)) : List (ServiceEntry σ) := given [] (offers calls)

/-- The registrations that calls make for a capability. -/
def registeredFor (calls : List (Call σ)) (capability : TypeKey) : List (ServiceEntry σ) :=
  (registrations calls).filter fun e => e.capability == capability

variable {names names' : List String} {os os' : List (Offer σ)} {calls : List (Call σ)}

theorem mem_cons_known {name : String} (known : name ∈ names) (n : String) :
    n ∈ name :: names ↔ n ∈ names := by
  rw [List.mem_cons, or_iff_right_of_imp]
  rintro rfl
  exact known

theorem given_congr (same : ∀ n, n ∈ names ↔ n ∈ names') : given names os = given names' os := by
  induction os generalizing names names' with
  | nil => rfl
  | cons o rest ih =>
    cases o with
    | entry e => rw [given, given, ih same]
    | bundle p =>
      have more : ∀ n, n ∈ p.name :: names ↔ n ∈ p.name :: names' := by
        intro n
        rw [List.mem_cons, List.mem_cons, same]
      rw [given, given, ih more, if_congr (same p.name) rfl rfl]

theorem given_append :
    given names (os ++ os') = given names os ++ given (bundleNames os ++ names) os' := by
  induction os generalizing names with
  | nil => rfl
  | cons o rest ih =>
    cases o with
    | entry e =>
      rw [List.cons_append, given, given, ih, List.cons_append]
      rfl
    | bundle p =>
      -- The name of a bundle is put in front where it is given, and stands among the others where
      -- it is counted.
      have moved : ∀ n, n ∈ bundleNames rest ++ p.name :: names ↔
          n ∈ bundleNames (.bundle p :: rest) ++ names := by
        intro n
        have head : bundleNames (.bundle p :: rest) = p.name :: bundleNames rest := rfl
        simp only [head, List.mem_append, List.mem_cons]
        exact or_left_comm.trans or_assoc.symm
      rw [List.cons_append, given, given, ih, given_congr moved, List.append_assoc]

/-- Only a call that applies bundles names any, and it names all of them, new or not. -/
theorem bundleNames_offers (call : Call σ) :
    bundleNames call.offers = call.plugins.map ServicePlugin.name := by
  cases call with
  | bootstrap plugins =>
    rw [bundleNames, Call.offers, List.filterMap_map]
    exact congrFun List.filterMap_eq_map plugins
  | register | services | service => rfl

theorem bundleNames_append : bundleNames (os ++ os') = bundleNames os ++ bundleNames os' :=
  List.filterMap_append

/-- Bundles that are known register nothing and add no name. -/
theorem given_known {ps : List (ServicePlugin σ)} (known : ∀ p ∈ ps, p.name ∈ names) :
    given names (ps.map .bundle ++ os) = given names os := by
  induction ps with
  | nil => rfl
  | cons p rest ih =>
    have mem := known p List.mem_cons_self
    rw [List.map_cons, List.cons_append, given, if_pos mem, given_congr (mem_cons_known mem),
      List.nil_append, ih fun q later => known q (List.mem_cons_of_mem p later)]

theorem flatMap_pending (ps : List (ServicePlugin σ)) (applied : List String) :
    (Discovery.pending ServicePlugin.name ps applied).1.flatMap ServicePlugin.entries =
      given applied (ps.map .bundle) := by
  induction ps generalizing applied with
  | nil => rfl
  | cons p rest ih =>
    rw [Discovery.pending, List.map_cons, given]
    by_cases known : p.name ∈ applied
    · rw [if_pos (List.contains_iff_mem.mpr known), if_pos known,
        given_congr (mem_cons_known known), ih]
      rfl
    -- Names that were applied are kept with the newest last, and here they are with the newest
    -- first.
    · have same : ∀ n, n ∈ p.name :: applied ↔ n ∈ applied ++ [p.name] := by
        intro n
        rw [List.mem_cons, List.mem_append, List.mem_singleton, or_comm]
      rw [if_neg (mt List.contains_iff_mem.mp known), if_neg known, given_congr same, ← ih]
      rfl

/-! ## What is registered -/

theorem foldl_register_entries (es : List (ServiceEntry σ)) (c : ServiceContext σ) :
    (es.foldl register c).entries = c.entries ++ es ∧
    (es.foldl register c).applied = c.applied := by
  induction es generalizing c with
  | nil => exact ⟨(List.append_nil _).symm, rfl⟩
  | cons e rest ih =>
    obtain ⟨entries, applied⟩ := ih (c.register e)
    exact ⟨entries.trans (List.append_assoc c.entries [e] rest), applied⟩

/-- A bundle after the other, or all their entries in a row: it is the same. -/
theorem bootstrap_snd (c : ServiceContext σ) (plugins : List (ServicePlugin σ)) :
    (c.bootstrap plugins).2 =
      (given c.applied (plugins.map .bundle)).foldl register
        { c with applied := (Discovery.pending ServicePlugin.name plugins c.applied).2 } := by
  rw [← flatMap_pending, List.foldl_flatMap]
  rfl

/-- A query adds to what is kept, and to nothing else. -/
theorem services_snd (c : ServiceContext σ) (capability : TypeKey) :
    ∃ ranked, (c.services capability).2 = { c with ranked := ranked } := by
  unfold services
  split
  · exact ⟨c.ranked, rfl⟩
  · exact ⟨_, rfl⟩

theorem service_snd (c : ServiceContext σ) (capability : TypeKey) :
    ∃ singletons, (c.service capability).2 = { c with singletons := singletons } := by
  unfold service
  split
  · exact ⟨c.singletons, rfl⟩
  · split
    · exact ⟨_, rfl⟩
    · exact ⟨c.singletons, rfl⟩

theorem perform_entries (c : ServiceContext σ) (call : Call σ) :
    (c.perform call).entries = c.entries ++ given c.applied call.offers := by
  cases call with
  | register e => rfl
  | bootstrap plugins =>
    rw [perform, bootstrap_snd]
    exact (foldl_register_entries _ _).1
  | services capability =>
    obtain ⟨ranked, snd⟩ := c.services_snd capability
    rw [perform, snd]
    exact (List.append_nil _).symm
  | service capability =>
    obtain ⟨singletons, snd⟩ := c.service_snd capability
    rw [perform, snd]
    exact (List.append_nil _).symm

theorem perform_applied (c : ServiceContext σ) (call : Call σ) :
    (c.perform call).applied =
      (Discovery.pending ServicePlugin.name call.plugins c.applied).2 := by
  cases call with
  | register e => rfl
  | bootstrap plugins =>
    rw [perform, bootstrap_snd]
    exact (foldl_register_entries _ _).2
  | services capability =>
    obtain ⟨ranked, snd⟩ := c.services_snd capability
    rw [perform, snd]
    rfl
  | service capability =>
    obtain ⟨singletons, snd⟩ := c.service_snd capability
    rw [perform, snd]
    rfl

theorem mem_perform_applied {call : Call σ} {n : String} :
    n ∈ (c.perform call).applied ↔ n ∈ c.applied ∨ n ∈ bundleNames call.offers := by
  rw [perform_applied, Discovery.mem_pending_snd, bundleNames_offers]

theorem offers_cons (call : Call σ) (calls : List (Call σ)) :
    offers (call :: calls) = call.offers ++ offers calls := rfl

theorem offers_append (calls calls' : List (Call σ)) :
    offers (calls ++ calls') = offers calls ++ offers calls' := List.flatMap_append

/-- **After any calls that is registered, besides what was, what the calls have offered.** -/
theorem after_entries (c : ServiceContext σ) (calls : List (Call σ)) :
    (c.after calls).entries = c.entries ++ given c.applied (offers calls) := by
  induction calls generalizing c with
  | nil => exact (List.append_nil _).symm
  | cons call rest ih =>
    -- The call has brought its own names, so what comes later is given beside these.
    have names : ∀ n, n ∈ (c.perform call).applied ↔ n ∈ bundleNames call.offers ++ c.applied := by
      intro n
      rw [mem_perform_applied, List.mem_append, or_comm]
    rw [offers_cons, given_append, ← given_congr names, ← List.append_assoc, ← perform_entries]
    exact ih (c.perform call)

theorem entries_after (calls : List (Call σ)) : (empty.after calls).entries = registrations calls :=
  after_entries empty calls

theorem mem_after_applied {n : String} :
    n ∈ (c.after calls).applied ↔ n ∈ c.applied ∨ n ∈ bundleNames (offers calls) := by
  induction calls generalizing c with
  | nil => exact (or_iff_left List.not_mem_nil).symm
  | cons call rest ih =>
    rw [offers_cons, bundleNames_append, List.mem_append, ← or_assoc, ← mem_perform_applied]
    exact ih

theorem nodup_after_applied (nodup : c.applied.Nodup) : (c.after calls).applied.Nodup := by
  refine List.foldlRecOn calls perform (motive := fun c => c.applied.Nodup) nodup ?_
  intro c nodup call _
  rw [perform_applied]
  exact Discovery.nodup_pending_snd nodup

/-! ## What is kept -/

/-- A ranking depends on the registrations for its capability only, and the choice on the
    ranking. -/
theorem rank_register_of_ne {e : ServiceEntry σ} (ne : e.capability ≠ capability) :
    (c.register e).rank capability = c.rank capability := by
  have dropped : [e].filter (fun e => e.capability == capability) = [] := by simp [ne]
  rw [rank, rank, register, List.filter_append, dropped, List.append_nil]

theorem choose_congr {c' : ServiceContext σ} (same : c.rank capability = c'.rank capability) :
    c.choose capability = c'.choose capability := by
  rw [choose, choose, same]

/-- What is kept is what would be worked out now. -/
structure Sound (c : ServiceContext σ) : Prop where
  ranked : ∀ kept ∈ c.ranked, kept.2 = c.rank kept.1
  singletons : ∀ kept ∈ c.singletons, c.choose kept.1 = .ok (some kept.2)

namespace Sound

theorem empty : Sound (empty : ServiceContext σ) where
  ranked _ mem := nomatch mem
  singletons _ mem := nomatch mem

theorem register (s : Sound c) (e : ServiceEntry σ) : Sound (c.register e) where
  ranked kept mem := by
    -- Kept answers for this capability have been dropped, so this one is for another.
    obtain ⟨old, other⟩ := List.mem_filter.mp mem
    have ne : e.capability ≠ kept.1 := fun same => absurd same.symm (bne_iff_ne.mp other)
    rw [rank_register_of_ne ne]
    exact s.ranked kept old
  singletons kept mem := by
    obtain ⟨old, other⟩ := List.mem_filter.mp mem
    have ne : e.capability ≠ kept.1 := fun same => absurd same.symm (bne_iff_ne.mp other)
    rw [choose_congr (rank_register_of_ne ne)]
    exact s.singletons kept old

theorem bootstrap (s : Sound c) (plugins : List (ServicePlugin σ)) :
    Sound (c.bootstrap plugins).2 := by
  rw [bootstrap_snd]
  exact List.foldlRecOn _ _ ⟨s.ranked, s.singletons⟩ fun _ s e _ => s.register e

/-- A kept answer is found under its own capability, and it is right. -/
theorem services_fst (s : Sound c) (capability : TypeKey) :
    (c.services capability).1 = c.rank capability := by
  unfold ServiceContext.services
  split
  next kept found =>
    obtain rfl : kept.1 = capability := by simpa using List.find?_some found
    exact s.ranked kept (List.mem_of_find?_eq_some found)
  next => rfl

theorem services_snd (s : Sound c) (capability : TypeKey) : Sound (c.services capability).2 := by
  unfold ServiceContext.services
  split
  · exact s
  · refine ⟨?_, s.singletons⟩
    rintro kept (_ | ⟨_, old⟩)
    · rfl
    · exact s.ranked kept old

theorem service_fst (s : Sound c) (capability : TypeKey) :
    (c.service capability).1 = c.choose capability := by
  unfold ServiceContext.service
  split
  next kept found =>
    obtain rfl : kept.1 = capability := by simpa using List.find?_some found
    exact (s.singletons kept (List.mem_of_find?_eq_some found)).symm
  next =>
    split
    next chosen => exact chosen.symm
    next => rfl

theorem service_snd (s : Sound c) (capability : TypeKey) : Sound (c.service capability).2 := by
  unfold ServiceContext.service
  split
  · exact s
  · split
    next chosen =>
      refine ⟨s.ranked, ?_⟩
      rintro kept (_ | ⟨_, old⟩)
      · exact chosen
      · exact s.singletons kept old
    next => exact s

theorem perform (s : Sound c) (call : Call σ) : Sound (c.perform call) := by
  cases call with
  | register e => exact s.register e
  | bootstrap plugins => exact s.bootstrap plugins
  | services capability => exact s.services_snd capability
  | service capability => exact s.service_snd capability

theorem after (s : Sound c) (calls : List (Call σ)) : Sound (c.after calls) :=
  List.foldlRecOn calls ServiceContext.perform s fun _ s call _ => s.perform call

end Sound

/-- **Whatever services have been asked, what they keep is right.** -/
theorem sound_after (calls : List (Call σ)) : Sound (empty.after calls) := Sound.empty.after calls

/-- What is ranked for a capability after any calls. -/
theorem rank_after (calls : List (Call σ)) (capability : TypeKey) :
    (empty.after calls).rank capability =
      Ranking.descending ServiceEntry.priority (registeredFor calls capability) := by
  rw [rank, entries_after]
  rfl

end ServiceContext

end LayeredConfig
