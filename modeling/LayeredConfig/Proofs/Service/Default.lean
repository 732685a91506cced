import LayeredConfig.Proofs.Service.Answers
import LayeredConfig.Service.Provider

/-!
# The default configuration, and what replaces it

A provider is asked for its configuration while services are registered and contexts are set, in any
order. **`Provider.configuration_answers` says what it answers**: the context that was set last; as
long as none was set, the default from its first success on; and before that, whatever the services
registered by then call for, be it a default or the ambiguity of two policies. That the default is
built through services which keep answers of their own does not show (`ServiceContext.Like`): a
query changes nothing that later answers depend on.

The sources of a default are ranked twice, by the priority of their registration and then by their
ordinal. Both are stable, so the second ranking keeps the first where ordinals are equal
(`Ranking.Ranked.again`).

A context that is current is told apart from others by its edition, a number that every new one
gets. So it says more that the same edition is answered again than that an equal context is: no
other has been made current since (`Provider.after_of_current`).
-/

set_option autoImplicit false

namespace LayeredConfig

variable {σ : Type}

/-! ## Services with the same registrations -/

namespace ServiceContext

variable {c c' : ServiceContext σ}

/-- Services whose answers are right, with the registrations of others. -/
structure Like (c c' : ServiceContext σ) : Prop where
  sound : Sound c
  entries : c.entries = c'.entries
  applied : c.applied = c'.applied

namespace Like

theorem perform (h : Like c c') (call : Call σ) : Like (c.perform call) (c'.perform call) where
  sound := h.sound.perform call
  entries := by rw [perform_entries, perform_entries, h.entries, h.applied]
  applied := by rw [perform_applied, perform_applied, h.applied]

theorem services (h : Like c c') (capability : TypeKey) : Like (c.services capability).2 c' := by
  have sound := h.sound.services_snd capability
  obtain ⟨ranked, snd⟩ := c.services_snd capability
  rw [snd] at sound ⊢
  exact ⟨sound, h.entries, h.applied⟩

theorem service (h : Like c c') (capability : TypeKey) : Like (c.service capability).2 c' := by
  have sound := h.sound.service_snd capability
  obtain ⟨singletons, snd⟩ := c.service_snd capability
  rw [snd] at sound ⊢
  exact ⟨sound, h.entries, h.applied⟩

theorem services_fst (h : Like c c') (capability : TypeKey) :
    (c.services capability).1 = c'.rank capability := by
  rw [h.sound.services_fst, rank, rank, h.entries]

theorem service_fst (h : Like c c') (capability : TypeKey) :
    (c.service capability).1 = c'.choose capability := by
  rw [h.sound.service_fst]
  exact choose_congr (by rw [rank, rank, h.entries])

end Like

end ServiceContext

open ServiceContext (Like Tied Sole registrations registeredFor)

/-! ## The default -/

/-- The parts of one kind among registrations, with their priorities, in the order of
    registration. -/
def partsOf {α : Type} (part? : Service σ → Option α) (registered : List (ServiceEntry σ)) :
    List (α × Int) :=
  registered.filterMap fun e => (part? e.service).map (·, e.priority)

section Parts

variable {α : Type} {part? : Service σ → Option α} {capability : TypeKey}
  {registered : List (ServiceEntry σ)}

theorem map_fst_partsOf : (partsOf part? registered).map Prod.fst =
    registered.filterMap fun e => part? e.service := by
  rw [partsOf, List.map_filterMap]
  refine List.filterMap_congr fun e _ => ?_
  cases part? e.service <;> rfl

/-- The parts of one kind are those of the registrations for its capability. -/
theorem partsOf_filter (only : ∀ s a, part? s = some a → s.capability = capability) :
    partsOf part? (registered.filter fun e => e.capability == capability) =
      partsOf part? registered := by
  rw [partsOf, partsOf, List.filterMap_filter]
  refine List.filterMap_congr fun e _ => ?_
  by_cases same : e.capability = capability
  · exact if_pos (beq_iff_eq.mpr same)
  · rw [if_neg (by simpa using same)]
    cases found : part? e.service with
    | none => rfl
    | some a => exact absurd (only e.service a found) same

/-- The parts of one kind in the ranking of their registrations are ranked. -/
theorem partsOf_ranked (only : ∀ s a, part? s = some a → s.capability = capability)
    {ranked : List (ServiceEntry σ)}
    (h : Ranking.Ranked ServiceEntry.priority
      (registered.filter fun e => e.capability == capability) ranked) :
    Ranking.Ranked Prod.snd (partsOf part? registered) (partsOf part? ranked) := by
  rw [← partsOf_filter only]
  refine h.filterMap fun e part found => ?_
  obtain ⟨a, -, rfl⟩ := Option.map_eq_some_iff.mp found
  rfl

theorem source?_capability : ∀ (s : Service σ) a, s.source? = some a →
    s.capability = sourceCapability
  | .source _, _, _ => rfl

theorem filter?_capability : ∀ (s : Service σ) a, s.filter? = some a →
    s.capability = filterCapability
  | .filter _, _, _ => rfl

end Parts

variable [Source σ]

/-- The default context for registered services: its sources by descending ordinal, then by
    descending priority, then by the order of registration; its filters by descending priority, then
    by the order of registration; the policy with the highest priority, or the overriding one if
    there is none; and the converters that can be discovered. -/
structure Context.IsDefault (registered : List (ServiceEntry σ)) (catalogue : Catalogue)
    (c : Context σ) : Prop where
  sources : ∃ order, c.sources = order.map Prod.fst ∧
    Ranking.RankedTwice (fun s => Source.ordinal s.1) Prod.snd
      (partsOf Service.source? registered) order
  filters : ∃ order, c.filters = order.map Prod.fst ∧
    Ranking.Ranked Prod.snd (partsOf Service.filter? registered) order
  policy :
    (registered.filter fun e => e.capability == policyCapability) = [] ∧ c.policy = .overriding ∨
    ∃ e, Sole (registered.filter fun e => e.capability == policyCapability) e ∧
      c.policy = e.service.policy?.getD .overriding
  converters : c.converters = (Registry.empty catalogue).discover.2

namespace ServiceContext

/-- The default context for services and the entry that has been chosen for the policy. -/
def default (c : ServiceContext σ) (catalogue : Catalogue) (chosen : Option (ServiceEntry σ)) :
    Context σ where
  sources := Ranking.descending Source.ordinal
    ((c.rank sourceCapability).filterMap fun e => e.service.source?)
  filters := (c.rank filterCapability).filterMap fun e => e.service.filter?
  policy := (chosen.bind fun e => e.service.policy?).getD .overriding
  converters := (Registry.empty catalogue).discover.2

theorem default_isDefault {c : ServiceContext σ} {chosen : Option (ServiceEntry σ)}
    (choice : c.choose policyCapability = .ok chosen) (catalogue : Catalogue) :
    (c.default catalogue chosen).IsDefault c.entries catalogue where
  sources := by
    -- By priority as the services rank them, and then by ordinal, stably.
    have byPriority := partsOf_ranked source?_capability (c.rank_ranked sourceCapability)
    refine ⟨_, ?_, byPriority.again fun s => Source.ordinal s.1⟩
    rw [default, ← Ranking.descending_map, map_fst_partsOf]
  filters :=
    ⟨_, map_fst_partsOf.symm, partsOf_ranked filter?_capability (c.rank_ranked filterCapability)⟩
  policy := by
    have ranked := c.rank_ranked policyCapability
    have answer := chosen_of_ranked ranked
    rw [choice] at answer
    cases chosen with
    | none => exact .inl ⟨answer.none.mp rfl, rfl⟩
    | some e => exact .inr ⟨e, answer.sole ranked, rfl⟩
  converters := rfl

/-- Building a default fails exactly if policies are tied, and else it is the default. -/
theorem map_choose_default (c : ServiceContext σ) (catalogue : Catalogue) :
    let policies := c.entries.filter fun e => e.capability == policyCapability
    let answer := (c.choose policyCapability).map (c.default catalogue)
    (∀ e, answer = .error e ↔ ∃ top, Tied policies top ∧
      e = .ambiguousService policyCapability.name top
        ((policies.filter (·.priority = top)).map ServiceEntry.name)) ∧
    ∀ built, answer = .ok built → built.IsDefault c.entries catalogue := by
  intro policies answer
  have choice := chosen_of_ranked (c.rank_ranked policyCapability)
  cases found : c.choose policyCapability with
  | error failure =>
    rw [found] at choice
    have answered : answer = .error failure := congrArg (Except.map (c.default catalogue)) found
    rw [answered]
    refine ⟨fun e => ?_, nofun⟩
    rw [← choice.ambiguous, Except.error.injEq, Except.error.injEq]
  | ok chosen =>
    rw [found] at choice
    have answered : answer = .ok (c.default catalogue chosen) :=
      congrArg (Except.map (c.default catalogue)) found
    rw [answered]
    refine ⟨fun e => iff_of_false nofun fun tied => (nomatch (choice.ambiguous e).mpr tied), ?_⟩
    rintro built ⟨⟩
    exact default_isDefault found catalogue

end ServiceContext

namespace Provider

variable {p : Provider σ} {services : ServiceContext σ} {context : Context σ}

/-- A default is built as the registrations call for, and building it registers nothing. -/
theorem buildDefault_of_like (h : Like p.services services) :
    p.buildDefault.1 =
      (services.choose policyCapability).map (services.default p.catalogue) ∧
    ∃ left, Like left services ∧ p.buildDefault.2 = { p with services := left } := by
  have after := h.service policyCapability
  unfold buildDefault
  rw [← h.service_fst]
  generalize p.services.service policyCapability = asked at after ⊢
  obtain ⟨answer, left⟩ := asked
  cases answer with
  | error e => exact ⟨rfl, left, after, rfl⟩
  | ok chosen =>
    -- Each of the three queries leaves services that are still like these.
    have sources := after.services_fst sourceCapability
    have filters := (after.services sourceCapability).services_fst filterCapability
    refine ⟨?_, _, (after.services sourceCapability).services filterCapability, rfl⟩
    dsimp only [Except.map]
    rw [sources, filters]
    rfl

/-- Nothing is built where there is a current context. -/
theorem context_of_current (set : p.current = some context) : p.context = (.ok context, p) := by
  unfold Provider.context
  rw [set]

/-- The context that is answered is the current one from then on; an error leaves none. -/
theorem context_of_like (h : Like p.services services) :
    Like p.context.2.services services ∧ p.context.2.catalogue = p.catalogue ∧
    p.context.2.current = p.context.1.toOption := by
  cases set : p.current with
  | some context =>
    rw [context_of_current set]
    exact ⟨h, rfl, set⟩
  | none =>
    obtain ⟨-, left, like, snd⟩ := buildDefault_of_like h
    unfold Provider.context
    rw [set]
    dsimp only
    rw [snd]
    cases p.buildDefault.1 with
    | ok context => exact ⟨like, rfl, rfl⟩
    | error e => exact ⟨like, rfl, set⟩

theorem context_fst_of_unset (h : Like p.services services) (unset : p.current = none) :
    p.context.1 = (services.choose policyCapability).map (services.default p.catalogue) := by
  obtain ⟨fst, -⟩ := buildDefault_of_like h
  unfold Provider.context
  rw [unset, ← fst]
  dsimp only
  cases p.buildDefault.1 <;> rfl

/-! ## Calls -/

/-- Everything that can be asked of a provider, and of its services. Who asks for the context of the
    configuration is answered like who asks for the configuration. -/
inductive Call (σ : Type)
  | services (call : ServiceContext.Call σ)
  | configuration
  | setContext (context : Context σ)

def perform (p : Provider σ) : Call σ → Provider σ
  | .services call => { p with services := p.services.perform call }
  | .configuration => p.context.2
  | .setContext context => p.setContext context

def after (p : Provider σ) (calls : List (Call σ)) : Provider σ := calls.foldl perform p

def Call.services? : Call σ → Option (ServiceContext.Call σ)
  | .services call => some call
  | _ => none

/-- What is asked of the services among all calls. -/
def servicesCalls (calls : List (Call σ)) : List (ServiceContext.Call σ) :=
  calls.filterMap Call.services?

variable {calls : List (Call σ)}

theorem after_append (p : Provider σ) (calls calls' : List (Call σ)) :
    p.after (calls ++ calls') = (p.after calls).after calls' := List.foldl_append

theorem after_like (h : Like p.services services) (calls : List (Call σ)) :
    Like (p.after calls).services (services.after (servicesCalls calls)) ∧
    (p.after calls).catalogue = p.catalogue := by
  induction calls generalizing p services with
  | nil => exact ⟨h, rfl⟩
  | cons call rest ih =>
    cases call with
    | services call => exact ih (h.perform call)
    | configuration =>
      obtain ⟨like, same, -⟩ := context_of_like h
      obtain ⟨like', same'⟩ := ih like
      exact ⟨like', same'.trans same⟩
    | setContext context => exact ih h

/-- Until another context is set, the current one stays. -/
theorem after_of_current (set : p.current = some context)
    (unreplaced : ∀ c, .setContext c ∉ calls) :
    (p.after calls).current = some context ∧ (p.after calls).edition = p.edition := by
  induction calls generalizing p with
  | nil => exact ⟨set, rfl⟩
  | cons call rest ih =>
    have later : ∀ c, .setContext c ∉ rest := fun c mem => unreplaced c (.tail call mem)
    cases call with
    | services call => exact ih set later
    | configuration =>
      -- Asking for the configuration changes nothing once there is one.
      have step : p.perform .configuration = p := by rw [perform, context_of_current set]
      rw [after, List.foldl_cons, step]
      exact ih set later
    | setContext c => exact absurd List.mem_cons_self (unreplaced c)

/-- As long as no context is set and no default could be built, there is none. -/
theorem current_of_failed (h : Like p.services services) (unset : p.current = none)
    (unreplaced : ∀ c, .setContext c ∉ calls)
    (failed : ∀ before after, calls = before ++ .configuration :: after →
      ∃ e, (p.after before).context.1 = .error e) : (p.after calls).current = none := by
  induction calls generalizing p services with
  | nil => exact unset
  | cons call rest ih =>
    have later : ∀ c, .setContext c ∉ rest := fun c mem => unreplaced c (.tail call mem)
    have failed' : ∀ before after, rest = before ++ .configuration :: after →
        ∃ e, ((p.perform call).after before).context.1 = .error e := fun before after split =>
      failed (call :: before) after (congrArg (call :: ·) split)
    cases call with
    | services call => exact ih (h.perform call) unset later failed'
    | configuration =>
      -- A request for the configuration sets what it answers, and it has answered an error.
      obtain ⟨like, -, current⟩ := context_of_like h
      obtain ⟨e, failure⟩ := failed [] rest rfl
      have failure : p.context.1 = .error e := failure
      rw [failure] at current
      exact ih like current later failed'
    | setContext c => exact absurd List.mem_cons_self (unreplaced c)

/-- **What a provider answers after any calls** to it and to its services, in any order:

    * if a context has been set, the one that was set last, as the same edition, whether or not a
      default was built before;
    * if none has been set, the default that an earlier call has answered, as the same edition,
      whatever has been registered since;
    * if none has been set and no earlier call has succeeded, the ambiguity of policies, exactly if
      two or more of those registered by now share the highest priority; and otherwise the default
      for what is registered by now. So a failure is not remembered. -/
theorem configuration_answers (catalogue : Catalogue) (calls : List (Call σ)) :
    let start := ofServices .empty catalogue
    let p := start.after calls
    let registered := registrations (servicesCalls calls)
    let policies := registeredFor (servicesCalls calls) policyCapability
    (∀ before context after, calls = before ++ .setContext context :: after →
      (∀ c, .setContext c ∉ after) →
      p.context = (.ok context, p) ∧
      p.edition = ((start.after before).setContext context).edition) ∧
    ((∀ c, .setContext c ∉ calls) →
      (∀ before built after, calls = before ++ .configuration :: after →
        (start.after before).context.1 = .ok built →
        p.context = (.ok built, p) ∧ p.edition = (start.after before).context.2.edition) ∧
      ((∀ before after, calls = before ++ .configuration :: after →
        ∃ e, (start.after before).context.1 = .error e) →
        (∀ e, p.context.1 = .error e ↔ ∃ top, Tied policies top ∧
          e = .ambiguousService policyCapability.name top
            ((policies.filter (·.priority = top)).map ServiceEntry.name)) ∧
        ∀ built, p.context.1 = .ok built → built.IsDefault registered catalogue)) := by
  intro start p registered policies
  have fresh : Like start.services .empty := ⟨.empty, rfl, rfl⟩
  refine ⟨?_, fun unreplaced => ⟨?_, fun failed => ?_⟩⟩
  -- A context that was set: it is current at once, and stays.
  · rintro before context after split unreplaced
    have run : p = ((start.after before).setContext context).after after := by
      rw [show p = start.after calls from rfl, split, after_append]
      rfl
    have set : ((start.after before).setContext context).current = some context := rfl
    rw [run]
    obtain ⟨current, edition⟩ := after_of_current set unreplaced
    exact ⟨context_of_current current, edition⟩
  -- A default that was answered: that call has made it current.
  · rintro before built after split answered
    have run : p = (start.after before).context.2.after after := by
      rw [show p = start.after calls from rfl, split, after_append]
      rfl
    have later : ∀ c, .setContext c ∉ after := fun c mem =>
      unreplaced c (split ▸ List.mem_append_right before (.tail _ mem))
    obtain ⟨-, -, set⟩ := context_of_like (after_like fresh before).1
    rw [answered] at set
    rw [run]
    obtain ⟨current, edition⟩ := after_of_current set later
    exact ⟨context_of_current current, edition⟩
  -- No success so far: the default is built now, from what is registered now.
  · obtain ⟨like, same⟩ := after_like fresh calls
    have unset : p.current = none := current_of_failed fresh rfl unreplaced failed
    have answer := context_fst_of_unset like unset
    rw [show p.catalogue = catalogue from same] at answer
    have settled := (ServiceContext.empty.after (servicesCalls calls)).map_choose_default catalogue
    rw [← answer, ServiceContext.entries_after] at settled
    exact settled

/-- Two tied policies fail the first call; a higher one settles it. The default then stays, although
    its policy is tied again by a later registration, until another context is set. -/
theorem configuration_answers_tie_settled :
    let policy (name : String) (priority : Int) : Call Table :=
      .services (.register ⟨name, priority, .policy .overriding⟩)
    let table (name : String) (priority ordinal : Int) : Call Table :=
      .services (.register ⟨name, priority, .source ⟨name, ordinal, .ofPairs []⟩⟩)
    let tied := [policy "a" 1, policy "b" 1]
    let more := [policy "c" 2, table "low" 9 1, table "first" 1 2, table "second" 1 2,
      table "preferred" 3 2]
    let settled := tied ++ .configuration :: more
    let used := settled ++ .configuration :: [policy "d" 2, table "late" 9 9]
    let other : Context Table := (ContextBuilder.start ⟨[], []⟩).build
    let start : Provider Table := ofServices .empty ⟨[], []⟩
    (∀ c, .setContext c ∉ used) ∧
      (start.after tied).context.1 = .error (.ambiguousService policyCapability.name 1 ["a", "b"]) ∧
      (∃ built, (start.after settled).context.1 = .ok built ∧
        built.IsDefault (registrations (servicesCalls settled)) ⟨[], []⟩ ∧
        built.sourceNames = ["preferred", "first", "second", "low"] ∧
        (start.after used).context = (.ok built, start.after used)) ∧
      (start.after (used ++ [.setContext other])).context.1 = .ok other := by
  intro policy table tied more settled used other start
  have unreplaced : ∀ c, .setContext c ∉ used := by simp [used, settled, tied, more, policy, table]
  have quiet (calls : List (Call Table)) (services : ∀ call ∈ calls, call.services?.isSome = true) :
      Call.configuration ∉ calls := fun mem => absurd (services _ mem) (by decide)
  have tied_quiet : Call.configuration ∉ tied := quiet tied (by decide)
  have more_quiet : Call.configuration ∉ more := quiet more (by decide)
  have failure : (start.after tied).context.1 =
      .error (.ambiguousService policyCapability.name 1 ["a", "b"]) := by
    have unset : ∀ c, .setContext c ∉ tied := by simp [tied, policy]
    obtain ⟨fails, -⟩ := ((configuration_answers ⟨[], []⟩ tied).2 unset).2
      fun before after split => absurd (split ▸ by simp) tied_quiet
    exact (fails _).mpr ⟨1, by decide +kernel, by decide +kernel⟩
  have names : (start.after settled).context.1.toOption.map Context.sourceNames =
      some ["preferred", "first", "second", "low"] := by decide +kernel
  obtain ⟨built, answered, sources⟩ := Option.map_eq_some_iff.mp names
  have answered : (start.after settled).context.1 = .ok built := by
    cases found : (start.after settled).context.1 with
    | ok context => rw [found] at answered; cases answered; rfl
    | error e => rw [found] at answered; cases answered
  refine ⟨unreplaced, failure, ⟨built, answered, ?_, sources, ?_⟩, ?_⟩
  · have unset : ∀ c, .setContext c ∉ settled := fun c mem =>
      unreplaced c (List.mem_append_left _ mem)
    refine (((configuration_answers ⟨[], []⟩ settled).2 unset).2 ?_).2 built answered
    intro before after split
    obtain ⟨rfl, -⟩ := (List.append_cons_inj_of_notMem tied_quiet more_quiet).mp split
    exact ⟨_, failure⟩
  · exact (((configuration_answers ⟨[], []⟩ used).2 unreplaced).1 settled built _ rfl answered).1
  · obtain ⟨last, -⟩ :=
      (configuration_answers ⟨[], []⟩ (used ++ [.setContext other])).1 used other [] rfl nofun
    rw [last]

end Provider

end LayeredConfig
