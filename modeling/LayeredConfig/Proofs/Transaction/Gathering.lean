import LayeredConfig.Proofs.Transaction.Pending
import LayeredConfig.Proofs.Transaction.Turns

/-!
# The last operation on each key is told

While a view has a transaction open, its writes are spread over the memories that its policy
selects, and what is pending is put together from the memories again. **`View.pending_last_writes`
says that it comes to the last operation on each key**, if the policy sends the key to any memory at
all.

Every memory gathers the writes that go to it, in their order (`View.Gathered`). Whether a write
goes to a memory depends on its key only, so a memory that takes the last write to a key has taken
all writes to it before, and this one counts there. The memories that take none have nothing staged
for the key. So all that have something agree, and it does not matter in which order they are
merged.

Others may use the memories at the same time under transactions of their own. What they do is told
apart by the id, so nothing is assumed of it but that.

## What the order of merging does not matter for

The sources are merged from the highest to the lowest, so that of several verdicts on a key the
lowest one is told, which is not always the one in effect. Here there is nothing to choose from: one
view under one policy sends a key to the same memories all the time, and these have the same last
write to it. The disagreement needs a view that changes its policy in the middle of a transaction,
or sources that accept writes of a key but not its removal; the first is excluded by the calls that
are made, the second by the sources being memories.

The portions are those of the sources as they were when the transaction was opened. The calls of
others may change values and areas, but neither names nor read-only prefixes, so that a portion
worked out later is the same.
-/

set_option autoImplicit false

namespace LayeredConfig

/-! ## A matter of the key

A memory refuses keys, by their prefixes, and does not look at what is done to them. Policies look
at names and at what is accepted. So a write and a removal of one key go the same way.
-/

/-- A write goes to one source at least. -/
def Route.Reaches {σ : Type} [Source σ] (r : Route) (sources : List σ) (w : Write) : Prop :=
  ∃ p s, sources[p]? = some s ∧ r.takes (sources.take p) s w = true

namespace Route

variable {sources : List AnySource}
  (memories : ∀ s ∈ sources, Source.isMutable s = true → ∃ m, s = .memory m)
include memories

/-- Where all that can be written is a memory, what is taken is a matter of the key. -/
theorem takes_of_same_key (r : Route) {p : Nat} {s : AnySource} (hs : sources[p]? = some s)
    {w w' : Write} (same : w.key = w'.key) :
    r.takes (sources.take p) s w = r.takes (sources.take p) s w' := by
  have accepts (u : AnySource) (hu : u ∈ sources) : Source.accepts u w = Source.accepts u w' := by
    cases hm : Source.isMutable u with
    | true =>
      obtain ⟨m, rfl⟩ := memories u hu hm
      rw [AnySource.embeds.accepts_eq, AnySource.embeds.accepts_eq, same]
    -- A source that is only read accepts neither.
    | false =>
      cases w <;> cases w' <;> simp only [Source.accepts, hm, Bool.false_and]
  have above : (sources.take p).any (fun u => Source.accepts u w) =
      (sources.take p).any fun u => Source.accepts u w' := by
    rw [Bool.eq_iff_iff, List.any_eq_true, List.any_eq_true]
    exact exists_congr fun u => and_congr_right fun hu => by rw [accepts u (List.mem_of_mem_take hu)]
  simp only [takes, accepts s (List.mem_of_getElem? hs), above]

/-- A memory that takes the last write to a key has it for its own last one, and the others have
    none. -/
theorem last?_portion (r : Route) {p : Nat} {s : AnySource} (hs : sources[p]? = some s)
    (ws : List Write) (key : String) :
    Write.last? key (r.portion sources p ws) =
      (Write.last? key ws).filter (r.takes (sources.take p) s) := by
  simp only [portion, hs]
  exact Write.last?_filter (fun w _ w' _ same => r.takes_of_same_key memories hs same) key

end Route

/-- The writes that a call asks for. -/
def WriteCall.writes : WriteCall → List Write
  | change c => c.writes
  | _ => []

/-- A call that leaves the transaction open adds to a draft what goes to the source of its
    writes. -/
theorem WriteCall.turn_of_leavesOpen {σ : Type} [Source σ] {auto : Bool} {call : WriteCall}
    (opens : call.leavesOpen auto = true) (r : Route) (sources : List σ) (p : Nat)
    (draft : Option (List Write)) :
    (call.turn auto (r.share sources p) draft).1 =
      some (draft.getD [] ++ r.portion sources p call.writes) := by
  cases call with
  | start =>
    have nothing : r.portion sources p start.writes = [] := r.portion_nil sources p
    rw [nothing, List.append_nil]
    rfl
  | change c =>
    cases auto with
    | true => exact nomatch opens
    | false => rfl
  | commit | rollback => exact nomatch opens

/-! ## While the transaction is open -/

/-- What happens while a view has a transaction open: a call of the view, or a call of a source by
    somebody else. -/
inductive Happening
  | own (call : WriteCall)
  | other (p : Nat) (call : SourceCall)

/-- The writes that the view asks for. -/
def Happening.writes : Happening → List Write
  | own call => call.writes
  | other _ _ => []

/-- A call under another transaction changes what is committed and staged, but not the area of this
    one. -/
theorem Memory.perform_elsewhere {id : TransactionId} {call : SourceCall}
    (apart : call.transaction ≠ id) (m : Memory) : ∃ committed staged,
    (call.perform m).2 = { m with committed := committed, staged := staged } ∧
      staged[id]? = m.staged[id]? := by
  obtain ⟨other, request⟩ := call
  have apart : other ≠ id := apart
  have inserted (c : ChangeSet) : (m.staged.insert other c)[id]? = m.staged[id]? := by
    simp [Std.ExtTreeMap.getElem?_insert, apart]
  have erased : (m.staged.erase other)[id]? = m.staged[id]? := by
    simp [Std.ExtTreeMap.getElem?_erase, apart]
  cases request with
  | start now =>
    cases area : m.staged[other]? with
    | none => exact ⟨_, _, congrArg Prod.snd (start_of_none now area), inserted _⟩
    | some c => exact ⟨_, _, congrArg Prod.snd (start_of_some now area), rfl⟩
  | write w =>
    have written : (Source.write other w m).2 = _ := congrArg Prod.snd (write_eq w)
    split at written
    · exact ⟨_, _, written, rfl⟩
    · split at written
      · exact ⟨_, _, written, inserted _⟩
      · exact ⟨_, _, written, rfl⟩
  | commit =>
    cases area : m.staged[other]? with
    | none => exact ⟨_, _, congrArg Prod.snd (commit_of_none area), rfl⟩
    | some c => exact ⟨_, _, congrArg Prod.snd (commit_of_some area), erased⟩
  | rollback =>
    cases area : m.staged[other]? with
    | none => exact ⟨_, _, congrArg Prod.snd (rollback_of_none area), rfl⟩
    | some c => exact ⟨_, _, congrArg Prod.snd (rollback_of_some area), erased⟩

/-- A memory that others have used under other transactions. -/
def Memory.Used (id : TransactionId) (m m' : Memory) : Prop :=
  m'.name = m.name ∧ m'.readOnly = m.readOnly ∧ m'.staged[id]? = m.staged[id]?

/-- Of sources that can be written only memories are used by others, and these are used
    elsewhere. -/
theorem AnySource.used_by_others {id : TransactionId} {call : SourceCall}
    (apart : call.transaction ≠ id) {s : AnySource}
    (isMemory : Source.isMutable s = true → ∃ m, s = .memory m) :
    Source.Became memory (Memory.Used id) s (call.perform s).2 := by
  obtain ⟨other, request⟩ := call
  cases s with
  | memory m =>
    obtain ⟨committed, staged, after, same⟩ := Memory.perform_elsewhere apart m
    have through : (SourceCall.perform ⟨other, request⟩ (memory m)).2 =
        memory (SourceCall.perform ⟨other, request⟩ m).2 := by
      cases request with
      | write w => cases w <;> rfl
      | start | commit | rollback => rfl
    rw [through, after]
    exact .memory ⟨rfl, rfl, same⟩
  | guarded g =>
    obtain ⟨m, same⟩ := isMemory rfl
    exact nomatch same
  | table t | scripted t =>
    cases request with
    | write w => cases w <;> exact .same rfl
    | start | commit | rollback => exact .same rfl

namespace View

section Happenings

variable {σ : Type} [Source σ]

/-- A view and what it works on after something has happened. -/
def happen (state : View σ × Shared σ) : Happening → View σ × Shared σ
  | .own call => ((state.1.perform state.2 call).view, (state.1.perform state.2 call).shared)
  | .other p call => (state.1, state.2.withSources
      (state.2.context.sources.modify p fun s => (call.perform s).2))

def happenAll (state : View σ × Shared σ) (happenings : List Happening) : View σ × Shared σ :=
  happenings.foldl happen state

end Happenings

/-- A view with an open transaction under which every memory has gathered its portion of some
    writes. Who gets what is decided by the sources as they were at first. -/
structure Gathered (r : Route) (auto : Bool) (id : TransactionId) (first : List AnySource)
    (ws : List Write) (state : View AnySource × Shared AnySource) : Prop where
  policy : state.1.policy = r.policy
  auto : state.1.autoCommit = auto
  working : ∃ now, state.1.lifecycle = .working id now
  profiles : state.2.context.sources.map Source.profile = first.map Source.profile
  areas : Source.Backed .memory
    (fun p m => Memory.Area id (some (r.portion first p ws)) m.staged[id]?)
    state.2.context.sources

variable {r : Route} {auto : Bool} {id : TransactionId} {first : List AnySource} {ws : List Write}
  {state : View AnySource × Shared AnySource} {v : View AnySource} {shared : Shared AnySource}

/-! ## Calls of the view -/

/-- A call that leaves the transaction open, under which each memory has a draft or none has. -/
theorem gathered_of_granted {draft : Nat → Option (List Write)} {call : WriteCall}
    (policy : v.policy = r.policy) (opens : call.leavesOpen v.autoCommit = true)
    (profiles : shared.context.sources.map Source.profile = first.map Source.profile)
    (drafted : v.Drafted AnySource.memory shared draft)
    (portions : ∀ p, (draft p).getD [] = r.portion first p ws)
    (granted : Granted AnySource.memory v shared r draft call (v.perform shared call)) :
    Gathered r v.autoCommit (v.target shared) first (ws ++ call.writes)
      (happen (v, shared) (.own call)) where
  policy := (v.perform_settings shared call).1.trans policy
  auto := (v.perform_settings shared call).2
  working := granted.working opens
  profiles := (granted.moved.profiles AnySource.embeds).trans profiles
  areas := by
    refine granted.moved.backed AnySource.embeds drafted.areas fun p m m' _ _ turn => ?_
    have area := turn.area
    rw [WriteCall.turn_of_leavesOpen opens, portions, r.portion_congr profiles,
      ← r.portion_append] at area
    exact area

/-- A call of the view adds its writes, and each memory gets its portion of them. -/
theorem Gathered.own (h : Gathered r auto id first ws state) {call : WriteCall}
    (opens : call.leavesOpen auto = true) :
    Gathered r auto id first (ws ++ call.writes) (happen state (.own call)) := by
  obtain ⟨v, shared⟩ := state
  obtain ⟨policy, rfl, ⟨now, working⟩, profiles, areas⟩ := h
  have target : v.target shared = id := target_of_working working
  have drafted : v.Drafted AnySource.memory shared fun p => some (r.portion first p ws) :=
    ⟨fun p => by rw [transaction?_of_working working]; rfl, by rw [target]; exact areas⟩
  have granted := perform_of_working AnySource.embeds working policy drafted call
  rw [← target]
  exact gathered_of_granted policy opens profiles drafted (fun _ => rfl) granted

/-! ## Calls by others -/

/-- A call of a source by somebody else leaves the areas of this transaction alone. -/
theorem Gathered.other (h : Gathered r auto id first ws state) (p : Nat) {call : SourceCall}
    (apart : call.transaction ≠ id) :
    Gathered r auto id first ws (happen state (.other p call)) := by
  have moved : Source.Moved AnySource.memory (fun _ => Memory.Used id) state.2.context.sources
      (state.2.context.sources.modify p fun s => (call.perform s).2) := by
    intro q
    rw [List.getElem?_modify]
    cases hs : state.2.context.sources[q]? with
    | none => exact .none
    | some s =>
      have isMemory (hm : Source.isMutable s = true) : ∃ m, s = .memory m := by
        obtain ⟨m, same, -⟩ := h.areas q s hs hm
        exact ⟨m, same⟩
      refine .some ?_
      split
      · exact AnySource.used_by_others apart isMemory
      · cases hm : Source.isMutable s with
        | false => exact .same hm
        | true =>
          obtain ⟨m, rfl⟩ := isMemory hm
          exact .memory ⟨rfl, rfl, rfl⟩
  refine ⟨h.policy, h.auto, h.working, Eq.trans ?_ h.profiles, ?_⟩
  · refine moved.map_eq fun q s s' _ became => ?_
    cases became with
    | same => rfl
    | memory used => exact AnySource.embeds.profile_congr used.1 used.2.1
  · refine moved.backed AnySource.embeds h.areas fun q m m' _ area used => ?_
    rw [used.2.2]
    exact area

/-- **What happens while the transaction is open**: calls of the view are gathered, and calls of
    others change nothing. -/
theorem Gathered.happenAll (h : Gathered r auto id first ws state) (happenings : List Happening)
    (own : ∀ call, .own call ∈ happenings → call.leavesOpen auto = true)
    (others : ∀ p call, .other p call ∈ happenings → call.transaction ≠ id) :
    Gathered r auto id first (ws ++ happenings.flatMap Happening.writes)
      (happenAll state happenings) := by
  -- By the happenings from the first to the last: what is gathered before the first of them is any
  -- list, so that the statement can be used for the rest.
  induction happenings generalizing ws state with
  | nil =>
    rw [List.flatMap_nil, List.append_nil]
    exact h
  | cons happening rest ih =>
    have step : Gathered r auto id first (ws ++ happening.writes) (happen state happening) := by
      cases happening with
      | own call => exact h.own (own call List.mem_cons_self)
      | other p call =>
        rw [Happening.writes, List.append_nil]
        exact h.other p (others p call List.mem_cons_self)
    rw [List.flatMap_cons, ← List.append_assoc]
    exact ih step (fun call mem => own call (List.mem_cons_of_mem _ mem))
      fun p call mem => others p call (List.mem_cons_of_mem _ mem)

/-! ## The first call -/

/-- A first call that opens a transaction has started it on every memory, so none of them had an
    area under its id before. -/
theorem free_of_opened (idle : v.lifecycle = .idle) {call : WriteCall}
    (opens : (v.perform shared call).view.transaction? = some id)
    (memories : ∀ s ∈ shared.context.sources, Source.isMutable s = true → ∃ m, s = .memory m) :
    Source.Backed AnySource.memory (fun _ m => m.staged[shared.nextId]? = none)
      shared.context.sources := by
  cases started : Spread.each Source.isMutable (Source.start shared.nextId shared.nextTime)
    shared.context.sources with
  | mk answer sources =>
    cases answer with
    | ok _ =>
      intro p s hs hm
      obtain ⟨m, rfl⟩ := memories s (List.mem_of_getElem? hs) hm
      refine ⟨m, rfl, ?_⟩
      -- The start was granted by every source, and a memory grants it only without an area.
      have ok : (m.start shared.nextId shared.nextTime).1 = .ok () :=
        Spread.oks_of_each started _ (List.mem_of_getElem? hs) rfl
      cases area : m.staged[shared.nextId]? with
      | none => exact area
      | some c =>
        rw [Memory.start_of_some _ area] at ok
        exact nomatch ok
    | error failure =>
      obtain ⟨refused, view, -⟩ := start_of_refused idle started
      -- After a start that failed the view is idle, whatever was asked for, and so it has no
      -- transaction.
      have unopened : (v.perform shared call).view.lifecycle = .idle := by
        cases call with
        | start => exact congrArg lifecycle view
        | change c =>
          rw [perform_change, write_of_unstarted refused]
          exact congrArg lifecycle view
        | commit =>
          rw [perform_commit, commit_of_idle idle]
          exact idle
        | rollback =>
          rw [perform_rollback, rollback_of_idle idle]
          exact idle
      exact nomatch (transaction?_of_idle unopened).symm.trans opens

/-- After the call that opens the transaction each memory has the portion of its writes. -/
theorem gathered_of_opened (policy : v.policy = r.policy) (idle : v.lifecycle = .idle)
    {call : WriteCall} (opens : (v.perform shared call).view.transaction? = some id)
    (memories : ∀ s ∈ shared.context.sources, Source.isMutable s = true → ∃ m, s = .memory m) :
    Gathered r v.autoCommit id shared.context.sources call.writes
      (happen (v, shared) (.own call)) := by
  have free := free_of_opened idle opens memories
  have drafted : v.Drafted AnySource.memory shared fun _ => none := by
    refine ⟨fun p => by rw [transaction?_of_idle idle]; rfl, ?_⟩
    rw [target_of_idle idle]
    exact free.mono fun p m _ none => none ▸ .closed
  have granted := perform_of_idle AnySource.embeds idle policy drafted call
  have opened := granted.transaction.symm.trans opens
  split at opened
  case isFalse => exact nomatch opened
  case isTrue leavesOpen =>
    -- The call is under the id that is drawn, and it is the id that is open afterwards.
    have gathered : Gathered r v.autoCommit (v.target shared) shared.context.sources
        ([] ++ call.writes) (happen (v, shared) (.own call)) :=
      gathered_of_granted policy leavesOpen rfl drafted
        (fun p => (r.portion_nil shared.context.sources p).symm) granted
    rwa [Option.some_inj.mp opened, List.nil_append] at gathered

/-! ## What is told -/

namespace Gathered

variable (h : Gathered r auto id first ws state)
include h

theorem getElem?_profile (p : Nat) :
    state.2.context.sources[p]?.map Source.profile = first[p]?.map Source.profile := by
  rw [← List.getElem?_map, ← List.getElem?_map, h.profiles]

/-- What a source has staged for a key is the last write to it that went there. -/
theorem staged? {p : Nat} {s : AnySource} (hs : state.2.context.sources[p]? = some s)
    (key : String) : Source.staged? id key s = Write.last? key (r.portion first p ws) := by
  cases hm : Source.isMutable s with
  | true =>
    obtain ⟨m, rfl, area⟩ := h.areas p s hs hm
    obtain ⟨now, area⟩ := area.eq_some
    have staged : Source.staged? id key (AnySource.memory m) = m.staged[id]?.bind (·.verdict? key) :=
      rfl
    rw [staged, area, Option.bind_some, ChangeSet.verdict?_stageAll, ChangeSet.verdict?_start,
      Option.or_none]
  | false =>
    have nothing : Source.staged? id key s = none := by simp [Source.staged?, hm]
    rw [nothing, eq_comm, Write.last?_eq_none_iff]
    intro w hw
    -- What goes to a source is accepted by it, and one that is only read accepts nothing.
    have same := h.getElem?_profile p
    rw [hs] at same
    obtain ⟨s', hs', same⟩ := Option.map_eq_some_iff.mp same.symm
    simp only [Route.portion, hs'] at hw
    have accepted := (r.mem_and_accepts_of_taken hw).2
    rw [congrFun (Prod.mk.inj same).2 w] at accepted
    exact nomatch hm.symm.trans (Source.isMutable_of_accepts accepted)

variable (memories : ∀ s ∈ first, Source.isMutable s = true → ∃ m, s = .memory m)
include memories

/-- All that is staged for a key, at any source, is the last write to it. -/
theorem mem_stagings {key : String} {w : Write} :
    w ∈ state.2.stagings id key ↔ Write.last? key ws = some w ∧ r.Reaches first w := by
  have staged {p : Nat} {s s' : AnySource} (hs : state.2.context.sources[p]? = some s)
      (hs' : first[p]? = some s') : Source.staged? id key s = some w ↔
        Write.last? key ws = some w ∧ r.takes (first.take p) s' w = true := by
    rw [h.staged? hs, r.last?_portion memories hs', Option.filter_eq_some_iff]
  rw [Shared.stagings, List.mem_filterMap]
  -- The positions are the same before and after, as the profiles are: either way a source at one
  -- list has its counterpart in the other.
  constructor
  · rintro ⟨s, mem, hw⟩
    obtain ⟨p, hs⟩ := List.mem_iff_getElem?.mp mem
    have same := h.getElem?_profile p
    rw [hs] at same
    obtain ⟨s', hs', -⟩ := Option.map_eq_some_iff.mp same.symm
    obtain ⟨last, taken⟩ := (staged hs hs').mp hw
    exact ⟨last, p, s', hs', taken⟩
  · rintro ⟨last, p, s', hs', taken⟩
    have same := h.getElem?_profile p
    rw [hs'] at same
    obtain ⟨s, hs, -⟩ := Option.map_eq_some_iff.mp same
    exact ⟨s, List.mem_of_getElem? hs, (staged hs hs').mpr ⟨last, taken⟩⟩

/-- The sources that have anything staged for a key agree, so the lowest of them tells what all
    do. -/
theorem getLast?_stagings (key : String) (w : Write) :
    (state.2.stagings id key).getLast? = some w ↔
      Write.last? key ws = some w ∧ r.Reaches first w := by
  constructor
  · exact fun last => (h.mem_stagings memories).mp (List.mem_of_getLast? last)
  · intro told
    have mem := (h.mem_stagings memories).mpr told
    cases last : (state.2.stagings id key).getLast? with
    | none =>
      rw [List.getLast?_eq_none_iff] at last
      exact absurd mem (last ▸ List.not_mem_nil)
    | some w' =>
      have told' := (h.mem_stagings memories).mp (List.mem_of_getLast? last)
      exact told'.1.symm.trans told.1

end Gathered

/-- **The last operation on each key is told.** A view without a transaction, under one of the
    policies of this library, makes a call that opens one, on sources of which those that can be
    written are memories. Then the view makes any calls that leave the transaction open, and others
    use the sources under other transactions, all in any order.

    Of all that the view has asked for since then, what is pending tells of each key the last
    operation: it has the key for a written one with the value of the last write, or for a removed
    one, if the policy sends this operation to one source at least, and it does not have the key
    otherwise. -/
theorem pending_last_writes
    (memories : ∀ s ∈ shared.context.sources, Source.isMutable s = true → ∃ m, s = .memory m)
    (policy : v.policy = r.policy) (idle : v.lifecycle = .idle) {opening : WriteCall}
    (opens : (v.perform shared opening).view.transaction? = some id) (later : List Happening)
    (own : ∀ call, .own call ∈ later → call.leavesOpen v.autoCommit = true)
    (others : ∀ p call, .other p call ∈ later → call.transaction ≠ id) :
    let happenings := .own opening :: later
    let state := happenAll (v, shared) happenings
    let last? (key : String) := Write.last? key (happenings.flatMap Happening.writes)
    let Reaches := r.Reaches shared.context.sources
    ∃ pending, state.1.pending? state.2 = some pending ∧ ∀ key,
      (∀ value, pending.added[key]? = some value ↔
        last? key = some (.put key value) ∧ Reaches (.put key value)) ∧
      (key ∈ pending.removed ↔ last? key = some (.remove key) ∧ Reaches (.remove key)) := by
  intro happenings state last? Reaches
  have gathered : Gathered r v.autoCommit id shared.context.sources
      (happenings.flatMap Happening.writes) state :=
    (gathered_of_opened policy idle opens memories).happenAll later own others
  obtain ⟨now, working⟩ := gathered.working
  obtain ⟨pending, h, exclusive, verdicts⟩ :=
    verdict?_pending (transaction?_of_working working) state.2
  have verdict (key : String) (w : Write) :
      pending.verdict? key = some w ↔ last? key = some w ∧ Reaches w := by
    rw [verdicts]
    exact gathered.getLast?_stagings memories key w
  refine ⟨pending, h, fun key => ⟨fun value => ?_, ?_⟩⟩
  · rw [← verdict, ChangeSet.verdict?_eq_put]
    exact ⟨fun added => ⟨added, exclusive.not_removed added⟩, And.left⟩
  · rw [← verdict, ChangeSet.verdict?_eq_remove]

/-- Two memories, a table between them, and another transaction on the higher memory, which is
    committed in between. Both memories get something, and `no.k` is accepted nowhere. -/
theorem pending_last_writes_two_memories :
    let high : Memory := { Memory.ofPairs "high" 2 ["sys.", "no."] [("x", "0")] with
      staged := (∅ : Std.ExtTreeMap TransactionId ChangeSet).insert (.ofNat 7)
        (.start (.ofNat 7) ⟨0, 0⟩) }
    let low := Memory.ofPairs "low" 0 ["no."] []
    let shared := Shared.numbered [.memory high, .table (.ofPairs "table" [("x", "5")]), .memory low]
    let v : View AnySource := fresh.withPolicy .mostSignificant
    let opening := WriteCall.change
      (.putAll (Entries.ofPairs [("x", "1"), ("y", "1"), ("no.k", "1")]))
    let later : List Happening := [.other 0 ⟨.ofNat 7, .write (.put "y" "9")⟩,
      .own (.change (.remove ["y", "x", "sys.k"])), .other 0 ⟨.ofNat 7, .commit⟩, .own .start,
      .own (.change (.put "x" "2"))]
    let state := happenAll (v, shared) (.own opening :: later)
    ∃ pending, state.1.pending? state.2 = some pending ∧ pending.added["x"]? = some "2" ∧
      "y" ∈ pending.removed ∧ "sys.k" ∈ pending.removed ∧ pending.added["no.k"]? = none := by
  intro high low shared v opening later state
  have memories : ∀ s ∈ shared.context.sources, Source.isMutable s = true → ∃ m, s = .memory m := by
    have read : Source.isMutable (AnySource.table (.ofPairs "table" [("x", "5")])) = false := rfl
    simp [shared, Shared.numbered, read]
  have own : ∀ call, .own call ∈ later → call.leavesOpen v.autoCommit = true := by
    intro call mem
    simp only [later, List.mem_cons, reduceCtorEq, Happening.own.injEq, List.not_mem_nil, or_false,
      false_or] at mem
    rcases mem with rfl | rfl | rfl <;> rfl
  have others : ∀ p call, .other p call ∈ later → call.transaction ≠ .ofNat 0 := by
    intro p call mem
    simp only [later, List.mem_cons, reduceCtorEq, Happening.other.injEq, List.not_mem_nil, or_false,
      false_or] at mem
    rcases mem with ⟨-, rfl⟩ | ⟨-, rfl⟩ <;> decide
  have policy : v.policy = Route.mostSignificant.policy := rfl
  have opens : (v.perform shared opening).view.transaction? = some (.ofNat 0) := by decide +kernel
  obtain ⟨pending, h, told⟩ := pending_last_writes memories policy rfl opens later own others
  have refused : ∀ s ∈ shared.context.sources, Source.accepts s (.put "no.k" "1") = false := by
    decide +kernel
  have nowhere : ¬Route.mostSignificant.Reaches shared.context.sources (.put "no.k" "1") := by
    rintro ⟨p, s, hs, taken⟩
    have accepted := (Bool.and_eq_true_iff.mp taken).1
    rw [refused s (List.mem_of_getElem? hs)] at accepted
    exact Bool.false_ne_true accepted
  refine ⟨pending, h, ?_, ?_, ?_, ?_⟩
  · exact ((told "x").1 "2").mpr
      ⟨by decide +kernel, 0, .memory high, rfl, by decide +kernel⟩
  · exact (told "y").2.mpr ⟨by decide +kernel, 0, .memory high, rfl, by decide +kernel⟩
  · exact (told "sys.k").2.mpr ⟨by decide +kernel, 2, .memory low, rfl, by decide +kernel⟩
  · refine Option.eq_none_iff_forall_not_mem.mpr fun value added => ?_
    obtain ⟨last, reaches⟩ := ((told "no.k").1 value).mp added
    have written : Write.last? "no.k" ((.own opening :: later).flatMap Happening.writes) =
        some (.put "no.k" "1") := by decide +kernel
    rw [← Option.some_inj.mp (written.symm.trans last)] at reaches
    exact nowhere reaches

end View

end LayeredConfig
