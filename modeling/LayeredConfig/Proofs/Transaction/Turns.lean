import LayeredConfig.Proofs.Transaction.Desk
import LayeredConfig.Proofs.Transaction.Memories
import LayeredConfig.Proofs.Source.Inside

/-!
# One call, source by source

Where the sources that can be written are memories, a call of a view is granted, and all that it
does to one memory can be said in advance (`WriteCall.turn`): what the draft of its transaction on
that memory is afterwards, and which writes are committed. **`View.perform_turn` is that
statement**, for every kind of call, with or without an open transaction, with or without automatic
commit.

Two lists of sources, before and after, are compared position by position (`Source.Moved`). A source
that is only read stays as it is; a memory is related to the memory that it becomes by its turn
(`Memory.Turn`), which says that everything outside the area of one transaction stays as it is too.

## How the statement is put together

Each operation of a memory is a turn: a start opens an empty draft, writes go to the end of it, and
a commit or a rollback closes it (`Memory.start_turn` and the lemmas after it).
`Source.Moved.of_each` and `Source.Moved.of_mapIdx` carry such a turn through a list of sources, and
`Source.Moved.trans` puts two of them after each other, for the calls that do two things.

A call of a view is then one of two cases. Under an open transaction it is one of these steps, or a
change and a commit (`View.perform_of_working`). Without one it is nothing, or a start, or a start
and then a call under an open transaction, so that the first case is used again in the second
(`View.perform_of_idle`).

What is assumed of the sources is said of their positions (`View.Drafted`): a memory at each
position that can be written, with an area just where the view has a draft. Nothing is said of other
transactions, and the turn leaves them alone; that is what makes it possible to add up the calls of
several views later on.
-/

set_option autoImplicit false

namespace LayeredConfig

variable {σ : Type}

/-! ## The turn of one memory

The draft of a transaction on a memory is kept apart from the area that holds it: a list of writes
can be reasoned about, and which area belongs to it is settled once (`Memory.Area`). That an area
has a start time, and which, never matters here.
-/

/-- What a call makes of a draft, if `share` is what goes to the memory of each change: the draft
    afterwards, and the writes that are committed by the call. -/
def WriteCall.turn (auto : Bool) (share : Change → List Write) (draft : Option (List Write)) :
    WriteCall → Option (List Write) × List Write
  | .start => (some (draft.getD []), [])
  | .change c =>
    let gathered := draft.getD [] ++ share c
    if auto then (none, gathered) else (some gathered, [])
  | .commit => (none, draft.getD [])
  | .rollback => (none, [])

/-- Whether the transaction of a view is open after a call. -/
def WriteCall.leavesOpen (auto : Bool) : WriteCall → Bool
  | .start => true
  | .change _ => !auto
  | .commit | .rollback => false

theorem WriteCall.turn_isSome (auto : Bool) (share : Change → List Write)
    (draft : Option (List Write)) (call : WriteCall) :
    (call.turn auto share draft).1.isSome = call.leavesOpen auto := by
  cases call with
  | change c => cases auto <;> rfl
  | start | commit | rollback => rfl

/-- Nothing gets into a draft but what goes to the memory. -/
theorem WriteCall.mem_turn {auto : Bool} {share : Change → List Write} {draft : Option (List Write)}
    {call : WriteCall} {w : Write} (h : w ∈ (call.turn auto share draft).1.getD []) :
    w ∈ draft.getD [] ∨ ∃ c, w ∈ share c := by
  cases call with
  | start => exact .inl h
  | commit | rollback => exact nomatch h
  | change c =>
    cases auto with
    | true => exact nomatch h
    | false =>
      rcases List.mem_append.mp h with old | new
      · exact .inl old
      · exact .inr ⟨c, new⟩

namespace Memory

/-- A memory before and after something that is done under one transaction: the writes that are
    committed are made one after another, and the area is that of the draft. -/
structure Turn (id : TransactionId) (draft : Option (List Write)) (done : List Write)
    (m m' : Memory) : Prop where
  kept : m' = { m with committed := Write.replay done m.committed, staged := m'.staged }
  area : Area id draft m'.staged[id]?
  elsewhere : ∀ other, other ≠ id → m'.staged[other]? = m.staged[other]?

theorem Area.eq_none {id : TransactionId} {area : Option ChangeSet} (h : Area id none area) :
    area = none := by
  cases h
  rfl

theorem Area.eq_some {id : TransactionId} {ws : List Write} {area : Option ChangeSet}
    (h : Area id (some ws) area) : ∃ now, area = some ((ChangeSet.start id now).stageAll ws) := by
  cases h with
  | opened now => exact ⟨now, rfl⟩

namespace Turn

variable {id : TransactionId} {draft draft' : Option (List Write)} {ws ws' : List Write}
  {m m' m'' : Memory}

theorem refl (h : Area id draft m.staged[id]?) : Turn id draft [] m m := ⟨rfl, h, fun _ _ => rfl⟩

theorem name (h : Turn id draft ws m m') : m'.name = m.name := by rw [h.kept]

theorem readOnly (h : Turn id draft ws m m') : m'.readOnly = m.readOnly := by rw [h.kept]

theorem accepts (h : Turn id draft ws m m') : Source.accepts m' = Source.accepts m := by
  funext w
  rw [accepts_eq, accepts_eq, isReadOnly, isReadOnly, h.readOnly]

theorem committed (h : Turn id draft ws m m') : m'.committed = Write.replay ws m.committed := by
  rw [h.kept]

theorem trans (h : Turn id draft ws m m') (h' : Turn id draft' ws' m' m'') :
    Turn id draft' (ws ++ ws') m m'' where
  kept := by
    obtain ⟨kept, -, -⟩ := h
    obtain ⟨kept', -, -⟩ := h'
    rw [kept', kept, Write.replay_append]
  area := h'.area
  elsewhere other ho := (h'.elsewhere other ho).trans (h.elsewhere other ho)

/-- A memory without an area of the transaction before and after has changed by what was committed,
    and by nothing else. -/
theorem eq_replayed (before : m.staged[id]? = none) (h : Turn id none ws m m') :
    m' = { m with committed := Write.replay ws m.committed } := by
  have staged : m'.staged = m.staged := by
    refine Std.ExtTreeMap.ext_getElem? ?_
    intro other
    by_cases ho : other = id
    · rw [ho, h.area.eq_none, before]
    · exact h.elsewhere other ho
  rw [h.kept, staged]

end Turn

section Operations

variable {id : TransactionId} {ws : List Write} {m : Memory}

theorem start_turn (now : Timestamp) (h : m.staged[id]? = none) :
    (m.start id now).1 = .ok () ∧ Turn id (some []) [] m (m.start id now).2 := by
  rw [start_of_none now h]
  refine ⟨rfl, rfl, ?_, fun other ho => ?_⟩
  · rw [Std.ExtTreeMap.getElem?_insert_self]
    exact .opened now []
  · simp [Std.ExtTreeMap.getElem?_insert, Ne.symm ho]

theorem writeAll_turn (h : Area id (some ws) m.staged[id]?) {ws' : List Write}
    (accepted : ∀ w ∈ ws', Source.accepts m w = true) :
    Turn id (some (ws ++ ws')) [] m (Source.writeAll id ws' m) := by
  obtain ⟨now, area⟩ := h.eq_some
  obtain ⟨staged, written, area', elsewhere⟩ := writeAll_of_accepted ws' area accepted
  rw [written]
  refine ⟨rfl, ?_, elsewhere⟩
  rw [area', ← ChangeSet.stageAll_append]
  exact .opened now _

theorem erase_turn {done : List Write} {committed : Entries}
    (h : committed = Write.replay done m.committed) :
    Turn id none done m { m with committed := committed, staged := m.staged.erase id } := by
  refine ⟨by rw [h], ?_, fun other ho => ?_⟩
  · rw [Std.ExtTreeMap.getElem?_erase_self]
    exact .closed
  · simp [Std.ExtTreeMap.getElem?_erase, Ne.symm ho]

theorem commit_turn (h : Area id (some ws) m.staged[id]?) :
    (m.commit id).1 = .ok () ∧ Turn id none ws m (m.commit id).2 := by
  obtain ⟨now, area⟩ := h.eq_some
  rw [commit_of_some area]
  refine ⟨rfl, erase_turn ?_⟩
  rw [ChangeSet.apply_stageAll, ChangeSet.apply_start]

theorem rollback_turn (h : Area id (some ws) m.staged[id]?) :
    (m.rollback id).1 = .ok () ∧ Turn id none [] m (m.rollback id).2 := by
  obtain ⟨now, area⟩ := h.eq_some
  rw [rollback_of_some area]
  exact ⟨rfl, erase_turn rfl⟩

end Operations

end Memory

/-! ## Lists of sources, before and after

Positions and not names tell sources apart, as two sources may have the same name. An operation
keeps the positions, so that it is enough to compare the source at each of them.
-/

namespace Source

variable [Source σ] {wrap : Memory → σ} {R R' : Nat → Memory → Memory → Prop}
  {before between after : List σ}

/-- One source before and after: a memory has become another one, and nothing else has changed. -/
inductive Became (wrap : Memory → σ) (R : Memory → Memory → Prop) : σ → σ → Prop
  | same {s : σ} (readOnly : isMutable s = false) : Became wrap R s s
  | memory {m m' : Memory} (became : R m m') : Became wrap R (wrap m) (wrap m')

/-- The sources before and after, position by position. -/
def Moved (wrap : Memory → σ) (R : Nat → Memory → Memory → Prop) (before after : List σ) : Prop :=
  ∀ p, Option.Rel (Became wrap (R p)) before[p]? after[p]?

namespace Moved

theorem of_mapIdx {f : Nat → σ → σ}
    (each : ∀ p s, before[p]? = some s → Became wrap (R p) s (f p s)) :
    Moved wrap R before (before.mapIdx f) := by
  intro p
  rw [List.getElem?_mapIdx]
  cases hs : before[p]? with
  | none => exact .none
  | some s => exact .some (each p s hs)

theorem of_map {f : σ → σ} (each : ∀ p s, before[p]? = some s → Became wrap (R p) s (f s)) :
    Moved wrap R before (before.map f) := by
  rw [map_eq_mapIdx]
  exact of_mapIdx each

theorem refl (backed : Backed wrap (fun p m => R p m m) before) : Moved wrap R before before := by
  have moved : Moved wrap R before (before.map id) := of_map fun p s hs => by
    cases hm : isMutable s with
    | false => exact .same hm
    -- It can be written, so it is one of the memories that the assumption speaks of.
    | true =>
      obtain ⟨m, rfl, hr⟩ := backed p s hs hm
      exact .memory hr
  rwa [List.map_id] at moved

/-- What the sources after have in common with those before can be read off position by position. -/
theorem map_eq {α : Type} {f g : σ → α} (h : Moved wrap R before after)
    (each : ∀ p s s', before[p]? = some s → Became wrap (R p) s s' → f s' = g s) :
    after.map f = before.map g := by
  refine List.ext_getElem? ?_
  intro p
  rw [List.getElem?_map, List.getElem?_map]
  have related := h p
  cases hs : before[p]? with
  | none =>
    rw [hs] at related
    generalize after[p]? = now at related
    cases related
    rfl
  | some s =>
    rw [hs] at related
    generalize after[p]? = now at related
    cases related with
    | some became => exact congrArg some (each p s _ hs became)

theorem getElem? (h : Moved wrap R before after) {p : Nat} {s : σ} (hs : before[p]? = some s) :
    ∃ s', after[p]? = some s' ∧ Became wrap (R p) s s' := by
  have related := h p
  rw [hs] at related
  generalize after[p]? = now at related
  cases related with
  | some became => exact ⟨_, rfl, became⟩

theorem mono (h : Moved wrap R before after)
    (imp : ∀ p m m', before[p]? = some (wrap m) → R p m m' → R' p m m') :
    Moved wrap R' before after := by
  intro p
  have related := h p
  -- The relation is split at the source before, as what is known of `R` is known of that source.
  cases hs : before[p]? with
  | none =>
    rw [hs] at related
    generalize after[p]? = now at related ⊢
    cases related
    exact .none
  | some s =>
    rw [hs] at related
    generalize after[p]? = now at related ⊢
    cases related with
    | some became =>
      cases became with
      | same readOnly => exact .some (.same readOnly)
      | memory became => exact .some (.memory (imp p _ _ hs became))

/-- An operation on all sources that can be written, each of which grants it. -/
theorem of_each {P : Nat → Memory → Prop} {op : σ → Attempt SourceError σ}
    {inner : Memory → Attempt SourceError Memory}
    (through : ∀ m, op (wrap m) = Attempt.within wrap (inner m)) (held : Backed wrap P before)
    (granted : ∀ p m, P p m → (inner m).1 = .ok () ∧ R p m (inner m).2) :
    Spread.each isMutable op before = (.ok (), before.map (Spread.touched isMutable op)) ∧
    Moved wrap R before (before.map (Spread.touched isMutable op)) := by
  refine ⟨Spread.each_of_ok fun s hs hm => ?_, of_map fun p s hs => ?_⟩
  · obtain ⟨p, hp⟩ := List.mem_iff_getElem?.mp hs
    obtain ⟨m, rfl, hpm⟩ := held p s hp hm
    rw [through]
    exact (granted p m hpm).1
  · cases hm : isMutable s with
    | false =>
      rw [Spread.touched, if_neg (by rw [hm]; exact Bool.false_ne_true)]
      exact .same hm
    | true =>
      obtain ⟨m, rfl, hpm⟩ := held p s hs hm
      rw [Spread.touched, if_pos hm, through]
      exact .memory (granted p m hpm).2

variable (e : Embeds wrap)
include e

theorem trans {R'' : Nat → Memory → Memory → Prop} (h : Moved wrap R before between)
    (h' : Moved wrap R' between after)
    (comp : ∀ p m m' m'', before[p]? = some (wrap m) → R p m m' → R' p m' m'' → R'' p m m'') :
    Moved wrap R'' before after := by
  intro p
  have related := h p
  have related' := h' p
  cases hs : before[p]? with
  | none =>
    rw [hs] at related
    generalize between[p]? = mid, after[p]? = now at related related' ⊢
    cases related
    cases related'
    exact .none
  | some s =>
    rw [hs] at related
    generalize between[p]? = mid, after[p]? = now at related related' ⊢
    cases related with
    | some became =>
      cases related' with
      | some became' =>
        refine .some ?_
        cases became with
        | same readOnly =>
          cases became' with
          | same => exact .same readOnly
          | memory => rw [e.isMutable] at readOnly; exact nomatch readOnly
        | @memory m m' step =>
          generalize ht : wrap m' = t at became'
          cases became' with
          | same readOnly => rw [← ht, e.isMutable] at readOnly; exact nomatch readOnly
          | memory step' =>
            obtain rfl := e.injective ht
            exact .memory (comp p m _ _ hs step step')

theorem backed {P P' : Nat → Memory → Prop} (h : Moved wrap R before after)
    (held : Backed wrap P before)
    (kept : ∀ p m m', before[p]? = some (wrap m) → P p m → R p m m' → P' p m') :
    Backed wrap P' after := by
  intro p s' hs' hm'
  have related := h p
  rw [hs'] at related
  generalize hs : before[p]? = found at related
  cases related with
  | some became =>
    cases became with
    | same readOnly => rw [readOnly] at hm'; exact nomatch hm'
    | @memory m m' step => exact ⟨m', rfl, kept p m m' hs (held.memory e hs) step⟩

/-- Calls change nothing that routes look at. -/
theorem profiles {id : TransactionId} {draft : Nat → Option (List Write)} {done : Nat → List Write}
    (h : Moved wrap (fun p => Memory.Turn id (draft p) (done p)) before after) :
    after.map profile = before.map profile := by
  refine h.map_eq fun p s s' _ became => ?_
  cases became with
  | same => rfl
  | memory turn => exact e.profile_congr turn.name turn.readOnly

end Moved

end Source

/-! ## One call -/

/-- Whether a call opens a transaction if there is none. -/
def WriteCall.begins : WriteCall → Bool
  | .start | .change _ => true
  | .commit | .rollback => false

theorem WriteCall.begins_of_leavesOpen {auto : Bool} {call : WriteCall}
    (h : call.leavesOpen auto = true) : call.begins = true := by
  cases call with
  | start | change => rfl
  | commit | rollback => exact nomatch h

namespace View

/-- The transaction that a call is under: the one that is open, or the next one. -/
def target (v : View σ) (shared : Shared σ) : TransactionId := v.transaction?.getD shared.nextId

section Target

variable {v : View σ} {shared : Shared σ} {id : TransactionId} {now : Timestamp}

theorem target_of_idle (h : v.lifecycle = .idle) : v.target shared = shared.nextId := by
  rw [target, transaction?_of_idle h, Option.getD_none]

theorem target_of_working (h : v.lifecycle = .working id now) : v.target shared = id := by
  rw [target, transaction?_of_working h, Option.getD_some]

/-- Policy and automatic commit are all that a view has besides its lifecycle. -/
theorem SameSettings.eq_with {v' : View σ} (h : v.SameSettings v') :
    v' = { v with lifecycle := v'.lifecycle } := by
  obtain ⟨policy, auto, lifecycle⟩ := v'
  obtain ⟨rfl, rfl⟩ := h
  rfl

end Target

variable [Source σ] {wrap : Memory → σ}

/-- The sources that can be written are memories. If the transaction of the view is open, each of
    them has a draft of it, and otherwise none of them has an area under the next id. -/
structure Drafted (wrap : Memory → σ) (v : View σ) (shared : Shared σ)
    (draft : Nat → Option (List Write)) : Prop where
  opened : ∀ p, (draft p).isSome = v.transaction?.isSome
  areas : Source.Backed wrap
    (fun p m => Memory.Area (v.target shared) (draft p) m.staged[v.target shared]?)
    shared.context.sources

/-- A call that is granted, and has no other effect than its turn on each memory. -/
structure Granted (wrap : Memory → σ) (v : View σ) (shared : Shared σ) (r : Route)
    (draft : Nat → Option (List Write)) (call : WriteCall) (o : Outcome σ Unit) : Prop where
  answer : o.answer = .ok ()
  steady : o.view.lifecycle.Steady
  transaction : o.view.transaction? =
    if call.leavesOpen v.autoCommit then some (v.target shared) else none
  left : o.shared = (if call.begins && v.transaction?.isNone then shared.drawn
    else shared).withSources o.shared.context.sources
  moved : Source.Moved wrap (fun p =>
    let turn := call.turn v.autoCommit (r.share shared.context.sources p) (draft p)
    Memory.Turn (v.target shared) turn.1 turn.2) shared.context.sources o.shared.context.sources

variable {v : View σ} {shared : Shared σ} {r : Route} {draft : Nat → Option (List Write)}
  {id : TransactionId} {now : Timestamp}

namespace Granted

variable {call : WriteCall} {o : Outcome σ Unit}

theorem idle (h : Granted wrap v shared r draft call o)
    (closes : call.leavesOpen v.autoCommit = false) : o.view.lifecycle = .idle := by
  rcases h.steady with idle | ⟨id, now, working⟩
  · exact idle
  · have transaction := h.transaction
    rw [closes, if_neg Bool.false_ne_true, transaction?_of_working working] at transaction
    exact nomatch transaction

theorem working (h : Granted wrap v shared r draft call o)
    (opens : call.leavesOpen v.autoCommit = true) :
    ∃ now, o.view.lifecycle = .working (v.target shared) now := by
  have transaction := h.transaction
  rw [opens, if_pos rfl] at transaction
  rcases h.steady with idle | ⟨id, now, working⟩
  · rw [transaction?_of_idle idle] at transaction
    exact nomatch transaction
  · rw [transaction?_of_working working, Option.some_inj] at transaction
    exact ⟨now, transaction ▸ working⟩

end Granted

/-- Without a transaction there is no draft anywhere, and nobody has an area under the next id. -/
theorem Drafted.of_idle (h : Drafted wrap v shared draft) (idle : v.lifecycle = .idle) :
    draft = (fun _ => none) ∧ Source.Backed wrap (fun _ m => m.staged[shared.nextId]? = none)
      shared.context.sources := by
  have undrafted : draft = fun _ => none := by
    funext p
    have opened := h.opened p
    rw [transaction?_of_idle idle] at opened
    exact Option.not_isSome_iff_eq_none.mp (Bool.not_eq_true _ ▸ opened)
  have areas := h.areas
  rw [target_of_idle idle, undrafted] at areas
  exact ⟨undrafted, areas.mono fun p m _ area => area.eq_none⟩

/-- With a transaction there is a draft everywhere. The drafts are chosen for all positions at once,
    so that one function of the position names them from here on. -/
theorem Drafted.of_working (h : Drafted wrap v shared draft)
    (working : v.lifecycle = .working id now) :
    ∃ ws : Nat → List Write, draft = (fun p => some (ws p)) ∧
      Source.Backed wrap (fun p m => Memory.Area id (some (ws p)) m.staged[id]?)
        shared.context.sources := by
  have drafted (p : Nat) : ∃ ws, draft p = some ws := by
    have opened := h.opened p
    rw [transaction?_of_working working] at opened
    exact Option.isSome_iff_exists.mp opened
  obtain ⟨ws, hws⟩ := Classical.axiomOfChoice drafted
  have areas := h.areas
  rw [target_of_working working, funext hws] at areas
  exact ⟨ws, funext hws, areas⟩

/-- A write opens the transaction and is then a write under an open transaction. -/
theorem write_of_idle {stage : TransactionId → Spread σ} {v' : View σ} {shared' : Shared σ}
    (started : v.start shared = ⟨.ok id, v', shared', []⟩)
    (working : v'.lifecycle = .working id now) :
    v.write shared stage = v'.write shared' stage := by
  rw [write_of_started started, write_of_started (start_of_working working)]

variable (e : Source.Embeds wrap)
include e

/-- A start is granted by every memory, as none has an area under the next id. -/
theorem start_granted (shared : Shared σ) (idle : v.lifecycle = .idle)
    (free : Source.Backed wrap (fun _ m => m.staged[shared.nextId]? = none)
      shared.context.sources) :
    ∃ sources, v.start shared = ⟨.ok shared.nextId,
        { v with lifecycle := .working shared.nextId shared.nextTime },
        shared.drawn.withSources sources, []⟩ ∧
      Source.Moved wrap (fun _ => Memory.Turn shared.nextId (some []) []) shared.context.sources
        sources := by
  obtain ⟨granted, moved⟩ := Source.Moved.of_each (e.start shared.nextId shared.nextTime) free
    fun _ m none => Memory.start_turn shared.nextTime none
  exact ⟨_, start_of_granted idle granted, moved⟩

/-- A commit is granted by every memory that has the area, and makes the writes of its draft. -/
theorem commit_granted (shared : Shared σ) {ws : Nat → List Write}
    (working : v.lifecycle = .working id now)
    (drafted : Source.Backed wrap (fun p m => Memory.Area id (some (ws p)) m.staged[id]?)
      shared.context.sources) :
    ∃ sources, v.commit shared =
        ⟨.ok (), { v with lifecycle := .idle }, shared.withSources sources, []⟩ ∧
      Source.Moved wrap (fun p => Memory.Turn id none (ws p)) shared.context.sources sources := by
  obtain ⟨granted, moved⟩ := Source.Moved.of_each (e.commit id) drafted
    fun _ m area => Memory.commit_turn area
  exact ⟨_, commit_of_granted working granted, moved⟩

/-- A rollback is granted as well, and makes none of them. -/
theorem rollback_granted (shared : Shared σ) {ws : Nat → List Write}
    (working : v.lifecycle = .working id now)
    (drafted : Source.Backed wrap (fun p m => Memory.Area id (some (ws p)) m.staged[id]?)
      shared.context.sources) :
    ∃ sources, (v.rollback shared).answer = .ok () ∧
      (v.rollback shared).view = { v with lifecycle := .idle } ∧
      (v.rollback shared).shared = shared.withSources sources ∧
      Source.Moved wrap (fun _ => Memory.Turn id none []) shared.context.sources sources := by
  obtain ⟨-, moved⟩ := Source.Moved.of_each (e.rollback id) drafted
    fun _ m area => Memory.rollback_turn area
  obtain ⟨answer, view, after⟩ := rollback_of_working shared working
  rw [Source.rollbackAll_sources] at after
  exact ⟨_, answer, view, after, moved⟩

/-- A policy stages on every memory its share of a change. -/
theorem stage_granted {ws : Nat → List Write} {sources : List σ} (r : Route) (c : Change)
    (drafted : Source.Backed wrap (fun p m => Memory.Area id (some (ws p)) m.staged[id]?) sources) :
    ∃ after, r.policy.stage id c sources = (.ok (), after) ∧
      Source.Moved wrap (fun p => Memory.Turn id (some (ws p ++ r.share sources p c)) []) sources
        after := by
  -- That no source refuses is the first half, and it holds as every memory has the area.
  refine ⟨_, Route.stage_of_yields (e.yields id) r c (drafted.holds fun p m area => ?_), ?_⟩
  · obtain ⟨now, area⟩ := area.eq_some
    exact ⟨_, area⟩
  refine Source.Moved.of_mapIdx fun p s hs => ?_
  -- What goes to a source is accepted by it, so nothing goes to one that is only read.
  have accepted : ∀ w ∈ r.share sources p c, Source.accepts s w = true :=
    fun w hw => r.accepts_of_mem_share hs hw
  cases hm : Source.isMutable s with
  | true =>
    obtain ⟨m, rfl, area⟩ := drafted p s hs hm
    rw [e.writeAll]
    refine .memory (Memory.writeAll_turn area fun w hw => ?_)
    rw [← e.accepts]
    exact accepted w hw
  | false =>
    have nothing : r.share sources p c = [] := by
      refine List.eq_nil_iff_forall_not_mem.mpr fun w hw => ?_
      have mutable := Source.isMutable_of_accepts (accepted w hw)
      rw [hm] at mutable
      exact nomatch mutable
    rw [nothing]
    exact .same hm

/-- A change under an open transaction. -/
theorem write_granted (shared : Shared σ) {ws : Nat → List Write}
    (working : v.lifecycle = .working id now)
    (drafted : Source.Backed wrap (fun p m => Memory.Area id (some (ws p)) m.staged[id]?)
      shared.context.sources) (r : Route) (c : Change) :
    ∃ sources, v.write shared (fun id => r.policy.stage id c) =
        ⟨.ok (), { v with lifecycle := if v.autoCommit then .idle else .working id now },
          shared.withSources sources, []⟩ ∧
      Source.Moved wrap (fun p =>
        let turn := (WriteCall.change c).turn v.autoCommit (r.share shared.context.sources p)
          (some (ws p))
        Memory.Turn id turn.1 turn.2) shared.context.sources sources := by
  obtain ⟨staged, granted, moved⟩ := stage_granted e r c drafted
  rw [write_of_started (start_of_working working), granted]
  obtain ⟨policy, auto, lifecycle⟩ := v
  obtain rfl : lifecycle = .working id now := working
  -- With automatic commit the change is followed by a commit at once, and the two turns are put
  -- together. The commit finds in the areas what the change has left there.
  cases auto with
  | false => exact ⟨staged, rfl, moved⟩
  | true =>
    have gathered := moved.backed e drafted fun p m m' _ _ turn => turn.area
    obtain ⟨committed, answer, ended⟩ := commit_granted (v := ⟨policy, true, .working id now⟩) e
      (shared.withSources staged) rfl gathered
    refine ⟨committed, answer, moved.trans e ended fun p m m' m'' _ turn turn' => ?_⟩
    exact turn.trans turn'

/-- One call under an open transaction. -/
theorem perform_of_working (working : v.lifecycle = .working id now) (policy : v.policy = r.policy)
    (drafted : v.Drafted wrap shared draft) (call : WriteCall) :
    Granted wrap v shared r draft call (v.perform shared call) := by
  have target : v.target shared = id := target_of_working working
  have transaction := transaction?_of_working working
  have joined (call : WriteCall) :
      (if call.begins && v.transaction?.isNone then shared.drawn else shared) = shared := by
    rw [transaction, Option.isNone_some, Bool.and_false, if_neg Bool.false_ne_true]
  -- The transaction is open, so there is a draft at every position.
  obtain ⟨ws, rfl, areas⟩ := drafted.of_working working
  cases call with
  -- A start joins the open transaction and changes nothing.
  | start =>
    have answer : v.perform shared .start = ⟨.ok (), v, shared, []⟩ := by
      rw [perform, start_of_working working]
      rfl
    rw [answer]
    refine ⟨rfl, .inr ⟨id, now, working⟩, ?_, by rw [joined]; rfl, ?_⟩
    · rw [target]
      exact transaction
    · rw [target]
      exact .refl <| areas.mono fun p m _ area => .refl area
  | change c =>
    obtain ⟨sources, answer, moved⟩ := write_granted e shared working areas r c
    rw [perform_change, policy, answer]
    refine ⟨rfl, ?_, ?_, by rw [joined]; rfl, ?_⟩
    · cases v.autoCommit with
      | true => exact .inl rfl
      | false => exact .inr ⟨id, now, rfl⟩
    · rw [target]
      cases v.autoCommit with
      | true => rfl
      | false => rfl
    · rw [target]
      exact moved
  | commit =>
    obtain ⟨sources, answer, moved⟩ := commit_granted e shared working areas
    rw [perform_commit, answer]
    refine ⟨rfl, .inl rfl, rfl, rfl, ?_⟩
    rw [target]
    exact moved
  | rollback =>
    obtain ⟨sources, answer, view, left, moved⟩ := rollback_granted e shared working areas
    rw [perform_rollback]
    refine ⟨answer, .inl (by rw [view]), by rw [view]; rfl, by rw [left]; rfl, ?_⟩
    rw [target, left]
    exact moved

/-- One call of a view without a transaction. -/
theorem perform_of_idle (idle : v.lifecycle = .idle) (policy : v.policy = r.policy)
    (drafted : v.Drafted wrap shared draft) (call : WriteCall) :
    Granted wrap v shared r draft call (v.perform shared call) := by
  have target : v.target shared = shared.nextId := target_of_idle idle
  have transaction := transaction?_of_idle idle
  have begun (call : WriteCall) (h : call.begins = true) :
      (if call.begins && v.transaction?.isNone then shared.drawn else shared) = shared.drawn := by
    rw [h, transaction, Option.isNone_none, Bool.and_self, if_pos rfl]
  obtain ⟨rfl, free⟩ := drafted.of_idle idle
  -- Without a transaction a call that ends one does nothing.
  have unmoved : Source.Moved wrap (fun _ => Memory.Turn shared.nextId none [])
      shared.context.sources shared.context.sources :=
    .refl <| free.mono fun p m _ none => .refl (none ▸ .closed)
  -- What a start would do; the calls that begin a transaction do it first.
  obtain ⟨opened, started, moved⟩ := start_granted e shared idle free
  cases call with
  | commit =>
    rw [perform_commit, commit_of_idle idle]
    refine ⟨rfl, .inl idle, transaction, rfl, ?_⟩
    rw [target]
    exact unmoved
  | rollback =>
    rw [perform_rollback, rollback_of_idle idle]
    refine ⟨rfl, .inl idle, transaction, rfl, ?_⟩
    rw [target]
    exact unmoved
  | start =>
    rw [perform, started]
    refine ⟨rfl, .inr ⟨_, _, rfl⟩, by rw [target]; rfl, by rw [begun .start rfl]; rfl, ?_⟩
    rw [target]
    exact moved
  | change c =>
    -- A write under the transaction that has just been opened, with nothing drafted yet.
    let v' := { v with lifecycle := .working shared.nextId shared.nextTime }
    have drafted' : v'.Drafted wrap (shared.drawn.withSources opened) fun _ => some [] :=
      ⟨fun _ => rfl, moved.backed e free fun p m m' _ _ turn => turn.area⟩
    have again := perform_of_working (v := v') e rfl policy drafted' (.change c)
    rw [perform_change, write_of_idle started rfl, ← perform_change]
    obtain ⟨answer, steady, ended, left, written⟩ := again
    refine ⟨answer, steady, by rw [target]; exact ended, ?_, ?_⟩
    · rw [begun _ rfl]
      exact left
    · rw [target]
      -- The shares are worked out from the sources as the start has left them. It has changed no
      -- profile, so they are the same as before.
      have shares (p : Nat) : r.share opened p = r.share shared.context.sources p :=
        funext (r.share_congr (moved.profiles e) p)
      refine moved.trans e written fun p m m' m'' _ turn turn' => ?_
      have written : Memory.Turn shared.nextId
          ((WriteCall.change c).turn v.autoCommit (r.share opened p) (some [])).1
          ((WriteCall.change c).turn v.autoCommit (r.share opened p) (some [])).2 m' m'' := turn'
      rw [shares] at written
      exact turn.trans written

/-- **One call.** A call of a view that has one of the policies of this library is granted, and each
    memory is afterwards what its turn says. -/
theorem perform_turn (steady : v.lifecycle.Steady) (policy : v.policy = r.policy)
    (drafted : v.Drafted wrap shared draft) (call : WriteCall) :
    Granted wrap v shared r draft call (v.perform shared call) := by
  rcases steady with idle | ⟨id, now, working⟩
  · exact perform_of_idle e idle policy drafted call
  · exact perform_of_working e working policy drafted call

end View

end LayeredConfig
