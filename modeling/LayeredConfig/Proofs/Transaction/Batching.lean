import LayeredConfig.Proofs.Transaction.Turns

/-!
# One transaction or many

A sequence of changes can be made in one transaction, or with automatic commit, where each change is
a transaction of its own. **`Desk.run_batched` says that it comes to the same.** In one transaction
each memory gathers its shares of the changes in its draft and replays them at the commit; with
automatic commit it replays them as they come. Replaying one list after another is replaying both
(`Memory.replayed_append`), so nothing has to be known of how the changes follow each other.

Other views may be there, idle or with a transaction of their own, as long as no area is in the way
of the ids to come. Ids may repeat: a transaction that is over leaves no area.

## The two inductions

Both ways are an induction on the changes, from the first to the last, and each carries what the
next change needs. With automatic commit (`Desk.run_committing`) it is that no memory has an area
under an id to come: a change takes one id, and its area is gone when it is committed. In one
transaction (`Desk.run_gathering`) it is the drafts, which start anywhere, so that the induction can
be used for the changes that are left.

In both the shares are those of the sources at the beginning. They would be worked out from the
sources as they are when the change is made, but these have the same profiles.

A start before the first change can be left out (`Desk.run_start_change`), so that there is one
proof for both openings; and a batch of no changes at all, which never opens anything, is looked at
by itself.
-/

set_option autoImplicit false

namespace LayeredConfig

variable {ι σ : Type}

/-! ## What is left of a memory

When a transaction is over a memory is known by what has been committed to it. That is a function of
the memory before (`Memory.replayed`), so that two lists of sources of which it is known are equal
(`Source.Replayed.unique`), and with them the contexts.
-/

/-- A memory to which writes have been committed. Its areas are what they were. -/
def Memory.replayed (ws : List Write) (m : Memory) : Memory :=
  { m with committed := Write.replay ws m.committed }

theorem Memory.replayed_append (ws ws' : List Write) (m : Memory) :
    (m.replayed ws).replayed ws' = m.replayed (ws ++ ws') :=
  congrArg (fun committed => { m with committed := committed }) (Write.replay_append ws ws' _).symm

namespace Source

variable [Source σ] {wrap : Memory → σ} {before after after' : List σ}

/-- The sources after writes have been committed to each memory. -/
def Replayed (wrap : Memory → σ) (ws : Nat → List Write) : List σ → List σ → Prop :=
  Moved wrap fun p m m' => m' = m.replayed (ws p)

/-- No memory has an area under an id that is still to come. -/
def Unclaimed (wrap : Memory → σ) (shared : Shared σ) : Prop :=
  Backed wrap (fun _ m => ∀ k, m.staged[shared.supply.id (shared.supply.next + k)]? = none)
    shared.context.sources

/-- The next id is one of those to come. -/
theorem Unclaimed.next {shared : Shared σ} (h : Unclaimed wrap shared) :
    Backed wrap (fun _ m => m.staged[shared.nextId]? = none) shared.context.sources :=
  h.mono fun _ _ _ none => none 0

variable (e : Embeds wrap)
include e

/-- What is committed first comes first. -/
theorem Replayed.trans {between : List σ} {ws ws' : Nat → List Write}
    (h : Replayed wrap ws before between) (h' : Replayed wrap ws' between after) :
    Replayed wrap (fun p => ws p ++ ws' p) before after :=
  Moved.trans e h h' fun p m m' m'' _ hm hm' => by rw [hm', hm, Memory.replayed_append]

/-- A commit changes no profile. -/
theorem Replayed.profiles {ws : Nat → List Write} (h : Replayed wrap ws before after) :
    after.map profile = before.map profile := by
  refine h.map_eq fun p s s' _ became => ?_
  cases became with
  | same => rfl
  | @memory m m' hm =>
    rw [hm]
    exact e.profile_congr rfl rfl

/-- What has been committed decides what the sources are. -/
theorem Replayed.unique {ws : Nat → List Write} (h : Replayed wrap ws before after)
    (h' : Replayed wrap ws before after') : after = after' := by
  refine List.ext_getElem? fun p => ?_
  have related := h p
  have related' := h' p
  generalize before[p]? = s, after[p]? = s₁, after'[p]? = s₂ at related related'
  cases related with
  | none =>
    cases related'
    rfl
  | some became =>
    cases related' with
    | some became' =>
      refine congrArg some ?_
      -- A source that is only read is the same in both, and a memory has become the same memory in
      -- both; the mixed cases contradict each other in what can be written.
      cases became with
      | same readOnly =>
        cases became' with
        | same => rfl
        | memory => rw [e.isMutable] at readOnly; exact nomatch readOnly
      | @memory m m₁ step =>
        generalize ht : wrap m = t at became'
        cases became' with
        | same readOnly => rw [← ht, e.isMutable] at readOnly; exact nomatch readOnly
        | memory step' =>
          obtain rfl := e.injective ht
          rw [step, step']

end Source

/-! ## The two ways -/

namespace Desk

variable [Source σ] [DecidableEq ι] {wrap : Memory → σ} {i : ι} {r : Route}
  {d : Desk ι σ} {id : TransactionId} {now : Timestamp}

/-- The changes as calls of one view. -/
def changesOf (i : ι) (changes : List Change) : List (ι × WriteCall) :=
  changes.map fun c => (i, .change c)

/-- What a start of a view leaves at its desk. -/
theorem after_start {v : View σ} {shared : Shared σ}
    (started : (d.view i).start d.shared = ⟨.ok id, v, shared, []⟩) :
    d.after i .start = ⟨shared, Function.update d.view i v⟩ := by
  have outcome : d.perform i .start = ⟨.ok (), v, shared, []⟩ := by
    rw [perform, View.perform, started]
    rfl
  rw [after, outcome]

variable (e : Source.Embeds wrap)
include e

/-- A change with automatic commit is committed at once, and the next id is as free as this one. -/
theorem after_committing (c : Change) (view : d.view i = ⟨r.policy, true, .idle⟩)
    (unclaimed : Source.Unclaimed wrap d.shared) :
    let next := d.after i (.change c)
    next.view = d.view ∧
    next.shared.context = { d.shared.context with sources := next.shared.context.sources } ∧
    Source.Unclaimed wrap next.shared ∧
    Source.Replayed wrap (fun p => r.share d.shared.context.sources p c) d.shared.context.sources
      next.shared.context.sources := by
  intro next
  have free := unclaimed.next
  have drafted : View.Drafted wrap ⟨r.policy, true, .idle⟩ d.shared fun _ => none := by
    refine ⟨fun _ => rfl, free.mono fun p m _ none => ?_⟩
    rw [View.target_of_idle rfl, none]
    exact .closed
  have granted := View.perform_turn (v := ⟨r.policy, true, .idle⟩) e (.inl rfl) rfl drafted
    (.change c)
  have settings := (d.view i).perform_settings d.shared (.change c)
  rw [view] at settings
  have outcome : d.perform i (.change c) =
      View.perform ⟨r.policy, true, .idle⟩ d.shared (.change c) :=
    congrArg (fun v : View σ => v.perform d.shared (.change c)) view
  rw [← outcome] at granted settings
  have ended : (d.perform i (.change c)).view = d.view i := by
    rw [settings.eq_with, granted.idle rfl, view]
  have left : next.shared = d.shared.drawn.withSources next.shared.context.sources := granted.left
  -- The turn leaves no area under the id, and there was none before; so all that is left of it is
  -- what has been committed.
  have replayed : Source.Replayed wrap (fun p => r.share d.shared.context.sources p c)
      d.shared.context.sources next.shared.context.sources :=
    Source.Moved.mono granted.moved fun p m m' hs turn => turn.eq_replayed (free.memory e hs)
  refine ⟨?_, ?_, ?_, replayed⟩
  · show Function.update d.view i _ = d.view
    rw [ended, Function.update_eq_self]
  · rw [left]
    rfl
  · rw [left]
    refine replayed.backed e unclaimed fun p m m' _ none hm k => ?_
    rw [hm]
    -- One id has been drawn, so the next ones are counted from there.
    have later := none (k + 1)
    rw [Nat.add_comm k 1, ← Nat.add_assoc] at later
    exact later

/-- With automatic commit every change is committed by itself. -/
theorem run_committing (changes : List Change) {d : Desk ι σ}
    (view : d.view i = ⟨r.policy, true, .idle⟩) (unclaimed : Source.Unclaimed wrap d.shared) :
    let after := d.run (changesOf i changes)
    after.view = d.view ∧
    after.shared.context = { d.shared.context with sources := after.shared.context.sources } ∧
    Source.Replayed wrap (fun p => changes.flatMap (r.share d.shared.context.sources p))
      d.shared.context.sources after.shared.context.sources := by
  induction changes generalizing d with
  | nil => exact ⟨rfl, rfl, .refl <| unclaimed.mono fun p m _ _ => rfl⟩
  | cons c changes ih =>
    obtain ⟨same, context, unclaimed', replayed⟩ := after_committing e c view unclaimed
    -- The view is as idle as before, so the rest is a run of the same kind.
    obtain ⟨same', context', replayed'⟩ := ih (d := d.after i (.change c)) (same ▸ view) unclaimed'
    have shares (p : Nat) : r.share (d.after i (.change c)).shared.context.sources p =
        r.share d.shared.context.sources p := funext (r.share_congr (replayed.profiles e) p)
    simp only [shares] at replayed'
    refine ⟨same'.trans same, ?_, replayed.trans e replayed'⟩
    rw [context] at context'
    exact context'

/-- Without automatic commit the changes are gathered in the drafts of the open transaction. -/
theorem run_gathering (changes : List Change) {d : Desk ι σ} (ws : Nat → List Write)
    (view : d.view i = ⟨r.policy, false, .working id now⟩)
    (drafted : Source.Backed wrap (fun p m => Memory.Area id (some (ws p)) m.staged[id]?)
      d.shared.context.sources) :
    let after := d.run (changesOf i changes)
    after.view = d.view ∧ after.shared = d.shared.withSources after.shared.context.sources ∧
    Source.Moved wrap (fun p => Memory.Turn id
        (some (ws p ++ changes.flatMap (r.share d.shared.context.sources p))) [])
      d.shared.context.sources after.shared.context.sources := by
  induction changes generalizing d ws with
  | nil =>
    refine ⟨rfl, rfl, .refl <| drafted.mono fun p m _ area => ?_⟩
    rw [List.flatMap_nil, List.append_nil]
    exact .refl area
  | cons c changes ih =>
    obtain ⟨sources, answer, moved⟩ :=
      View.write_granted (v := ⟨r.policy, false, .working id now⟩) e d.shared rfl drafted r c
    have outcome : d.perform i (.change c) =
        ⟨.ok (), ⟨r.policy, false, .working id now⟩, d.shared.withSources sources, []⟩ := by
      rw [perform, view, View.perform_change, answer]
      rfl
    have next : d.after i (.change c) = ⟨d.shared.withSources sources, d.view⟩ := by
      rw [after, outcome]
      show (⟨_, Function.update d.view i _⟩ : Desk ι σ) = _
      rw [← view, Function.update_eq_self]
    have shares (p : Nat) : r.share sources p = r.share d.shared.context.sources p :=
      funext (r.share_congr (moved.profiles e) p)
    obtain ⟨same, left, moved'⟩ := ih (d := ⟨d.shared.withSources sources, d.view⟩)
      (fun p => ws p ++ r.share d.shared.context.sources p c) view
      (moved.backed e drafted fun p m m' _ _ turn => turn.area)
    rw [changesOf, List.map_cons, run_cons, next]
    refine ⟨same, left, moved.trans e moved' fun p m m' m'' _ turn turn' => ?_⟩
    have both := turn.trans turn'
    have now : (Desk.mk (d.shared.withSources sources) d.view).shared.context.sources = sources := rfl
    rw [now, shares, List.append_assoc, ← List.flatMap_cons] at both
    exact both

/-- A start, the changes and a commit: each memory replays at the commit what it has gathered. -/
theorem run_started (changes : List Change) (view : d.view i = ⟨r.policy, false, .idle⟩)
    (unclaimed : Source.Unclaimed wrap d.shared) :
    let after := d.run ((i, .start) :: changesOf i changes ++ [(i, .commit)])
    after.view = d.view ∧
    after.shared.context = { d.shared.context with sources := after.shared.context.sources } ∧
    Source.Replayed wrap (fun p => changes.flatMap (r.share d.shared.context.sources p))
      d.shared.context.sources after.shared.context.sources := by
  have free := unclaimed.next
  obtain ⟨opened, answer, started⟩ := View.start_granted (v := ⟨r.policy, false, .idle⟩) e d.shared
    rfl free
  -- The desk after the start.
  let v : View σ := ⟨r.policy, false, .working d.shared.nextId d.shared.nextTime⟩
  let working : Desk ι σ := ⟨d.shared.drawn.withSources opened, Function.update d.view i v⟩
  have next : d.after i .start = working := after_start (by rw [view]; exact answer)
  -- The drafts are empty at first.
  obtain ⟨same, left, moved⟩ := run_gathering (d := working) e changes (fun _ => [])
    (Function.update_self ..) (started.backed e free fun p m m' _ _ turn => turn.area)
  generalize hmade : working.run (changesOf i changes) = made at same left moved
  have gathered : Source.Moved wrap (fun p => Memory.Turn d.shared.nextId
      (some (changes.flatMap (r.share d.shared.context.sources p))) [])
      d.shared.context.sources made.shared.context.sources := by
    refine started.trans e moved fun p m m' m'' _ turn turn' => ?_
    have shares : r.share opened p = r.share d.shared.context.sources p :=
      funext (r.share_congr (started.profiles e) p)
    rw [show working.shared.context.sources = opened from rfl, shares] at turn'
    exact turn.trans turn'
  have viewed : made.view i = v := by rw [same]; exact Function.update_self ..
  obtain ⟨committed, answer', ended⟩ := View.commit_granted (v := v) e made.shared rfl
    (gathered.backed e free fun p m m' _ _ turn => turn.area)
  -- The commit finds the drafts that were gathered, and gives the view back as it was at the
  -- beginning.
  have closed : made.after i .commit =
      ⟨made.shared.withSources committed, Function.update made.view i (d.view i)⟩ := by
    have outcome : made.perform i .commit =
        ⟨.ok (), d.view i, made.shared.withSources committed, []⟩ := by
      rw [perform, viewed, View.perform_commit, answer', view]
    rw [after, outcome]
  rw [List.cons_append, run_cons, next, run_append, hmade, run_cons, closed]
  refine ⟨?_, ?_, gathered.trans e ended fun p m m' m'' hs turn turn' => ?_⟩
  · show Function.update made.view i (d.view i) = d.view
    rw [same, Function.update_idem, Function.update_eq_self]
  · show (made.shared.withSources committed).context = _
    rw [left]
    rfl
  · exact (turn.trans turn').eq_replayed (free.memory e hs)

/-- A start before the first change makes no difference. -/
theorem run_start_change {c : Change} {rest : List (ι × WriteCall)}
    (view : d.view i = ⟨r.policy, false, .idle⟩) (unclaimed : Source.Unclaimed wrap d.shared) :
    d.run ((i, .start) :: (i, .change c) :: rest) = d.run ((i, .change c) :: rest) := by
  obtain ⟨opened, answer, -⟩ := View.start_granted (v := ⟨r.policy, false, .idle⟩) e d.shared
    rfl unclaimed.next
  let v : View σ := ⟨r.policy, false, .working d.shared.nextId d.shared.nextTime⟩
  have next : d.after i .start =
      ⟨d.shared.drawn.withSources opened, Function.update d.view i v⟩ :=
    after_start (by rw [view]; exact answer)
  -- A change under the transaction that was just opened, and a change that opens it itself.
  have same : (d.after i .start).perform i (.change c) = d.perform i (.change c) := by
    have working : (d.after i .start).view i = v := by rw [next]; exact Function.update_self ..
    have left : (d.after i .start).shared = d.shared.drawn.withSources opened := by rw [next]
    rw [perform, perform, working, left, view, View.perform_change, View.perform_change,
      View.write_of_idle answer rfl]
  rw [run_cons, run_cons, run_cons]
  refine congrArg (fun d : Desk ι σ => d.run rest) ?_
  show Desk.mk _ _ = Desk.mk _ _
  rw [same, next]
  exact congrArg _ (Function.update_idem ..)

omit e in
/-- Without changes there is no transaction to commit. -/
theorem run_commit_of_idle (idle : (d.view i).lifecycle = .idle) : d.run [(i, .commit)] = d := by
  have outcome : d.perform i .commit = ⟨.ok (), d.view i, d.shared, [.nothingToCommit]⟩ := by
    rw [perform, View.perform_commit, View.commit_of_idle idle]
  show Desk.mk _ _ = d
  rw [outcome]
  exact congrArg _ (Function.update_eq_self ..)

end Desk

/-- **Batching makes no difference.** A view makes changes to sources of which those that can be
    written are memories, under one of the policies of this library: once in one transaction, which
    is opened by a start or by the first change, and committed at the end; and once with automatic
    commit. Then

    * there is the same context afterwards, so every source has the same committed;
    * the view is as idle as it was before, both times, and other views are where they were;
    * to each memory its shares of the changes have been committed, one after another, and nothing
      else has changed in any source. -/
theorem Desk.run_batched [Source σ] [DecidableEq ι] {wrap : Memory → σ} (e : Source.Embeds wrap)
    (shared : Shared σ) (unclaimed : Source.Unclaimed wrap shared) (view : ι → View σ) (i : ι)
    (r : Route) (changes : List Change) (started : Bool) :
    let desk (auto : Bool) : Desk ι σ := ⟨shared, Function.update view i ⟨r.policy, auto, .idle⟩⟩
    let opening : List (ι × WriteCall) := if started then [(i, .start)] else []
    let batch := (desk false).run (opening ++ changesOf i changes ++ [(i, .commit)])
    let single := (desk true).run (changesOf i changes)
    batch.shared.context = single.shared.context ∧
    (batch.view i).lifecycle = .idle ∧ (single.view i).lifecycle = .idle ∧
    batch.view = (desk false).view ∧ single.view = (desk true).view ∧
    Source.Replayed wrap (fun p => changes.flatMap (r.share shared.context.sources p))
      shared.context.sources batch.shared.context.sources := by
  intro desk opening batch single
  have view (auto : Bool) : (desk auto).view i = ⟨r.policy, auto, .idle⟩ := Function.update_self ..
  obtain ⟨viewed, context, replayed⟩ := run_committing e changes (view true) unclaimed
  have batched : batch.view = (desk false).view ∧
      batch.shared.context = { shared.context with sources := batch.shared.context.sources } ∧
      Source.Replayed wrap (fun p => changes.flatMap (r.share shared.context.sources p))
        shared.context.sources batch.shared.context.sources := by
    -- The batch that begins with a start; the other one comes to the same.
    have from_start := run_started e changes (view false) unclaimed
    cases started with
    | true => exact from_start
    | false =>
      cases changes with
      | nil =>
        have unchanged : batch = desk false := run_commit_of_idle (by rw [view])
        rw [unchanged]
        exact ⟨rfl, rfl, .refl <| unclaimed.mono fun p m _ _ => rfl⟩
      | cons c changes =>
        have same : (desk false).run ((i, .start) :: changesOf i (c :: changes) ++ [(i, .commit)]) =
            batch := run_start_change e (view false) unclaimed
        rw [same] at from_start
        exact from_start
  obtain ⟨viewed', context', replayed'⟩ := batched
  refine ⟨?_, by rw [viewed', view], by rw [viewed, view], viewed', viewed, replayed'⟩
  rw [context, context', replayed'.unique e replayed]

/-- Two memories over a table, one of them with a read-only prefix and with changes of another
    writer staged on it. The same keys are written and removed in turns, in bulk and one by one,
    under ids that are all the same. -/
theorem Desk.run_batched_repeated_keys :
    let other := TransactionId.ofNat 7
    let low := { Memory.ofPairs "low" 0 ["sys."] [("a", "0"), ("b", "0")] with
      staged := (∅ : Std.ExtTreeMap TransactionId ChangeSet).insert other
        ((ChangeSet.start other ⟨0, 0⟩).put "a" "9") }
    let high := Memory.ofPairs "high" 2 [] [("a", "0")]
    let table := AnySource.table ⟨"table", 1, .ofPairs [("a", "0")]⟩
    let shared : Shared AnySource :=
      { Shared.numbered [.memory high, table, .memory low] with
        supply := ⟨fun _ => .ofNat 0, fun n => ⟨n, 0⟩, 0⟩ }
    let changes : List Change := [.put "a" "1", .putAll (.ofPairs [("b", "2"), ("sys.x", "2")]),
      .remove ["b", "a", "b"], .put "b" "3"]
    let desk (auto : Bool) : Desk Unit AnySource :=
      ⟨shared, Function.update (fun _ => .fresh) () ⟨Route.policy .all, auto, .idle⟩⟩
    let batch := (desk false).run ([] ++ changesOf () changes ++ [((), .commit)])
    let single := (desk true).run (changesOf () changes)
    Source.Unclaimed AnySource.memory shared ∧
    batch.shared.context.sources.map AnySource.committed? =
      single.shared.context.sources.map AnySource.committed? ∧
    batch.shared.context.sources.map AnySource.committed? =
      [some (Entries.ofPairs [("b", "3"), ("sys.x", "2")]), none,
        some (Entries.ofPairs [("b", "3")])] := by
  intro other low high table shared changes desk batch single
  have free : low.staged[TransactionId.ofNat 0]? = none := by decide +kernel
  have unclaimed : Source.Unclaimed AnySource.memory shared := by
    intro p s hs hm
    match p, hs with
    | 0, rfl => exact ⟨high, rfl, fun _ => rfl⟩
    | 1, rfl => exact nomatch hm
    | 2, rfl => exact ⟨low, rfl, fun _ => free⟩
  have same : batch.shared.context = single.shared.context := by
    -- With the sources left open, the two runs are not evaluated to see that they are the right ones.
    clear_value shared changes
    exact (run_batched AnySource.embeds shared unclaimed (fun _ => .fresh) () .all changes false).1
  have alike : batch.shared.context.sources.map AnySource.committed? =
      single.shared.context.sources.map AnySource.committed? := by rw [same]
  exact ⟨unclaimed, alike, alike.trans (by decide +kernel)⟩

end LayeredConfig
