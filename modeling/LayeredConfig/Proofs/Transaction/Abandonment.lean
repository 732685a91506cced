import LayeredConfig.Proofs.Source.Inside
import LayeredConfig.Proofs.Transaction.Desk

/-!
# A transaction that is given up leaves nothing behind

Any source may refuse any operation, and the views go on. **`Desk.nothing_left_behind` says what can
be relied on all the same**: when a transaction is over, no source has a staging area for it, unless
it refuses to roll back; and a transaction that is not committed has at no point touched what a
source has committed or what others have staged.

An operation under one transaction keeps all that a source holds besides the staging area of that
transaction (`AnySource.besides`), and so does every list of such operations, however far it gets.
That leaves the commit, which does more and is followed by nothing. `View.Course` has the ways in
which one call can go, with that much said of each, and everything here is read off it.

The sources are in no way constrained. Between two calls they may even change by themselves, as
they do when they are used by others or when a guard refuses something else than before.

## Why it is said of courses

It would be of no use to say of each call what it answers: any source may refuse anything, so that a
call may answer nearly everything. What can be told apart is how it leaves the transaction. It may
still be open (`stays`), it may not have come about (`unstarted`), it may be rolled back, or it may
be committed, wholly or in part. Only in the last case something outside the transaction has
changed, and only in the first one it is not over. A commit that fails halfway is the reason why
nothing is said here of what is committed then; the sources above the one that failed keep what they
have.

That a history leaves each view idle or with an open transaction (`Desk.Steady`) is all that is
carried through it. It is enough, as a course is told for any sources, so that nothing needs to be
known of what has been done to them before.
-/

set_option autoImplicit false

namespace LayeredConfig

variable {ι : Type}

/-! ## Sources under one transaction

A source refuses by its guard, and a guard decides by the operation alone. So one that has let a
rollback through would let it through again, and it can be told afterwards which sources had to be
released.
-/

/-- Whether a source refuses to roll back. -/
def AnySource.refusesRollback : AnySource → Bool
  | .guarded g => g.refuses .rollback
  | _ => false

/-- Lists of sources that hold the same, apart from the staging areas of one transaction. -/
def SameBesides (id : TransactionId) (before after : List AnySource) : Prop :=
  after.map (AnySource.besides id) = before.map (AnySource.besides id)

/-- No source has a staging area for a transaction, unless it refuses to roll back. -/
def Released (id : TransactionId) (sources : List AnySource) : Prop :=
  ∀ s ∈ sources, s.refusesRollback = false → s.area? id = none

section Sources

variable {id : TransactionId} {before between after : List AnySource}

theorem SameBesides.trans (h : SameBesides id before between) (h' : SameBesides id between after) :
    SameBesides id before after := Eq.trans h' h

/-- What is committed does not depend on any staging area. -/
theorem SameBesides.committed (h : SameBesides id before after) :
    after.map AnySource.committed? = before.map AnySource.committed? := by
  have through := congrArg (List.map (Option.map Memory.committed)) h
  simp only [List.map_map, Function.comp_def, ← AnySource.committed?_eq_besides] at through
  exact through

/-- Nor does a staging area depend on the one of another transaction. -/
theorem SameBesides.areas (h : SameBesides id before after) {other : TransactionId}
    (ho : other ≠ id) :
    after.map (AnySource.area? other) = before.map (AnySource.area? other) := by
  have through := congrArg
    (List.map fun m : Option Memory => m.bind fun m => m.staged[other]?) h
  simp only [List.map_map, Function.comp_def, ← AnySource.area?_eq_besides ho] at through
  exact through

/-- However far the start gets, it opens areas of its transaction only. -/
theorem startAll_same (id : TransactionId) (now : Timestamp) (sources : List AnySource) :
    SameBesides id sources (Spread.each Source.isMutable (Source.start id now) sources).2 :=
  Spread.each_keeps (AnySource.start_besides id now) _ sources

/-- However far the staging gets, it writes to areas of its transaction only. -/
theorem Route.stage_same (r : Route) (id : TransactionId) (c : Change) (sources : List AnySource) :
    SameBesides id sources (r.policy.stage id c sources).2 :=
  r.stage_keeps (AnySource.put_besides id) (AnySource.putAll_besides id)
    (AnySource.remove_besides id) c sources

/-- A rollback everywhere removes areas of its transaction, and nothing else. -/
theorem rollbackAll_same (id : TransactionId) (sources : List AnySource) :
    SameBesides id sources (Source.rollbackAll id sources).1 := by
  unfold SameBesides
  rw [Source.rollbackAll_sources, List.map_map]
  refine List.map_congr_left ?_
  intro s _
  rw [Function.comp_apply, Spread.touched]
  -- A source that cannot be written is passed over.
  split
  · exact AnySource.rollback_besides id s
  · rfl

/-- A guard that lets the rollback through has let it through before. -/
theorem rollbackAll_released (id : TransactionId) (sources : List AnySource) :
    Released id (Source.rollbackAll id sources).1 := by
  intro s' hs' hr
  rw [Source.rollbackAll_sources] at hs'
  obtain ⟨s, -, rfl⟩ := List.mem_map.mp hs'
  cases s with
  | table | scripted => rfl
  | memory m => exact Memory.rollback_area m
  | guarded g =>
    have reached : Spread.touched Source.isMutable (Source.rollback id) (AnySource.guarded g) =
        .guarded (Guarded.guard .rollback (Memory.rollback id) g).2 := rfl
    rw [reached] at hr ⊢
    cases hg : g.refuses .rollback with
    | true => simp [Guarded.guard, hg, AnySource.refusesRollback] at hr
    | false =>
      simp only [Guarded.guard, hg]
      exact Memory.rollback_area g.inner

/-- A commit on all sources has closed the staging area on every one of them. -/
theorem commitAll_released (id : TransactionId) (sources : List AnySource)
    (granted : (Spread.each Source.isMutable (Source.commit id) sources).1 = .ok ()) :
    Released id (Spread.each Source.isMutable (Source.commit id) sources).2 := by
  intro s' hs' _
  have hc := Spread.each_course Source.isMutable (Source.commit id) sources
  generalize Spread.each Source.isMutable (Source.commit id) sources = result at *
  cases hc with
  -- The commit was granted everywhere, so none has stopped it.
  | stopped => exact nomatch granted
  | through oks =>
    obtain ⟨s, hs, rfl⟩ := List.mem_map.mp hs'
    cases s with
    | table | scripted => rfl
    | memory m => exact Memory.commit_area m
    | guarded g =>
      have ok : (Guarded.guard .commit (Memory.commit id) g).1 = .ok () := oks _ hs rfl
      have reached : Spread.touched Source.isMutable (Source.commit id) (AnySource.guarded g) =
          .guarded (Guarded.guard .commit (Memory.commit id) g).2 := rfl
      rw [reached]
      cases hg : g.refuses .commit with
      | true => simp [Guarded.guard, hg] at ok
      | false =>
        simp only [Guarded.guard, hg]
        exact Memory.commit_area g.inner

end Sources

/-! ## One call -/

/-- The transaction that a call belongs to: the one that is open, or the one that it opens first. A
    commit or a rollback without an open transaction belongs to none. -/
def View.belongs (v : View AnySource) (shared : Shared AnySource) :
    WriteCall → Option TransactionId
  | .start | .change _ => some (v.transaction?.getD shared.nextId)
  | .commit | .rollback => v.transaction?

/-- The ways in which a call of the transaction `id` can go. -/
inductive View.Course (id : TransactionId) (before : List AnySource) (call : WriteCall)
    (o : Outcome AnySource Unit) : Prop
  | stays (now : Timestamp) (asked : call ≠ .commit ∧ call ≠ .rollback)
    (lifecycle : o.view.lifecycle = .working id now)
    (answer : ∀ e, o.answer = .error e → ∃ f, e = .staging id f)
    (same : SameBesides id before o.shared.context.sources)
  | unstarted (failure : SourceFailure) (answer : o.answer = .error (.start id failure))
    (lifecycle : o.view.lifecycle = .idle) (same : SameBesides id before o.shared.context.sources)
    (released : Released id o.shared.context.sources)
  | rolledBack (asked : call = .rollback) (answer : o.answer = .ok ())
    (lifecycle : o.view.lifecycle = .idle) (same : SameBesides id before o.shared.context.sources)
    (released : Released id o.shared.context.sources)
  | committed (asked : call ≠ .rollback)
    (answer : ∀ e, o.answer = .error e → ∃ f, e = .commit id f)
    (lifecycle : o.view.lifecycle = .idle) (released : Released id o.shared.context.sources)

namespace View

variable {v : View AnySource} {shared : Shared AnySource} {id : TransactionId}

/-- A start opens the transaction or joins it, or it fails, and then the sources have been
    released. -/
theorem start_cases (steady : v.lifecycle.Steady) (hid : v.transaction?.getD shared.nextId = id) :
    (∃ now shared', v.start shared =
        ⟨.ok id, { v with lifecycle := .working id now }, shared', []⟩ ∧
      SameBesides id shared.context.sources shared'.context.sources) ∨
    ∃ failure, (v.start shared).answer = .error (.start id failure) ∧
      (v.start shared).view.lifecycle = .idle ∧
      SameBesides id shared.context.sources (v.start shared).shared.context.sources ∧
      Released id (v.start shared).shared.context.sources := by
  rcases steady with hl | ⟨id', now, hl⟩
  · obtain rfl : shared.nextId = id := by rw [← hid, transaction?_of_idle hl, Option.getD_none]
    -- A start that stops halfway has opened areas above, and they are rolled back: both are done
    -- under the same transaction.
    have same := startAll_same shared.nextId shared.nextTime shared.context.sources
    cases hs : Spread.each Source.isMutable (Source.start shared.nextId shared.nextTime)
      shared.context.sources with
    | mk answer sources =>
      rw [hs] at same
      cases answer with
      | ok _ =>
        exact .inl ⟨_, _, start_of_granted hl hs, same⟩
      | error failure =>
        obtain ⟨ha, hv, hsh⟩ := start_of_refused hl hs
        rw [ha, hv, hsh]
        exact .inr ⟨failure, rfl, rfl, same.trans (rollbackAll_same _ sources),
          rollbackAll_released _ sources⟩
  · obtain rfl : id' = id := by rw [← hid, transaction?_of_working hl, Option.getD_some]
    exact .inl ⟨now, shared, by rw [start_of_working hl, ← hl], rfl⟩

/-- A commit ends the transaction, granted or not, and releases every source. -/
theorem commit_cases (shared : Shared AnySource) {now : Timestamp} (h : v.lifecycle = .working id now) :
    (∀ e, (v.commit shared).answer = .error e → ∃ f, e = .commit id f) ∧
    (v.commit shared).view.lifecycle = .idle ∧
    Released id (v.commit shared).shared.context.sources := by
  have released := commitAll_released id shared.context.sources
  cases hc : Spread.each Source.isMutable (Source.commit id) shared.context.sources with
  | mk answer sources =>
    rw [hc] at released
    cases answer with
    | ok _ =>
      rw [commit_of_granted h hc]
      exact ⟨fun _ he => (nomatch he), rfl, released rfl⟩
    -- After a failure the transaction is given up, and that releases the sources whether they have
    -- committed or not.
    | error failure =>
      obtain ⟨ha, hv, hs⟩ := commit_of_refused h hc
      rw [ha, hv, hs]
      refine ⟨fun e he => ⟨failure, ?_⟩, rfl, rollbackAll_released id sources⟩
      exact (Except.error.inj he).symm

/-- A write under any staging that leaves everything else on the sources alone. -/
theorem write_course {stage : TransactionId → Spread AnySource} {c : Change}
    (steady : v.lifecycle.Steady) (hid : v.transaction?.getD shared.nextId = id)
    (kept : ∀ sources, SameBesides id sources (stage id sources).2) :
    Course id shared.context.sources (.change c) (v.write shared stage) := by
  rcases start_cases steady hid with
    ⟨now, shared', started, same⟩ | ⟨failure, ha, hv, same, released⟩
  · -- The transaction is open now, and the change is staged.
    rw [write_of_started started]
    have staged := kept shared'.context.sources
    cases hs : stage id shared'.context.sources with
    | mk answer sources =>
      rw [hs] at staged
      cases answer with
      -- The change got as far as some source, and the transaction stays open.
      | error failure =>
        exact .stays now (by simp) rfl (fun e he => ⟨failure, (Except.error.inj he).symm⟩)
          (same.trans staged)
      | ok _ =>
        dsimp only
        -- With automatic commit the course is that of a commit, whatever it comes to.
        split
        · obtain ⟨answers, ended, released⟩ :=
            commit_cases (shared'.withSources sources)
              (show View.lifecycle { v with lifecycle := .working id now } = _ from rfl)
          exact .committed (by simp) answers ended released
        · exact .stays now (by simp) rfl (fun e he => nomatch he) (same.trans staged)
  · rw [write_of_unstarted ha]
    exact .unstarted failure rfl hv same released

/-- **One call.** Everything but a commit leaves the sources as they were besides the transaction,
    and whatever ends the transaction closes its staging areas. -/
theorem perform_course {r : Route} (steady : v.lifecycle.Steady) (policy : v.policy = r.policy)
    {call : WriteCall} (belongs : v.belongs shared call = some id) :
    Course id shared.context.sources call (v.perform shared call) := by
  cases call with
  | start =>
    rcases start_cases steady (Option.some.inj belongs) with
      ⟨now, shared', started, same⟩ | ⟨failure, ha, hv, same, released⟩
    · rw [perform, started]
      exact .stays now (by simp) rfl (fun e he => nomatch he) same
    · refine .unstarted failure ?_ hv same released
      simp only [perform, ha]
      rfl
  | change c =>
    rw [perform_change, policy]
    exact write_course steady (Option.some.inj belongs) (r.stage_same id c)
  -- A call that belongs to a transaction finds it open.
  | commit =>
    rcases steady with hl | ⟨id', now, hl⟩
    · exact nomatch (transaction?_of_idle hl).symm.trans belongs
    · obtain rfl := Option.some.inj ((transaction?_of_working hl).symm.trans belongs)
      obtain ⟨answers, ended, released⟩ := commit_cases shared hl
      exact .committed (by simp) answers ended released
  | rollback =>
    rcases steady with hl | ⟨id', now, hl⟩
    · exact nomatch (transaction?_of_idle hl).symm.trans belongs
    · obtain rfl := Option.some.inj ((transaction?_of_working hl).symm.trans belongs)
      rw [perform_rollback]
      obtain ⟨ha, hv, hs⟩ := rollback_of_working shared hl
      refine .rolledBack rfl ha (congrArg View.lifecycle hv) ?_ ?_
      · rw [hs]
        exact rollbackAll_same id' shared.context.sources
      · rw [hs]
        exact rollbackAll_released id' shared.context.sources

end View

/-! ## Any history -/

/-- What happens at a desk: a call of a view, a setting of a view, or anything at all that befalls
    the sources in between. -/
inductive Desk.Event (ι : Type)
  | call (i : ι) (call : WriteCall)
  | autoCommit (i : ι) (on : Bool)
  | policy (i : ι) (route : Route)
  | meanwhile (sources : List AnySource)

namespace Desk

/-- What is true of a desk between two events: each view is idle or has an open transaction, and
    has one of the policies of this library. -/
def Steady (d : Desk ι AnySource) : Prop :=
  ∀ i, (d.view i).lifecycle.Steady ∧ ∃ r : Route, (d.view i).policy = r.policy

/-- New views are idle. -/
theorem opening_steady (o : Opening ι AnySource) : o.desk.Steady :=
  fun i => ⟨.inl rfl, o.route i, rfl⟩

variable [DecidableEq ι]

def happen (d : Desk ι AnySource) : Event ι → Desk ι AnySource
  | .call i call => d.after i call
  | .autoCommit i on => { d with view := Function.update d.view i ((d.view i).setAutoCommit on).2 }
  | .policy i route =>
    { d with view := Function.update d.view i ((d.view i).withPolicy route.policy) }
  | .meanwhile sources => { d with shared := d.shared.withSources sources }

def history (d : Desk ι AnySource) (events : List (Event ι)) : Desk ι AnySource :=
  events.foldl happen d

/-- A desk at which all views were new at some time. -/
def Reachable (d : Desk ι AnySource) : Prop :=
  ∃ (o : Opening ι AnySource) (events : List (Event ι)), d = o.desk.history events

/-- Whether the transaction that a view has open, or opens with its next call, is not committed by
    the events to come: it ends with a rollback or fails to start, or is still open after them. -/
def uncommitted (i : ι) : Desk ι AnySource → List (Event ι) → Prop
  | _, [] => True
  | d, .call j call :: rest =>
    if j = i ∧ (d.perform i call).view.transaction? = none then
      call = .rollback ∨ ∃ id failure, (d.perform i call).answer = .error (.start id failure)
    else uncommitted i (d.after j call) rest
  | d, event :: rest => uncommitted i (d.happen event) rest

namespace Steady

variable {d : Desk ι AnySource}

/-- A desk on which one view has been replaced, and maybe the sources. -/
theorem update (h : d.Steady) (i : ι) {v : View AnySource} (shared : Shared AnySource)
    (lifecycle : v.lifecycle.Steady) (policy : ∃ r : Route, v.policy = r.policy) :
    Steady ⟨shared, Function.update d.view i v⟩ := by
  intro j
  by_cases hj : j = i
  · subst hj
    simpa only [Function.update_self] using ⟨lifecycle, policy⟩
  · simpa only [Function.update_of_ne hj] using h j

theorem after (h : d.Steady) (i : ι) (call : WriteCall) : (d.after i call).Steady := by
  obtain ⟨steady, r, policy⟩ := h i
  have settings := (d.view i).perform_settings d.shared call
  refine h.update i _ ?_ ⟨r, settings.1.trans policy⟩
  cases belongs : (d.view i).belongs d.shared call with
  | some id =>
    cases View.perform_course steady policy belongs with
    | stays now _ lifecycle => exact .inr ⟨id, now, lifecycle⟩
    | unstarted _ _ lifecycle | rolledBack _ _ lifecycle | committed _ _ lifecycle =>
      exact .inl lifecycle
  | none =>
    -- Only a commit and a rollback without a transaction belong to none.
    rcases steady with hl | ⟨id, now, hl⟩
    · cases call with
      | start | change => exact nomatch belongs
      | commit => exact .inl (by rw [perform, View.perform_commit, View.commit_of_idle hl, hl])
      | rollback => exact .inl (by rw [perform, View.perform_rollback, View.rollback_of_idle hl, hl])
    · have isOpen := View.transaction?_of_working hl
      cases call with
      | start | change => exact nomatch belongs
      | commit | rollback => exact nomatch isOpen.symm.trans belongs

theorem happen (h : d.Steady) (event : Event ι) : (d.happen event).Steady := by
  cases event with
  | call i call => exact h.after i call
  | autoCommit i on =>
    obtain ⟨steady, policy⟩ := h i
    refine h.update i _ ?_ ?_
    all_goals unfold View.setAutoCommit; split
    all_goals assumption
  | policy i route => exact h.update i _ (h i).1 ⟨route, rfl⟩
  | meanwhile sources => exact h

theorem history (h : d.Steady) (events : List (Event ι)) : (d.history events).Steady := by
  induction events generalizing d with
  | nil => exact h
  | cons event rest ih => exact ih (h.happen event)

end Steady

theorem Reachable.steady {d : Desk ι AnySource} (reachable : d.Reachable) : d.Steady := by
  obtain ⟨o, events, rfl⟩ := reachable
  exact (opening_steady o).history events

/-- **Nothing is left behind.** Whatever has happened before at a desk that began with new views,
    and whatever the sources are: take a call that belongs to the transaction `id`.

    A commit and a rollback end the transaction, and so does a failure to start, which is one of
    this transaction. When it is over, only sources that refuse to roll back may have a staging area
    for it. And a call of a transaction that is not committed afterwards leaves the committed
    entries of every source as they were, and the staging areas of every other transaction. -/
theorem nothing_left_behind {d : Desk ι AnySource} (reachable : d.Reachable) {i : ι}
    {call : WriteCall} {id : TransactionId}
    (belongs : (d.view i).belongs d.shared call = some id) :
    let o := d.perform i call
    (call = .commit ∨ call = .rollback → o.view.transaction? = none) ∧
    (∀ id' failure, o.answer = .error (.start id' failure) →
      id' = id ∧ o.view.transaction? = none) ∧
    (o.view.transaction? = none → ∀ s ∈ o.shared.context.sources,
      s.refusesRollback = false → s.area? id = none) ∧
    ∀ later, d.uncommitted i (.call i call :: later) →
      o.shared.context.sources.map AnySource.committed? =
        d.shared.context.sources.map AnySource.committed? ∧
      ∀ other, other ≠ id → o.shared.context.sources.map (AnySource.area? other) =
        d.shared.context.sources.map (AnySource.area? other) := by
  intro o
  obtain ⟨steady, r, policy⟩ := reachable.steady i
  have course : View.Course id d.shared.context.sources call o :=
    View.perform_course steady policy belongs
  -- Only a commit changes more than this transaction, and it cannot be the one to come.
  have same_of : ∀ later, d.uncommitted i (.call i call :: later) →
      SameBesides id d.shared.context.sources o.shared.context.sources := by
    intro later uncommitted
    cases course with
    | stays _ _ _ _ same | unstarted _ _ _ same | rolledBack _ _ _ same => exact same
    | committed asked answers ended =>
      rw [Desk.uncommitted, if_pos ⟨rfl, View.transaction?_of_idle ended⟩] at uncommitted
      rcases uncommitted with rolledBack | ⟨id', failure, unstarted⟩
      · exact absurd rolledBack asked
      · obtain ⟨_, he⟩ := answers _ unstarted
        exact nomatch he
  refine ⟨?_, ?_, ?_, ?_⟩
  · intro asked
    cases course with
    -- The transaction is open afterwards only if it was not asked to end.
    | stays _ unended =>
      rcases asked with h | h
      · exact absurd h unended.1
      · exact absurd h unended.2
    | unstarted _ _ lifecycle | rolledBack _ _ lifecycle | committed _ _ lifecycle =>
      exact View.transaction?_of_idle lifecycle
  · intro id' failure answer
    cases course with
    | stays _ _ _ answers =>
      obtain ⟨_, he⟩ := answers _ answer
      exact nomatch he
    | unstarted _ answer' lifecycle =>
      cases answer.symm.trans answer'
      exact ⟨rfl, View.transaction?_of_idle lifecycle⟩
    | rolledBack _ ok => exact nomatch answer.symm.trans ok
    | committed _ answers =>
      obtain ⟨_, he⟩ := answers _ answer
      exact nomatch he
  · intro ended
    cases course with
    | stays _ _ lifecycle =>
      exact nomatch ended.symm.trans (View.transaction?_of_working lifecycle)
    | unstarted _ _ _ _ released | rolledBack _ _ _ _ released | committed _ _ _ released =>
      exact released
  · intro later uncommitted
    have same := same_of later uncommitted
    exact ⟨same.committed, fun other ho => same.areas ho⟩

/-- A view rolls back after one of its writes has failed halfway, on a source that refuses the key;
    another view is in the middle of a transaction on the same sources. Nothing is left of the first
    transaction, and the other one goes on as if it had been alone. -/
theorem nothing_left_behind_refused_write :
    let high := AnySource.memory (.ofPairs "high" 1 [] [("x", "0")])
    let low := AnySource.guarded
      ⟨.ofPairs "low" 0 [] [], fun op => op == .put "x", true, true, none⟩
    let events : List (Event Nat) :=
      [.call 1 (.change (.put "y" "1")), .call 0 .start, .call 0 (.change (.put "x" "1"))]
    let opening : Opening Nat AnySource := ⟨.numbered [high, low], fun _ => .all, fun _ => false⟩
    let d := opening.desk.history events
    let o := d.perform 0 .rollback
    (d.view 0).belongs d.shared .rollback = some (.ofNat 1) ∧ o.view.transaction? = none ∧
      (∀ s ∈ o.shared.context.sources, s.area? (.ofNat 1) = none) ∧
      o.shared.context.sources.map AnySource.committed? = [high, low].map AnySource.committed? ∧
      o.shared.context.sources.map (AnySource.area? (.ofNat 0)) =
        d.shared.context.sources.map (AnySource.area? (.ofNat 0)) := by
  intro high low events opening d o
  have reachable : d.Reachable := ⟨opening, events, rfl⟩
  have belongs : (d.view 0).belongs d.shared .rollback = some (.ofNat 1) := by decide +kernel
  have yields : ∀ s ∈ o.shared.context.sources, s.refusesRollback = false := by decide +kernel
  have before : d.shared.context.sources.map AnySource.committed? =
      [high, low].map AnySource.committed? := by decide +kernel
  clear_value d
  obtain ⟨ended, -, released, kept⟩ := nothing_left_behind reachable belongs
  have idle := ended (.inr rfl)
  have given_up : d.uncommitted 0 [.call 0 .rollback] := by
    rw [uncommitted, if_pos ⟨rfl, idle⟩]
    exact .inl rfl
  obtain ⟨committed, areas⟩ := kept [] given_up
  refine ⟨belongs, idle, fun s hs => released idle s hs (yields s hs), ?_, ?_⟩
  · exact committed.trans before
  · exact areas (.ofNat 0) (by decide)

end Desk

end LayeredConfig
