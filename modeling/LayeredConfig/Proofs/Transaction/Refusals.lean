import LayeredConfig.Proofs.Transaction.Abandonment
import LayeredConfig.Proofs.Transaction.Memories
import Mathlib.Control.Monad.Basic

/-!
# What a refused write leaves

A source may refuse a write in the middle of a change, and what has been staged before stays staged.
How much that is depends on how a policy walks through keys and sources. The two policies that write
to every selected source go source by source, and on each of them write by write, for a change of
any kind (`Route.stage_in_shares`). So they stop at the highest source that refuses a write of its
share: those above it have staged their share, those below it nothing.

**`Desk.refused_change_leaves` puts this together** with what is true of all policies: a refused
change leaves the transaction open, and touches nothing but its staging areas.

## Why the order of writing matters

A change that is refused is not undone, so how far it has come is visible. It depends on two loops:
over the sources, and on each source over the writes. The policies of all sources and of some names
run the outer loop over the sources, so that there is a first source that refuses, and everything
can be said relative to its position (`Route.RefusedAt`). The policy of the highest source runs the
outer loop over the writes; there a source above another may still get a write after the one below
has got its last, and nothing as simple is true of it. It is left out of the last part for that
reason.

A table is staged in one call, and keys are removed one by one, but on each source both come to the
same loop over single writes (`AnySource.putAccepted_eq_each`, `removeAccepted_eq_each`). The reason
is that no write changes what a source accepts (`AnySource.accepts_write`), so that it does not
matter whether the writes are sorted out before or in between.
-/

set_option autoImplicit false

namespace LayeredConfig

/-! ## One write

A write is granted and staged, or refused without a trace. There is no third way, as a source
decides before it does anything.
-/

/-- A memory grants a write and stages it, or refuses it and stays as it is. -/
theorem Memory.write_cases (id : TransactionId) (w : Write) (m : Memory) :
    (∃ changes, m.staged[id]? = some changes ∧ Source.write id w m =
      (.ok (), { m with staged := m.staged.insert id (changes.stage w) })) ∨
    ∃ e, Source.write id w m = (.error e, m) := by
  rw [write_eq]
  split
  · exact .inr ⟨_, rfl⟩
  · cases area : m.staged[id]? with
    | some changes => exact .inl ⟨changes, rfl, rfl⟩
    | none => exact .inr ⟨_, rfl⟩

/-- Which keys a memory refuses does not depend on what is staged. -/
theorem Memory.write_isReadOnly (id : TransactionId) (w : Write) (m : Memory) :
    (Source.write id w m).2.isReadOnly = m.isReadOnly := by
  rcases m.write_cases id w with ⟨changes, -, granted⟩ | ⟨e, refused⟩
  · rw [granted]
    rfl
  · rw [refused]

namespace AnySource

variable {id : TransactionId} {s s' : AnySource}

theorem write_reached (id : TransactionId) (w : Write) (s : AnySource) :
    Reached (Source.write id w) s (Source.write id w s) := by
  cases w with
  | put key value => exact put_reached id key value s
  | remove key => exact remove_reached id key s

/-- A source that grants a write has an area for it and stages it there; one that does not is left
    as it is. -/
theorem write_cases (id : TransactionId) (w : Write) (s : AnySource) :
    (∃ changes s', s.area? id = some changes ∧ s'.area? id = some (changes.stage w) ∧
      Source.write id w s = (.ok (), s')) ∨
    ∃ e, Source.write id w s = (.error e, s) := by
  have reached := write_reached id w s
  generalize Source.write id w s = result at reached
  -- A guard that refuses is like a source that cannot be written; one that does not refuse is the
  -- memory behind it.
  cases reached with
  | table | scripted | refused => exact .inr ⟨_, rfl⟩
  | memory m =>
    rcases m.write_cases id w with ⟨changes, area, granted⟩ | ⟨e, refused⟩
    · rw [granted]
      exact .inl ⟨changes, _, area, Std.ExtTreeMap.getElem?_insert_self, rfl⟩
    · rw [refused]
      exact .inr ⟨e, rfl⟩
  | passed g =>
    rcases g.inner.write_cases id w with ⟨changes, area, granted⟩ | ⟨e, refused⟩
    · rw [granted]
      exact .inl ⟨changes, _, area, Std.ExtTreeMap.getElem?_insert_self, rfl⟩
    · rw [refused]
      exact .inr ⟨e, rfl⟩

/-- A refused write leaves no trace. -/
theorem eq_of_refused {w : Write} {e : SourceError} (h : Source.write id w s = (.error e, s')) :
    s' = s := by
  rcases write_cases id w s with ⟨_, _, -, -, granted⟩ | ⟨_, refused⟩
  · exact nomatch congrArg Prod.fst (granted.symm.trans h)
  · exact congrArg Prod.snd (h.symm.trans refused)

theorem accepts_put (s : AnySource) (key value : String) :
    Source.accepts s (.put key value) = Source.isWritable s key := by
  cases s <;> rfl

theorem accepts_remove (s : AnySource) (key : String) :
    Source.accepts s (.remove key) = Source.isRemovable s key := by
  cases s <;> rfl

/-- No write changes which keys a source accepts. -/
theorem accepts_write (id : TransactionId) (w : Write) (s : AnySource) :
    Source.accepts (Source.write id w s).2 = Source.accepts s := by
  have reached := write_reached id w s
  generalize Source.write id w s = result at reached
  -- What a memory accepts goes by its read-only prefixes, and a guard adds two switches; no write
  -- touches either.
  cases reached with
  | table | scripted | refused => rfl
  | memory m =>
    funext w'
    rw [embeds.accepts_eq, embeds.accepts_eq, Memory.write_isReadOnly]
  | passed g =>
    funext w'
    cases w' with
    | put key value =>
      show (true && (g.writable && !(Source.write id w g.inner).2.isReadOnly key)) =
        (true && (g.writable && !g.inner.isReadOnly key))
      rw [Memory.write_isReadOnly]
    | remove key =>
      show (true && (g.removable && !(Source.write id w g.inner).2.isReadOnly key)) =
        (true && (g.removable && !g.inner.isReadOnly key))
      rw [Memory.write_isReadOnly]

/-! ## Several writes on one source -/

/-- Several writes at once are the single writes one after another. -/
theorem putAll_eq_each (hm : Source.isMutable s = true) (entries : Entries) :
    Source.putAll id entries s =
      Attempt.each (Source.write id) (entries.toList.map fun entry => .put entry.1 entry.2) s := by
  rw [Attempt.each_map]
  cases s with
  | table | scripted => exact nomatch hm
  | memory m => exact (Attempt.each_through (fun _ _ => rfl) entries.toList m).symm
  | guarded g => exact (Attempt.each_through (fun _ _ => rfl) entries.toList g).symm

/-- The accepted entries of a table are the writes of the table that are accepted, one after
    another. -/
theorem putAccepted_eq_each (hm : Source.isMutable s = true) (entries : Entries) :
    Source.putAccepted id entries s =
      Attempt.each (Source.write id) ((Change.putAll entries).writes.filter (Source.accepts s)) s := by
  unfold Source.putAccepted
  rw [Source.filter_writes hm]
  dsimp only
  split
  case isTrue none =>
    rw [Std.ExtTreeMap.isEmpty_iff] at none
    rw [none]
    rfl
  case isFalse => exact putAll_eq_each hm _

/-- The same for a list of keys. Whether a key is accepted is asked when its turn comes, and the
    answer is the one that it would have been at the beginning. -/
theorem removeAccepted_eq_each (keys : List String) :
    Source.removeAccepted id keys s =
      Attempt.each (Source.write id) ((Change.remove keys).writes.filter (Source.accepts s)) s := by
  have removable : (Change.remove keys).writes.filter (Source.accepts s) =
      (keys.filter (Source.isRemovable s)).map .remove := by
    rw [Change.writes, List.filter_map]
    exact congrArg _ (List.filter_congr fun key _ => s.accepts_remove key)
  have same (key : String) (s : AnySource) :
      Source.isRemovable (Source.remove id key s).2 = Source.isRemovable s := by
    funext other
    rw [← accepts_remove, ← accepts_remove]
    exact congrFun (accepts_write id (.remove key) s) (.remove other)
  rw [removable, Attempt.each_map]
  exact Attempt.each_filter same keys s

/-- A source has staged writes: it has refused none of them, and its area is what it was with the
    writes staged on it. -/
structure Stages (id : TransactionId) (ws : List Write) (s s' : AnySource) : Prop where
  granted : Attempt.each (Source.write id) ws s = (.ok (), s')
  area : s'.area? id = (s.area? id).map fun changes => changes.stageAll ws
  opened : ws = [] ∨ (s.area? id).isSome = true

/-- Writes that were all granted have been staged one on top of the other. -/
theorem stages_of_granted {ws : List Write}
    (h : Attempt.each (Source.write id) ws s = (.ok (), s')) : s.Stages id ws s' := by
  induction ws generalizing s with
  | nil =>
    obtain rfl : s = s' := congrArg Prod.snd h
    exact ⟨rfl, Option.map_id'.symm, .inl rfl⟩
  | cons w rest ih =>
    have granted := h
    -- All of them were granted, so the first one was, and it has found an area.
    rw [Attempt.each] at h
    rcases s.write_cases id w with ⟨changes, next, area, area', written⟩ | ⟨e, refused⟩
    · rw [written] at h
      refine ⟨granted, ?_, .inr (by rw [area]; rfl)⟩
      rw [(ih h).area, area', area]
      rfl
    · rw [refused] at h
      cases congrArg Prod.fst h

end AnySource

/-! ## Source by source -/

/-- To every source among the candidates as far as it accepts the writes, and write by write. -/
theorem Propagation.toEach_in_shares (name : String) {candidate : AnySource → Bool}
    (writable : ∀ s, candidate s = true → Source.isMutable s = true) (id : TransactionId)
    (c : Change) (sources : List AnySource) :
    (toEach name candidate).stage id c sources = Spread.each (fun _ => true)
      (fun s => Attempt.each (Source.write id)
        (c.writes.filter fun w => Source.accepts s w && candidate s) s) sources := by
  have everywhere {selects : AnySource → Bool} {op : AnySource → Attempt SourceError AnySource}
      (same : ∀ s, (if selects s then op s else (.ok (), s)) = Attempt.each (Source.write id)
        (c.writes.filter fun w => Source.accepts s w && candidate s) s) :
      Spread.each selects op sources = Spread.each (fun _ => true) (fun s =>
        Attempt.each (Source.write id)
          (c.writes.filter fun w => Source.accepts s w && candidate s) s) sources := by
    rw [Spread.each_eq_on_all, funext same]
  have of_candidate {op : AnySource → Attempt SourceError AnySource}
      (same : ∀ s, candidate s = true →
        op s = Attempt.each (Source.write id) (c.writes.filter (Source.accepts s)) s) (s : AnySource) :
      (if candidate s then op s else (.ok (), s)) = Attempt.each (Source.write id)
        (c.writes.filter fun w => Source.accepts s w && candidate s) s := by
    cases hs : candidate s with
    | true => simp only [if_true, Bool.and_true, same s hs]
    | false =>
      rw [List.filter_eq_nil_iff.mpr fun w _ => by rw [Bool.and_false]; exact Bool.false_ne_true]
      rfl
  -- What differs between the kinds of changes is how one candidate is served.
  cases c with
  | put key value =>
    refine everywhere fun s => ?_
    simp only [Change.writes, List.filter_cons, List.filter_nil, s.accepts_put, Bool.and_comm]
    split
    · exact (Attempt.each_singleton (Source.write id) (.put key value) s).symm
    · rfl
  | putAll entries =>
    exact everywhere (of_candidate fun s hs => AnySource.putAccepted_eq_each (writable s hs) entries)
  | remove keys =>
    exact everywhere (of_candidate fun s _ => AnySource.removeAccepted_eq_each keys)

namespace Route

theorem takes_all (above : List AnySource) (s : AnySource) :
    all.takes above s = Source.accepts s := funext fun _ => Bool.and_true _

/-- The policies that write to every selected source go source by source, and on each of them
    through its share of the writes. -/
theorem stage_in_shares {r : Route} (spreads : r = .all ∨ ∃ names, r = .selective names)
    (id : TransactionId) (c : Change) (sources : List AnySource) :
    r.policy.stage id c sources = Spread.each (fun _ => true)
      (fun s => Attempt.each (Source.write id) (c.writes.filter (r.takes [] s)) s) sources := by
  rcases spreads with rfl | ⟨names, rfl⟩
  · refine (Propagation.toEach_in_shares _ (fun _ hm => hm) id c sources).trans ?_
    simp only [Source.accepts_and_isMutable, takes_all]
  · refine (Propagation.toEach_in_shares _
      (fun s hs => (Bool.and_eq_true_iff.mp hs).1) id c sources).trans ?_
    simp only [← Bool.and_assoc, Source.accepts_and_isMutable]
    rfl

/-- For these policies a share does not depend on the sources above. -/
theorem share_of_spreads {r : Route} (spreads : r = .all ∨ ∃ names, r = .selective names)
    {sources : List AnySource} {p : Nat} {s : AnySource} (hs : sources[p]? = some s) (c : Change) :
    r.share sources p c = c.writes.filter (r.takes [] s) := by
  rw [share, hs]
  rcases spreads with rfl | ⟨names, rfl⟩ <;> rfl

/-- How far a change has come that the source at a position has refused. -/
structure RefusedAt (r : Route) (id : TransactionId) (c : Change) (failure : SourceFailure)
    (before after : List AnySource) (p : Nat) : Prop where
  /-- It has staged its share up to the write that it refuses, and it is the one that is named. -/
  here : ∃ s s' done w rest, before[p]? = some s ∧ failure.source = Source.name s ∧
    r.share before p c = done ++ w :: rest ∧ s.Stages id done s' ∧
    Source.write id w s' = (.error failure.cause, s') ∧ after[p]? = some s'
  /-- Those above it refuse nothing, and have staged all of their share. -/
  above : ∀ q s, q < p → before[q]? = some s →
    ∃ s', after[q]? = some s' ∧ s.Stages id (r.share before q c) s'
  /-- Those below it have staged nothing. -/
  below : ∀ q, p < q → after[q]? = before[q]?

/-- There is a first source that refuses, and it is the one where the change has stopped. -/
theorem refusedAt_of_failed {r : Route} (spreads : r = .all ∨ ∃ names, r = .selective names)
    {id : TransactionId} {c : Change} {failure : SourceFailure} {before after : List AnySource}
    (failed : r.policy.stage id c before = (.error failure, after)) :
    ∃ p, r.RefusedAt id c failure before after p := by
  rw [stage_in_shares spreads] at failed
  have course := Spread.each_course (fun _ => true)
    (fun s => Attempt.each (Source.write id) (c.writes.filter (r.takes [] s)) s) before
  rw [failed] at course
  cases course with
  | @stopped above s below e oks _ refused =>
    have there : (above ++ s :: below)[above.length]? = some s := by simp
    refine ⟨above.length, ?_, ?_, ?_⟩
    -- On the source that has failed the share is split at the write that it has refused, and the
    -- refusal has changed nothing.
    · obtain ⟨done, w, rest, s', share, through, last⟩ :=
        Attempt.each_failed (Prod.ext refused rfl)
      have unchanged := AnySource.eq_of_refused last
      rw [unchanged] at last
      refine ⟨s, s', done, w, rest, there, rfl, ?_, AnySource.stages_of_granted through, last, ?_⟩
      · rw [share_of_spreads spreads there, share]
      · rw [List.getElem?_append_right (by simp)]
        simpa using unchanged
    -- The sources above have gone through all of theirs.
    · intro q u hq hu
      rw [share_of_spreads spreads hu]
      have hu' : above[q]? = some u := by rwa [List.getElem?_append_left hq] at hu
      refine ⟨_, ?_, AnySource.stages_of_granted
        (Prod.ext (oks u (List.mem_of_getElem? hu') rfl) rfl)⟩
      rw [List.getElem?_append_left (by simpa using hq), List.getElem?_map, hu']
      rfl
    -- The positions below are those of the list that was not reached.
    · intro q hq
      obtain ⟨k, rfl⟩ := Nat.exists_eq_add_of_lt hq
      rw [List.getElem?_append_right (by simp; omega), List.getElem?_append_right (by omega)]
      simp [show above.length + k + 1 - above.length = k + 1 by omega]

end Route

/-! ## The call of a view -/

/-- What is known of the sources when a write ends with a refusal: it was the policy that failed, on
    the sources as they were once the transaction was open. -/
theorem View.stage_of_refused {v : View AnySource} {shared : Shared AnySource}
    (steady : v.lifecycle.Steady) {stage : TransactionId → Spread AnySource} {id : TransactionId}
    {failure : SourceFailure} (refused : (v.write shared stage).answer = .error (.staging id failure)) :
    stage id (v.start shared).shared.context.sources =
      (.error failure, (v.write shared stage).shared.context.sources) := by
  rcases start_cases steady rfl with ⟨now, shared', started, -⟩ | ⟨failure', unstarted, -⟩
  · rw [write_of_started started] at refused ⊢
    rw [started]
    cases staged : stage (v.transaction?.getD shared.nextId) shared'.context.sources with
    | mk answer sources =>
      rw [staged] at refused
      cases answer with
      | error failure' =>
        cases refused
        exact staged
      | ok _ =>
        -- Once everything is staged only a commit can fail.
        dsimp only at refused
        split at refused
        · obtain ⟨failed, -⟩ := commit_cases (shared'.withSources sources)
            (show View.lifecycle { v with lifecycle := .working _ now } = _ from rfl)
          obtain ⟨_, other⟩ := failed _ refused
          exact nomatch other
        · exact nomatch refused
  · rw [write_of_unstarted unstarted] at refused
    exact nomatch refused

namespace Desk

variable {ι : Type} [DecidableEq ι]

/-- **What a refused change leaves.** Take any view at a desk that began with new views, whatever
    has happened before, and a change that a source refuses. The transaction stays open: the one
    that was open, or the one that the change has opened. The committed entries of every source are
    as they were, and so are the staging areas of every other transaction.

    If the view writes to all sources, or to all of some names, the source that is named is the
    highest that refuses a write of its share. Compared with the sources when the transaction was
    open, `begun`, every source above it has staged its whole share, and no source below it has
    staged anything. -/
theorem refused_change_leaves {d : Desk ι AnySource} (reachable : d.Reachable) {i : ι} {c : Change}
    {id : TransactionId} {failure : SourceFailure}
    (refused : (d.perform i (.change c)).answer = .error (.staging id failure)) :
    let before := d.shared.context.sources
    let begun := ((d.view i).start d.shared).shared.context.sources
    let o := d.perform i (.change c)
    let after := o.shared.context.sources
    id = (d.view i).transaction?.getD d.shared.nextId ∧ o.view.transaction? = some id ∧
    after.map AnySource.committed? = before.map AnySource.committed? ∧
    (∀ other, other ≠ id →
      after.map (AnySource.area? other) = before.map (AnySource.area? other)) ∧
    ((d.view i).transaction? = some id → begun = before) ∧
    ∀ r : Route, (d.view i).policy = r.policy → (r = .all ∨ ∃ names, r = .selective names) →
      ∃ p, r.RefusedAt id c failure begun after p := by
  intro before begun o after
  obtain ⟨steady, route, policy⟩ := reachable.steady i
  have course : View.Course ((d.view i).transaction?.getD d.shared.nextId) before (.change c) o :=
    View.perform_course steady policy rfl
  obtain ⟨now, same_id, lifecycle, same⟩ : ∃ now,
      id = (d.view i).transaction?.getD d.shared.nextId ∧ o.view.lifecycle = .working id now ∧
      SameBesides id before after := by
    -- Of the courses only one ends with a failure to stage, and in it the transaction stays open.
    cases course with
    | stays now _ lifecycle answers same =>
      obtain ⟨_, answer⟩ := answers _ refused
      cases answer
      exact ⟨now, rfl, lifecycle, same⟩
    | unstarted _ answer => exact nomatch refused.symm.trans answer
    | rolledBack asked => exact nomatch asked
    | committed _ answers =>
      obtain ⟨_, answer⟩ := answers _ refused
      exact nomatch answer
  refine ⟨same_id, View.transaction?_of_working lifecycle, same.committed,
    fun other ho => same.areas ho, ?_, ?_⟩
  · intro working
    show ((d.view i).start d.shared).shared.context.sources = _
    rw [View.start, working]
  · intro r hr spreads
    have staged : (d.view i).policy.stage id c begun = (.error failure, after) := by
      show _ = (_, (View.perform (d.view i) d.shared (.change c)).shared.context.sources)
      rw [perform, View.perform_change] at refused
      rw [View.perform_change]
      exact View.stage_of_refused steady refused
    rw [hr] at staged
    exact Route.refusedAt_of_failed spreads staged

/-- The middle one of three sources refuses the second of three writes, under automatic commit and
    with another transaction open. -/
theorem refused_change_leaves_halfway :
    let high := AnySource.memory (.ofPairs "high" 3 [] [])
    let middle := AnySource.guarded
      ⟨.ofPairs "middle" 2 [] [], fun op => op == .put "y", true, true, none⟩
    let low := AnySource.memory (.ofPairs "low" 1 [] [("x", "0")])
    let opening : Opening Nat AnySource :=
      ⟨.numbered [high, middle, low], fun _ => .all, fun i => i == 0⟩
    let d := opening.desk.history [.call 1 (.change (.put "x" "1"))]
    let c := Change.putAll (Entries.ofPairs [("x", "2"), ("y", "2"), ("z", "2")])
    let failure : SourceFailure := ⟨"middle", .failed "middle" "put:y refused"⟩
    let begun := ((d.view 0).start d.shared).shared.context.sources
    let o := d.perform 0 (.change c)
    let after := o.shared.context.sources
    o.answer = .error (.staging (.ofNat 1) failure) ∧ o.view.transaction? = some (.ofNat 1) ∧
      after.map AnySource.committed? = [high, middle, low].map AnySource.committed? ∧
      after.map (AnySource.area? (.ofNat 0)) =
        d.shared.context.sources.map (AnySource.area? (.ofNat 0)) ∧
      Route.all.RefusedAt (.ofNat 1) c failure begun after 1 := by
  intro high middle low opening d c failure begun o after
  have reachable : d.Reachable := ⟨opening, _, rfl⟩
  have refused : o.answer = .error (.staging (.ofNat 1) failure) := by decide +kernel
  have names : begun.map Source.name = ["high", "middle", "low"] := by decide +kernel
  have before : d.shared.context.sources.map AnySource.committed? =
      [high, middle, low].map AnySource.committed? := by decide +kernel
  have policy : (d.view 0).policy = Route.all.policy := rfl
  clear_value d
  obtain ⟨-, working, committed, areas, -, stopped⟩ := refused_change_leaves reachable refused
  refine ⟨refused, working, committed.trans before, areas (.ofNat 0) (by decide), ?_⟩
  obtain ⟨p, at_p⟩ := stopped .all policy (.inl rfl)
  obtain ⟨s, -, -, -, -, here, name, -⟩ := at_p.here
  have named : (begun.map Source.name)[p]? = some "middle" := by
    rw [List.getElem?_map, here, Option.map_some, ← name]
  rw [names] at named
  match p with
  | 1 => exact at_p
  | 0 | 2 => simp at named
  | p + 3 => simp at named

end Desk

end LayeredConfig
