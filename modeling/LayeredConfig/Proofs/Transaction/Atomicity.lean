import LayeredConfig.Proofs.Transaction.Abandonment
import Mathlib.Data.List.TakeWhile

/-!
# What a failed commit leaves

A commit goes through the sources one by one, and ends at the first that fails. The sources above it
have committed by then and have no staging area any more, so the rollback that follows cannot take
their changes back; those at and below it have not, and lose what is staged on them. So a failed
commit can leave one part of a transaction behind (`Desk.failed_commit_leaves_a_part`).

**`Desk.commit_leaves` says exactly what a commit leaves**, whether it succeeds or not, and when a
failed one leaves nothing: if and only if the transaction would not have changed a single one of the
sources above the first that fails. That is so if the highest writable source is the one that fails,
and if the policy has staged nothing above it.
-/

set_option autoImplicit false

namespace LayeredConfig

namespace AnySource

/-- Whether a commit does not end at this source. -/
def grantsCommit (id : TransactionId) (s : AnySource) : Bool :=
  !Source.isMutable s || (Source.commit id s).1.isOk

variable {id : TransactionId} {s : AnySource}

/-- A source that cannot be written takes no part, so it does not end the commit. -/
theorem grantsCommit_of_ok (h : Source.isMutable s = true → (Source.commit id s).1 = .ok ()) :
    s.grantsCommit id = true := by
  unfold grantsCommit
  cases hm : Source.isMutable s with
  | false => rfl
  | true => rw [h hm]; rfl

theorem grantsCommit_of_error {e : SourceError} (hm : Source.isMutable s = true)
    (h : (Source.commit id s).1 = .error e) : s.grantsCommit id = false := by
  unfold grantsCommit
  rw [hm, h]
  rfl

/-- A source that takes part in a commit has committed what was staged on it. -/
theorem committed?_granted (h : Source.isMutable s = true → (Source.commit id s).1 = .ok ()) :
    (Spread.touched Source.isMutable (Source.commit id) s).committed? = s.committing id := by
  cases s with
  | table | scripted => rfl
  | memory m => exact congrArg some m.commit_committed
  | guarded g =>
    have ok : (Guarded.guard .commit (Memory.commit id) g).1 = .ok () := h rfl
    have reached : Spread.touched Source.isMutable (Source.commit id) (AnySource.guarded g) =
        .guarded (Guarded.guard .commit (Memory.commit id) g).2 := rfl
    rw [reached]
    -- A guard that refuses would have been the failure.
    cases hg : g.refuses .commit with
    | true => simp [Guarded.guard, hg] at ok
    | false =>
      simp only [Guarded.guard, hg]
      exact congrArg some g.inner.commit_committed

/-- A source that fails to commit has not changed. -/
theorem committed?_refused {e : SourceError} (h : (Source.commit id s).1 = .error e) :
    (Source.commit id s).2.committed? = s.committed? := by
  have unchanged (m : Memory) (hm : (m.commit id).1 = .error e) : (m.commit id).2 = m := by
    cases hs : m.staged[id]? with
    | none => rw [Memory.commit_of_none hs]
    | some c => exact nomatch (Memory.commit_of_some hs ▸ hm)
  have reached := commit_reached id s
  generalize Source.commit id s = result at h reached
  cases reached with
  | table | scripted | refused => rfl
  | memory m => rw [unchanged m h]
  | passed g => rw [unchanged g.inner h]

end AnySource

/-! ## On a list of sources -/

/-- What a commit on all sources leaves when it goes through, and what it leaves when it ends at
    one of them. -/
theorem commitAll_committed (id : TransactionId) (sources : List AnySource) :
    let result := Spread.each Source.isMutable (Source.commit id) sources
    let above := sources.takeWhile (AnySource.grantsCommit id)
    (result.1 = .ok () ↔ sources.dropWhile (AnySource.grantsCommit id) = []) ∧
    result.2.map AnySource.committed? = above.map (AnySource.committing id) ++
      (sources.dropWhile (AnySource.grantsCommit id)).map AnySource.committed? := by
  have hc := Spread.each_course Source.isMutable (Source.commit id) sources
  generalize Spread.each Source.isMutable (Source.commit id) sources = result at hc
  have granting (l : List AnySource)
      (oks : ∀ s ∈ l, Source.isMutable s = true → (Source.commit id s).1 = .ok ()) :
      (∀ s ∈ l, s.grantsCommit id = true) ∧
      l.map (AnySource.committed? ∘ Spread.touched Source.isMutable (Source.commit id)) =
        l.map (AnySource.committing id) :=
    ⟨fun s hs => AnySource.grantsCommit_of_ok (oks s hs),
      List.map_congr_left fun s hs => AnySource.committed?_granted (oks s hs)⟩
  cases hc with
  | through oks =>
    obtain ⟨grants, committed⟩ := granting sources oks
    simp only [List.takeWhile_eq_self_iff.mpr grants, List.dropWhile_eq_nil_iff.mpr grants,
      List.map_nil, List.append_nil, List.map_map]
    exact ⟨by simp, committed⟩
  | @stopped above s below e oks selected failed =>
    obtain ⟨grants, committed⟩ := granting above oks
    -- The source that fails is the first that does not grant, so both splits are at it.
    have ends := AnySource.grantsCommit_of_error selected failed
    rw [List.takeWhile_append_of_pos grants, List.dropWhile_append_of_pos grants,
      List.takeWhile_cons_of_neg (by simp [ends]), List.dropWhile_cons_of_neg (by simp [ends])]
    simp only [List.append_nil, List.map_append, List.map_map, List.map_cons, committed,
      AnySource.committed?_refused failed]
    exact ⟨by simp, trivial⟩

/-! ## The commit of a view -/

/-- A commit of an open transaction leaves on the sources what committing them one by one leaves,
    and answers success if that goes through. What a failure adds is a rollback, which does not
    touch what is committed. -/
theorem View.commit_committed {v : View AnySource} {id : TransactionId} {now : Timestamp}
    (h : v.lifecycle = .working id now) (shared : Shared AnySource) :
    let result := Spread.each Source.isMutable (Source.commit id) shared.context.sources
    ((v.commit shared).answer = .ok () ↔ result.1 = .ok ()) ∧
    (v.commit shared).shared.context.sources.map AnySource.committed? =
      result.2.map AnySource.committed? := by
  intro result
  cases hr : Spread.each Source.isMutable (Source.commit id) shared.context.sources with
  | mk answer sources =>
    rw [show result = (answer, sources) from hr]
    cases answer with
    | ok _ =>
      rw [View.commit_of_granted h hr]
      exact ⟨⟨fun _ => rfl, fun _ => rfl⟩, rfl⟩
    | error failure =>
      obtain ⟨ha, -, hs⟩ := View.commit_of_refused h hr
      rw [ha, hs]
      exact ⟨⟨fun he => (nomatch he), fun he => (nomatch he)⟩,
        (rollbackAll_same id sources).committed⟩

/-- **What a commit leaves.** The sources above the first that refuses to commit have committed
    what was staged on them, and those from there on have committed nothing; the commit succeeds
    if none refuses. So a failed commit leaves everything as it was if and only if the transaction
    makes no difference to any source above the first that refuses. -/
theorem Desk.commit_leaves {ι : Type} [DecidableEq ι] {d : Desk ι AnySource}
    (reachable : d.Reachable) {i : ι} {id : TransactionId}
    (working : (d.view i).transaction? = some id) :
    let before := d.shared.context.sources
    let above := before.takeWhile (AnySource.grantsCommit id)
    let rest := before.dropWhile (AnySource.grantsCommit id)
    let o := d.perform i .commit
    let after := o.shared.context.sources
    (o.answer = .ok () ↔ rest = []) ∧
    after.map AnySource.committed? =
      above.map (AnySource.committing id) ++ rest.map AnySource.committed? ∧
    (o.answer ≠ .ok () → (after.map AnySource.committed? = before.map AnySource.committed? ↔
      ∀ s ∈ above, s.committing id = s.committed?)) := by
  intro before above rest o after
  obtain ⟨now, lifecycle⟩ : ∃ now, (d.view i).lifecycle = .working id now := by
    rcases (reachable.steady i).1 with idle | ⟨id', now, lifecycle⟩
    · exact nomatch (View.transaction?_of_idle idle).symm.trans working
    · obtain rfl := Option.some.inj ((View.transaction?_of_working lifecycle).symm.trans working)
      exact ⟨now, lifecycle⟩
  obtain ⟨answer, committed⟩ := View.commit_committed lifecycle d.shared
  obtain ⟨goes_through, left⟩ := commitAll_committed id d.shared.context.sources
  have leaves : after.map AnySource.committed? =
      above.map (AnySource.committing id) ++ rest.map AnySource.committed? := committed.trans left
  have split : before.map AnySource.committed? =
      above.map AnySource.committed? ++ rest.map AnySource.committed? := by
    rw [← List.map_append, List.takeWhile_append_dropWhile]
  refine ⟨answer.trans goes_through, leaves, fun _ => ?_⟩
  rw [leaves, split, List.append_left_inj, List.map_inj_left]

/-- Where the highest source refuses, the commit fails before anything is committed. -/
theorem Desk.commit_leaves_highest_refuses :
    let high := AnySource.guarded ⟨.ofPairs "high" 1 [] [], (· == .commit), true, true, none⟩
    let low := AnySource.memory (.ofPairs "low" 0 [] [])
    let events : List (Event Nat) := [.call 0 (.change (.put "x" "1"))]
    let opening : Opening Nat AnySource := ⟨.numbered [high, low], fun _ => .all, fun _ => false⟩
    let d := opening.desk.history events
    let o := d.perform 0 .commit
    (d.view 0).transaction? = some (.ofNat 0) ∧ o.answer ≠ .ok () ∧
      o.shared.context.sources.map AnySource.committed? =
        d.shared.context.sources.map AnySource.committed? := by
  intro high low events opening d o
  have reachable : d.Reachable := ⟨opening, events, rfl⟩
  have working : (d.view 0).transaction? = some (.ofNat 0) := by decide +kernel
  have fails : o.answer ≠ .ok () := by decide +kernel
  have above : d.shared.context.sources.takeWhile (AnySource.grantsCommit (.ofNat 0)) = [] := by
    rfl
  clear_value d
  refine ⟨working, fails, ((commit_leaves reachable working).2.2 fails).mpr ?_⟩
  rw [above]
  exact fun s hs => nomatch hs

/-- Where a lower source refuses, the higher ones keep their part of a transaction that has
    failed. -/
theorem Desk.failed_commit_leaves_a_part :
    ∃ (d : Desk Nat AnySource) (id : TransactionId), d.Reachable ∧
      (d.view 0).transaction? = some id ∧ (d.perform 0 .commit).answer ≠ .ok () ∧
      (d.perform 0 .commit).shared.context.sources.map AnySource.committed? ≠
        d.shared.context.sources.map AnySource.committed? := by
  let high := AnySource.memory (.ofPairs "high" 1 [] [])
  let low := AnySource.guarded ⟨.ofPairs "low" 0 [] [], (· == .commit), true, true, none⟩
  let events : List (Event Nat) := [.call 0 (.change (.put "x" "1"))]
  let opening : Opening Nat AnySource := ⟨.numbered [high, low], fun _ => .all, fun _ => false⟩
  refine ⟨opening.desk.history events, .ofNat 0, ⟨opening, events, rfl⟩, ?_, ?_, ?_⟩
  all_goals decide +kernel

end LayeredConfig
