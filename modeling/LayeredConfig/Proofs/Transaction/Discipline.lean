import LayeredConfig.Proofs.Transaction.Desk
import LayeredConfig.Source.Any

/-!
# A view between two requests

A view can be asked for anything at any time, and its sources can answer anything. The state of its
transaction, the id and the start time change in several steps, and a request can fail between any
two of them. **`View.idle_or_open` says that no failure gets in between**: after every request the
view is idle, without an id, or open, with one; it never meets a transition that does not fit; and
whatever ends a transaction leaves a view that can begin the next one.

What is true of each request by itself is `View.Orderly`, with one lemma for each kind of request.
Nothing is assumed of the sources and of the policies. What is shared may be another thing at every
request, as it is when other views or other programs use the sources in between.

## One lemma for each kind of request

A start, a commit and a rollback can each go in a few ways, which the desk has lemmas for
(`start_of_granted`, `start_of_refused` and the like). `start_orderly`, `commit_orderly` and
`rollback_orderly` go through them and say of each that it is orderly. A write is made of them, so
that nothing new has to be found out (`write_orderly`): it is a start, then the staging, which does
not touch the view, then perhaps a commit.

The statement about any requests is an induction over them that carries one thing, that the view is
idle or open. It is so carried because what happened before matters for nothing else: the sources
may be different ones at every request.
-/

set_option autoImplicit false

namespace LayeredConfig

variable {σ : Type}

/-- What the error of a request says about the transaction that the request leaves. -/
def MutationError.Leaves (l : Lifecycle) : MutationError → Prop
  | illegalState _ => ∃ id now, l = .working id now
  | invalidTransition _ => False
  | start _ _ => l = .idle
  | staging id _ => ∃ now, l = .working id now
  | commit _ _ => l = .idle

namespace View

/-- Everything that can be asked of a view. -/
inductive Request (σ : Type)
  | call (call : WriteCall)
  | autoCommit (on : Bool)
  | policy (policy : Propagation σ)

/-- What is true of every request: the transaction is not left halfway, and if it was open before it
    is the same one or over; the error fits what is left; and every release has succeeded. -/
structure Orderly {α : Type} (before : Lifecycle) (o : Outcome σ α) : Prop where
  steady : o.view.lifecycle.Steady
  constant : before = .idle ∨ o.view.lifecycle = before ∨ o.view.lifecycle = .idle
  answer : ∀ e, o.answer = .error e → e.Leaves o.view.lifecycle
  released : ∀ id e, Warning.releaseFailed id e ∉ o.warnings

variable [Source σ]

def serve (v : View σ) (shared : Shared σ) : Request σ → Outcome σ Unit
  | .call call => v.perform shared call
  | .autoCommit on => ⟨(v.setAutoCommit on).1, (v.setAutoCommit on).2, shared, []⟩
  | .policy policy => ⟨.ok (), v.withPolicy policy, shared, []⟩

variable {v : View σ} {shared : Shared σ} {sources : List σ} {id : TransactionId}
  {now : Timestamp} {failure : SourceFailure}

/-! ## Giving up

A transaction is given up in the middle of a request, and nobody is told whether that has worked but
by a warning. So the warnings are followed here, to see that the one about a failed release never
comes up.
-/

theorem releaseFailed_not_mem_rollbackAll (id : TransactionId) (sources : List σ)
    (id' : TransactionId) (e : TransitionError) :
    Warning.releaseFailed id' e ∉ (Source.rollbackAll id sources).2 := by
  induction sources with
  | nil => exact List.not_mem_nil
  | cons s rest ih =>
    rw [Source.rollbackAll]
    by_cases hm : Source.isMutable s = true
    · simp only [hm, if_true]
      cases Source.rollback id s with
      | mk answer after =>
        cases answer with
        | ok _ => exact ih
        -- The warning of a source is about its rollback, and a different one.
        | error _ => exact fun mem => ih (List.mem_of_ne_of_mem (by simp) mem)
    · simp only [hm, Bool.false_eq_true, if_false]
      exact ih

/-- What is given up is open, so it can be rolled back and released. -/
theorem abort_warnings (shared : Shared σ) (h : v.lifecycle = .working id now) :
    (v.abort shared id).warnings = (Source.rollbackAll id shared.context.sources).2 := by
  unfold abort
  rw [h]
  exact List.append_nil _

/-- A start that a source refuses warns of that, and of rollbacks that are refused. -/
theorem start_of_refused_warnings (h : v.lifecycle = .idle)
    (refused : Spread.each Source.isMutable (Source.start shared.nextId shared.nextTime)
      shared.context.sources = (.error failure, sources)) :
    (v.start shared).warnings = .startFailed shared.nextId failure.source failure.cause ::
      (Source.rollbackAll shared.nextId sources).2 := by
  unfold start
  rw [transaction?_of_idle h, h]
  simp only [Lifecycle.begin, Lifecycle.idle, Lifecycle.apply, TransactionState.after?,
    Shared.spread]
  simp only [Shared.nextId, Shared.nextTime] at refused
  rw [refused]
  -- The transaction has been opened by then, so that giving it up can release it.
  exact congrArg (List.cons _) (abort_warnings _ rfl)

/-- A commit that a source refuses does the same. -/
theorem commit_of_refused_warnings (h : v.lifecycle = .working id now)
    (refused : Spread.each Source.isMutable (Source.commit id) shared.context.sources =
      (.error failure, sources)) :
    (v.commit shared).warnings = .commitFailed id failure.source failure.cause ::
      (Source.rollbackAll id sources).2 := by
  unfold commit
  rw [transaction?_of_working h]
  simp only [Shared.spread]
  rw [refused]
  exact congrArg (List.cons _) (abort_warnings _ h)

/-! ## One request -/

/-- A start leaves the transaction open if it succeeds, and answers its id; if it fails, the view is
    idle. -/
theorem start_orderly (steady : v.lifecycle.Steady) (shared : Shared σ) :
    Orderly v.lifecycle (v.start shared) ∧
    (∀ id, (v.start shared).answer = .ok id →
      ∃ now, (v.start shared).view.lifecycle = .working id now) ∧
    ∀ e, (v.start shared).answer = .error e → (v.start shared).view.lifecycle = .idle := by
  rcases steady with hl | ⟨id, now, hl⟩
  · cases hs : Spread.each Source.isMutable (Source.start shared.nextId shared.nextTime)
      shared.context.sources with
    | mk answer sources =>
      cases answer with
      | ok _ =>
        rw [start_of_granted hl hs]
        refine ⟨⟨.inr ⟨_, _, rfl⟩, .inl hl, fun _ he => (nomatch he), by simp⟩, ?_,
          fun _ he => (nomatch he)⟩
        rintro id ⟨⟩
        exact ⟨_, rfl⟩
      -- Some source has refused, and the transaction has been given up.
      | error failure =>
        obtain ⟨ha, hv, -⟩ := start_of_refused hl hs
        have ended : (v.start shared).view.lifecycle = .idle := congrArg lifecycle hv
        refine ⟨⟨.inl ended, .inl hl, ?_, ?_⟩, ?_, fun _ _ => ended⟩
        · intro e he
          obtain rfl := Except.error.inj (ha.symm.trans he)
          exact ended
        · intro id' e
          rw [start_of_refused_warnings hl hs]
          simpa using releaseFailed_not_mem_rollbackAll _ sources id' e
        · intro id ok
          exact nomatch ha.symm.trans ok
  · rw [start_of_working hl]
    refine ⟨⟨.inr ⟨id, now, hl⟩, .inr (.inl rfl), fun _ he => (nomatch he), by simp⟩, ?_,
      fun _ he => (nomatch he)⟩
    rintro _ ⟨⟩
    exact ⟨now, hl⟩

/-- A commit leaves the view idle, whatever the sources answer. -/
theorem commit_orderly (steady : v.lifecycle.Steady) (shared : Shared σ) :
    Orderly v.lifecycle (v.commit shared) ∧ (v.commit shared).view.lifecycle = .idle := by
  rcases steady with hl | ⟨id, now, hl⟩
  · rw [commit_of_idle hl]
    exact ⟨⟨.inl hl, .inl hl, fun _ he => (nomatch he), by simp⟩, hl⟩
  · cases hc : Spread.each Source.isMutable (Source.commit id) shared.context.sources with
    | mk answer sources =>
      cases answer with
      | ok _ =>
        rw [commit_of_granted hl hc]
        exact ⟨⟨.inl rfl, .inr (.inr rfl), fun _ he => (nomatch he), by simp⟩, rfl⟩
      -- Some source has refused, and what was open has been given up.
      | error failure =>
        obtain ⟨ha, hv, -⟩ := commit_of_refused hl hc
        have ended : (v.commit shared).view.lifecycle = .idle := congrArg lifecycle hv
        refine ⟨⟨.inl ended, .inr (.inr ended), ?_, ?_⟩, ended⟩
        · intro e he
          obtain rfl := Except.error.inj (ha.symm.trans he)
          exact ended
        · intro id' e
          rw [commit_of_refused_warnings hl hc]
          simpa using releaseFailed_not_mem_rollbackAll id sources id' e

/-- A rollback leaves the view idle, whatever the sources answer. -/
theorem rollback_orderly (steady : v.lifecycle.Steady) (shared : Shared σ) :
    Orderly v.lifecycle (v.rollback shared) ∧ (v.rollback shared).view.lifecycle = .idle := by
  rcases steady with hl | ⟨id, now, hl⟩
  · rw [rollback_of_idle hl]
    exact ⟨⟨.inl hl, .inl hl, fun _ he => (nomatch he), by simp⟩, hl⟩
  · obtain ⟨ha, hv, -⟩ := rollback_of_working shared hl
    have ended : (v.rollback shared).view.lifecycle = .idle := congrArg lifecycle hv
    refine ⟨⟨.inl ended, .inr (.inr ended), ?_, ?_⟩, ended⟩
    · intro e he
      exact nomatch ha.symm.trans he
    intro id' e
    have warnings : (v.rollback shared).warnings = (v.abort shared id).warnings := by
      unfold rollback
      rw [transaction?_of_working hl]
    rw [warnings, abort_warnings shared hl]
    exact releaseFailed_not_mem_rollbackAll id _ id' e

/-- A write is a start, the staging of the change, and with automatic commit a commit. -/
theorem write_orderly (steady : v.lifecycle.Steady) (shared : Shared σ)
    (stage : TransactionId → Spread σ) : Orderly v.lifecycle (v.write shared stage) := by
  obtain ⟨started, opened, -⟩ := start_orderly steady shared
  unfold write
  dsimp only
  split
  -- The start has failed, and the write answers with its failure.
  case h_1 e failed =>
    refine ⟨started.steady, started.constant, ?_, started.released⟩
    rintro _ ⟨⟩
    exact started.answer e failed
  case h_2 id ok =>
    obtain ⟨now, working⟩ := opened id ok
    split
    -- The staging has failed, and the transaction stays open.
    case h_1 failure _ _ =>
      refine ⟨started.steady, started.constant, ?_, started.released⟩
      rintro _ ⟨⟩
      exact ⟨now, working⟩
    case h_2 shared' _ =>
      -- Everything is staged; with automatic commit the transaction is committed, and the warnings
      -- of both are the warnings of the write.
      split
      · obtain ⟨committed, ended⟩ := commit_orderly started.steady shared'
        refine ⟨committed.steady, .inr (.inr ended), committed.answer, fun id' e mem => ?_⟩
        rcases List.mem_append.mp mem with h | h
        · exact started.released id' e h
        · exact committed.released id' e h
      · exact ⟨started.steady, started.constant, fun _ he => (nomatch he), started.released⟩

/-- Automatic commit is switched while the view is idle, and refused while it is open. -/
theorem setAutoCommit_orderly (steady : v.lifecycle.Steady) (shared : Shared σ) (on : Bool) :
    Orderly v.lifecycle (v.serve shared (.autoCommit on)) := by
  unfold serve setAutoCommit
  rcases steady with hl | ⟨id, now, hl⟩
  · rw [transaction?_of_idle hl]
    exact ⟨.inl hl, .inl hl, fun _ he => (nomatch he), by simp⟩
  · rw [transaction?_of_working hl]
    refine ⟨.inr ⟨id, now, hl⟩, .inr (.inl rfl), ?_, by simp⟩
    rintro _ ⟨⟩
    exact ⟨id, now, hl⟩

/-- Whatever is asked of a view that is idle or open, it is orderly. -/
theorem serve_orderly (steady : v.lifecycle.Steady) (shared : Shared σ) (request : Request σ) :
    Orderly v.lifecycle (v.serve shared request) := by
  cases request with
  | call call =>
    cases call with
    | start =>
      obtain ⟨started, -, -⟩ := start_orderly steady shared
      refine ⟨started.steady, started.constant, fun e he => started.answer e ?_, started.released⟩
      -- The id is all that is left out of the answer.
      have mapped : (v.start shared).answer.map (fun _ => ()) = .error e := he
      cases ha : (v.start shared).answer with
      | ok id =>
        rw [ha] at mapped
        exact nomatch mapped
      | error e' =>
        rw [ha] at mapped
        exact congrArg _ (Except.error.inj mapped)
    | change c =>
      rw [serve, perform_change]
      exact write_orderly steady shared _
    | commit => exact (commit_orderly steady shared).1
    | rollback => exact (rollback_orderly steady shared).1
  | autoCommit on => exact setAutoCommit_orderly steady shared on
  | policy policy =>
    exact ⟨steady, .inr (.inl rfl), fun _ he => (nomatch he), fun _ _ => List.not_mem_nil⟩

/-- The view after several requests, each with what is shared at its time. -/
def attend (v : View σ) (visits : List (Shared σ × Request σ)) : View σ :=
  visits.foldl (fun v visit => (v.serve visit.1 visit.2).view) v

/-- After any requests the view is idle or open. -/
theorem attend_steady (steady : v.lifecycle.Steady) (visits : List (Shared σ × Request σ)) :
    (v.attend visits).lifecycle.Steady := by
  induction visits generalizing v with
  | nil => exact steady
  | cons visit rest ih => exact ih (serve_orderly steady visit.1 visit.2).steady

end View

end LayeredConfig
