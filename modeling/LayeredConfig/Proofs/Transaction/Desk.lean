import LayeredConfig.Proofs.Transaction.Routes
import Mathlib.Logic.Function.Basic

/-!
# Views at one desk

What several views do to one configuration is a sequence of their calls in any order. A `Desk` is
the configuration with all its views; **`Desk.after` is one call of one view**, which changes what
is shared and that view, and no other.

Between two calls the transaction of a view is either not there or open under an id
(`Lifecycle.Steady`): `View.commit` and `View.rollback` go through the other two states and come
back. So each operation of a view has few outcomes, and there is one lemma for each of them below.
It says what becomes of the answer, the view and what is shared; the warnings are left out.

Two lemmas say how a write is put together from the others: `View.write_of_unstarted` where the
start fails, and `View.write_of_started` where it does not. What the policy then stages is for the
modules on routes to say. The last section is apart from that: a call never changes the policy of a
view or its automatic commit (`View.perform_settings`), so both can be taken from the opening of a
desk as long as there are only calls.
-/

set_option autoImplicit false

namespace LayeredConfig

variable {ι σ : Type}

/-! ## Calls -/

/-- What can be asked of a view. -/
inductive WriteCall
  | start
  | change (c : Change)
  | commit
  | rollback
  deriving DecidableEq

namespace View

variable [Source σ]

/-- A change of any kind, by the method that is there for it. -/
def change (v : View σ) (shared : Shared σ) : Change → Outcome σ Unit
  | .put key value => v.put shared key value
  | .putAll entries => v.putAll shared entries
  | .remove keys => v.remove shared keys

/-- A call of any kind. The id that a start answers is left out. -/
def perform (v : View σ) (shared : Shared σ) : WriteCall → Outcome σ Unit
  | .start =>
    let started := v.start shared
    ⟨started.answer.map fun _ => (), started.view, started.shared, started.warnings⟩
  | .change c => v.change shared c
  | .commit => v.commit shared
  | .rollback => v.rollback shared

/-- A change of any kind is a write under what the policy stages for it. -/
theorem perform_change (v : View σ) (shared : Shared σ) (c : Change) :
    v.perform shared (.change c) = v.write shared fun id => v.policy.stage id c := by
  cases c <;> rfl

theorem perform_commit (v : View σ) (shared : Shared σ) :
    v.perform shared .commit = v.commit shared := rfl

theorem perform_rollback (v : View σ) (shared : Shared σ) :
    v.perform shared .rollback = v.rollback shared := rfl

end View

/-- A configuration with all its views. -/
structure Desk (ι σ : Type) where
  shared : Shared σ
  view : ι → View σ

namespace Desk

variable [Source σ]

/-- What a call of one view answers and leaves. -/
def perform (d : Desk ι σ) (i : ι) (call : WriteCall) : Outcome σ Unit :=
  (d.view i).perform d.shared call

/-- The desk after a call of one view. -/
def after [DecidableEq ι] (d : Desk ι σ) (i : ι) (call : WriteCall) : Desk ι σ :=
  ⟨(d.perform i call).shared, Function.update d.view i (d.perform i call).view⟩

/-- The desk after several calls, each of the view that is named with it. -/
def run [DecidableEq ι] (d : Desk ι σ) (calls : List (ι × WriteCall)) : Desk ι σ :=
  calls.foldl (fun d call => d.after call.1 call.2) d

section Running

variable [DecidableEq ι] (d : Desk ι σ) (i : ι) (call : WriteCall)

theorem after_view : (d.after i call).view i = (d.perform i call).view := Function.update_self ..

theorem after_view_of_ne {j : ι} (h : j ≠ i) : (d.after i call).view j = d.view j :=
  Function.update_of_ne h ..

theorem run_cons (call : ι × WriteCall) (calls : List (ι × WriteCall)) :
    d.run (call :: calls) = (d.after call.1 call.2).run calls := rfl

theorem run_append (calls calls' : List (ι × WriteCall)) :
    d.run (calls ++ calls') = (d.run calls).run calls' := List.foldl_append

end Running

end Desk

/-- A desk before the first call, as far as it can be chosen: what is shared, and for each view its
    policy and whether its writes are committed at once. -/
structure Opening (ι σ : Type) where
  shared : Shared σ
  route : ι → Route
  auto : ι → Bool

namespace Opening

variable [Source σ]

def view (o : Opening ι σ) (i : ι) (lifecycle : Lifecycle) : View σ :=
  ⟨(o.route i).policy, o.auto i, lifecycle⟩

def desk (o : Opening ι σ) : Desk ι σ := ⟨o.shared, fun i => o.view i .idle⟩

end Opening

/-! ## Between two calls -/

def Lifecycle.working (id : TransactionId) (now : Timestamp) : Lifecycle := ⟨.open, some (id, now)⟩

/-- What the transaction of a view can be between two calls. -/
def Lifecycle.Steady (l : Lifecycle) : Prop := l = .idle ∨ ∃ id now, l = .working id now

namespace Shared

/-- The id of the transaction that is opened next. -/
def nextId (shared : Shared σ) : TransactionId := shared.supply.id shared.supply.next

def nextTime (shared : Shared σ) : Timestamp := shared.supply.time shared.supply.next

/-- Sources without filters and converters, whose transactions are numbered from zero. -/
def numbered (sources : List σ) : Shared σ where
  context := ⟨sources, [], .overriding, .empty ⟨[], []⟩⟩
  supply := ⟨.ofNat, fun n => ⟨n, 0⟩, 0⟩

def drawn (shared : Shared σ) : Shared σ := { shared with supply := shared.supply.drawn }

end Shared

namespace View

variable {v : View σ} {shared : Shared σ} {id : TransactionId} {now : Timestamp}

theorem transaction?_of_working (h : v.lifecycle = .working id now) : v.transaction? = some id := by
  unfold transaction?
  rw [h]
  rfl

theorem transaction?_of_idle (h : v.lifecycle = .idle) : v.transaction? = none := by
  unfold transaction?
  rw [h]
  rfl

variable [Source σ] {sources : List σ} {failure : SourceFailure}

/-! ## Giving up -/

/-- Giving up answers nothing: it leaves the view idle and has every source roll back, whatever they
    answer. -/
theorem abort_of_working (h : v.lifecycle = .working id now) :
    (v.abort shared id).view = { v with lifecycle := .idle } ∧
    (v.abort shared id).shared =
      shared.withSources (Source.rollbackAll id shared.context.sources).1 := by
  refine ⟨?_, rfl⟩
  unfold abort
  rw [h]
  rfl

/-! ## Starting -/

theorem start_of_working (h : v.lifecycle = .working id now) :
    v.start shared = ⟨.ok id, v, shared, []⟩ := by
  unfold start
  rw [transaction?_of_working h]

theorem start_of_granted (h : v.lifecycle = .idle)
    (granted : Spread.each Source.isMutable (Source.start shared.nextId shared.nextTime)
      shared.context.sources = (.ok (), sources)) :
    v.start shared = ⟨.ok shared.nextId,
      { v with lifecycle := .working shared.nextId shared.nextTime },
      shared.drawn.withSources sources, []⟩ := by
  unfold start
  rw [transaction?_of_idle h, h]
  -- The transaction is begun before a source is asked, so it is already open in what follows.
  simp only [Lifecycle.begin, Lifecycle.idle, Lifecycle.apply, TransactionState.after?,
    Shared.spread]
  simp only [Shared.nextId, Shared.nextTime] at granted
  rw [granted]
  rfl

/-- A refused start has used up its id and its time, and every source is asked to roll back, those
    that had not been asked to start as well. -/
theorem start_of_refused (h : v.lifecycle = .idle)
    (refused : Spread.each Source.isMutable (Source.start shared.nextId shared.nextTime)
      shared.context.sources = (.error failure, sources)) :
    (v.start shared).answer = .error (.start shared.nextId failure) ∧
    (v.start shared).view = { v with lifecycle := .idle } ∧
    (v.start shared).shared =
      shared.drawn.withSources (Source.rollbackAll shared.nextId sources).1 := by
  unfold start
  rw [transaction?_of_idle h, h]
  simp only [Lifecycle.begin, Lifecycle.idle, Lifecycle.apply, TransactionState.after?,
    Shared.spread]
  simp only [Shared.nextId, Shared.nextTime] at refused
  rw [refused]
  exact ⟨rfl, rfl, rfl⟩

/-! ## Ending -/

theorem commit_of_idle (h : v.lifecycle = .idle) :
    v.commit shared = ⟨.ok (), v, shared, [.nothingToCommit]⟩ := by
  unfold commit
  rw [transaction?_of_idle h]

theorem commit_of_granted (h : v.lifecycle = .working id now)
    (granted : Spread.each Source.isMutable (Source.commit id) shared.context.sources =
      (.ok (), sources)) :
    v.commit shared =
      ⟨.ok (), { v with lifecycle := .idle }, shared.withSources sources, []⟩ := by
  unfold commit
  rw [transaction?_of_working h, h]
  simp only [Shared.spread]
  rw [granted]
  rfl

/-- A refused commit ends the transaction too: every source is asked to roll back, also those that
    had committed. -/
theorem commit_of_refused (h : v.lifecycle = .working id now)
    (refused : Spread.each Source.isMutable (Source.commit id) shared.context.sources =
      (.error failure, sources)) :
    (v.commit shared).answer = .error (.commit id failure) ∧
    (v.commit shared).view = { v with lifecycle := .idle } ∧
    (v.commit shared).shared = shared.withSources (Source.rollbackAll id sources).1 := by
  unfold commit
  rw [transaction?_of_working h]
  simp only [Shared.spread]
  rw [refused]
  exact ⟨rfl, abort_of_working h⟩

theorem rollback_of_idle (h : v.lifecycle = .idle) :
    v.rollback shared = ⟨.ok (), v, shared, [.nothingToRollBack]⟩ := by
  unfold rollback
  rw [transaction?_of_idle h]

theorem rollback_of_working (shared : Shared σ) (h : v.lifecycle = .working id now) :
    (v.rollback shared).answer = .ok () ∧
    (v.rollback shared).view = { v with lifecycle := .idle } ∧
    (v.rollback shared).shared =
      shared.withSources (Source.rollbackAll id shared.context.sources).1 := by
  unfold rollback
  rw [transaction?_of_working h]
  exact ⟨rfl, abort_of_working h⟩

/-! ## Writing -/

section Write

variable {stage : TransactionId → Spread σ}

theorem write_of_unstarted {e : MutationError} (h : (v.start shared).answer = .error e) :
    v.write shared stage = { v.start shared with answer := .error e } := by
  unfold write
  simp only [h]

/-- A write once the transaction is open: the change is staged, and with automatic commit the write
    ends as the commit does. -/
theorem write_of_started {v' : View σ} {shared' : Shared σ}
    (h : v.start shared = ⟨.ok id, v', shared', []⟩) :
    v.write shared stage =
      match stage id shared'.context.sources with
      | (.error failure, sources) =>
        ⟨.error (.staging id failure), v', shared'.withSources sources, []⟩
      | (.ok (), sources) =>
        if v'.autoCommit then v'.commit (shared'.withSources sources)
        else ⟨.ok (), v', shared'.withSources sources, []⟩ := by
  unfold write
  simp only [h, Shared.spread, List.nil_append]
  cases stage id shared'.context.sources with
  | mk answer sources => cases answer <;> rfl

end Write

/-! ## Settings

A call has no say in the policy of a view and in its automatic commit. -/

def SameSettings (v v' : View σ) : Prop := v'.policy = v.policy ∧ v'.autoCommit = v.autoCommit

theorem start_settings (v : View σ) (shared : Shared σ) :
    v.SameSettings (v.start shared).view := by
  unfold start
  split
  · exact ⟨rfl, rfl⟩
  · split
    · exact ⟨rfl, rfl⟩
    · dsimp only
      split
      · exact ⟨rfl, rfl⟩
      · exact ⟨rfl, rfl⟩

theorem commit_settings (v : View σ) (shared : Shared σ) :
    v.SameSettings (v.commit shared).view := by
  unfold commit
  split
  · exact ⟨rfl, rfl⟩
  · split
    · exact ⟨rfl, rfl⟩
    · exact ⟨rfl, rfl⟩

theorem write_settings (v : View σ) (shared : Shared σ) (stage : TransactionId → Spread σ) :
    v.SameSettings (v.write shared stage).view := by
  have started := v.start_settings shared
  unfold write
  dsimp only
  -- A failed start, a failed staging, and a write with or without automatic commit.
  split
  · exact started
  · split
    · exact started
    · split
      · have committed := (v.start shared).view.commit_settings ‹_›
        exact ⟨committed.1.trans started.1, committed.2.trans started.2⟩
      · exact started

theorem perform_settings (v : View σ) (shared : Shared σ) (call : WriteCall) :
    v.SameSettings (v.perform shared call).view := by
  cases call with
  | start => exact v.start_settings shared
  | change c =>
    rw [perform_change]
    exact v.write_settings shared _
  | commit => exact v.commit_settings shared
  | rollback =>
    rw [perform_rollback, rollback]
    split
    · exact ⟨rfl, rfl⟩
    · exact ⟨rfl, rfl⟩

end View

end LayeredConfig
