import LayeredConfig.Lookup.Bulk
import LayeredConfig.Lookup.Single
import LayeredConfig.Transaction.Propagation

/-!
# Writing through a view

A view is one writer on a configuration. It has at most one transaction, which is open on every
writable source at the same time: writes and removals are staged on the sources that the view's
policy selects, and the transaction ends with a commit on all of them or with a rollback on all of
them. Views of one configuration share its sources, and see of each other what is committed.

A transaction is opened by the first write, if it is not opened before, and with automatic commit
every write is committed at once. When a source fails at the start or at the commit, the
transaction is given up: every source is told to roll back, whatever it answers, and the view is
idle again. When one fails at a write, the transaction stays open.
-/

set_option autoImplicit false

namespace LayeredConfig

/-- What the views of a configuration share: the context with its sources, and the transactions to
    come. -/
structure Shared (σ : Type) where
  context : Context σ
  supply : TransactionSupply

/-- One writer: its policy, whether each write is committed at once, and its transaction. -/
structure View (σ : Type) where
  policy : Propagation σ
  autoCommit : Bool
  lifecycle : Lifecycle

/-- The outcome of an operation of a view: the answer, the view and what is shared afterwards, and
    the warnings logged. -/
structure Outcome (σ α : Type) where
  answer : Except MutationError α
  view : View σ
  shared : Shared σ
  warnings : List Warning

variable {σ : Type} [Source σ]

namespace Shared

def withSources (shared : Shared σ) (sources : List σ) : Shared σ :=
  { shared with context := { shared.context with sources := sources } }

def spread (shared : Shared σ) (op : Spread σ) : Except SourceFailure Unit × Shared σ :=
  let (answer, sources) := op shared.context.sources
  (answer, shared.withSources sources)

end Shared

/-- Rolls a transaction back on every writable source. A failure is logged, and the next source is
    asked all the same. -/
def Source.rollbackAll (id : TransactionId) : List σ → List σ × List Warning
  | [] => ([], [])
  | s :: rest =>
    let (after, warnings) := rollbackAll id rest
    if Source.isMutable s then
      match Source.rollback id s with
      | (.ok (), s) => (s :: after, warnings)
      | (.error e, s') => (s' :: after, .rollbackFailed id (Source.name s) e :: warnings)
    else (s :: after, warnings)

namespace View

/-- A view without a transaction that sends every change to all sources that accept it. -/
def fresh : View σ := ⟨.all, false, .idle⟩

def transaction? (v : View σ) : Option TransactionId := v.lifecycle.id?

def withPolicy (v : View σ) (policy : Propagation σ) : View σ := { v with policy := policy }

/-- Why automatic commit cannot be switched now. -/
def autoCommitRefusal : String :=
  "cannot change auto-commit within a transaction; commit or roll back first"

/-- Switches automatic commit. Within a transaction that is refused. -/
def setAutoCommit (v : View σ) (on : Bool) : Attempt MutationError (View σ) :=
  match v.transaction? with
  | some _ => (.error (.illegalState autoCommitRefusal), v)
  | none => (.ok (), { v with autoCommit := on })

/-- Gives a transaction up: rolls it back on every writable source and releases it. -/
def abort (v : View σ) (shared : Shared σ) (id : TransactionId) : Outcome σ Unit :=
  let (sources, warnings) := Source.rollbackAll id shared.context.sources
  let (released, lifecycle) := v.lifecycle.finish .rollback
  let unreleased : List Warning := match released with
    | .ok () => []
    | .error e => [.releaseFailed id e]
  { answer := .ok ()
    view := { v with lifecycle := lifecycle }
    shared := shared.withSources sources
    warnings := warnings ++ unreleased }

/-- Opens a transaction on every writable source, or answers the open one. -/
def start (v : View σ) (shared : Shared σ) : Outcome σ TransactionId :=
  match v.transaction? with
  | some id => ⟨.ok id, v, shared, []⟩
  | none =>
    match v.lifecycle.begin shared.supply with
    | (.error e, lifecycle, supply) =>
      ⟨.error (.invalidTransition e), { v with lifecycle := lifecycle },
        { shared with supply := supply }, []⟩
    | (.ok id, lifecycle, supply) =>
      let v := { v with lifecycle := lifecycle }
      let now := shared.supply.time shared.supply.next
      match { shared with supply := supply }.spread
          (Spread.each Source.isMutable (Source.start id now)) with
      | (.ok (), shared) => ⟨.ok id, v, shared, []⟩
      | (.error failure, shared) =>
        let aborted := v.abort shared id
        { aborted with
          answer := .error (.start id failure)
          warnings := .startFailed id failure.source failure.cause :: aborted.warnings }

/-- Commits the open transaction on every writable source. If one fails, the transaction is given
    up. Without a transaction there is nothing to do. -/
def commit (v : View σ) (shared : Shared σ) : Outcome σ Unit :=
  match v.transaction? with
  | none => ⟨.ok (), v, shared, [.nothingToCommit]⟩
  | some id =>
    match shared.spread (Spread.each Source.isMutable (Source.commit id)) with
    | (.error failure, shared) =>
      -- The sources above this one have committed, and have nothing left to roll back.
      let aborted := v.abort shared id
      { aborted with
        answer := .error (.commit id failure)
        warnings := .commitFailed id failure.source failure.cause :: aborted.warnings }
    | (.ok (), shared) =>
      let (released, lifecycle) := v.lifecycle.finish .commit
      ⟨released.mapError .invalidTransition, { v with lifecycle := lifecycle }, shared, []⟩

/-- Rolls the open transaction back on every writable source. Without a transaction there is
    nothing to do. -/
def rollback (v : View σ) (shared : Shared σ) : Outcome σ Unit :=
  match v.transaction? with
  | none => ⟨.ok (), v, shared, [.nothingToRollBack]⟩
  | some id => v.abort shared id

/-- A write of any kind: opens a transaction if there is none, stages the change on the sources, and
    commits if every write is to be committed. -/
def write (v : View σ) (shared : Shared σ) (stage : TransactionId → Spread σ) : Outcome σ Unit :=
  let started := v.start shared
  match started.answer with
  | .error e => { started with answer := .error e }
  | .ok id =>
    match started.shared.spread (stage id) with
    | (.error failure, shared) =>
      -- The transaction stays open, with what has been staged before the failure.
      { started with answer := .error (.staging id failure), shared := shared }
    | (.ok (), shared) =>
      if started.view.autoCommit then
        let committed := started.view.commit shared
        { committed with warnings := started.warnings ++ committed.warnings }
      else ⟨.ok (), started.view, shared, started.warnings⟩

def put (v : View σ) (shared : Shared σ) (key value : String) : Outcome σ Unit :=
  v.write shared fun id => v.policy.put id key value

def putAll (v : View σ) (shared : Shared σ) (entries : Entries) : Outcome σ Unit :=
  v.write shared fun id => v.policy.putAll id entries

def remove (v : View σ) (shared : Shared σ) (keys : List String) : Outcome σ Unit :=
  v.write shared fun id => v.policy.remove id keys

def describe (v : View σ) (shared : Shared σ) : String :=
  "MutableConfiguration \x7b config: " ++ shared.context.describeConfiguration ++
    ", policy: " ++ Text.quoted v.policy.name ++ ", auto_commit: " ++ toString v.autoCommit ++
    ", lifecycle: " ++ v.lifecycle.describe ++ " \x7d"

end View

end LayeredConfig
