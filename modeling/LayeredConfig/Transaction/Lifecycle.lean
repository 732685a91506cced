import LayeredConfig.Timestamp
import LayeredConfig.TransactionId

/-!
# The life of a transaction

A transaction is opened, committed or rolled back, and released, in that order. An event that does
not fit the state is an error and changes nothing. Opening anew while open is joining, and changes
nothing either.

The event that opens does not name the transaction: the id and the time are given by `begin`, once
in each life, and are forgotten at the release.
-/

set_option autoImplicit false

namespace LayeredConfig

/-- Where a transaction is in its life. -/
inductive TransactionState
  | idle
  | open
  | committed
  | rolledBack
  deriving DecidableEq, Repr

/-- What happens to a transaction. -/
inductive TransactionEvent
  | begin
  | commit
  | rollback
  | release
  deriving DecidableEq, Repr

namespace TransactionState

def name : TransactionState → String
  | idle => "Idle"
  | «open» => "Open"
  | committed => "Committed"
  | rolledBack => "RolledBack"

/-- Whether the transaction is over and waits for its release. -/
def isTerminal : TransactionState → Bool
  | committed | rolledBack => true
  | idle | «open» => false

/-- The state after an event, if the event fits. -/
def after? : TransactionState → TransactionEvent → Option TransactionState
  | idle, .begin => some «open»
  | «open», .begin => some «open»
  | «open», .commit => some committed
  | «open», .rollback => some rolledBack
  | committed, .release => some idle
  | rolledBack, .release => some idle
  | _, _ => none

end TransactionState

def TransactionEvent.name : TransactionEvent → String
  | begin => "Begin"
  | commit => "Commit"
  | rollback => "Rollback"
  | release => "Release"

/-- An event that did not fit the state. -/
structure TransitionError where
  state : TransactionState
  event : TransactionEvent
  deriving DecidableEq, Repr

def TransitionError.message (e : TransitionError) : String :=
  "invalid transaction transition from " ++ e.state.name ++ " via " ++ e.event.name

/-- The ids and start times of the transactions to come. The `n`-th transaction that is begun has
    the `n`-th of each. -/
structure TransactionSupply where
  id : Nat → TransactionId
  time : Nat → Timestamp
  next : Nat

/-- The supply after one more transaction has been begun. -/
def TransactionSupply.drawn (s : TransactionSupply) : TransactionSupply :=
  { s with next := s.next + 1 }

/-- The transaction of one writer: its state and, once it has been named, its id and the time at
    which it was.

    The id and the time are two facts, but never one without the other: `begin` is the only function
    that gives them and gives both, the release is the only event that takes them away and takes
    both, and no other event touches either. So one option holds the pair, and a writer that has an
    id but no start time cannot be written down. An open transaction without the pair can, as the
    event `begin` opens one. -/
structure Lifecycle where
  state : TransactionState
  opening : Option (TransactionId × Timestamp)
  deriving DecidableEq, Repr

namespace Lifecycle

def idle : Lifecycle := ⟨.idle, none⟩

def id? (l : Lifecycle) : Option TransactionId := l.opening.map (·.1)

/-- The time at which the transaction was named. -/
def startedAt? (l : Lifecycle) : Option Timestamp := l.opening.map (·.2)

/-- The transaction after an event. At its release the id and the time are forgotten. -/
def apply (l : Lifecycle) (event : TransactionEvent) :
    Except TransitionError TransactionState × Lifecycle :=
  match l.state.after? event with
  | none => (.error ⟨l.state, event⟩, l)
  | some .idle => (.ok .idle, ⟨.idle, none⟩)
  | some next => (.ok next, { l with state := next })

/-- Opens a transaction with the next id and time, or joins the open one. -/
def begin (l : Lifecycle) (supply : TransactionSupply) :
    Except TransitionError TransactionId × Lifecycle × TransactionSupply :=
  match l.state, l.id? with
  | .open, some id => (.ok id, l, supply)
  | _, _ =>
    match l.apply .begin with
    | (.error e, l) => (.error e, l, supply)
    | (.ok _, l) =>
      let id := supply.id supply.next
      (.ok id, { l with opening := some (id, supply.time supply.next) }, supply.drawn)

/-- The transaction after the event that ends it and its release. -/
def finish (l : Lifecycle) (event : TransactionEvent) : Except TransitionError Unit × Lifecycle :=
  match l.apply event with
  | (.error e, l) => (.error e, l)
  | (.ok _, l) =>
    match l.apply .release with
    | (.error e, l) => (.error e, l)
    | (.ok _, l) => (.ok (), l)

def describe (l : Lifecycle) : String :=
  let id := match l.id? with
    | some id => "Some(TransactionId(" ++ id.toText ++ "))"
    | none => "None"
  let startedAt := match l.startedAt? with
    | some t => "Some(" ++ t.toText ++ ")"
    | none => "None"
  "TransactionLifecycle \x7b state: " ++ l.state.name ++ ", id: " ++ id ++
    ", started_at: " ++ startedAt ++ " \x7d"

end Lifecycle

end LayeredConfig
