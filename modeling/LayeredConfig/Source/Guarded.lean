import LayeredConfig.Source.Basic

/-!
# Guarded sources

A source in front of another one. It may refuse an operation before it reaches the inner source,
and everything that it does not refuse it passes on. Several writes are passed on one by one, so
that each of them can be refused.

A refused operation has not reached the inner source and leaves it as it was; of several writes,
those before the refused one have been made. A guard that accepts no writes or no removals at all
does not refuse them: writers then pass the source over.
-/

set_option autoImplicit false

namespace LayeredConfig

/-- What can be asked of a writable source, as far as it can be refused. -/
inductive SourceOperation
  | get
  | start
  | put (key : String)
  | remove (key : String)
  | commit
  | rollback
  deriving DecidableEq, Repr

def SourceOperation.word : SourceOperation → String
  | get => "get"
  | start => "begin"
  | put key => "put:" ++ key
  | remove key => "remove:" ++ key
  | commit => "commit"
  | rollback => "rollback"

/-- A source in front of another one. -/
structure Guarded (σ : Type) where
  inner : σ
  refuses : SourceOperation → Bool
  writable : Bool
  removable : Bool
  startedAt : Option Timestamp

namespace Guarded

variable {σ : Type} [Source σ]

/-- The error by which an operation is refused. -/
def refusal (g : Guarded σ) (op : SourceOperation) : SourceError :=
  .failed (Source.name g.inner) (op.word ++ " refused")

/-- Passes an operation on unless it is refused. -/
def guard (op : SourceOperation) (act : σ → Attempt SourceError σ) (g : Guarded σ) :
    Attempt SourceError (Guarded σ) :=
  if g.refuses op then (.error (g.refusal op), g)
  else
    let (answer, inner) := act g.inner
    (answer, { g with inner := inner })

/-- Looking up a key can be refused; listing the table cannot. -/
def reader (g : Guarded σ) : Reader :=
  let inner := Source.reader g.inner
  { inner with
    get := fun key => if g.refuses .get then .error (g.refusal .get) else inner.get key }

def put (id : TransactionId) (key value : String) : Guarded σ → Attempt SourceError (Guarded σ) :=
  guard (.put key) (Source.put id key value)

/-- The staged changes, with the start time replaced if there is one to replace it. -/
def changes? (g : Guarded σ) (id : TransactionId) : Option ChangeSet :=
  (Source.changes? g.inner id).map fun changes =>
    { changes with startedAt := g.startedAt.getD changes.startedAt }

instance : Source (Guarded σ) where
  reader := reader
  isMutable g := Source.isMutable g.inner
  isWritable g key := g.writable && Source.isWritable g.inner key
  isRemovable g key := g.removable && Source.isRemovable g.inner key
  start id now := guard .start (Source.start id now)
  put := put
  putAll id := Source.putEach (put id)
  remove id key := guard (.remove key) (Source.remove id key)
  commit id := guard .commit (Source.commit id)
  rollback id := guard .rollback (Source.rollback id)
  changes? := changes?

end Guarded

end LayeredConfig
