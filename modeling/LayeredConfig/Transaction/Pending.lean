import LayeredConfig.Transaction.View

/-!
# What a transaction is going to do

The changes that the sources have staged under one transaction, taken together: source by source
from the highest to the lowest, the writes of a source and then its removals, each over what came
before. The transaction has started when the first source says it has, or when the view says so if
no source takes part.

What is merged last counts. So where sources have staged different changes of one key, it is the
lowest of them that decides, while in a look-up the highest one does (`Proofs/Transaction/Pending`).
-/

set_option autoImplicit false

namespace LayeredConfig

namespace ChangeSet

/-- The changes with those of one more source over them. -/
def merge (merged part : ChangeSet) : ChangeSet :=
  (merged.putAll part.added).removeAll part.removed.toList

/-- The earliest start of several sets of changes. -/
def earliest? : List ChangeSet → Option Timestamp
  | [] => none
  | c :: cs => some (cs.foldl (fun t c => t.earlier c.startedAt) c.startedAt)

end ChangeSet

variable {σ : Type} [Source σ]

/-- What the writable sources have staged under a transaction, from the highest to the lowest. -/
def Shared.reported (shared : Shared σ) (id : TransactionId) : List ChangeSet :=
  (shared.context.sources.filter Source.isMutable).filterMap fun s => Source.changes? s id

/-- What the open transaction of a view is going to do. -/
def View.pending? (v : View σ) (shared : Shared σ) : Option ChangeSet :=
  v.lifecycle.opening.map fun (id, startedAt) =>
    let parts := shared.reported id
    parts.foldl ChangeSet.merge (.start id ((ChangeSet.earliest? parts).getD startedAt))

end LayeredConfig
