import LayeredConfig.Json.Reader
import LayeredConfig.Json.Writer
import LayeredConfig.Timestamp
import LayeredConfig.TransactionId

/-!
# Staged changes

What one transaction is going to do to one source, or to all of them together: the keys it writes
with their values and the keys it takes away. The latest operation on a key counts, so each
operation takes the key off the other side.

That no key is on both sides is what the operations keep and not a condition on the record: one
that is read back is taken as it stands, whatever its sides name (`Proofs/Exclusion`).
-/

set_option autoImplicit false

namespace LayeredConfig

/-- The keys written and removed under one transaction. -/
structure ChangeSet where
  transaction : TransactionId
  startedAt : Timestamp
  added : Entries
  removed : Keys
  deriving DecidableEq

namespace ChangeSet

def start (transaction : TransactionId) (startedAt : Timestamp) : ChangeSet :=
  ⟨transaction, startedAt, ∅, ∅⟩

def put (c : ChangeSet) (key value : String) : ChangeSet :=
  { c with added := c.added.insert key value, removed := c.removed.erase key }

def remove (c : ChangeSet) (key : String) : ChangeSet :=
  { c with added := c.added.erase key, removed := c.removed.insert key }

def putAll (c : ChangeSet) (entries : Entries) : ChangeSet :=
  entries.foldl (fun c key value => c.put key value) c

def removeAll (c : ChangeSet) (keys : List String) : ChangeSet := keys.foldl remove c

def isEmpty (c : ChangeSet) : Bool := c.added.isEmpty && c.removed.isEmpty

/-- A table after the changes: the writes, then the removals. -/
def apply (c : ChangeSet) (table : Entries) : Entries :=
  c.removed.foldl (fun table key => table.erase key) (c.added.overlay table)

def toJson (c : ChangeSet) : Json :=
  Json.record [
    ("transaction_id", Json.text c.transaction.toText), ("started_at", Json.text c.startedAt.toText),
    ("added", Json.ofEntries c.added), ("removed", Json.ofKeys c.removed)]

/-- The changes that a JSON record describes, for any way to read ids and points in time. The keys
    of a missing side are none. -/
def ofRecord? (readId : String → Option TransactionId) (readTime : String → Option Timestamp)
    (json : Json) : Option ChangeSet := do
  match ← json.record? ["transaction_id", "started_at", "added", "removed"] with
  | [transaction, startedAt, added, removed] =>
    let transaction ← Json.required? (fun j => j.text?.bind readId) transaction
    let startedAt ← Json.required? (fun j => j.text?.bind readTime) startedAt
    let added ← Json.optional? ∅ Json.entries? added
    let removed ← Json.optional? ∅ Json.keys? removed
    some ⟨transaction, startedAt, added, removed⟩
  | _ => none

/-- The changes that a JSON record describes, with ids and points in time in their usual forms. -/
def ofJson? : Json → Option ChangeSet := ofRecord? TransactionId.ofString? Timestamp.ofString?

end ChangeSet

end LayeredConfig
