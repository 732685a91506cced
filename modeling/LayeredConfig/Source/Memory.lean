import LayeredConfig.Source.Basic
import LayeredConfig.Text.Quoted

/-!
# Writable memory

A source that keeps its committed entries and, for every open transaction, the changes staged
under it. A staged change is seen by nobody until it is committed, and then all changes of the
transaction are applied together. Keys with one of the read-only prefixes stay as they are.

A refused operation leaves the source unchanged. Whether a key may be written is asked before
whether the transaction is known.
-/

set_option autoImplicit false

namespace LayeredConfig

/-- A writable source: the committed entries and one staging area per open transaction. -/
structure Memory where
  name : String
  ordinal : Int
  readOnly : List String
  committed : Entries
  staged : Std.ExtTreeMap TransactionId ChangeSet

namespace Memory

def ofPairs (name : String) (ordinal : Int) (readOnly : List String)
    (pairs : List (String × String)) : Memory :=
  ⟨name, ordinal, readOnly, Entries.ofPairs pairs, ∅⟩

def isReadOnly (m : Memory) (key : String) : Bool :=
  m.readOnly.any fun start => Text.startsWith start key

/-- The ids of the open transactions, in order. -/
def openTransactions (m : Memory) : List TransactionId := m.staged.keys

def value? (m : Memory) (key : String) : Option PropertyValue :=
  m.committed[key]?.map fun value => .plain key value m.name

/-- Reading sees committed entries only, and never fails. -/
def reader (m : Memory) : Reader where
  name := m.name
  ordinal := m.ordinal
  scannable := true
  get key := .ok (m.value? key)
  properties := .ok m.committed

def start (id : TransactionId) (now : Timestamp) (m : Memory) : Attempt SourceError Memory :=
  if m.staged.contains id then (.error (.transactionExists m.name id), m)
  else (.ok (), { m with staged := m.staged.insert id (ChangeSet.start id now) })

/-- Changes one key of a staging area. -/
def stage (id : TransactionId) (key : String) (change : ChangeSet → ChangeSet) (m : Memory) :
    Attempt SourceError Memory :=
  -- A read-only key is refused under any transaction, known or not.
  if m.isReadOnly key then (.error (.readOnly m.name key), m)
  else
    match m.staged[id]? with
    | some changes => (.ok (), { m with staged := m.staged.insert id (change changes) })
    | none => (.error (.noTransaction m.name id), m)

def put (id : TransactionId) (key value : String) (m : Memory) : Attempt SourceError Memory :=
  m.stage id key fun changes => changes.put key value

def remove (id : TransactionId) (key : String) (m : Memory) : Attempt SourceError Memory :=
  m.stage id key fun changes => changes.remove key

/-- Applies the staged changes and closes the staging area. -/
def commit (id : TransactionId) (m : Memory) : Attempt SourceError Memory :=
  match m.staged[id]? with
  | some changes =>
    (.ok (), { m with committed := changes.apply m.committed, staged := m.staged.erase id })
  | none => (.error (.noTransaction m.name id), m)

/-- Closes the staging area and forgets what was in it. -/
def rollback (id : TransactionId) (m : Memory) : Attempt SourceError Memory :=
  if m.staged.contains id then (.ok (), { m with staged := m.staged.erase id })
  else (.error (.noTransaction m.name id), m)

instance : Source Memory where
  reader := reader
  isMutable _ := true
  isWritable m key := !m.isReadOnly key
  isRemovable m key := !m.isReadOnly key
  start := start
  put := put
  putAll id := Source.putEach (put id)
  remove := remove
  commit := commit
  rollback := rollback
  changes? m id := m.staged[id]?

/-- The description of a memory in diagnostics; its content is left out. -/
def describe (m : Memory) : String :=
  "InMemoryPropertySource \x7b name: " ++ Text.quoted m.name ++ ", ordinal: " ++ toString m.ordinal ++
    ", read_only_prefixes: " ++ Text.quotedList m.readOnly ++ ", .. \x7d"

end Memory

end LayeredConfig
