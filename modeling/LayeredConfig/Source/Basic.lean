import LayeredConfig.ChangeSet
import LayeredConfig.Property.Value

/-!
# Sources

A source is a named, ranked supplier of properties. Reading needs only a `Reader`: the answers to
look-ups as they are now. Writing is transactional: a source opens a staging area for a
transaction, collects writes and removals in it, and commits or discards it as a whole; every such
operation answers success or an error and the source as it is afterwards.

Nothing is assumed of the answers. What is true of every source holds of one that fails at random,
and the kinds of source in this library are instances like any other.
-/

set_option autoImplicit false

namespace LayeredConfig

/-- Why a source refused an operation. -/
inductive SourceError
  | failed (source reason : String)
  | noTransaction (source : String) (transaction : TransactionId)
  | transactionExists (source : String) (transaction : TransactionId)
  | readOnly (source key : String)
  deriving DecidableEq

namespace SourceError

/-- The text of an error, with transactions shown as the reader knows them. -/
def messageWith (showId : TransactionId → String) : SourceError → String
  | failed source reason => s!"property source `{source}` failed: {reason}"
  | noTransaction source id =>
    "property source `" ++ source ++ "` has no open transaction " ++ showId id
  | transactionExists source id =>
    "property source `" ++ source ++ "` already started transaction " ++ showId id
  | readOnly source key => s!"key `{key}` is read-only in property source `{source}`"

end SourceError

/-- What a source answers to look-ups. Higher ordinals come first. A source that is not scannable
    knows more keys than its table lists. -/
structure Reader where
  name : String
  ordinal : Int
  scannable : Bool
  get : String → Except SourceError (Option PropertyValue)
  properties : Except SourceError Entries

def Reader.defaultOrdinal : Int := 0

/-- The outcome of an operation on a thing that it changes: success or an error, and the thing
    afterwards. -/
abbrev Attempt (ε σ : Type) := Except ε Unit × σ

namespace Attempt

/-- One operation after another, up to the first that fails. -/
def each {ε σ α : Type} (step : α → σ → Attempt ε σ) : List α → σ → Attempt ε σ
  | [], s => (.ok (), s)
  | a :: rest, s =>
    match step a s with
    | (.ok (), s) => each step rest s
    | (.error e, s) => (.error e, s)

end Attempt

/-- A kind of source. The operations with a transaction are used only where `isMutable` says so. -/
class Source (σ : Type) where
  reader : σ → Reader
  isMutable : σ → Bool
  isWritable : σ → String → Bool
  isRemovable : σ → String → Bool
  start : TransactionId → Timestamp → σ → Attempt SourceError σ
  put : TransactionId → String → String → σ → Attempt SourceError σ
  putAll : TransactionId → Entries → σ → Attempt SourceError σ
  remove : TransactionId → String → σ → Attempt SourceError σ
  commit : TransactionId → σ → Attempt SourceError σ
  rollback : TransactionId → σ → Attempt SourceError σ
  changes? : σ → TransactionId → Option ChangeSet

namespace Source

/-- Several writes through an operation that makes one: key by key in order, up to the first that
    fails. -/
def putEach {σ : Type} (put : String → String → σ → Attempt SourceError σ) (entries : Entries) :
    σ → Attempt SourceError σ :=
  Attempt.each (fun entry => put entry.1 entry.2) entries.toList

/-- A kind of source that can only be read. -/
@[reducible] def readOnly {σ : Type} (reader : σ → Reader) : Source σ where
  reader := reader
  isMutable _ := false
  isWritable _ _ := false
  isRemovable _ _ := false
  start id _ s := (.error (.noTransaction (reader s).name id), s)
  put _ key _ s := (.error (.readOnly (reader s).name key), s)
  putAll id _ s := (.error (.noTransaction (reader s).name id), s)
  remove _ key s := (.error (.readOnly (reader s).name key), s)
  commit id s := (.error (.noTransaction (reader s).name id), s)
  rollback id s := (.error (.noTransaction (reader s).name id), s)
  changes? _ _ := none

def name {σ : Type} [Source σ] (s : σ) : String := (reader s).name

def ordinal {σ : Type} [Source σ] (s : σ) : Int := (reader s).ordinal

end Source

/-- A reader by itself is a source that can only be read. -/
instance : Source Reader := Source.readOnly id

end LayeredConfig
