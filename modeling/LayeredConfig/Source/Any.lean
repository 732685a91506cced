import LayeredConfig.Source.Guarded
import LayeredConfig.Source.Memory
import LayeredConfig.Source.Scripted
import LayeredConfig.Source.Table

/-!
# Sources of several kinds side by side

A configuration may have sources of every kind in one list.

The kinds are the cases of one type, and an operation or a question goes to the source inside. Only
a memory, bare or behind a guard, has a staging area (`AnySource.memory?`); the tables take no part
in transactions. What is true of every source whatsoever is proved for any type of sources, and what
depends on the kind is proved for each kind and put together here.
-/

set_option autoImplicit false

namespace LayeredConfig

/-- A source of one of the kinds of this library. -/
inductive AnySource
  | table (t : Table)
  | scripted (s : Scripted)
  | memory (m : Memory)
  | guarded (g : Guarded Memory)

namespace AnySource

/-- An attempt on the inside of a source, as an attempt on the source. -/
def within {σ : Type} (wrap : σ → AnySource) (attempt : Attempt SourceError σ) :
    Attempt SourceError AnySource :=
  (attempt.1, wrap attempt.2)

/-- Applies an operation that every kind of source has. -/
def on (op : (σ : Type) → [Source σ] → σ → Attempt SourceError σ) :
    AnySource → Attempt SourceError AnySource
  | table t => within table (op Table t)
  | scripted s => within scripted (op Scripted s)
  | memory m => within memory (op Memory m)
  | guarded g => within guarded (op (Guarded Memory) g)

/-- Asks a question that every kind of source answers. -/
def ask {α : Type} (question : (σ : Type) → [Source σ] → σ → α) : AnySource → α
  | table t => question Table t
  | scripted s => question Scripted s
  | memory m => question Memory m
  | guarded g => question (Guarded Memory) g

instance : Source AnySource where
  reader := ask fun _ => Source.reader
  isMutable := ask fun _ => Source.isMutable
  isWritable := ask fun _ => Source.isWritable
  isRemovable := ask fun _ => Source.isRemovable
  start id now := on fun _ => Source.start id now
  put id key value := on fun _ => Source.put id key value
  putAll id entries := on fun _ => Source.putAll id entries
  remove id key := on fun _ => Source.remove id key
  commit id := on fun _ => Source.commit id
  rollback id := on fun _ => Source.rollback id
  changes? := ask fun _ => Source.changes?

def memory? : AnySource → Option Memory
  | memory m => some m
  | guarded g => some g.inner
  | _ => none

end AnySource

end LayeredConfig
