import LayeredConfig.Ranking
import LayeredConfig.Source.Basic

/-!
# Tagged sources

A configuration ranks its sources and knows them by their names, which need not be distinct. An
owner who wants to find each of them again gives it a number of its own. The number makes no
difference to anything that a source is asked or told.
-/

set_option autoImplicit false

namespace LayeredConfig

/-- A source with the number by which its owner knows it. -/
structure Tagged (σ : Type) where
  tag : Nat
  inner : σ

namespace Tagged

variable {σ : Type}

/-- Sources numbered in their order, from zero. -/
def ofList (sources : List σ) : List (Tagged σ) :=
  sources.zipIdx.map fun (inner, tag) => ⟨tag, inner⟩

/-- The sources in the order of their numbers. -/
def inOrder (sources : List (Tagged σ)) : List (Tagged σ) :=
  Ranking.ascending (fun s => (s.tag : Int)) sources

def find? (tag : Nat) (sources : List (Tagged σ)) : Option σ :=
  (sources.find? fun s => s.tag == tag).map Tagged.inner

/-- The sources with another one in place of that of a number. -/
def replace (tag : Nat) (inner : σ) (sources : List (Tagged σ)) : List (Tagged σ) :=
  sources.map fun s => if s.tag == tag then ⟨tag, inner⟩ else s

/-- An operation on the inside of a tagged source. -/
def on (op : σ → Attempt SourceError σ) (s : Tagged σ) : Attempt SourceError (Tagged σ) :=
  let (answer, inner) := op s.inner
  (answer, { s with inner := inner })

instance [Source σ] : Source (Tagged σ) where
  reader s := Source.reader s.inner
  isMutable s := Source.isMutable s.inner
  isWritable s := Source.isWritable s.inner
  isRemovable s := Source.isRemovable s.inner
  start id now := on (Source.start id now)
  put id key value := on (Source.put id key value)
  putAll id entries := on (Source.putAll id entries)
  remove id key := on (Source.remove id key)
  commit id := on (Source.commit id)
  rollback id := on (Source.rollback id)
  changes? s := Source.changes? s.inner

end Tagged

end LayeredConfig
