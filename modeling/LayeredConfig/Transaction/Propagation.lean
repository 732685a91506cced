import LayeredConfig.Transaction.Error

/-!
# Propagating changes

A change of a writer goes to the writable sources that its policy selects: to all that accept the
key, to the highest that does, to those that are named, or to none. Sources are asked from the
highest to the lowest, up to the first failure; what has been staged before it stays.

Several writes reach a source together, as far as it accepts the keys. The policy of the highest
source routes every key by itself and so makes the writes one by one.

To accept a key and to stage a change of it are two things. A source that does not accept the key is
passed over in silence; one that accepts it and then fails ends the change with its error.
-/

set_option autoImplicit false

namespace LayeredConfig

/-- An operation on several sources: success or the failure of one of them, and the sources
    afterwards. -/
abbrev Spread (σ : Type) : Type := List σ → Attempt SourceFailure (List σ)

namespace Spread

variable {σ : Type} [Source σ]

def nowhere : Spread σ := fun sources => (.ok (), sources)

/-- An operation on every selected source in turn, up to the first that fails. -/
def each (selects : σ → Bool) (op : σ → Attempt SourceError σ) : Spread σ
  | [] => (.ok (), [])
  | s :: rest =>
    if selects s then
      match op s with
      | (.ok (), s) =>
        let (answer, rest) := each selects op rest
        (answer, s :: rest)
      | (.error e, after) => (.error ⟨Source.name s, e⟩, after :: rest)
    else
      let (answer, rest) := each selects op rest
      (answer, s :: rest)

/-- An operation on the first selected source. -/
def first (selects : σ → Bool) (op : σ → Attempt SourceError σ) : Spread σ
  | [] => (.ok (), [])
  | s :: rest =>
    if selects s then
      match op s with
      | (.ok (), s) => (.ok (), s :: rest)
      | (.error e, after) => (.error ⟨Source.name s, e⟩, after :: rest)
    else
      let (answer, rest) := first selects op rest
      (answer, s :: rest)

end Spread

/-- Stages on one source those of several writes whose key it accepts, if there are any. -/
def Source.putAccepted {σ : Type} [Source σ] (id : TransactionId) (entries : Entries) (s : σ) :
    Attempt SourceError σ :=
  let accepted := entries.filter fun key _ => Source.isWritable s key
  if accepted.isEmpty then (.ok (), s) else Source.putAll id accepted s

/-- Stages on one source the removals of those keys that it gives up, one by one. -/
def Source.removeAccepted {σ : Type} [Source σ] (id : TransactionId) (keys : List String) (s : σ) :
    Attempt SourceError σ :=
  Attempt.each (fun key s => if Source.isRemovable s key then Source.remove id key s else (.ok (), s))
    keys s

/-- How the changes of a writer reach the sources of a configuration. -/
structure Propagation (σ : Type) where
  name : String
  put : TransactionId → String → String → Spread σ
  putAll : TransactionId → Entries → Spread σ
  remove : TransactionId → List String → Spread σ

namespace Propagation

variable {σ : Type} [Source σ]

/-- To every writable source among the candidates that accepts the key. -/
def toEach (name : String) (candidate : σ → Bool) : Propagation σ where
  name := name
  put id key value := Spread.each (fun s => candidate s && Source.isWritable s key)
    (Source.put id key value)
  putAll id entries := Spread.each candidate (Source.putAccepted id entries)
  remove id keys := Spread.each candidate (Source.removeAccepted id keys)

/-- To every writable source that accepts the key. -/
def all : Propagation σ := toEach "apply-all" Source.isMutable

/-- To every writable source of one of the given names that accepts the key. -/
def selective (names : List String) : Propagation σ :=
  toEach "apply-selective" fun s => Source.isMutable s && names.contains (Source.name s)

/-- To the highest writable source that accepts the key. -/
def mostSignificant : Propagation σ where
  name := "apply-most-significant-only"
  put id key value :=
    Spread.first (fun s => Source.isMutable s && Source.isWritable s key) (Source.put id key value)
  putAll id entries := Attempt.each (fun entry =>
    Spread.first (fun s => Source.isMutable s && Source.isWritable s entry.1)
      (Source.put id entry.1 entry.2)) entries.toList
  remove id keys := Attempt.each (fun key =>
    Spread.first (fun s => Source.isMutable s && Source.isRemovable s key) (Source.remove id key))
    keys

/-- To no source: changes are dropped. -/
def none : Propagation σ where
  name := "apply-none"
  put _ _ _ := Spread.nowhere
  putAll _ _ := Spread.nowhere
  remove _ _ := Spread.nowhere

end Propagation

end LayeredConfig
