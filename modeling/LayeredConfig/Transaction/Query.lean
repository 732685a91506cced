import LayeredConfig.Transaction.View

/-!
# Questions of a writer

Which sources would take a change of a key, and whether any would.

The answers are those of the sources alone, as they are now. The policy of a view may select fewer
of them for a write, and a source that accepts a key may still fail when it is written to.
-/

set_option autoImplicit false

namespace LayeredConfig.Shared

variable {σ : Type} [Source σ]

/-- The names of the writable sources that pass a test, from the highest to the lowest. -/
def namesWhere (shared : Shared σ) (test : σ → Bool) : List String :=
  (shared.context.sources.filter fun s => Source.isMutable s && test s).map Source.name

def mutableNames (shared : Shared σ) : List String := shared.namesWhere fun _ => true

/-- The names of the sources that accept a write of the key. -/
def writers (shared : Shared σ) (key : String) : List String :=
  shared.namesWhere fun s => Source.isWritable s key

/-- The names of the sources that give the key up. -/
def removers (shared : Shared σ) (key : String) : List String :=
  shared.namesWhere fun s => Source.isRemovable s key

/-- The names of the writable sources that have the key. -/
def holders (shared : Shared σ) (key : String) : List String :=
  shared.namesWhere fun s =>
    match (Source.reader s).get key with
    | .ok (some _) => true
    | _ => false

/-- Whether some source accepts a write of the key. -/
def isWritable (shared : Shared σ) (key : String) : Bool :=
  shared.context.sources.any fun s => Source.isMutable s && Source.isWritable s key

/-- Whether some source gives the key up. -/
def isRemovable (shared : Shared σ) (key : String) : Bool :=
  shared.context.sources.any fun s => Source.isMutable s && Source.isRemovable s key

/-- Whether the key has a value for the reader. -/
def isExisting (shared : Shared σ) (key : String) : Logged Bool :=
  (shared.context.get key).map Option.isSome

end LayeredConfig.Shared
