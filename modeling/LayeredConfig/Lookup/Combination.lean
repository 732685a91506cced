import LayeredConfig.Warning

/-!
# Combining the values of several sources

A combination policy is asked once for each source, from the highest to the lowest, and answers the
value so far, given the value before. An error of a source is logged, and the value before it
stays.

A policy is given the source and not the answer of the source, so it may leave it unasked: the
overriding policy does so once it has a value. Only the value so far passes from one source to the
next. What a policy wants to remember beside it has to be a note on the value, as the names of the
sources are for the appending one.
-/

set_option autoImplicit false

namespace LayeredConfig

/-- How what a source answers for a key combines with what has been collected before. -/
abbrev CombinationPolicy : Type :=
  Option PropertyValue → String → Reader → Except SourceError (Option PropertyValue)

namespace CombinationPolicy

/-- The first source that knows the key counts, and no source after it is asked. -/
def overriding : CombinationPolicy := fun previous key source =>
  match previous with
  | some v => .ok (some v)
  | none => source.get key

/-- The note that names every source of a joined value. -/
def sourcesNote : String := "sources"

/-- A value joined with one found after it. -/
def join (separator : String) (previous found : PropertyValue) : PropertyValue :=
  let sources := (previous.metadata[sourcesNote]?).getD previous.source
  (previous.withText (previous.value ++ separator ++ found.value)).withNote sourcesNote
    (sources ++ separator ++ found.source)

/-- The values of all sources that know the key, joined in their order. The first one keeps its
    key, its source and its notes, and a note names all sources. -/
def appending (separator : String) : CombinationPolicy := fun previous key source =>
  match source.get key with
  | .error e => .error e
  | .ok none => .ok previous
  | .ok (some found) =>
    match previous with
    | none => .ok (some (found.withNote sourcesNote found.source))
    | some v => .ok (some (join separator v found))

def defaultSeparator : String := ","

/-- Collects the value of a key from sources in their order. -/
def collect (policy : CombinationPolicy) (key : String) :
    List Reader → Option PropertyValue → Logged (Option PropertyValue)
  | [], current => .quiet current
  | source :: sources, current =>
    match policy current key source with
    | .ok next => policy.collect key sources next
    | .error e =>
      (policy.collect key sources current).after [.lookupFailed key source.name e]

end CombinationPolicy

end LayeredConfig
