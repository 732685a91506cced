import LayeredConfig.Lookup.Combination
import LayeredConfig.Lookup.Filter
import LayeredConfig.Text.Ascii

/-!
# Sample filters and policies

Filters and combination policies are given to a context by the program that makes it. Those here are
for trying contexts out, next to the ones that the library brings along.

* A rule is a filter that does one thing to the values of the keys with a prefix, and nothing to
  other values: in look-ups of one key, in listings, or in both. Between them the actions use every
  way in which a filter can answer: a value, changed or not, a veto, and both kinds of failures.
* Two policies ask every source, as the overriding one does not, and keep one value, as the
  appending one does not. One of them passes over the sources that do not know the key, the other
  does not.
-/

set_option autoImplicit false

namespace LayeredConfig

/-- What a rule does to a value. -/
inductive FilterAction
  /-- Vetoes it. -/
  | veto
  /-- Vetoes it if its text is the given one. -/
  | vetoText (text : String)
  /-- Fails with the given reason. -/
  | fail (reason : String)
  /-- Fails as a configuration that is wired wrongly. -/
  | reject (reason : String)
  /-- Adds a note with the given text. -/
  | note (text : String)
  /-- Answers the text under another key, as its own source and without notes. -/
  | rename (key : String)
  /-- Writes the given text after it. -/
  | append (text : String)
  deriving DecidableEq

/-- An action and the look-ups it applies to: keys with a prefix, alone or in listings or both. -/
structure FilterRule where
  name : String
  start : String
  single : Option Bool
  action : FilterAction
  deriving DecidableEq

namespace FilterRule

/-- Whether the rule applies to a look-up. -/
def applies (r : FilterRule) (ctx : FilterContext) : Bool :=
  Text.startsWith r.start ctx.key && (r.single.isNone || r.single == some ctx.single)

/-- What the action makes of a value. -/
def act (r : FilterRule) (v : PropertyValue) (ctx : FilterContext) :
    Except ConfigError (Option PropertyValue) :=
  match r.action with
  | .veto => .ok none
  | .vetoText text => .ok (if v.value = text then none else some v)
  | .fail reason => .error (.filter r.name ctx.key reason)
  | .reject reason => .error (.illegal reason)
  | .note text => .ok (some (v.withNote "rule" text))
  | .rename key => .ok (some (.plain key v.value r.name))
  | .append text => .ok (some (v.withText (v.value ++ text)))

/-- The filter that follows the rule. -/
def filter (r : FilterRule) : Filter :=
  ⟨r.name, fun v ctx => if r.applies ctx then r.act v ctx else .ok (some v)⟩

end FilterRule

namespace Sample

/-- The last source that knows the key counts. -/
def lastWins : CombinationPolicy := fun previous key source =>
  match source.get key with
  | .error e => .error e
  | .ok none => .ok previous
  | .ok (some found) => .ok (some found)

/-- Only what the last source answers counts, and be it nothing. -/
def lastOnly : CombinationPolicy := fun _ key source => source.get key

end Sample

end LayeredConfig
