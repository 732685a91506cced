import LayeredConfig.Warning

/-!
# Filters

A filter sees a value on its way to the caller, with the key that was asked for and whether it was
asked for alone or among all properties. It passes the value on, possibly changed, or vetoes it, or
fails. Filters run one after the other: a veto ends the chain, and a filter that fails counts as
one that changes nothing.
-/

set_option autoImplicit false

namespace LayeredConfig

/-- What a filter is asked about: the key, and whether it is looked up alone. -/
structure FilterContext where
  key : String
  single : Bool
  deriving DecidableEq

/-- A named step on the way of values to the caller. -/
structure Filter where
  name : String
  apply : PropertyValue → FilterContext → Except ConfigError (Option PropertyValue)

namespace Filter

/-- Runs a chain of filters on a value. -/
def chain (ctx : FilterContext) : List Filter → PropertyValue → Logged (Option PropertyValue)
  | [], v => .quiet (some v)
  | f :: fs, v =>
    match f.apply v ctx with
    | .ok (some next) => chain ctx fs next
    | .ok none => .quiet none
    | .error e => (chain ctx fs v).after [.filterFailed ctx.key f.name e]

end Filter

end LayeredConfig
