import LayeredConfig.Source.Basic

/-!
# Errors of a configuration

What a configuration cannot answer. Each error is a cause with the names that belong to it, and its
text is made in one place.
-/

set_option autoImplicit false

namespace LayeredConfig

/-- Why a configuration cannot answer. -/
inductive ConfigError
  | conversion (key value target : String) (formats : List String)
  | ambiguousService (capability : String) (priority : Int) (candidates : List String)
  | filter (name key reason : String)
  | illegal (reason : String)
  deriving DecidableEq

def ConfigError.message : ConfigError → String
  | conversion key value target formats =>
    "cannot convert value `" ++ value ++ "` of key `" ++ key ++ "` to `" ++ target ++
      "`; supported formats: [" ++ String.intercalate ", " formats ++ "]"
  | ambiguousService capability priority candidates =>
    "ambiguous `" ++ capability ++ "` services at priority " ++ toString priority ++ ": " ++
      String.intercalate ", " candidates
  | filter name key reason => s!"filter `{name}` failed for key `{key}`: {reason}"
  | illegal reason => "illegal configuration: " ++ reason

end LayeredConfig
