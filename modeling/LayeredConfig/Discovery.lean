/-!
# Applying bundles once

A bundle is known by its name and is applied at most once, whatever is discovered how often.

Only the name counts. A second bundle of a name that has been applied is passed over, even where it
holds something else, and a name is never forgotten. Converters and services are discovered alike.
-/

set_option autoImplicit false

namespace LayeredConfig.Discovery

/-- The bundles whose name has not been applied, each name once, and the names applied with them. -/
def pending {α : Type} (name : α → String) : List α → List String → List α × List String
  | [], applied => ([], applied)
  | a :: rest, applied =>
    if applied.contains (name a) then pending name rest applied
    else
      let (others, applied) := pending name rest (applied ++ [name a])
      (a :: others, applied)

end LayeredConfig.Discovery
