/-!
# Letter case and search

Letter case is folded for the 26 letters of ASCII only: every other character equals itself and
nothing else, whatever its case mappings. So folding never changes the length of a text, and a
folded text can be searched position by position.
-/

set_option autoImplicit false

namespace LayeredConfig.Text

/-- A string with its ASCII capitals made small. -/
def lower (s : String) : String := String.ofList (s.toList.map Char.toLower)

/-- A string with its small ASCII letters made capital. -/
def upper (s : String) : String := String.ofList (s.toList.map Char.toUpper)

def sameLetters (a b : List Char) : Bool := a.map Char.toLower == b.map Char.toLower

/-- What follows `start` in `s`, if `s` starts with it. -/
def afterPrefix? (start s : String) : Option String :=
  (start.toList.isPrefixOf? s.toList).map String.ofList

def startsWith (start s : String) : Bool := start.toList.isPrefixOf s.toList

/-- Whether `fragment` stands somewhere in a text, at any position. -/
def occurs (fragment : List Char) : List Char → Bool
  | [] => fragment.isEmpty
  | c :: cs => fragment.isPrefixOf (c :: cs) || occurs fragment cs

def contains (fragment s : String) : Bool := occurs fragment.toList s.toList

theorem lower_toList (s : String) : (lower s).toList = s.toList.map Char.toLower := by
  simp [lower]

end LayeredConfig.Text
