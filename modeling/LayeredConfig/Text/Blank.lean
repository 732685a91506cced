/-!
# Blank characters and trimming

What counts as blank at the ends of a value, of an ordinal, or of a list item: the characters
with the Unicode property `White_Space`. The zero-width space and the byte order mark do not have
it, so they survive trimming.

Texts are handled as lists of characters here, and `trim` on strings is the same function at the
edge.
-/

set_option autoImplicit false

namespace LayeredConfig.Text

/-- The code points with the property `White_Space`, as closed ranges in increasing order. -/
def blankRanges : List (Nat × Nat) := [
  (0x09, 0x0D), (0x20, 0x20), (0x85, 0x85), (0xA0, 0xA0), (0x1680, 0x1680), (0x2000, 0x200A),
  (0x2028, 0x2029), (0x202F, 0x202F), (0x205F, 0x205F), (0x3000, 0x3000)]

def isBlank (c : Char) : Bool :=
  blankRanges.any fun range => range.1 ≤ c.toNat && c.toNat ≤ range.2

/-- A text without the blanks it starts with. -/
def trimStart (cs : List Char) : List Char := cs.dropWhile isBlank

/-- A text without the blanks it ends with. -/
def trimEnd (cs : List Char) : List Char := (cs.reverse.dropWhile isBlank).reverse

/-- A text without the blanks around it. -/
def trimmed (cs : List Char) : List Char := trimEnd (trimStart cs)

def trim (s : String) : String := String.ofList (trimmed s.toList)

theorem trim_toList (s : String) : (trim s).toList = trimmed s.toList := by
  simp [trim]

end LayeredConfig.Text
