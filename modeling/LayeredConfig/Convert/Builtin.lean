import LayeredConfig.Convert.Registry

/-!
# Converters for the plain types

Truth values, whole and floating-point numbers, characters and paths. Blanks around a text do not
count, except that a single character is itself whatever it is, and letters of words are compared
without their case. Nothing here fails: a text is in one of the formats or it is not.
-/

set_option autoImplicit false

namespace LayeredConfig.Builtin

/-- A format that is a word in letters of either case. -/
def word (s : String) : String := s ++ " (ignore case)"

def boolWords : List (String × Bool) := [
  ("yes", true), ("y", true), ("true", true), ("t", true),
  ("no", false), ("n", false), ("false", false), ("f", false)]

def bool? (cs : List Char) : Option Bool :=
  (boolWords.find? fun entry => Text.sameLetters (Text.trimmed cs) entry.1.toList).map (·.2)

def bool : Converter .bool := fun text _ =>
  .pure "bool" (boolWords.map fun entry => word entry.1)
    ((bool? text.toList).map fun b => (Value.bool b).typed)

def wholeFormats : List String :=
  ["<decimal>", "0x<hex>", "0X<hex>", "#<hex>", "0<octal>", word "MIN_VALUE / MAX_VALUE"]

/-- Reads a literal or the name of a bound as a whole number. -/
def whole (kind : Numeral.WholeKind) : Converter (.whole kind) := fun text _ =>
  .pure kind.name wholeFormats
    ((kind.ofChars? (Text.trimmed text.toList)).map fun n => (Value.whole kind n).typed)

def floatFormats : List String := [
  "<decimal or scientific>", word "NaN", word "POSITIVE_INFINITY / NEGATIVE_INFINITY",
  word "MIN_VALUE / MAX_VALUE", word "MIN_POSITIVE"]

/-- Reads a decimal or the name of a number as the nearest floating-point number. -/
def float (kind : Numeral.FloatKind) : Converter (.float kind) := fun text _ =>
  .pure kind.name floatFormats
    ((kind.ofChars? (Text.trimmed text.toList)).map fun p => (Value.float kind p).typed)

/-- The only character of a text. -/
def only? : List Char → Option Char
  | [c] => some c
  | _ => none

/-- A text without the apostrophes that it starts and ends with. -/
def unquoted? : List Char → Option (List Char)
  | '\'' :: cs => if cs.getLast? = some '\'' then some cs.dropLast else none
  | _ => none

/-- The character that a text is: its only one as it stands, or else the only one that is left
    without the blanks around it and one pair of apostrophes. -/
def char? (cs : List Char) : Option Char :=
  match only? cs with
  | some c => some c
  | none =>
    let inner := Text.trimmed cs
    only? ((unquoted? inner).getD inner)

/-- Reads a single character, between apostrophes or without. -/
def char : Converter .char := fun text _ =>
  .pure "char" ["<single character>", "'<single character>'"]
    ((char? text.toList).map fun c => (Value.char c).typed)

/-- Reads any text that is not blank as a path. -/
def path : Converter .path := fun text _ =>
  let s := Text.trim text
  .pure "path" ["<any non-empty path>"] (if s.isEmpty then none else some (Value.path s).typed)

/-- Every converter for a plain type, under its name. -/
def entries : List RegistryEntry :=
  [.converter .bool "bool" bool] ++
  Numeral.WholeKind.all.map (fun kind => .converter (.whole kind) kind.name (whole kind)) ++
  [Numeral.FloatKind.single, .double].map
    (fun kind => .converter (.float kind) kind.name (float kind)) ++
  [.converter .char "char" char, .converter .path "path" path]

/-- The converters for the plain types as a bundle to be discovered. -/
def plugin : ConverterPlugin := ⟨"strata.builtin", entries⟩

end LayeredConfig.Builtin
