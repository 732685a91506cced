import LayeredConfig.Json.Basic
import LayeredConfig.Numeral.Radix

/-!
# Reading JSON text

The whole text has to be one value with nothing but blanks around it. Each step takes its part off
the front of a list of characters and answers it with what is left. Values nest, so the recursion
is bounded by the length of the text: every step that goes deeper or on to the next item has
consumed a character.

A program would take a reader of JSON off the shelf, and this one stands for it: it follows the
published rules of the format. What is proved of records that are read starts from the value that
comes out of a text, so that nothing but a few examples depends on which texts are accepted.

An escape names a code unit of 16 bits. Units are collected first and paired afterwards, because
two escapes may have to be read together to be one character.
-/

set_option autoImplicit false

namespace LayeredConfig.Json

/-- The four characters that may stand between the parts of a JSON text. -/
def isBlank (c : Char) : Bool := c == ' ' || c == '\n' || c == '\t' || c == '\r'

def skipBlank (cs : List Char) : List Char := cs.dropWhile isBlank

/-- What follows the given letters, if the text starts with them. -/
def after? (letters : String) (cs : List Char) : Option (List Char) :=
  letters.toList.isPrefixOf? cs

/-! ## Numbers -/

/-- A non-empty run of decimal digits off the front. -/
def digits? (cs : List Char) : Option (List Char) :=
  match cs with
  | c :: rest => if c.isDigit then some (rest.dropWhile Char.isDigit) else none
  | [] => none

/-- The whole part of a number: a zero alone, or digits that do not start with one. -/
def wholePart? : List Char → Option (List Char)
  | '0' :: cs => some cs
  | cs => digits? cs

/-- A point and the digits after it, or nothing. -/
def fractionPart? : List Char → Option (List Char)
  | '.' :: cs => digits? cs
  | cs => some cs

/-- The exponent's digits after at most one sign. -/
def signedDigits? : List Char → Option (List Char)
  | '+' :: cs => digits? cs
  | '-' :: cs => digits? cs
  | cs => digits? cs

/-- An exponent, or nothing. -/
def exponentPart? : List Char → Option (List Char)
  | 'e' :: cs => signedDigits? cs
  | 'E' :: cs => signedDigits? cs
  | cs => some cs

/-- What is left after a number. -/
def afterNumber? (cs : List Char) : Option (List Char) := do
  let unsigned := match cs with
    | '-' :: rest => rest
    | _ => cs
  let rest ← wholePart? unsigned
  let rest ← fractionPart? rest
  exponentPart? rest

/-! ## Strings -/

/-- The code unit that four hexadecimal digits name. -/
def unit? : List Char → Option Nat
  | [a, b, c, d] => Numeral.nat? 16 [a, b, c, d]
  | _ => none

/-- The character that an escape of one letter stands for. -/
def escaped? : Char → Option Char
  | '"' => some '"'
  | '\\' => some '\\'
  | '/' => some '/'
  | 'b' => some '\x08'
  | 'f' => some '\x0c'
  | 'n' => some '\n'
  | 'r' => some '\r'
  | 't' => some '\t'
  | _ => none

/-- The code points and code units of a string up to its closing quote. A control character may
    not stand in a string as it is. -/
def units? : List Char → Option (List Nat × List Char)
  | '"' :: cs => some ([], cs)
  | '\\' :: 'u' :: a :: b :: c :: d :: cs => do
    let unit ← unit? [a, b, c, d]
    let (units, rest) ← units? cs
    some (unit :: units, rest)
  | '\\' :: c :: cs => do
    let c ← escaped? c
    let (units, rest) ← units? cs
    some (c.toNat :: units, rest)
  | c :: cs =>
    if c.toNat < 0x20 || c == '\\' then none
    else do
      let (units, rest) ← units? cs
      some (c.toNat :: units, rest)
  | [] => none

/-- Whether a code unit is the first half of a pair. -/
def isHigh (unit : Nat) : Bool := 0xD800 ≤ unit && unit ≤ 0xDBFF

/-- Whether a code unit is the second half of a pair. -/
def isLow (unit : Nat) : Bool := 0xDC00 ≤ unit && unit ≤ 0xDFFF

/-- The characters that code points and paired code units spell; nothing if a half is alone. -/
def paired? : List Nat → Option (List Char)
  | [] => some []
  | high :: low :: rest =>
    if isHigh high then
      if isLow low then
        (paired? rest).map (Char.ofNat (0x10000 + (high - 0xD800) * 0x400 + (low - 0xDC00)) :: ·)
      else none
    else if isLow high then none
    else (paired? (low :: rest)).map (Char.ofNat high :: ·)
  | [unit] => if isHigh unit || isLow unit then none else some [Char.ofNat unit]

/-- The content of a string after its opening quote, and what is left after its closing one. -/
def content? (cs : List Char) : Option (Option String × List Char) :=
  (units? cs).map fun (units, rest) => ((paired? units).map String.ofList, rest)

/-! ## Values -/

mutual

/-- A value off the front, blanks before it skipped. -/
def value? : Nat → List Char → Option (Json × List Char)
  | 0, _ => none
  | fuel + 1, cs =>
    match skipBlank cs with
    | '"' :: cs => (content? cs).map fun (content, rest) => (.string content, rest)
    | '[' :: cs =>
      match skipBlank cs with
      | ']' :: rest => some (.array [], rest)
      | cs => (items? fuel cs).map fun (items, rest) => (.array items, rest)
    | '\x7b' :: cs =>
      match skipBlank cs with
      | '\x7d' :: rest => some (.object [], rest)
      | cs => (members? fuel cs).map fun (fields, rest) => (.object fields, rest)
    | 'n' :: cs => (after? "ull" cs).map fun rest => (.null, rest)
    | 't' :: cs => (after? "rue" cs).map fun rest => (.bool true, rest)
    | 'f' :: cs => (after? "alse" cs).map fun rest => (.bool false, rest)
    | cs => (afterNumber? cs).map fun rest =>
        (.number (String.ofList (cs.take (cs.length - rest.length))), rest)

/-- One or more items up to the bracket that closes the array. -/
def items? : Nat → List Char → Option (List Json × List Char)
  | 0, _ => none
  | fuel + 1, cs => do
    let (item, rest) ← value? fuel cs
    match skipBlank rest with
    | ']' :: rest => some ([item], rest)
    | ',' :: rest => do
      let (items, rest) ← items? fuel rest
      some (item :: items, rest)
    | _ => none

/-- One or more fields up to the brace that closes the object. -/
def members? : Nat → List Char → Option (List (Option String × Json) × List Char)
  | 0, _ => none
  | fuel + 1, cs =>
    match skipBlank cs with
    | '"' :: cs => do
      let (key, rest) ← content? cs
      let rest ← after? ":" (skipBlank rest)
      let (value, rest) ← value? fuel rest
      match skipBlank rest with
      | '\x7d' :: rest => some ([(key, value)], rest)
      | ',' :: rest => do
        let (fields, rest) ← members? fuel rest
        some ((key, value) :: fields, rest)
      | _ => none
    | _ => none

end

/-- The value that a whole text is. -/
def ofChars? (cs : List Char) : Option Json := do
  let (json, rest) ← value? (cs.length + 1) cs
  if (skipBlank rest).isEmpty then some json else none

def ofString? (s : String) : Option Json := ofChars? s.toList

end LayeredConfig.Json
