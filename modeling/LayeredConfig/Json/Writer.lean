import LayeredConfig.Json.Basic
import LayeredConfig.Text.Quoted

/-!
# Writing JSON text

The compact form, as a general-purpose writer of JSON gives it: no blanks, fields in the order
they are given, and in strings only what has to be escaped. The common controls have a letter,
the other ones four digits; everything from the space on stands for itself, the delete character
and all of Unicode included.
-/

set_option autoImplicit false

namespace LayeredConfig.Json

/-- One character as it stands in a JSON string. -/
def escape (c : Char) : List Char :=
  match c with
  | '"' => ['\\', '"']
  | '\\' => ['\\', '\\']
  | '\x08' => ['\\', 'b']
  | '\x0c' => ['\\', 'f']
  | '\n' => ['\\', 'n']
  | '\r' => ['\\', 'r']
  | '\t' => ['\\', 't']
  | c =>
    if c.toNat < 0x20 then
      let digits := Text.digitsIn 16 c.toNat
      ['\\', 'u'] ++ List.replicate (4 - digits.length) '0' ++ digits
    else [c]

/-- A text as a JSON string. -/
def quote (s : String) : List Char := '"' :: s.toList.flatMap escape ++ ['"']

/-- Items with a comma between two of them. -/
def separated : List (List Char) → List Char
  | [] => []
  | [item] => item
  | item :: items => item ++ ',' :: separated items

mutual

/-- The compact form of a value. -/
def chars : Json → List Char
  | .null => "null".toList
  | .bool true => "true".toList
  | .bool false => "false".toList
  | .number written => written.toList
  | .string content => quote (content.getD "")
  | .array items => '[' :: separated (itemChars items) ++ [']']
  | .object fields => '\x7b' :: separated (fieldChars fields) ++ ['\x7d']

def itemChars : List Json → List (List Char)
  | [] => []
  | item :: items => chars item :: itemChars items

def fieldChars : List (Option String × Json) → List (List Char)
  | [] => []
  | field :: fields => oneField field :: fieldChars fields

def oneField : Option String × Json → List Char
  | (key, value) => quote (key.getD "") ++ ':' :: chars value

end

def toText (json : Json) : String := String.ofList json.chars

end LayeredConfig.Json
