import LayeredConfig.Text.Hidden

/-!
# Quoted text

Diagnostic texts show names between double quotes. Inside, a quote and a backslash are written
after a backslash, the common controls by their letter, and every hidden character by its code
point in hexadecimal, so that two names are told apart also where a terminal would show them
alike.
-/

set_option autoImplicit false

namespace LayeredConfig.Text

/-- The digits of a number in a radix up to sixteen, most significant first, letters small. -/
def digitsIn (radix n : Nat) : List Char := Nat.toDigits radix n

/-- One character as it stands inside quotes. -/
def quotedChar (c : Char) : List Char :=
  match c with
  | '\x00' => ['\\', '0']
  | '\t' => ['\\', 't']
  | '\r' => ['\\', 'r']
  | '\n' => ['\\', 'n']
  | '\\' => ['\\', '\\']
  | '"' => ['\\', '"']
  | c =>
    if isHidden c then ['\\', 'u', '\x7b'] ++ digitsIn 16 c.toNat ++ ['\x7d']
    else [c]

/-- A string between double quotes, with everything that would be misread spelled out. -/
def quoted (s : String) : String :=
  String.ofList ('"' :: s.toList.flatMap quotedChar ++ ['"'])

/-- Several quoted strings between brackets. -/
def quotedList (names : List String) : String :=
  "[" ++ String.intercalate ", " (names.map quoted) ++ "]"

end LayeredConfig.Text
