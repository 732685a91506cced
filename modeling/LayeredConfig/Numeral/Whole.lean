import LayeredConfig.Numeral.Radix
import LayeredConfig.Text.Ascii

/-!
# Whole numbers of a fixed range

The kinds of whole number a property may be read as, each with its range, and the literals that
denote them. A literal is a sign, a mark of the radix and digits; the value it denotes is exact,
and a kind takes it or leaves it by its range. A minus sign is foreign to the kinds that start at
zero, even before a zero.
-/

set_option autoImplicit false

namespace LayeredConfig.Numeral

/-- Whole numbers by width, with a sign or without; the last of each row has the width of a
    machine word. -/
inductive WholeKind
  | i8 | i16 | i32 | i64 | i128 | isize
  | u8 | u16 | u32 | u64 | u128 | usize
  deriving DecidableEq, Repr

namespace WholeKind

/-- Every kind, those with a sign first, by increasing width. -/
def all : List WholeKind :=
  [i8, i16, i32, i64, i128, isize, u8, u16, u32, u64, u128, usize]

def name : WholeKind → String
  | i8 => "i8" | i16 => "i16" | i32 => "i32" | i64 => "i64" | i128 => "i128" | isize => "isize"
  | u8 => "u8" | u16 => "u16" | u32 => "u32" | u64 => "u64" | u128 => "u128" | usize => "usize"

def signed : WholeKind → Bool
  | i8 | i16 | i32 | i64 | i128 | isize => true
  | u8 | u16 | u32 | u64 | u128 | usize => false

/-- The width in bits; a machine word has 64. -/
def bits : WholeKind → Nat
  | i8 | u8 => 8
  | i16 | u16 => 16
  | i32 | u32 => 32
  | i64 | isize | u64 | usize => 64
  | i128 | u128 => 128

def least (k : WholeKind) : Int := if k.signed then -((1 <<< (k.bits - 1) : Nat) : Int) else 0

def greatest (k : WholeKind) : Int :=
  ((1 <<< (if k.signed then k.bits - 1 else k.bits) : Nat) : Int) - 1

def holds (k : WholeKind) (n : Int) : Bool := k.least ≤ n && n ≤ k.greatest

/-- The decimal numeral read as a number of the kind: digits after at most one sign. -/
def ofDecimal? (k : WholeKind) (cs : List Char) : Option Int :=
  if !k.signed && cs.head? == some '-' then none
  else (int? 10 cs).filter k.holds

end WholeKind

/-- A whole-number literal taken apart: the sign, the digits and the radix they are in. -/
structure Literal where
  negative : Bool
  digits : List Char
  radix : Nat
  deriving DecidableEq, Repr

namespace Literal

/-- What follows the sign: `0x`, `0X` or `#` mark hexadecimal digits, a zero with anything after
    it marks octal ones. -/
def ofUnsigned (negative : Bool) : List Char → Literal
  | '0' :: 'x' :: cs => ⟨negative, cs, 16⟩
  | '0' :: 'X' :: cs => ⟨negative, cs, 16⟩
  | '#' :: cs => ⟨negative, cs, 16⟩
  | '0' :: c :: cs => ⟨negative, c :: cs, 8⟩
  | cs => ⟨negative, cs, 10⟩

/-- A text read as a literal; whether its digits are digits is left to `value?`. -/
def ofChars : List Char → Literal
  | '-' :: cs => ofUnsigned true cs
  | '+' :: cs => ofUnsigned false cs
  | cs => ofUnsigned false cs

def value? (l : Literal) : Option Int :=
  (nat? l.radix l.digits).map fun n => if l.negative then -(n : Int) else (n : Int)

end Literal

/-- The number of the kind that a text without blanks around it denotes: a bound by its name, or
    the value of a literal when the kind has it. -/
def WholeKind.ofChars? (k : WholeKind) (cs : List Char) : Option Int :=
  if Text.sameLetters cs "min_value".toList then some k.least
  else if Text.sameLetters cs "max_value".toList then some k.greatest
  else
    let l := Literal.ofChars cs
    if l.negative && !k.signed then none
    else l.value?.filter k.holds

end LayeredConfig.Numeral
