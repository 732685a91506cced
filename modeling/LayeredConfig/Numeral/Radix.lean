/-!
# Digits in a radix

A run of digits denotes a natural number in its radix, and with one sign in front an integer.
Nothing else is a numeral: no second sign, no separator between digits, no blank, no digit outside
ASCII, and not the empty run.
-/

set_option autoImplicit false

namespace LayeredConfig.Numeral

/-- What a character counts for as a digit, where letters of either case follow nine. -/
def digitValue? (c : Char) : Option Nat :=
  if c.isDigit then some (c.toNat - 48)
  else if 'a' ≤ c ∧ c ≤ 'f' then some (c.toNat - 87)
  else if 'A' ≤ c ∧ c ≤ 'F' then some (c.toNat - 55)
  else none

/-- The value of a digit of the radix. -/
def digit? (radix : Nat) (c : Char) : Option Nat :=
  (digitValue? c).filter (· < radix)

/-- The number that `n` becomes when the digits are written after it. -/
def extend? (radix : Nat) : Nat → List Char → Option Nat
  | n, [] => some n
  | n, c :: cs => (digit? radix c).bind fun d => extend? radix (n * radix + d) cs

/-- The natural number that a non-empty run of digits denotes. -/
def nat? (radix : Nat) : List Char → Option Nat
  | [] => none
  | c :: cs => extend? radix 0 (c :: cs)

/-- The integer that a run of digits denotes, with at most one sign before it. -/
def int? (radix : Nat) : List Char → Option Int
  | '-' :: cs => (nat? radix cs).map fun n => -(n : Int)
  | '+' :: cs => (nat? radix cs).map fun n => (n : Int)
  | cs => (nat? radix cs).map fun n => (n : Int)

end LayeredConfig.Numeral
