import LayeredConfig.Numeral.Radix
import LayeredConfig.Text.Ascii

/-!
# Binary floating-point numbers from decimal text

A decimal text denotes a rational number exactly, and a floating-point kind takes the nearest
number it has; of two equally near ones the one with the even fraction. All of it is arithmetic on
natural numbers: the result is the bit pattern of the interchange format, a sign, an exponent
field and a fraction field.

The pattern of a number that is not negative grows with the number, and the step from one pattern
to the next is the step between neighbouring numbers. That is why `nearest` can add the rounded
fraction to the exponent field and let a carry run into it.
-/

set_option autoImplicit false

namespace LayeredConfig.Numeral

/-- The two floating-point kinds, of 32 and of 64 bits. -/
inductive FloatKind
  | single
  | double
  deriving DecidableEq, Repr

namespace FloatKind

def name : FloatKind → String
  | single => "f32"
  | double => "f64"

def fractionBits : FloatKind → Nat
  | single => 23
  | double => 52

def exponentBits : FloatKind → Nat
  | single => 8
  | double => 11

def bits (k : FloatKind) : Nat := 1 + k.exponentBits + k.fractionBits

/-- The pattern of positive infinity; every pattern below it is a finite number. -/
def infinity (k : FloatKind) : Nat := ((1 <<< k.exponentBits) - 1) <<< k.fractionBits

/-- The pattern of the quiet not-a-number with an empty payload. -/
def nan (k : FloatKind) : Nat := k.infinity + (1 <<< (k.fractionBits - 1))

/-- The pattern of the greatest finite number. -/
def greatest (k : FloatKind) : Nat := k.infinity - 1

/-- The pattern of the least positive number with a full fraction. -/
def leastNormal (k : FloatKind) : Nat := 1 <<< k.fractionBits

/-- A pattern with the sign of the number turned to minus. -/
def negate (k : FloatKind) (pattern : Nat) : Nat :=
  pattern + (1 <<< (k.exponentBits + k.fractionBits))

/-- The exponent of two at which a kind has its smallest step. -/
def finestStep (k : FloatKind) : Int :=
  2 - ((1 <<< (k.exponentBits - 1) : Nat) : Int) - k.fractionBits

/-- The natural number nearest to a quotient; a half goes to the even neighbour. -/
def roundHalfEven (num den : Nat) : Nat :=
  let q := num / den
  let r := num % den
  if 2 * r < den then q
  else if den < 2 * r then q + 1
  else q + q % 2

/-- The greatest exponent of two that does not exceed a positive quotient. -/
def binaryExponent (num den : Nat) : Int :=
  let guess : Int := (Nat.log2 num : Int) - Nat.log2 den
  let below := if 0 ≤ guess then den <<< guess.toNat ≤ num else den ≤ num <<< (-guess).toNat
  if below then guess else guess - 1

/-- The pattern of the number nearest to `num / den`, infinity if that is beyond the greatest. -/
def nearest (k : FloatKind) (num den : Nat) : Nat :=
  if num = 0 then 0
  else
    let step := max (binaryExponent num den - k.fractionBits) k.finestStep
    let fraction :=
      if 0 ≤ step then roundHalfEven num (den <<< step.toNat)
      else roundHalfEven (num <<< (-step).toNat) den
    min (((step - k.finestStep).toNat <<< k.fractionBits) + fraction) k.infinity

end FloatKind

/-- A decimal in scientific form: the digits read as one number, how many were written, and the
    power of ten that they are multiplied by. -/
structure Scientific where
  digits : Nat
  count : Nat
  exponent : Int
  deriving DecidableEq, Repr

namespace Scientific

/-- The exponent part: nothing, or the letter, at most one sign, and digits to the end. -/
def exponent? : List Char → Option Int
  | [] => some 0
  | 'e' :: cs => int? 10 cs
  | 'E' :: cs => int? 10 cs
  | _ => none

/-- A decimal without a sign: digits with at most one point among or beside them, then the
    exponent. At least one digit has to stand before it. -/
def ofChars? (cs : List Char) : Option Scientific :=
  let whole := cs.takeWhile Char.isDigit
  let (fraction, rest) :=
    match cs.dropWhile Char.isDigit with
    | '.' :: tail => (tail.takeWhile Char.isDigit, tail.dropWhile Char.isDigit)
    | tail => ([], tail)
  (nat? 10 (whole ++ fraction)).bind fun digits =>
    (exponent? rest).map fun e =>
      ⟨digits, (whole ++ fraction).length, e - fraction.length⟩

end Scientific

namespace FloatKind

/-- The pattern of the number nearest to a decimal. A decimal whose power of ten is beyond the
    reach, which is two to the `exponentBits`, is past the greatest number or below half of the
    least, so no larger power is ever computed. -/
def ofScientific (k : FloatKind) (d : Scientific) : Nat :=
  let reach : Int := (1 <<< k.exponentBits : Nat)
  if d.digits = 0 then 0
  else if reach < d.exponent then k.infinity
  else if d.exponent + d.count < -reach then 0
  else if 0 ≤ d.exponent then k.nearest (d.digits * Nat.pow 10 d.exponent.toNat) 1
  else k.nearest d.digits (Nat.pow 10 (-d.exponent).toNat)

/-- A number without a sign: a decimal, or a name of infinity or of not-a-number. -/
def ofUnsigned? (k : FloatKind) (cs : List Char) : Option Nat :=
  if Text.sameLetters cs "inf".toList || Text.sameLetters cs "infinity".toList then
    some k.infinity
  else if Text.sameLetters cs "nan".toList then some k.nan
  else (Scientific.ofChars? cs).map k.ofScientific

/-- A number with at most one sign. -/
def ofSigned? (k : FloatKind) : List Char → Option Nat
  | '-' :: cs => (k.ofUnsigned? cs).map k.negate
  | '+' :: cs => k.ofUnsigned? cs
  | cs => k.ofUnsigned? cs

/-- The numbers that have a name of their own in configuration. -/
def named? (k : FloatKind) (cs : List Char) : Option Nat :=
  let named : List (String × Nat) := [
    ("nan", k.nan), ("positive_infinity", k.infinity), ("negative_infinity", k.negate k.infinity),
    ("min_value", k.negate k.greatest), ("max_value", k.greatest), ("min_positive", k.leastNormal)]
  (named.find? fun entry => Text.sameLetters cs entry.1.toList).map (·.2)

/-- The pattern that a text without blanks around it denotes. -/
def ofChars? (k : FloatKind) (cs : List Char) : Option Nat :=
  (k.named? cs).or (k.ofSigned? cs)

end FloatKind

end LayeredConfig.Numeral
