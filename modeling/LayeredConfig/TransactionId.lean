import LayeredConfig.Numeral.Radix
import LayeredConfig.Text.Quoted

/-!
# Transaction ids

An id is a number of 128 bits. It is written as 32 hexadecimal digits in five groups, letters
small, and read back from that form in either case, from the bare digits, from braces around the
groups and from the groups after the name of their number space. The order of ids is the order of
their numbers, which is the order of their written forms.

Reading and writing stand for a general-purpose library of universally unique ids, whose documented
forms they follow. The rest of the library only compares ids; how they are spelled matters to it
where a set of changes is read or shown, and nowhere else.
-/

set_option autoImplicit false

namespace LayeredConfig

/-- The identifier that all sources taking part in one transaction share. -/
structure TransactionId where
  bits : BitVec 128
  deriving DecidableEq, Repr

namespace TransactionId

/-- Ids are ordered as numbers. -/
instance : Ord TransactionId where
  compare a b := compare a.bits b.bits

instance : Std.TransOrd TransactionId := inferInstanceAs (Std.TransCmp (compareOn bits))

instance : Std.LawfulEqOrd TransactionId where
  eq_of_compare {a b} h := by
    cases a
    cases b
    exact congrArg _ (Std.LawfulEqOrd.eq_of_compare (α := BitVec 128) h)

/-- The id with the given number, reduced to 128 bits. -/
def ofNat (n : Nat) : TransactionId := ⟨BitVec.ofNat 128 n⟩

def toNat (id : TransactionId) : Nat := id.bits.toNat

/-- How many digits stand in each group of the written form. -/
def groups : List Nat := [8, 4, 4, 4, 12]

/-- The digits cut into groups, with a hyphen between two of them. -/
def joined : List Nat → List Char → List Char
  | [], cs => cs
  | [_], cs => cs
  | n :: ns, cs => cs.take n ++ '-' :: joined ns (cs.drop n)

/-- The digits of a text in which the groups are cut exactly where they should be. -/
def ungrouped? : List Nat → List Char → Option (List Char)
  | [], cs => if cs.isEmpty then some [] else none
  | [n], cs => if cs.length = n then some cs else none
  | n :: ns, cs =>
    match cs.drop n with
    | '-' :: rest => (ungrouped? ns rest).map (cs.take n ++ ·)
    | _ => none

/-- The id that 32 hexadecimal digits spell. -/
def ofDigits? (cs : List Char) : Option TransactionId :=
  if cs.length = 32 then (Numeral.nat? 16 cs).map ofNat else none

/-- The id that five groups of digits spell. -/
def ofGroups? (cs : List Char) : Option TransactionId :=
  (ungrouped? groups cs).bind ofDigits?

/-- What stands between braces that enclose the whole text. -/
def unbraced? : List Char → Option (List Char)
  | '\x7b' :: cs => if cs.getLast? = some '\x7d' then some cs.dropLast else none
  | _ => none

/-- What follows the name of the number space, in letters of either case. -/
def afterNamespace? (cs : List Char) : Option (List Char) :=
  let space := "urn:uuid:".toList
  if (cs.take space.length).map Char.toLower = space then some (cs.drop space.length) else none

/-- The id that a text spells in one of the accepted forms. -/
def ofChars? (cs : List Char) : Option TransactionId :=
  match ofDigits? cs with
  | some id => some id
  | none =>
    match unbraced? cs with
    | some inner => ofGroups? inner
    | none => ofGroups? ((afterNamespace? cs).getD cs)

def ofString? (s : String) : Option TransactionId := ofChars? s.toList

def digits (id : TransactionId) : List Char :=
  let short := Text.digitsIn 16 id.toNat
  List.replicate (32 - short.length) '0' ++ short

/-- The written form of an id: five groups of digits. -/
def toText (id : TransactionId) : String := String.ofList (joined groups id.digits)

end TransactionId

end LayeredConfig
