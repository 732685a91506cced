import LayeredConfig.Numeral.Whole
import LayeredConfig.Proofs.Numeral.Digits

/-!
# Which texts are whole numbers

The grammar of whole numbers, as a relation between a text and the number that it denotes for a kind
(`WholeKind.Denotes`): the name of a bound, or a literal, which is a sign, the mark of a radix and a
run of digits. The marks overlap. A zero may be the whole of a decimal literal, the mark of an octal
one, or the beginning of `0x`.

**`WholeKind.ofChars?_eq_some_iff` says that reading decides this relation**: what is read is
denoted, and what is denoted is read. The two halves are about different things. A text that is read
has been taken apart by the first pattern that fits it, and what is to be shown is that it is then
in the grammar; for the converse, no earlier pattern may take a text that the grammar means for a
later one.
-/

set_option autoImplicit false

namespace LayeredConfig.Numeral

/-! ## The grammar -/

/-- A literal without its sign, with the number it denotes. A decimal literal starts with a zero
    only if that is all of it. -/
inductive Magnitude : List Char → Nat → Prop
  | hexadecimal (mark : List Char) (marked : mark = ['0', 'x'] ∨ mark = ['0', 'X'] ∨ mark = ['#'])
    {cs : List Char} {n : Nat} (run : Run 16 cs n) : Magnitude (mark ++ cs) n
  | octal {cs : List Char} {n : Nat} (run : Run 8 cs n) : Magnitude ('0' :: cs) n
  | decimal {cs : List Char} {n : Nat} (plain : cs = ['0'] ∨ cs.head? ≠ some '0')
    (run : Run 10 cs n) : Magnitude cs n

/-- A number is in the range of a kind. -/
def WholeKind.InRange (k : WholeKind) (n : Int) : Prop := k.least ≤ n ∧ n ≤ k.greatest

instance (k : WholeKind) (n : Int) : Decidable (k.InRange n) :=
  inferInstanceAs (Decidable (_ ∧ _))

/-- A literal denotes a number of a kind. The kinds that start at zero have no minus sign. -/
inductive WholeKind.Spells (k : WholeKind) : List Char → Int → Prop
  | positive (sign : List Char) (plus : sign = [] ∨ sign = ['+']) {cs : List Char} {n : Nat}
    (magnitude : Magnitude cs n) (inRange : k.InRange n) : Spells k (sign ++ cs) n
  | negative (signed : k.signed = true) {cs : List Char} {n : Nat} (magnitude : Magnitude cs n)
    (inRange : k.InRange (-n)) : Spells k ('-' :: cs) (-n)

/-- A text denotes a number of a kind: a bound by its name in letters of either case, or what it
    spells. -/
inductive WholeKind.Denotes (k : WholeKind) : List Char → Int → Prop
  | least {cs : List Char} (word : cs.map Char.toLower = "min_value".toList) : Denotes k cs k.least
  | greatest {cs : List Char} (word : cs.map Char.toLower = "max_value".toList) :
    Denotes k cs k.greatest
  | literal {cs : List Char} {n : Int} (spells : k.Spells cs n) : Denotes k cs n

/-! ## Ranges -/

namespace WholeKind

variable {k : WholeKind}

theorem least_eq (k : WholeKind) : k.least = if k.signed then -2 ^ (k.bits - 1) else 0 := by
  cases k <;> rfl

theorem greatest_eq (k : WholeKind) :
    k.greatest = 2 ^ (if k.signed then k.bits - 1 else k.bits) - 1 := by
  cases k <;> rfl

theorem inRange_iff {n : Int} : k.InRange n ↔
    if k.signed then -2 ^ (k.bits - 1) ≤ n ∧ n < 2 ^ (k.bits - 1) else 0 ≤ n ∧ n < 2 ^ k.bits := by
  rw [InRange, least_eq, greatest_eq, Int.le_sub_one_iff]
  cases k.signed <;> rfl

theorem holds_iff {n : Int} : k.holds n = true ↔ k.InRange n := by
  simp [holds, InRange]

end WholeKind

/-! ## Magnitudes -/

theorem Magnitude.first {cs : List Char} {n : Nat} (h : Magnitude cs n) :
    ∃ c rest, cs = c :: rest ∧ (c = '#' ∨ ∃ d, IsDigit 10 c d) := by
  have zero : IsDigit 10 '0' 0 := isDigit_digitChar (by decide) (by decide)
  cases h with
  | hexadecimal _ marked _ =>
    rcases marked with rfl | rfl | rfl
    · exact ⟨_, _, rfl, .inr ⟨0, zero⟩⟩
    · exact ⟨_, _, rfl, .inr ⟨0, zero⟩⟩
    · exact ⟨_, _, rfl, .inl rfl⟩
  | octal _ => exact ⟨_, _, rfl, .inr ⟨0, zero⟩⟩
  | decimal _ run =>
    obtain ⟨c, rest, d, rfl, digit⟩ := run.head
    exact ⟨c, rest, rfl, .inr ⟨d, digit⟩⟩

namespace Literal

variable {negative : Bool} {c : Char} {cs : List Char}

theorem ofUnsigned_octal (x : c ≠ 'x') (X : c ≠ 'X') :
    ofUnsigned negative ('0' :: c :: cs) = ⟨negative, c :: cs, 8⟩ := by
  -- The marks with an x are tried first, and this is none of them.
  unfold ofUnsigned
  split <;> simp_all

theorem ofUnsigned_decimal (zero : c ≠ '0') (mark : c ≠ '#') :
    ofUnsigned negative (c :: cs) = ⟨negative, c :: cs, 10⟩ := by
  unfold ofUnsigned
  split <;> simp_all

theorem negative_ofUnsigned : (ofUnsigned negative cs).negative = negative := by
  unfold ofUnsigned
  split <;> rfl

theorem nat?_ofUnsigned {n : Nat} :
    nat? (ofUnsigned negative cs).radix (ofUnsigned negative cs).digits = some n ↔
      Magnitude cs n := by
  constructor
  · intro read
    unfold ofUnsigned at read
    split at read
    · exact .hexadecimal ['0', 'x'] (by simp) ((nat?_eq_some_iff (by decide)).mp read)
    · exact .hexadecimal ['0', 'X'] (by simp) ((nat?_eq_some_iff (by decide)).mp read)
    · exact .hexadecimal ['#'] (by simp) ((nat?_eq_some_iff (by decide)).mp read)
    · exact .octal ((nat?_eq_some_iff (by decide)).mp read)
    next notHex notHex' notMark notOctal =>
      refine .decimal ?_ ((nat?_eq_some_iff (by decide)).mp read)
      -- No earlier pattern has fitted: a zero is all of the text, or it does not start with one.
      match cs with
      | [] => exact .inr (by simp)
      | [c] =>
        by_cases zero : c = '0'
        · exact .inl (by rw [zero])
        · exact .inr (by simpa using zero)
      | c :: c' :: cs =>
        refine .inr fun zero => ?_
        obtain rfl : c = '0' := by simpa using zero
        exact notOctal c' cs rfl
  · intro magnitude
    cases magnitude with
    | hexadecimal _ marked run =>
      rcases marked with rfl | rfl | rfl
      all_goals exact run.read (by decide)
    | octal run =>
      -- The first octal digit is no x, so the text is not taken for a hexadecimal one.
      obtain ⟨c, rest, d, rfl, digit⟩ := run.head
      rw [ofUnsigned_octal ?x ?X]
      case x | X =>
        rintro rfl
        simpa using digit.2
      exact run.read (by decide)
    | decimal plain run =>
      rcases plain with rfl | plain
      · exact run.read (by decide)
      · obtain ⟨c, rest, d, rfl, digit⟩ := run.head
        rw [ofUnsigned_decimal (by simpa using plain) ?mark]
        case mark =>
          rintro rfl
          simpa using digit.2
        exact run.read (by decide)

/-! ## Signs -/

/-- A sign is cut off if there is one. -/
theorem ofChars_cases (cs : List Char) :
    (∃ rest, cs = '-' :: rest ∧ ofChars cs = ofUnsigned true rest) ∨
    ∃ sign rest, (sign = [] ∨ sign = ['+']) ∧ cs = sign ++ rest ∧
      ofChars cs = ofUnsigned false rest := by
  unfold ofChars
  split
  next rest => exact .inl ⟨rest, rfl, rfl⟩
  next rest => exact .inr ⟨['+'], rest, .inr rfl, rfl, rfl⟩
  next => exact .inr ⟨[], cs, .inl rfl, rfl, rfl⟩

/-- A sign is not the beginning of a magnitude. -/
theorem ofChars_positive {sign : List Char} (plus : sign = [] ∨ sign = ['+']) {n : Nat}
    (h : Magnitude cs n) : ofChars (sign ++ cs) = ofUnsigned false cs := by
  rcases plus with rfl | rfl
  · obtain ⟨c, rest, rfl, first⟩ := h.first
    rw [List.nil_append]
    unfold ofChars
    split
    next same =>
      obtain rfl := (List.cons.inj same).1
      simp [IsDigit] at first
    next same =>
      obtain rfl := (List.cons.inj same).1
      simp [IsDigit] at first
    next => rfl
  · rfl

/-- What is cut off the digits are characters of one byte each, so that a text is cut between two
    characters also where it is cut by bytes. -/
theorem exists_front (cs : List Char) :
    ∃ front, cs = front ++ (ofChars cs).digits ∧ ∀ c ∈ front, c.utf8Size = 1 := by
  have unsigned (negative : Bool) (cs : List Char) :
      ∃ front, cs = front ++ (ofUnsigned negative cs).digits ∧ ∀ c ∈ front, c.utf8Size = 1 := by
    unfold ofUnsigned
    split
    · exact ⟨['0', 'x'], rfl, by simp [Char.utf8Size]⟩
    · exact ⟨['0', 'X'], rfl, by simp [Char.utf8Size]⟩
    · exact ⟨['#'], rfl, by simp [Char.utf8Size]⟩
    · exact ⟨['0'], rfl, by simp [Char.utf8Size]⟩
    · exact ⟨[], rfl, by simp⟩
  rcases ofChars_cases cs with ⟨rest, rfl, same⟩ | ⟨sign, rest, plus, rfl, same⟩
  · obtain ⟨front, split, bytes⟩ := unsigned true rest
    rw [same]
    exact ⟨'-' :: front, congrArg (List.cons '-') split, List.forall_mem_cons.mpr ⟨by decide, bytes⟩⟩
  · obtain ⟨front, split, bytes⟩ := unsigned false rest
    rw [same]
    refine ⟨sign ++ front, ?_, List.forall_mem_append.mpr ⟨?_, bytes⟩⟩
    · rw [List.append_assoc, ← split]
    · rcases plus with rfl | rfl <;> simp [Char.utf8Size]

theorem value?_ofUnsigned {v : Int} : (ofUnsigned negative cs).value? = some v ↔
    ∃ n : Nat, Magnitude cs n ∧ (if negative then -(n : Int) else n) = v := by
  simp [value?, nat?_ofUnsigned, negative_ofUnsigned, Option.bind_eq_some_iff]

end Literal

/-! ## Reading -/

namespace WholeKind

variable {k : WholeKind} {cs : List Char} {n : Int}

/-- Reading, with the names of the bounds in small letters. -/
theorem ofChars?_eq (k : WholeKind) (cs : List Char) :
    k.ofChars? cs =
      if cs.map Char.toLower = "min_value".toList then some k.least
      else if cs.map Char.toLower = "max_value".toList then some k.greatest
      else if (Literal.ofChars cs).negative && !k.signed then none
      else (Literal.ofChars cs).value?.filter k.holds := by
  have small (word : String) (same : word.toList.map Char.toLower = word.toList) :
      Text.sameLetters cs word.toList = true ↔ cs.map Char.toLower = word.toList := by
    rw [Text.sameLetters, same, beq_iff_eq]
  unfold ofChars?
  simp only [small "min_value" (by decide), small "max_value" (by decide)]

/-- Without the names of the bounds, what is read is what is spelled. -/
theorem literal_eq_some_iff :
    (if (Literal.ofChars cs).negative && !k.signed then none
      else (Literal.ofChars cs).value?.filter k.holds) = some n ↔ k.Spells cs n := by
  constructor
  · intro read
    split at read
    · exact nomatch read
    next signs =>
      obtain ⟨value, held⟩ := Option.filter_eq_some_iff.mp read
      have inRange := holds_iff.mp held
      rcases Literal.ofChars_cases cs with ⟨rest, rfl, same⟩ | ⟨sign, rest, plus, rfl, same⟩
      · rw [same] at signs value
        obtain ⟨m, magnitude, rfl⟩ := Literal.value?_ofUnsigned.mp value
        exact .negative (by simpa [Literal.negative_ofUnsigned] using signs) magnitude inRange
      · rw [same] at value
        obtain ⟨m, magnitude, rfl⟩ := Literal.value?_ofUnsigned.mp value
        exact .positive sign plus magnitude inRange
  · intro spells
    cases spells with
    | positive sign plus magnitude inRange =>
      rw [Literal.ofChars_positive plus magnitude, Literal.negative_ofUnsigned, if_neg (by simp)]
      exact Option.filter_eq_some_iff.mpr
        ⟨Literal.value?_ofUnsigned.mpr ⟨_, magnitude, rfl⟩, holds_iff.mpr inRange⟩
    | @negative signed cs m magnitude inRange =>
      rw [show Literal.ofChars ('-' :: cs) = .ofUnsigned true cs from rfl, signed,
        if_neg (by simp)]
      exact Option.filter_eq_some_iff.mpr
        ⟨Literal.value?_ofUnsigned.mpr ⟨_, magnitude, rfl⟩, holds_iff.mpr inRange⟩

/-- A literal is not the name of a bound. -/
theorem Spells.head (h : k.Spells cs n) : (cs.map Char.toLower).head? ≠ some 'm' := by
  cases h with
  | negative => simp
  | positive _ plus magnitude _ =>
    rcases plus with rfl | rfl
    · obtain ⟨c, rest, rfl, first⟩ := magnitude.first
      rcases first with rfl | ⟨d, -, digit⟩
      · simp
      · simp [digit]
    · simp

/-- **Reading decides the grammar.** -/
theorem ofChars?_eq_some_iff : k.ofChars? cs = some n ↔ k.Denotes cs n := by
  rw [ofChars?_eq]
  constructor
  · intro read
    split at read
    next word =>
      obtain rfl := Option.some.inj read
      exact .least word
    next =>
      split at read
      next word =>
        obtain rfl := Option.some.inj read
        exact .greatest word
      next => exact .literal (literal_eq_some_iff.mp read)
  · intro denotes
    cases denotes with
    | least word => rw [if_pos word]
    | greatest word => rw [word, if_neg (by decide), if_pos rfl]
    | literal spells =>
      rw [if_neg fun word => spells.head (by rw [word]; rfl),
        if_neg fun word => spells.head (by rw [word]; rfl)]
      exact literal_eq_some_iff.mpr spells

end WholeKind

end LayeredConfig.Numeral
