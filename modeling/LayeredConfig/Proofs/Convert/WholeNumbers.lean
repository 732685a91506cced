import LayeredConfig.Convert.Builtin
import LayeredConfig.Proofs.Numeral.Literals
import LayeredConfig.Proofs.Text.Trimming

/-!
# Whole numbers read and written

The converters of whole numbers read every text that denotes a number of their kind, and no other
text (`Builtin.whole_reads`). For the other direction a number is written in a radix: a minus sign
if it needs one, the mark of the radix, and its digits. What is written is read again as the same
number, with blanks around it or without.

What denotes a number is told by a grammar (`Numeral.WholeKind.Denotes`), and that reading follows
it is shown in the module on literals. It is applied here to what is left of a text when the blanks
around it are gone. For what is written it has to be known that nothing of it is taken for a blank
(`Numeral.WholeKind.Spells.unblank`): no digit, sign or mark of a radix is one.
-/

set_option autoImplicit false

namespace LayeredConfig

namespace Numeral

variable {radix : Nat} {cs : List Char}

/-! ## No blanks -/

/-- A digit is none of the blanks: it stands in the ASCII range, above all of them. -/
theorem IsDigit.unblank {c : Char} {d : Nat} (h : IsDigit radix c d) (small : radix ≤ 16) :
    Text.isBlank c = false := by
  obtain ⟨below, same⟩ := h
  have point : 48 ≤ c.toNat ∧ c.toNat ≤ 102 := by
    have lower := toNat_toLower c
    rw [same, toNat_digitChar (Nat.lt_of_lt_of_le below small)] at lower
    split_ifs at lower <;> omega
  simp [Text.isBlank, Text.blankRanges]
  omega

theorem Run.unblank {n : Nat} (h : Run radix cs n) (small : radix ≤ 16) :
    ∀ c ∈ cs, Text.isBlank c = false := by
  obtain ⟨-, ds, digits, -⟩ := h
  clear n
  induction digits with
  | nil => simp
  | cons digit _ ih => exact List.forall_mem_cons.mpr ⟨digit.unblank small, ih⟩

theorem Magnitude.unblank {n : Nat} (h : Magnitude cs n) : ∀ c ∈ cs, Text.isBlank c = false := by
  cases h with
  | hexadecimal mark marked run =>
    refine List.forall_mem_append.mpr ⟨?_, run.unblank (by decide)⟩
    rcases marked with rfl | rfl | rfl <;> simp [Text.isBlank, Text.blankRanges]
  | octal run => exact List.forall_mem_cons.mpr ⟨by decide, run.unblank (by decide)⟩
  | decimal _ run => exact run.unblank (by decide)

theorem WholeKind.Spells.unblank {k : WholeKind} {n : Int} (h : k.Spells cs n) :
    ∀ c ∈ cs, Text.isBlank c = false := by
  cases h with
  | positive sign plus magnitude _ =>
    refine List.forall_mem_append.mpr ⟨?_, magnitude.unblank⟩
    rcases plus with rfl | rfl <;> simp [Text.isBlank, Text.blankRanges]
  | negative _ magnitude _ => exact List.forall_mem_cons.mpr ⟨by decide, magnitude.unblank⟩

/-! ## Numbers written -/

/-- A number written in a radix, with a minus sign if it needs one. -/
def spelled (mark : List Char) (radix : Nat) (n : Int) : List Char :=
  if n < 0 then '-' :: (mark ++ Nat.toDigits radix n.natAbs)
  else mark ++ Nat.toDigits radix n.natAbs

/-- The radixes in which a number can be written, each under the mark that announces it. -/
def marks : List (List Char × Nat) := [([], 10), (['0', 'x'], 16), (['0'], 8)]

/-- A number in every radix. -/
def spellings (n : Int) : List (List Char) := marks.map fun mark => spelled mark.1 mark.2 n

/-- Only zero starts with a zero. -/
theorem head_toDigits_ne_zero {n : Nat} (pos : 0 < n) :
    (Nat.toDigits 10 n).head? ≠ some '0' := by
  induction n using Nat.base_induction 10 (by decide) with
  -- One digit, which is not zero, or the digits of a smaller number that is not zero and one more.
  | single m hm =>
    rw [Nat.toDigits_of_lt_base hm]
    simpa using Nat.pos_iff_ne_zero.mp pos
  | digit m k hk hm ih =>
    rw [← Nat.toDigits_append_toDigits (by decide) hm hk, List.head?_append_of_ne_nil _ (by simp)]
    exact ih hm

theorem magnitude_of_mem_marks {mark : List Char × Nat} (h : mark ∈ marks) (n : Nat) :
    Magnitude (mark.1 ++ Nat.toDigits mark.2 n) n := by
  simp only [marks, List.mem_cons, List.not_mem_nil, or_false] at h
  rcases h with rfl | rfl | rfl
  -- In decimal a leading zero would announce the octal radix.
  · refine .decimal ?_ (.toDigits (by decide) (by decide) n)
    rcases Nat.eq_zero_or_pos n with rfl | pos
    · exact .inl (Nat.toDigits_zero 10)
    · exact .inr (head_toDigits_ne_zero pos)
  · exact .hexadecimal _ (.inl rfl) (.toDigits (by decide) (by decide) n)
  · exact .octal (.toDigits (by decide) (by decide) n)

namespace WholeKind

variable {k : WholeKind}

/-- Only a kind with a sign has numbers below zero. -/
theorem signed_of_negative {n : Int} (inRange : k.InRange n) (negative : n < 0) :
    k.signed = true := by
  by_contra unsigned
  have least := inRange.1
  rw [least_eq, if_neg unsigned] at least
  omega

/-- A number of a kind is denoted by each of its spellings. -/
theorem spells_of_mem_spellings {n : Int} (inRange : k.InRange n) {text : List Char}
    (written : text ∈ spellings n) : k.Spells text n := by
  obtain ⟨mark, entry, rfl⟩ := List.mem_map.mp written
  have magnitude := magnitude_of_mem_marks entry n.natAbs
  unfold spelled
  split
  next negative =>
    have value : -(n.natAbs : Int) = n := by omega
    have spells := Spells.negative (signed_of_negative inRange negative) magnitude
      (by rwa [value])
    rwa [value] at spells
  next nonneg =>
    have value : (n.natAbs : Int) = n := by omega
    have spells := Spells.positive [] (.inl rfl) magnitude (by rwa [value])
    rwa [value] at spells

end WholeKind

end Numeral

namespace Builtin

open Numeral

variable {kind : WholeKind}

/-- The answer of a converter is the number that is read, and nothing if none is. -/
theorem whole_outcome (kind : WholeKind) (s : String) (ctx : ConversionContext) :
    (whole kind s ctx).outcome =
      .ok ((kind.ofChars? (Text.trimmed s.toList)).map fun n => (Value.whole kind n).typed) := rfl

theorem whole_eq_some_iff {s : String} {ctx : ConversionContext} {v : Typed (.whole kind)} :
    (whole kind s ctx).outcome = .ok (some v) ↔
      ∃ n, kind.Denotes (Text.trimmed s.toList) n ∧ v = (Value.whole kind n).typed := by
  constructor
  · intro answer
    obtain ⟨n, read, rfl⟩ := Option.map_eq_some_iff.mp (Except.ok.inj answer)
    exact ⟨n, WholeKind.ofChars?_eq_some_iff.mp read, rfl⟩
  · rintro ⟨n, denotes, rfl⟩
    rw [whole_outcome, WholeKind.ofChars?_eq_some_iff.mpr denotes]
    rfl

theorem whole_eq_none_iff {s : String} {ctx : ConversionContext} :
    (whole kind s ctx).outcome = .ok none ↔
      ∀ n, ¬kind.Denotes (Text.trimmed s.toList) n := by
  constructor
  · intro answer n denotes
    have found : (whole kind s ctx).outcome = .ok (some (Value.whole kind n).typed) :=
      whole_eq_some_iff.mpr ⟨n, denotes, rfl⟩
    exact nomatch answer.symm.trans found
  · intro undenoted
    cases read : kind.ofChars? (Text.trimmed s.toList) with
    | none => rw [whole_outcome, read]; rfl
    | some n => exact absurd (WholeKind.ofChars?_eq_some_iff.mp read) (undenoted n)

/-- **Whole numbers are read by their grammar, and only by it.** Among the converters for the plain
    types there is one for every kind of whole number.

    * It answers a number for a text if and only if the text, stripped of the blanks around it,
      denotes that number for the kind; and it answers nothing if and only if the text denotes none.
      It has no other answer.
    * The numbers of a kind are those that have room in its bits, with a sign or without.
    * What it cuts off in front of the digits are characters of one byte each.
    * Every number of the kind is read from each of its spellings, decimal, hexadecimal and octal,
      with any blanks around it. -/
theorem whole_reads (kind : WholeKind) :
    RegistryEntry.converter (.whole kind) kind.name (whole kind) ∈ entries ∧
    (∀ (s : String) (ctx : ConversionContext),
      let t := Text.trimmed s.toList
      let outcome := (whole kind s ctx).outcome
      Text.Stripped s.toList t ∧
      (∀ v : Typed (.whole kind), outcome = .ok (some v) ↔
        ∃ n, kind.Denotes t n ∧ v = (Value.whole kind n).typed) ∧
      (outcome = .ok none ↔ ∀ n, ¬kind.Denotes t n) ∧
      ∃ front, t = front ++ (Literal.ofChars t).digits ∧ ∀ c ∈ front, c.utf8Size = 1) ∧
    (∀ n, kind.InRange n ↔ if kind.signed then -2 ^ (kind.bits - 1) ≤ n ∧ n < 2 ^ (kind.bits - 1)
      else 0 ≤ n ∧ n < 2 ^ kind.bits) ∧
    ∀ n, kind.InRange n → ∀ text ∈ spellings n, ∀ before after : List Char,
      before.all Text.isBlank → after.all Text.isBlank → ∀ ctx : ConversionContext,
      (whole kind (String.ofList (before ++ text ++ after)) ctx).outcome =
        .ok (some (Value.whole kind n).typed) := by
  refine ⟨?_, fun s ctx => ⟨Text.trimmed_eq_iff.mp rfl, fun v => whole_eq_some_iff,
    whole_eq_none_iff, Literal.exists_front _⟩, fun n => WholeKind.inRange_iff, ?_⟩
  · have all : kind ∈ WholeKind.all := by cases kind <;> decide
    simp [entries, all]
  · intro n inRange text written before after blank blank' ctx
    have spells := WholeKind.spells_of_mem_spellings inRange written
    -- The spelling has no blank, so trimming ends exactly where it begins and ends.
    have stripped : Text.Stripped (before ++ text ++ after) text :=
      ⟨⟨before, after, rfl, blank, blank'⟩,
        fun c first => spells.unblank c (List.mem_of_head? first),
        fun c last => spells.unblank c (List.mem_of_getLast? last)⟩
    refine whole_eq_some_iff.mpr ⟨n, ?_, rfl⟩
    rw [String.toList_ofList, Text.trimmed_eq_iff.mpr stripped]
    exact .literal spells

/-- The least number of eight bits in octal, between a no-break space and a line feed. -/
theorem whole_reads_least_octal :
    WholeKind.i8.InRange (-128) ∧ "-0200".toList ∈ spellings (-128) ∧
      ∀ ctx, (whole .i8 (String.ofList (['\u00a0'] ++ "-0200".toList ++ ['\n'])) ctx).outcome =
        .ok (some (Value.whole .i8 (-128)).typed) := by
  have inRange : WholeKind.i8.InRange (-128) := by decide
  have written : "-0200".toList ∈ spellings (-128) := by decide +kernel
  obtain ⟨-, -, -, spelled⟩ := whole_reads .i8
  exact ⟨inRange, written, spelled (-128) inRange _ written _ _ (by decide) (by decide)⟩

end Builtin

end LayeredConfig
