import LayeredConfig.Numeral.Radix
import Mathlib.Data.List.Forall2
import Mathlib.Data.Nat.Digits.Defs
import Mathlib.Tactic.IntervalCases

/-!
# What a run of digits denotes

A run of digits is read from the left, with the number read so far carried along.
**`nat?_eq_some_iff` says which number that is**: the one with these digits, of which the first
counts most. So no run is read as any other number, and a run with a character in it that is no
digit of the radix is not read at all.

`Nat.ofDigits` has the digits in the opposite order, the last one first.
-/

set_option autoImplicit false

namespace LayeredConfig.Numeral

/-! ## Digits -/

/-- A character counts for a digit of the radix, in either case. -/
def IsDigit (radix : Nat) (c : Char) (d : Nat) : Prop := d < radix ∧ c.toLower = d.digitChar

/-- Letters are moved by 32 code points to their small forms; all other characters stay. -/
theorem toNat_toLower (c : Char) :
    c.toLower.toNat = if 65 ≤ c.toNat ∧ c.toNat ≤ 90 then c.toNat + 32 else c.toNat := by
  have upper : (c.val ≥ 'A'.val ∧ c.val ≤ 'Z'.val) ↔ (65 ≤ c.toNat ∧ c.toNat ≤ 90) := Iff.rfl
  unfold Char.toLower
  simp only [upper]
  split
  next h =>
    show (c.val + 32).toNat = c.val.toNat + 32
    have small : c.val.toNat ≤ 90 := h.2
    rw [UInt32.toNat_add]
    exact Nat.mod_eq_of_lt (by simp; omega)
  next => rfl

theorem toNat_digitChar {d : Nat} (h : d < 16) :
    d.digitChar.toNat = if d < 10 then 48 + d else 87 + d := by
  interval_cases d <;> rfl

theorem digitValue?_eq_some_iff {c : Char} {d : Nat} :
    digitValue? c = some d ↔ IsDigit 16 c d := by
  have letters (a b : Char) : (a ≤ c ∧ c ≤ b) ↔ (a.toNat ≤ c.toNat ∧ c.toNat ≤ b.toNat) := Iff.rfl
  -- Both sides are comparisons of code points.
  have points : IsDigit 16 c d ↔ d < 16 ∧
      (if 65 ≤ c.toNat ∧ c.toNat ≤ 90 then c.toNat + 32 else c.toNat) =
        if d < 10 then 48 + d else 87 + d := by
    refine and_congr_right fun h => ?_
    rw [← Char.toNat_inj, toNat_toLower, toNat_digitChar h]
  rw [points]
  unfold digitValue?
  simp only [letters, Char.isDigit_iff_toNat, Char.reduceToNat]
  split
  · rw [Option.some_inj]
    split_ifs <;> omega
  · split
    · rw [Option.some_inj]
      split_ifs <;> omega
    · split
      · rw [Option.some_inj]
        split_ifs <;> omega
      · refine iff_of_false (by simp) ?_
        split_ifs <;> omega

theorem digit?_eq_some_iff {radix : Nat} (small : radix ≤ 16) {c : Char} {d : Nat} :
    digit? radix c = some d ↔ IsDigit radix c d := by
  rw [digit?, Option.filter_eq_some_iff, digitValue?_eq_some_iff]
  simp only [IsDigit, decide_eq_true_eq]
  constructor
  · rintro ⟨⟨-, same⟩, below⟩
    exact ⟨below, same⟩
  · rintro ⟨below, same⟩
    exact ⟨⟨Nat.lt_of_lt_of_le below small, same⟩, below⟩

theorem isDigit_digitChar {radix d : Nat} (small : radix ≤ 16) (h : d < radix) :
    IsDigit radix d.digitChar d := by
  refine ⟨h, ?_⟩
  have : d < 16 := by omega
  interval_cases d <;> rfl

/-! ## Runs -/

/-- A run of digits with the number that it denotes. -/
def Run (radix : Nat) (cs : List Char) (n : Nat) : Prop :=
  cs ≠ [] ∧ ∃ ds, List.Forall₂ (IsDigit radix) cs ds ∧ Nat.ofDigits radix ds.reverse = n

theorem extend?_eq_some_iff {radix : Nat} (small : radix ≤ 16) {cs : List Char} {n m : Nat} :
    extend? radix n cs = some m ↔
      ∃ ds, List.Forall₂ (IsDigit radix) cs ds ∧ Nat.ofDigits radix (ds.reverse ++ [n]) = m := by
  induction cs generalizing n with
  | nil => simp [extend?, List.forall₂_nil_left_iff]
  | cons c cs ih =>
    -- The digit in front of the others is one more digit after those read so far.
    have carried (ds : List Nat) (d : Nat) : Nat.ofDigits radix ((d :: ds).reverse ++ [n]) =
        Nat.ofDigits radix (ds.reverse ++ [n * radix + d]) := by
      rw [List.reverse_cons, List.append_assoc, List.singleton_append, Nat.ofDigits_append,
        Nat.ofDigits_append, Nat.ofDigits_cons, Nat.ofDigits_singleton, Nat.ofDigits_singleton,
        Nat.mul_comm radix n, Nat.add_comm d]
    simp only [extend?, Option.bind_eq_some_iff, digit?_eq_some_iff small, ih]
    constructor
    · rintro ⟨d, digit, ds, digits, value⟩
      exact ⟨d :: ds, .cons digit digits, (carried ds d).trans value⟩
    -- The digits are told by the characters, so the list of them starts with the digit of the
    -- first.
    · rintro ⟨_, all, value⟩
      obtain ⟨d, ds, digit, digits, rfl⟩ := List.forall₂_cons_left_iff.mp all
      exact ⟨d, digit, ds, digits, (carried ds d).symm.trans value⟩

/-- **A run of digits is read as the number with these digits.** -/
theorem nat?_eq_some_iff {radix : Nat} (small : radix ≤ 16) {cs : List Char} {n : Nat} :
    nat? radix cs = some n ↔ Run radix cs n := by
  cases cs with
  | nil => simp [nat?, Run]
  | cons c cs =>
    rw [nat?, extend?_eq_some_iff small, Run]
    simp [Nat.ofDigits_append]

namespace Run

variable {radix : Nat} {cs : List Char} {n : Nat}

theorem read (h : Run radix cs n) (small : radix ≤ 16) : nat? radix cs = some n :=
  (nat?_eq_some_iff small).mpr h

theorem head (h : Run radix cs n) : ∃ c rest d, cs = c :: rest ∧ IsDigit radix c d := by
  obtain ⟨nonempty, ds, digits, -⟩ := h
  cases digits with
  | nil => exact absurd rfl nonempty
  | cons digit _ => exact ⟨_, _, _, rfl, digit⟩

theorem snoc (h : Run radix cs n) {c : Char} {d : Nat} (digit : IsDigit radix c d) :
    Run radix (cs ++ [c]) (radix * n + d) := by
  obtain ⟨-, ds, digits, rfl⟩ := h
  refine ⟨by simp, ds ++ [d], List.rel_append digits (.cons digit .nil), ?_⟩
  rw [List.reverse_append, List.reverse_singleton, List.singleton_append, Nat.ofDigits_cons,
    Nat.add_comm]

/-- The digits of a number are a run that denotes it. -/
theorem toDigits (positional : 1 < radix) (small : radix ≤ 16) (n : Nat) :
    Run radix (Nat.toDigits radix n) n := by
  induction n using Nat.base_induction radix positional with
  | single m hm =>
    rw [Nat.toDigits_of_lt_base hm]
    exact ⟨by simp, [m], .cons (isDigit_digitChar small hm) .nil, Nat.ofDigits_singleton⟩
  | digit m k hk hm ih =>
    -- The last digit comes after the digits of the number without it.
    rw [← Nat.toDigits_append_toDigits positional hm hk, Nat.toDigits_of_lt_base hk]
    exact ih.snoc (isDigit_digitChar small hk)

end Run

end LayeredConfig.Numeral
