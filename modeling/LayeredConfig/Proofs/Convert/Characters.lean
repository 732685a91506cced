import LayeredConfig.Convert.Builtin
import LayeredConfig.Proofs.Text.Trimming

/-!
# Characters read

A text shows a character in one of three ways (`Builtin.Shows`): it is that character and nothing
else, or it is longer and the character is what stands between blanks, bare or between apostrophes.
The ways meet on blanks and on apostrophes. A single blank is read as it stands, for trimming would
leave nothing of it; between apostrophes it is not at the end of the text, so trimming leaves it
alone. An apostrophe by itself is no pair, and a pair with nothing in it shows nothing.

**`Builtin.char?_eq_some_iff` says that reading decides this relation.**
-/

set_option autoImplicit false

namespace LayeredConfig.Builtin

variable {cs t : List Char} {c : Char}

/-- The character that a text shows. -/
inductive Shows : List Char → Char → Prop
  | itself (c : Char) : Shows [c] c
  | padded {cs : List Char} {c : Char} (several : cs.length ≠ 1) (stripped : Text.Stripped cs [c]) :
    Shows cs c
  | quoted {cs : List Char} {c : Char} (several : cs.length ≠ 1)
    (stripped : Text.Stripped cs ['\'', c, '\'']) : Shows cs c

/-! ## Single characters and pairs of apostrophes -/

theorem only?_eq_some_iff : only? cs = some c ↔ cs = [c] := by
  unfold only?
  split
  next c' => simp
  next several =>
    constructor
    · intro read
      exact nomatch read
    · intro single
      exact absurd single (several c)

theorem only?_eq_none_iff : only? cs = none ↔ cs.length ≠ 1 := by
  rw [Option.eq_none_iff_forall_ne_some, Ne, List.length_eq_one_iff, not_exists]
  simp only [ne_eq, only?_eq_some_iff]

theorem unquoted?_eq_some_iff : unquoted? cs = some t ↔ cs = '\'' :: (t ++ ['\'']) := by
  unfold unquoted?
  split
  next cs =>
    by_cases closed : cs.getLast? = some '\''
    · obtain ⟨inner, rfl⟩ := List.getLast?_eq_some_iff.mp closed
      simp
    · rw [if_neg closed]
      constructor
      · intro read
        exact nomatch read
      · intro quoted
        obtain rfl : cs = t ++ ['\''] := by simpa using quoted
        exact absurd (by simp) closed
  next unopened =>
    constructor
    · intro read
      exact nomatch read
    · intro quoted
      exact absurd quoted (unopened _)

/-- The only character of a text, inside its apostrophes if it has a pair of them. An apostrophe
    alone opens a pair and does not close it. -/
theorem only?_unquoted : only? ((unquoted? t).getD t) = some c ↔ t = [c] ∨ t = ['\'', c, '\''] := by
  rw [only?_eq_some_iff]
  cases inner : unquoted? t with
  | some inside =>
    have closed : t = '\'' :: (inside ++ ['\'']) := unquoted?_eq_some_iff.mp inner
    -- With a pair of apostrophes the text is longer than one character.
    have bare : t ≠ [c] := by simp [closed]
    have quoted : t = ['\'', c, '\''] ↔ inside = [c] := by
      rw [closed]
      show '\'' :: (inside ++ ['\'']) = '\'' :: ([c] ++ ['\'']) ↔ inside = [c]
      simp only [List.cons.injEq, true_and, List.append_left_inj]
    simp [bare, quoted]
  | none =>
    have unpaired : t ≠ ['\'', c, '\''] := by
      intro quoted
      have found : unquoted? t = some [c] := unquoted?_eq_some_iff.mpr quoted
      exact nomatch inner.symm.trans found
    simp [unpaired]

/-! ## Reading -/

/-- **A character is read if and only if the text shows it.** -/
theorem char?_eq_some_iff : char? cs = some c ↔ Shows cs c := by
  rw [char?]
  cases single : only? cs with
  | some c' =>
    obtain rfl := only?_eq_some_iff.mp single
    constructor
    · intro read
      obtain rfl := Option.some.inj read
      exact .itself c'
    · intro shown
      cases shown with
      | itself => rfl
      | padded several _ => exact absurd rfl several
      | quoted several _ => exact absurd rfl several
  | none =>
    -- The text is longer than one character, or empty, so only what is left after trimming counts.
    have several : cs.length ≠ 1 := only?_eq_none_iff.mp single
    show only? ((unquoted? (Text.trimmed cs)).getD (Text.trimmed cs)) = some c ↔ Shows cs c
    rw [only?_unquoted, Text.trimmed_eq_iff, Text.trimmed_eq_iff]
    constructor
    · intro stripped
      rcases stripped with bare | pair
      · exact .padded several bare
      · exact .quoted several pair
    · intro shown
      cases shown with
      | itself => exact absurd rfl several
      | padded _ stripped => exact .inl stripped
      | quoted _ stripped => exact .inr stripped

/-- An apostrophe between blanks is bare, and a pair of them has nothing in it. -/
example : char? [' ', '\'', '\n'] = some '\'' ∧ char? ['\'', '\''] = none := by decide

theorem char?_eq_none_iff : char? cs = none ↔ ∀ c, ¬Shows cs c := by
  rw [Option.eq_none_iff_forall_ne_some]
  simp only [ne_eq, char?_eq_some_iff]

/-- A character between apostrophes is shown whatever it is, a blank or an apostrophe included, with
    any blanks around the apostrophes. -/
theorem Shows.of_quoted {before after : List Char} (c : Char) (blank : before.all Text.isBlank)
    (blank' : after.all Text.isBlank) : Shows (before ++ ['\'', c, '\''] ++ after) c := by
  -- Apostrophes are no blanks, so trimming stops at them and leaves what stands between.
  refine .quoted ?_ ⟨⟨before, after, rfl, blank, blank'⟩, ?_, ?_⟩
  · simp only [List.length_append, List.length_cons, List.length_nil]
    omega
  · intro first found
    obtain rfl : '\'' = first := by simpa using found
    decide
  · intro last found
    obtain rfl : '\'' = last := by simpa using found
    decide

theorem char_outcome (s : String) (ctx : ConversionContext) :
    (char s ctx).outcome = .ok ((char? s.toList).map fun c => (Value.char c).typed) := rfl

theorem char_eq_some_iff {s : String} {ctx : ConversionContext} :
    (char s ctx).outcome = .ok (some (Value.char c).typed) ↔ Shows s.toList c := by
  rw [char_outcome, ← char?_eq_some_iff]
  constructor
  · intro answer
    obtain ⟨c', read, same⟩ := Option.map_eq_some_iff.mp (Except.ok.inj answer)
    obtain rfl : c' = c := Value.char.inj (congrArg Subtype.val same)
    exact read
  · intro read
    rw [read]
    rfl

theorem char_eq_none_iff {s : String} {ctx : ConversionContext} :
    (char s ctx).outcome = .ok none ↔ ∀ c, ¬Shows s.toList c := by
  rw [char_outcome, ← char?_eq_none_iff]
  constructor
  · intro answer
    exact Option.map_eq_none_iff.mp (Except.ok.inj answer)
  · intro unread
    rw [unread]
    rfl

/-- **Characters are read from the texts that show them, and from no others.** Among the converters
    for the plain types there is one for characters.

    * It answers a character for a text if and only if the text shows it; and it answers nothing if
      and only if the text shows none. It has no other answer.
    * Every character, a blank or an apostrophe included, is read from itself, and from between
      apostrophes with any blanks around them. -/
theorem char_reads :
    RegistryEntry.converter .char "char" char ∈ entries ∧
    (∀ (s : String) (ctx : ConversionContext),
      (∀ c, (char s ctx).outcome = .ok (some (Value.char c).typed) ↔ Shows s.toList c) ∧
      ((char s ctx).outcome = .ok none ↔ ∀ c, ¬Shows s.toList c)) ∧
    ∀ (c : Char) (ctx : ConversionContext),
      (char (String.singleton c) ctx).outcome = .ok (some (Value.char c).typed) ∧
      ∀ before after : List Char, before.all Text.isBlank → after.all Text.isBlank →
        (char (String.ofList (before ++ ['\'', c, '\''] ++ after)) ctx).outcome =
          .ok (some (Value.char c).typed) := by
  refine ⟨?_, ?_, ?_⟩
  · simp [entries]
  · intro s ctx
    exact ⟨fun c => char_eq_some_iff, char_eq_none_iff⟩
  · intro c ctx
    constructor
    · apply char_eq_some_iff.mpr
      rw [String.toList_singleton]
      exact .itself c
    · intro before after blank blank'
      apply char_eq_some_iff.mpr
      rw [String.toList_ofList]
      exact .of_quoted c blank blank'

/-- An apostrophe between apostrophes, after a no-break space and before a line feed. -/
theorem char_reads_apostrophe :
    ['\u00a0'].all Text.isBlank ∧ ['\n'].all Text.isBlank ∧
      ∀ ctx, (char (String.ofList (['\u00a0'] ++ ['\'', '\'', '\''] ++ ['\n'])) ctx).outcome =
        .ok (some (Value.char '\'').typed) := by
  obtain ⟨-, -, shown⟩ := char_reads
  have blank : ['\u00a0'].all Text.isBlank := by decide
  have blank' : ['\n'].all Text.isBlank := by decide
  exact ⟨blank, blank', fun ctx => (shown '\'' ctx).2 _ _ blank blank'⟩

end LayeredConfig.Builtin
