import LayeredConfig.Text.Blank

/-!
# What is left of a trimmed text

Trimming takes blanks away at both ends, and never more than blanks. **`trimmed_eq_iff` says that
what is left is the part of the text that stands between blanks and neither starts nor ends with
one.**
-/

set_option autoImplicit false

namespace LayeredConfig.Text

/-- A part of a text that stands between blanks, and neither starts nor ends with one. -/
structure Stripped (cs t : List Char) : Prop where
  between : ∃ before after, cs = before ++ t ++ after ∧ before.all isBlank ∧ after.all isBlank
  first : ∀ c, t.head? = some c → isBlank c = false
  last : ∀ c, t.getLast? = some c → isBlank c = false

theorem trimEnd_eq (cs : List Char) : trimEnd cs = (trimStart cs.reverse).reverse := rfl

theorem exists_before (cs : List Char) :
    ∃ before, cs = before ++ trimStart cs ∧ before.all isBlank :=
  ⟨cs.takeWhile isBlank, List.takeWhile_append_dropWhile.symm, List.all_takeWhile⟩

theorem first_trimStart (cs : List Char) :
    ∀ c, (trimStart cs).head? = some c → isBlank c = false := by
  intro c found
  have unblank := List.head?_dropWhile_not isBlank cs
  rw [trimStart] at found
  simpa [found] using unblank

theorem trimStart_append {before cs : List Char} (blank : before.all isBlank)
    (first : ∀ c, cs.head? = some c → isBlank c = false) : trimStart (before ++ cs) = cs := by
  rw [trimStart, List.dropWhile_append_of_pos (List.all_eq_true.mp blank)]
  cases cs with
  | nil => rfl
  | cons c cs => exact List.dropWhile_cons_of_neg (by simp [first c rfl])

theorem trimmed_stripped (cs : List Char) : Stripped cs (trimmed cs) := by
  obtain ⟨before, start, blank⟩ := exists_before cs
  obtain ⟨after, rest, blank'⟩ := exists_before (trimStart cs).reverse
  -- The end is trimmed from the reversed text, so it is turned round again.
  have split : trimStart cs = trimmed cs ++ after.reverse := by
    rw [trimmed, trimEnd_eq, ← List.reverse_append, ← rest, List.reverse_reverse]
  refine ⟨⟨before, after.reverse, ?_, blank, by simpa using blank'⟩, ?_, ?_⟩
  · rw [List.append_assoc, ← split]
    exact start
  · intro c found
    refine first_trimStart cs c ?_
    rw [split, List.head?_append, found, Option.some_or]
  · intro c found
    refine first_trimStart (trimStart cs).reverse c ?_
    rwa [trimmed, trimEnd_eq, List.getLast?_reverse] at found

theorem Stripped.trimmed_eq {cs t : List Char} (h : Stripped cs t) : trimmed cs = t := by
  obtain ⟨⟨before, after, rfl, blank, blank'⟩, first, last⟩ := h
  rw [trimmed, trimEnd_eq]
  cases t with
  | nil =>
    -- Nothing but blanks: the start takes all of them, those of the end as well.
    have start : trimStart (before ++ [] ++ after) = [] := by
      rw [List.append_nil, ← List.append_nil (before ++ after)]
      exact trimStart_append (by simp [blank, blank']) (fun _ found => nomatch found)
    rw [start]
    rfl
  | cons c t =>
    -- With something left, the first character of the rest is the first one of what is left.
    have start : trimStart (before ++ (c :: t ++ after)) = c :: t ++ after :=
      trimStart_append blank first
    rw [List.append_assoc, start, List.reverse_append,
      trimStart_append (by simpa using blank') (by simpa only [List.head?_reverse] using last),
      List.reverse_reverse]

theorem trimmed_eq_iff {cs t : List Char} : trimmed cs = t ↔ Stripped cs t :=
  ⟨fun same => same ▸ trimmed_stripped cs, Stripped.trimmed_eq⟩

end LayeredConfig.Text
