import LayeredConfig.Text.Ascii

/-!
# Meta keys

The key `_k.n` asks for the note `n` on the value of the key `k`. A key may hold points and start
with underscores itself, so a meta key is taken apart at its last point, after one underscore; a
name therefore has no point. Neither part may be empty.

A described key is shorter than the meta key that describes it, so asking for the notes on notes
comes to an end.
-/

set_option autoImplicit false

namespace LayeredConfig

/-- A meta key taken apart: the key it describes and the name of the note. -/
structure MetaKey where
  described : String
  name : String
  deriving DecidableEq, Repr

namespace MetaKey

/-- The key under which a note is found. -/
def toKey (m : MetaKey) : String := "_" ++ m.described ++ "." ++ m.name

/-- What stands before and after the last occurrence of a character. -/
def splitLast? (mark : Char) : List Char → Option (List Char × List Char)
  | [] => none
  | c :: cs =>
    match splitLast? mark cs with
    | some (before, after) => some (c :: before, after)
    | none => if c = mark then some ([], cs) else none

/-- The parts of a text that is a meta key. -/
def ofChars? : List Char → Option (List Char × List Char)
  | '_' :: cs =>
    match splitLast? '.' cs with
    | some (described, name) =>
      if described.isEmpty || name.isEmpty then none else some (described, name)
    | none => none
  | _ => none

/-- A key read as a meta key. -/
def ofKey? (key : String) : Option MetaKey :=
  (ofChars? key.toList).map fun parts => ⟨String.ofList parts.1, String.ofList parts.2⟩

/-- Both parts together are what is left of the text without the character between them. -/
theorem splitLast?_eq_some {mark : Char} {cs before after : List Char}
    (h : splitLast? mark cs = some (before, after)) : cs = before ++ mark :: after := by
  induction cs generalizing before after with
  | nil => simp [splitLast?] at h
  | cons c cs ih =>
    rw [splitLast?] at h
    split at h
    · next b a hs =>
      obtain ⟨rfl, rfl⟩ := Prod.mk.injEq .. ▸ Option.some.injEq .. ▸ h
      simp [ih hs]
    · split at h
      · next hc =>
        obtain ⟨rfl, rfl⟩ := Prod.mk.injEq .. ▸ Option.some.injEq .. ▸ h
        simp [hc]
      · simp at h

/-- A described key is shorter than the meta key it was read from. -/
theorem length_described {key : String} {m : MetaKey} (h : ofKey? key = some m) :
    m.described.toList.length < key.toList.length := by
  obtain ⟨parts, hp, rfl⟩ := Option.map_eq_some_iff.1 h
  unfold ofChars? at hp
  split at hp
  · next cs hk =>
    split at hp
    · next b a hs =>
      split at hp
      · simp at hp
      · obtain rfl := Option.some.inj hp
        have := splitLast?_eq_some hs
        rw [hk, this, String.toList_ofList, List.length_cons, List.length_append]
        exact Nat.lt_succ_of_le (Nat.le_add_right ..)
    · simp at hp
  · simp at hp

end MetaKey

end LayeredConfig
