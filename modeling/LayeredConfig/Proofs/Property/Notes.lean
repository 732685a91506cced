import LayeredConfig.Proofs.Entries
import LayeredConfig.Property.Value

/-!
# Notes and their meta keys

The note `n` on a value of the key `k` is listed under the meta key `_k.n`. The described key may
hold points and underscores itself; a name has no point, so the last point of a meta key is the one
before the name. **A text is read as a meta key if and only if it is what the meta key is written
as, and the meta key is a proper one** (`MetaKey.ofKey?_eq_some_iff`): there is something on either
side of that point.
-/

set_option autoImplicit false

namespace LayeredConfig

namespace MetaKey

variable {mark : Char} {cs before after described name : List Char} {key : String} {m : MetaKey}

/-! ## The last occurrence of a character -/

theorem splitLast?_eq_none_iff : splitLast? mark cs = none ↔ mark ∉ cs := by
  induction cs with
  | nil => simp [splitLast?]
  | cons c cs ih =>
    rw [splitLast?, List.mem_cons, not_or, ← ih]
    cases splitLast? mark cs with
    | none => simp [eq_comm]
    | some parts => simp

/-- The last occurrence is the one after which there is none. -/
theorem splitLast?_append (before : List Char) (absent : mark ∉ after) :
    splitLast? mark (before ++ mark :: after) = some (before, after) := by
  induction before with
  | nil =>
    rw [List.nil_append, splitLast?, splitLast?_eq_none_iff.mpr absent]
    exact if_pos rfl
  | cons c cs ih => rw [List.cons_append, splitLast?, ih]

theorem absent_of_splitLast? (split : splitLast? mark cs = some (before, after)) : mark ∉ after := by
  induction cs generalizing before with
  | nil => exact nomatch split
  | cons c cs ih =>
    rw [splitLast?] at split
    cases later : splitLast? mark cs with
    | some parts =>
      rw [later] at split
      obtain ⟨rfl, rfl⟩ : c :: parts.1 = before ∧ parts.2 = after := by simpa using split
      exact ih later
    | none =>
      -- The mark is the first character, and the rest is what comes after it.
      rw [later] at split
      obtain ⟨-, -, rfl⟩ : c = mark ∧ [] = before ∧ cs = after := by simpa using split
      exact splitLast?_eq_none_iff.mp later

theorem splitLast?_eq_some_iff :
    splitLast? mark cs = some (before, after) ↔ cs = before ++ mark :: after ∧ mark ∉ after := by
  constructor
  · intro split
    exact ⟨splitLast?_eq_some split, absent_of_splitLast? split⟩
  · rintro ⟨rfl, absent⟩
    exact splitLast?_append before absent

/-! ## Meta keys written and read -/

/-- A meta key that can be told from its text: it describes some key, and its note has a name
    without a point. -/
structure Proper (m : MetaKey) : Prop where
  described : m.described ≠ ""
  named : m.name ≠ ""
  pointless : '.' ∉ m.name.toList

theorem toKey_toList (m : MetaKey) :
    m.toKey.toList = '_' :: (m.described.toList ++ '.' :: m.name.toList) := by
  simp [toKey]

theorem ofChars?_eq_some_iff : ofChars? cs = some (described, name) ↔
    cs = '_' :: (described ++ '.' :: name) ∧ described ≠ [] ∧ name ≠ [] ∧ '.' ∉ name := by
  constructor
  · intro read
    unfold ofChars? at read
    split at read
    case h_2 => exact nomatch read
    case h_1 cs =>
      split at read
      case h_2 => exact nomatch read
      case h_1 before after split =>
        obtain ⟨rfl, absent⟩ := splitLast?_eq_some_iff.mp split
        -- With nothing before or after the last point the text is not read.
        by_cases empty : (before.isEmpty || after.isEmpty) = true
        · rw [if_pos empty] at read
          exact nomatch read
        · rw [if_neg empty] at read
          obtain ⟨rfl, rfl⟩ : before = described ∧ after = name := by simpa using read
          rw [Bool.or_eq_true, not_or, List.isEmpty_iff, List.isEmpty_iff] at empty
          exact ⟨rfl, empty.1, empty.2, absent⟩
  · rintro ⟨rfl, nonempty, named, absent⟩
    rw [ofChars?, splitLast?_append _ absent]
    simp [nonempty, named]

/-- **A text is read as a meta key if and only if the meta key is a proper one and this is how it is
    written.** -/
theorem ofKey?_eq_some_iff : ofKey? key = some m ↔ m.Proper ∧ m.toKey = key := by
  constructor
  · intro read
    obtain ⟨⟨described, name⟩, parts, rfl⟩ := Option.map_eq_some_iff.mp read
    obtain ⟨chars, nonempty, named, absent⟩ := ofChars?_eq_some_iff.mp parts
    refine ⟨⟨?_, ?_, ?_⟩, ?_⟩
    · simpa using nonempty
    · simpa using named
    · simpa using absent
    · apply String.toList_inj.mp
      rw [toKey_toList, chars, String.toList_ofList, String.toList_ofList]
  · rintro ⟨⟨nonempty, named, pointless⟩, rfl⟩
    have parts : ofChars? m.toKey.toList = some (m.described.toList, m.name.toList) :=
      ofChars?_eq_some_iff.mpr
        ⟨m.toKey_toList, by simpa using nonempty, by simpa using named, pointless⟩
    rw [ofKey?, parts]
    simp

/-- A meta key is read back. Neither part is empty, and the name has no point. -/
theorem ofKey?_toKey (described : m.described ≠ "") (named : m.name ≠ "")
    (pointless : '.' ∉ m.name.toList) : ofKey? m.toKey = some m :=
  ofKey?_eq_some_iff.mpr ⟨⟨described, named, pointless⟩, rfl⟩

/-- What is read as a meta key is the one that is made of the parts, and neither part is empty. -/
theorem toKey_of_ofKey? (h : ofKey? key = some m) :
    m.toKey = key ∧ m.described ≠ "" ∧ m.name ≠ "" := by
  obtain ⟨proper, written⟩ := ofKey?_eq_some_iff.mp h
  exact ⟨written, proper.described, proper.named⟩

theorem ofKey?_eq_none_iff : ofKey? key = none ↔ ∀ m : MetaKey, m.Proper → m.toKey ≠ key := by
  rw [Option.eq_none_iff_forall_ne_some]
  constructor
  · intro unread m proper written
    exact unread m (ofKey?_eq_some_iff.mpr ⟨proper, written⟩)
  · intro unwritten m read
    obtain ⟨proper, written⟩ := ofKey?_eq_some_iff.mp read
    exact unwritten m proper written

/-- **What is written is what is read.**

    * A meta key is read back from its text if and only if both of its parts are there and the name
      has no point.
    * A text that is read is the text of the meta key that it is read as, and longer than the key
      that is described, in characters and in bytes.
    * The texts that are not read are those that no meta key with both parts and without a point in
      its name is written as. -/
theorem reads_what_is_written :
    (∀ m : MetaKey, ofKey? m.toKey = some m ↔
      m.described ≠ "" ∧ m.name ≠ "" ∧ '.' ∉ m.name.toList) ∧
    (∀ (key : String) (m : MetaKey), ofKey? key = some m →
      m.toKey = key ∧ m.described.length < key.length ∧
        m.described.utf8ByteSize < key.utf8ByteSize) ∧
    ∀ key : String, ofKey? key = none ↔
      ∀ m : MetaKey, m.described ≠ "" → m.name ≠ "" → '.' ∉ m.name.toList → m.toKey ≠ key := by
  refine ⟨?_, ?_, ?_⟩
  · intro m
    constructor
    · intro read
      obtain ⟨⟨nonempty, named, pointless⟩, -⟩ := ofKey?_eq_some_iff.mp read
      exact ⟨nonempty, named, pointless⟩
    · rintro ⟨nonempty, named, pointless⟩
      exact ofKey?_toKey nonempty named pointless
  · intro key m read
    obtain ⟨-, rfl⟩ := ofKey?_eq_some_iff.mp read
    refine ⟨rfl, length_described read, ?_⟩
    -- The text has two marks and a name besides, in bytes as well as in characters.
    have underscore : "_".utf8ByteSize = 1 := by decide
    simp only [toKey, String.utf8ByteSize_append]
    omega
  · intro key
    rw [ofKey?_eq_none_iff]
    constructor
    · intro unwritten m nonempty named pointless
      exact unwritten m ⟨nonempty, named, pointless⟩
    · intro unwritten m proper
      exact unwritten m proper.described proper.named proper.pointless

/-- The described key ends with a point and starts with an underscore, as a meta key does. -/
theorem reads_what_is_written_again :
    ofKey? "__a.b..größe" = some ⟨"_a.b.", "größe"⟩ ∧
      toKey ⟨"_a.b.", "größe"⟩ = "__a.b..größe" ∧
      "_a.b.".length < "__a.b..größe".length ∧
      "_a.b.".utf8ByteSize < "__a.b..größe".utf8ByteSize ∧
      ofKey? "__a.b..größe" ≠ none := by
  obtain ⟨-, read, unread⟩ := reads_what_is_written
  have found : ofKey? "__a.b..größe" = some ⟨"_a.b.", "größe"⟩ := by decide +kernel
  obtain ⟨written, shorter, fewer⟩ := read _ _ found
  refine ⟨found, written, shorter, fewer, ?_⟩
  intro refused
  exact (unread _).mp refused ⟨"_a.b.", "größe"⟩ (by decide) (by decide) (by decide) written

/-- The notes on one value have different meta keys. -/
theorem name_of_toKey_eq {described name name' : String}
    (same : toKey ⟨described, name⟩ = toKey ⟨described, name'⟩) : name = name' := by
  have chars := congrArg String.toList same
  simp only [toKey, String.toList_append] at chars
  exact String.toList_inj.mp (List.append_cancel_left chars)

end MetaKey

namespace PropertyValue

/-- What is listed under a meta key: the note of that name, or for want of one the source, if it is
    the source that is asked for. -/
theorem getElem?_metaEntries (v : PropertyValue) (name : String) :
    v.metaEntries[MetaKey.toKey ⟨v.key, name⟩]? =
      v.metadata[name]?.or (if name = "source" then some v.source else none) := by
  rw [metaEntries, Entries.getElem?_foldl_insert_renamed (fun name => MetaKey.toKey ⟨v.key, name⟩)
    MetaKey.name_of_toKey_eq (fun _ text => text) v.metadata _ name, Option.map_id', Std.ExtTreeMap.getElem?_insert,
    Std.ExtTreeMap.getElem?_empty]
  congr 1
  by_cases named : name = "source"
  · rw [named, if_pos rfl, if_pos Std.ReflCmp.compare_self]
  · have other : compare (MetaKey.toKey ⟨v.key, "source"⟩) (MetaKey.toKey ⟨v.key, name⟩) ≠ .eq :=
      fun same => named (MetaKey.name_of_toKey_eq (Std.LawfulEqCmp.eq_of_compare same)).symm
    rw [if_neg named, if_neg other]

end PropertyValue

end LayeredConfig
