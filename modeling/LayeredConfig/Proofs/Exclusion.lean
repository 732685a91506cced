import LayeredConfig.Proofs.Verdicts
import Mathlib.Logic.Basic

/-!
# Keys that are written and removed at once

Every operation on a set of changes takes its keys off the other side, so whatever is done to a set
that was empty at first, no key is written and removed at once. A set can also be read from a JSON
record, and reading does not compare the two sides: a record may list a key as written and as
removed. **`ChangeSet.exclusive_operated_iff` says what becomes of such keys**: each is on both
sides until an operation names it, and no other key ever is.

The two sides of a record are independent of its other fields and of the text it was parsed from. So
nothing is assumed about how ids and points in time are read (`ChangeSet.ofRecord?`), and parsing
does not come into it except in the examples.

The decoders of tables and of sets of keys answer what stands in the text (`Json.mem_of_entries?`,
`Json.mem_of_keys?`); an operation is the writes that it makes (`ChangeSet.onBothSides_operate`).
-/

set_option autoImplicit false

namespace LayeredConfig

/-! ## What is read -/

theorem Entries.mem_ofPairs {pairs : List (String × String)} {key : String} :
    key ∈ Entries.ofPairs pairs ↔ ∃ value, (key, value) ∈ pairs := by
  rw [Entries.ofPairs, ← Std.ExtTreeMap.insertMany_list_eq_foldl, Std.ExtTreeMap.mem_insertMany_list]
  simp

theorem Keys.mem_ofKeys {keys : List String} {key : String} :
    key ∈ Keys.ofKeys keys ↔ key ∈ keys := by
  rw [Keys.ofKeys, ← Std.ExtTreeSet.insertMany_list_eq_foldl, Std.ExtTreeSet.mem_insertMany_list]
  simp

namespace Json

variable {json : Json} {key : String}

/-- A decoder that has gone through a list has read every item. -/
theorem map_of_mapM {α β : Type} {f : α → Option β} {xs : List α} {ys : List β}
    (h : xs.mapM f = some ys) : xs.map f = ys.map some := by
  induction xs generalizing ys with
  | nil =>
    obtain rfl : [] = ys := by simpa using h
    rfl
  | cons x xs ih =>
    rw [List.mapM_cons] at h
    simp only [Option.pure_def, Option.bind_eq_bind, Option.bind_eq_some_iff] at h
    obtain ⟨y, here, ys', rest, same⟩ := h
    obtain rfl := Option.some.inj same
    rw [List.map_cons, List.map_cons, here, ih rest]

theorem mem_iff_of_mapM {α β : Type} {f : α → Option β} {xs : List α} {ys : List β}
    (h : xs.mapM f = some ys) (y : β) : y ∈ ys ↔ ∃ x ∈ xs, f x = some y := by
  have read : some y ∈ ys.map some ↔ some y ∈ xs.map f := by rw [map_of_mapM h]
  simpa using read

theorem exists_of_mapM {α β : Type} {f : α → Option β} {xs : List α} {ys : List β}
    (h : xs.mapM f = some ys) {x : α} (mem : x ∈ xs) : ∃ y, f x = some y := by
  have read : f x ∈ ys.map some := map_of_mapM h ▸ List.mem_map_of_mem mem
  obtain ⟨y, -, same⟩ := List.mem_map.mp read
  exact ⟨y, same.symm⟩

/-- An object that has a field of the given name. -/
def HasField (json : Json) (key : String) : Prop :=
  ∃ fields value, json = .object fields ∧ (some key, value) ∈ fields

/-- An array that has the given text for an item. -/
def HasItem (json : Json) (key : String) : Prop := ∃ items, json = .array items ∧ text key ∈ items

theorem text?_eq_some_iff : json.text? = some key ↔ json = text key := by
  cases json <;> simp [text?, text]

/-- The keys of a table that is read are the names of the fields. -/
theorem mem_of_entries? {table : Entries} (read : json.entries? = some table) :
    key ∈ table ↔ json.HasField key := by
  obtain ⟨named, names, pairs, texts, rfl⟩ :
      ∃ named, json.fields? = some named ∧ ∃ pairs,
        named.mapM (fun field => field.2.text?.map fun value => (field.1, value)) = some pairs ∧
        Entries.ofPairs pairs = table := by
    simpa [entries?, Option.bind_eq_some_iff] using read
  obtain ⟨fields, rfl⟩ : ∃ fields, json = .object fields := by
    cases json with
    | object fields => exact ⟨fields, rfl⟩
    | _ => exact nomatch names
  -- Two decoders are run over the fields, one for the names and one for the texts; a field is found
  -- through both.
  have named_iff := mem_iff_of_mapM (show fields.mapM _ = some named from names)
  rw [Entries.mem_ofPairs]
  constructor
  · rintro ⟨value, mem⟩
    obtain ⟨⟨name, inner⟩, field, same⟩ := (mem_iff_of_mapM texts _).mp mem
    obtain ⟨_, -, entry⟩ := Option.map_eq_some_iff.mp same
    obtain rfl := congrArg Prod.fst entry
    obtain ⟨⟨written, inner'⟩, there, same'⟩ := (named_iff _).mp field
    obtain ⟨name', rfl, entry'⟩ := Option.map_eq_some_iff.mp same'
    obtain ⟨rfl, rfl⟩ := Prod.mk.inj entry'
    exact ⟨fields, inner', rfl, there⟩
  · rintro ⟨fields', inner, same, mem⟩
    obtain rfl := Json.object.inj same
    have field : (key, inner) ∈ named := (named_iff _).mpr ⟨_, mem, rfl⟩
    obtain ⟨pair, decoded⟩ := exists_of_mapM texts field
    obtain ⟨value, -, rfl⟩ := Option.map_eq_some_iff.mp decoded
    exact ⟨value, (mem_iff_of_mapM texts _).mpr ⟨_, field, decoded⟩⟩

theorem mem_of_keys? {keys : Keys} (read : json.keys? = some keys) :
    key ∈ keys ↔ json.HasItem key := by
  obtain ⟨items, rfl⟩ : ∃ items, json = .array items := by
    cases json with
    | array items => exact ⟨items, rfl⟩
    | _ => exact nomatch read
  obtain ⟨texts, decoded, rfl⟩ := Option.map_eq_some_iff.mp read
  rw [Keys.mem_ofKeys, mem_iff_of_mapM decoded]
  constructor
  · rintro ⟨item, mem, named⟩
    exact ⟨items, rfl, text?_eq_some_iff.mp named ▸ mem⟩
  · rintro ⟨items', same, mem⟩
    obtain rfl := Json.array.inj same
    exact ⟨text key, mem, rfl⟩

/-- The table that a missing field stands for has no keys. -/
theorem mem_of_optional_entries? {part : Option Json} {table : Entries}
    (read : optional? ∅ entries? part = some table) :
    key ∈ table ↔ ∃ json, part = some json ∧ json.HasField key := by
  cases part with
  | none =>
    obtain rfl := Option.some.inj read
    simp
  | some json => simpa using mem_of_entries? read

theorem mem_of_optional_keys? {part : Option Json} {keys : Keys}
    (read : optional? ∅ keys? part = some keys) :
    key ∈ keys ↔ ∃ json, part = some json ∧ json.HasItem key := by
  cases part with
  | none =>
    obtain rfl := Option.some.inj read
    simp
  | some json => simpa using mem_of_keys? read

end Json

namespace ChangeSet

/-- A record of changes that lists a key among the writes and among the removals. -/
def ListedTwice (json : Json) (key : String) : Prop :=
  ∃ transaction startedAt added removed,
    json.record? ["transaction_id", "started_at", "added", "removed"] =
      some [transaction, startedAt, some added, some removed] ∧
    added.HasField key ∧ removed.HasItem key

def OnBothSides (c : ChangeSet) (key : String) : Prop := key ∈ c.added ∧ key ∈ c.removed

variable {c : ChangeSet} {key : String} {w : Write}

theorem exclusive_iff : c.Exclusive ↔ ∀ key, ¬c.OnBothSides key :=
  ⟨fun h key both => h key both.2 both.1, fun h key removed added => h key ⟨added, removed⟩⟩

/-- Reading takes both sides as they are, however the id and the time are read. -/
theorem onBothSides_of_ofRecord? {readId : String → Option TransactionId}
    {readTime : String → Option Timestamp} {json : Json}
    (read : ofRecord? readId readTime json = some c) : c.OnBothSides key ↔ ListedTwice json key := by
  unfold ofRecord? at read
  obtain ⟨parts, record, read⟩ := Option.bind_eq_some_iff.mp read
  split at read
  case h_2 => exact nomatch read
  case h_1 transaction startedAt added removed =>
    -- Each of the four fields has been read. What is known of the id and the time is dropped.
    simp only [Option.bind_eq_bind, Option.bind_eq_some_iff] at read
    obtain ⟨_, -, _, -, writes, written, removals, taken, same⟩ := read
    obtain rfl := Option.some.inj same
    rw [OnBothSides, Json.mem_of_optional_entries? written, Json.mem_of_optional_keys? taken,
      ListedTwice, record]
    constructor
    · rintro ⟨⟨added, rfl, field⟩, removed, rfl, item⟩
      exact ⟨transaction, startedAt, added, removed, rfl, field, item⟩
    · rintro ⟨_, _, added', removed', same, field, item⟩
      simp only [Option.some.injEq, List.cons.injEq, and_true] at same
      exact ⟨⟨added', same.2.2.1, field⟩, removed', same.2.2.2, item⟩

/-! ## What is done to a set -/

/-- Everything that can be done to a set of changes. -/
inductive Operation
  | put (key value : String)
  | putAll (entries : Entries)
  | remove (key : String)
  | removeAll (keys : List String)
  | startAt (time : Timestamp)

def operate (c : ChangeSet) : Operation → ChangeSet
  | .put key value => c.put key value
  | .putAll entries => c.putAll entries
  | .remove key => c.remove key
  | .removeAll keys => c.removeAll keys
  | .startAt time => { c with startedAt := time }

def operated (c : ChangeSet) (ops : List Operation) : ChangeSet := ops.foldl operate c

/-- The operation writes or removes the key. -/
def Operation.Names (key : String) : Operation → Prop
  | put key' _ | remove key' => key' = key
  | putAll entries => key ∈ entries
  | removeAll keys => key ∈ keys
  | startAt _ => False

theorem onBothSides_stage (c : ChangeSet) (w : Write) (key : String) :
    (c.stage w).OnBothSides key ↔ c.OnBothSides key ∧ w.key ≠ key := by
  cases w <;> grind [ChangeSet.stage, put, remove, OnBothSides, Write.key]

theorem onBothSides_stageAll (c : ChangeSet) (ws : List Write) (key : String) :
    (c.stageAll ws).OnBothSides key ↔ c.OnBothSides key ∧ key ∉ ws.map Write.key := by
  induction ws generalizing c with
  | nil => simp [stageAll]
  | cons w ws ih =>
    rw [List.map_cons, List.mem_cons, not_or, ← and_assoc, ← ne_eq, ne_comm, ← onBothSides_stage]
    exact ih (c.stage w)

/-- An operation takes every key that it names off one side. -/
theorem onBothSides_operate (c : ChangeSet) (op : Operation) (key : String) :
    (c.operate op).OnBothSides key ↔ c.OnBothSides key ∧ ¬op.Names key := by
  cases op with
  | put key' value => exact c.onBothSides_stage (.put key' value) key
  | remove key' => exact c.onBothSides_stage (.remove key') key
  -- Tables and lists of keys are written one by one, so the keys that are named are those of the
  -- writes.
  | putAll entries =>
    have keys : (entries.toList.map fun entry => Write.put entry.1 entry.2).map Write.key =
        entries.keys := by
      rw [List.map_map, ← Std.ExtTreeMap.map_fst_toList_eq_keys]
      rfl
    rw [operate, putAll_eq, onBothSides_stageAll, keys, Std.ExtTreeMap.mem_keys]
    rfl
  | removeAll keys =>
    have same : (keys.map Write.remove).map Write.key = keys := by
      rw [List.map_map]
      exact List.map_id keys
    rw [operate, removeAll_eq, onBothSides_stageAll, same]
    rfl
  | startAt time => exact (and_iff_left id).symm

/-- Being named by one operation is enough, as no operation brings a key to both sides. -/
theorem onBothSides_operated (c : ChangeSet) (ops : List Operation) (key : String) :
    (c.operated ops).OnBothSides key ↔ c.OnBothSides key ∧ ∀ op ∈ ops, ¬op.Names key := by
  induction ops generalizing c with
  | nil => simp [operated]
  | cons op ops ih =>
    rw [List.forall_mem_cons, ← and_assoc, ← onBothSides_operate]
    exact ih (c.operate op)

/-- **A key is on one side only, unless a record lists it on both.** Take any operations on a set of
    changes. If the set was empty at first, no key is written and removed at once afterwards. If it
    was read from a record, none is if and only if the operations name every key that the record
    lists among the writes and among the removals. It does not matter from what text the record
    comes, nor which ids and points in time a reader accepts: that is left open. -/
theorem exclusive_operated_iff (ops : List Operation) :
    (∀ id now, ((start id now).operated ops).Exclusive) ∧
    ∀ readId readTime json c, ofRecord? readId readTime json = some c →
      ((c.operated ops).Exclusive ↔ ∀ key, ListedTwice json key → ∃ op ∈ ops, op.Names key) := by
  constructor
  case left =>
    intro id now
    have nowhere := exclusive_iff.mp (exclusive_start id now)
    exact exclusive_iff.mpr fun key both => nowhere key ((onBothSides_operated ..).mp both).1
  case right =>
    intro readId readTime json c read
    rw [exclusive_iff]
    refine forall_congr' fun key => ?_
    rw [onBothSides_operated, onBothSides_of_ofRecord? read, not_and]
    simp only [not_forall, not_not, exists_prop]

/-- Two keys are listed twice, and each is named by an operation. -/
theorem exclusive_operated_iff_named :
    let text := "\x7b\"transaction_id\":\"00000000-0000-0000-0000-000000000001\",\"started_at\":" ++
      "\"2020-01-01T00:00:00Z\",\"added\":\x7b\"a\":\"1\",\"b\":\"2\"\x7d,\"removed\":[\"b\",\"c\",\"a\"]\x7d"
    let ops : List Operation := [.putAll (.ofPairs [("b", "3")]), .startAt ⟨0, 0⟩, .remove "a"]
    ∃ json c, Json.ofString? text = some json ∧ ofJson? json = some c ∧
      ListedTwice json "a" ∧ ListedTwice json "b" ∧ (c.operated ops).Exclusive := by
  intro text ops
  let c : ChangeSet := ⟨.ofNat 1, ⟨1577836800, 0⟩, .ofPairs [("a", "1"), ("b", "2")],
    .ofKeys ["b", "c", "a"]⟩
  have decoded : (Json.ofString? text).bind ofJson? = some c := by decide +kernel
  obtain ⟨json, parsed, read⟩ := Option.bind_eq_some_iff.mp decoded
  have twice (key : String) : ListedTwice json key ↔ key ∈ c.added ∧ key ∈ c.removed :=
    (onBothSides_of_ofRecord? read).symm
  have named (key : String) (listed : ListedTwice json key) : ∃ op ∈ ops, op.Names key := by
    obtain ⟨value, mem⟩ := Entries.mem_ofPairs.mp ((twice key).mp listed).1
    simp only [List.mem_cons, Prod.mk.injEq, List.not_mem_nil, or_false] at mem
    rcases mem with ⟨rfl, -⟩ | ⟨rfl, -⟩
    · exact ⟨.remove "a", by simp [ops], rfl⟩
    · exact ⟨.putAll (.ofPairs [("b", "3")]), by simp [ops], Entries.mem_ofPairs.mpr ⟨"3", by simp⟩⟩
  exact ⟨json, c, parsed, read, (twice "a").mpr (by decide +kernel),
    (twice "b").mpr (by decide +kernel),
    ((exclusive_operated_iff ops).2 _ _ json c read).mpr named⟩

/-- A text that lists a key twice is read as it stands. -/
theorem listed_twice_stays_on_both_sides :
    let text := "\x7b\"transaction_id\":\"00000000-0000-0000-0000-000000000001\",\"started_at\":" ++
      "\"2020-01-01T00:00:00Z\",\"added\":\x7b\"a\":\"1\"\x7d,\"removed\":[\"a\"]\x7d"
    ∃ c, (Json.ofString? text).bind ofJson? = some c ∧ "a" ∈ c.added ∧ "a" ∈ c.removed ∧
      ¬c.Exclusive := by
  intro text
  refine ⟨⟨.ofNat 1, ⟨1577836800, 0⟩, .ofPairs [("a", "1")], .ofKeys ["a"]⟩, by decide +kernel,
    Entries.mem_ofPairs.mpr ⟨"1", by simp⟩, Keys.mem_ofKeys.mpr (by simp), fun exclusive => ?_⟩
  exact exclusive "a" (Keys.mem_ofKeys.mpr (by simp)) (Entries.mem_ofPairs.mpr ⟨"1", by simp⟩)

end ChangeSet

end LayeredConfig
