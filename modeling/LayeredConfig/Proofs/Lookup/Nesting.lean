import LayeredConfig.Proofs.Lookup.Joining
import LayeredConfig.Sample.Rules

/-!
# Notes on notes

The answer for a meta key is a value itself and has a source, so there are notes on notes:
`_k.source` names the source of the value of `k`, `__k.source.source` the source of that name, and
so on. **However deep the notes are nested, the look-up ends, and it comes back to the value of the
key at the bottom** (`Context.notes_on_notes`). The note asked for first is one on that value; each
further one is its source.

That the look-up ends is said of the rules it follows and not of a function: `Context.Answers` has a
rule for a key that is collected, one for a key that is no meta key, and one that goes on to the
described key. For every key there is one derivation, with no more levels than a third of the key's
length.

The rules are stated with everything that a look-up logs, so that a derivation ends in the very
answer of the function. What is said of nested notes is about values alone. It goes by the depth, up
from the value at the bottom: a note has that value for its origin and its own meta key for its key,
so the next depth finds it labelled as the first one finds the value.
-/

set_option autoImplicit false

namespace LayeredConfig

/-! ## Policies that make nothing up -/

namespace CombinationPolicy

variable {policy : CombinationPolicy} {key : String} {v : PropertyValue}

/-- A policy that combines what is offered to it: a value it answers is made of the one collected
    before or of the one that the source finds, and has its key. -/
def Grounded (policy : CombinationPolicy) : Prop :=
  ∀ previous key source v, policy previous key source = .ok (some v) →
    ∃ w, (previous = some w ∨ source.get key = .ok (some w)) ∧ v.key = w.key

theorem overriding_grounded : overriding.Grounded := by
  intro previous key source v answer
  cases previous with
  | some w =>
    obtain rfl := Option.some.inj (Except.ok.inj answer)
    exact ⟨w, .inl rfl, rfl⟩
  | none => exact ⟨v, .inr answer, rfl⟩

theorem appending_grounded (separator : String) : (appending separator).Grounded := by
  intro previous key source v answer
  rw [appending] at answer
  split at answer
  case h_1 => contradiction
  case h_2 => exact ⟨v, .inl (Except.ok.inj answer), rfl⟩
  case h_3 found offered =>
    cases previous with
    | none =>
      obtain rfl := Option.some.inj (Except.ok.inj answer)
      exact ⟨found, .inr offered, rfl⟩
    | some w =>
      obtain rfl := Option.some.inj (Except.ok.inj answer)
      exact ⟨w, .inl rfl, rfl⟩

/-- What is collected has the key of what was there before or of what some source finds. -/
theorem Grounded.collect (grounded : policy.Grounded) {readers : List Reader}
    {current : Option PropertyValue}
    (collected : (policy.collect key readers current).value = some v) :
    ∃ w, (current = some w ∨ ∃ r ∈ readers, r.get key = .ok (some w)) ∧ v.key = w.key := by
  induction readers generalizing current with
  | nil => exact ⟨v, .inl collected, rfl⟩
  | cons r readers ih =>
    rw [CombinationPolicy.collect] at collected
    split at collected
    case h_1 next answer =>
      -- What the first source left is passed on, so it is where the rest may have taken its value
      -- from.
      obtain ⟨w, here | ⟨s, mem, found⟩, label⟩ := ih collected
      · subst here
        obtain ⟨u, before | found, label'⟩ := grounded current key r w answer
        · exact ⟨u, .inl before, label.trans label'⟩
        · exact ⟨u, .inr ⟨r, List.mem_cons_self, found⟩, label.trans label'⟩
      · exact ⟨w, .inr ⟨s, List.mem_cons_of_mem r mem, found⟩, label⟩
    case h_2 e failed =>
      obtain ⟨w, before | ⟨s, mem, found⟩, label⟩ := ih collected
      · exact ⟨w, .inl before, label⟩
      · exact ⟨w, .inr ⟨s, List.mem_cons_of_mem r mem, found⟩, label⟩

end CombinationPolicy

/-- What the source finds has the key that was asked for. -/
def Reader.Keyed (r : Reader) : Prop := ∀ key v, r.get key = .ok (some v) → v.key = key

theorem AnySource.keyed (s : AnySource) : (Source.reader s).Keyed :=
  fun key v found => (s.labels key v found).1

/-! ## Meta keys of meta keys -/

/-- The meta keys that start with the given one and go on with the source of the one before. -/
def MetaKey.further (first : MetaKey) : Nat → String
  | 0 => first.toKey
  | n + 1 => toKey ⟨first.further n, "source"⟩

theorem MetaKey.toKey_ne_empty (m : MetaKey) : m.toKey ≠ "" := by
  intro empty
  have chars := congrArg String.toList empty
  simp [toKey] at chars

theorem MetaKey.further_ne_empty (first : MetaKey) (n : Nat) : first.further n ≠ "" := by
  cases n with
  | zero => exact first.toKey_ne_empty
  | succ n => exact toKey_ne_empty _

theorem MetaKey.ofKey?_source {key : String} (nonempty : key ≠ "") :
    ofKey? (toKey ⟨key, "source"⟩) = some ⟨key, "source"⟩ :=
  have named : "source" ≠ "" := by decide
  have pointless : '.' ∉ "source".toList := by decide
  ofKey?_toKey nonempty named pointless

/-- A meta key is longer than the key it describes by the two marks and the name. -/
theorem MetaKey.length_of_ofKey? {key : String} {m : MetaKey} (h : ofKey? key = some m) :
    m.described.length + 3 ≤ key.length := by
  obtain ⟨rfl, -, named⟩ := toKey_of_ofKey? h
  have name : m.name.length ≠ 0 := fun none => named (String.length_eq_zero_iff.mp none)
  simp only [toKey, String.length_append]
  have marks : "_".length = 1 ∧ ".".length = 1 := by decide
  omega

namespace Context

variable {σ : Type} [Source σ] {c : Context σ} {key : String} {m : MetaKey} {v : PropertyValue}

/-! ## The rules of a look-up -/

/-- The sources, combined by the policy, have nothing for the key. -/
def Lacks (c : Context σ) (key : String) : Prop := (c.collect key).value = none

/-- The answer for a meta key, given the answer for the key it describes. -/
def noted (c : Context σ) (key : String) (described : Logged (Option PropertyValue)) :
    Logged (Option PropertyValue) :=
  match described.value.bind (noteOf key) with
  | none => ⟨none, described.warnings⟩
  | some note => (c.filterSingle key note).after described.warnings

/-- A look-up by its rules: the answer for a key, with the number of described keys that are looked
    up on the way to it. -/
inductive Answers (c : Context σ) : String → Nat → Logged (Option PropertyValue) → Prop
  | found {key : String} {v : PropertyValue} (collected : (c.collect key).value = some v) :
      Answers c key 0 ((c.filterSingle key v).after (c.collect key).warnings)
  | unknown {key : String} (lacks : c.Lacks key) (unread : MetaKey.ofKey? key = none) :
      Answers c key 0 ⟨none, (c.collect key).warnings⟩
  | described {key : String} {m : MetaKey} {depth : Nat} {answer : Logged (Option PropertyValue)}
      (lacks : c.Lacks key) (read : MetaKey.ofKey? key = some m)
      (inner : Answers c m.described depth answer) :
      Answers c key (depth + 1) (c.noted key (answer.after (c.collect key).warnings))

/-- A key that is neither collected nor read as a meta key is not answered. -/
theorem getValue_eq_of_unread (lacks : c.Lacks key) (unread : MetaKey.ofKey? key = none) :
    c.getValue key = ⟨none, (c.collect key).warnings⟩ := by
  rw [getValue]
  split
  case h_1 v collected => exact absurd (collected.symm.trans lacks) (Option.some_ne_none v)
  case h_2 =>
    split
    case h_1 => rfl
    case h_2 m read => exact absurd (read.symm.trans unread) (Option.some_ne_none m)

/-- A meta key that is not collected is answered from the key that it describes. -/
theorem getValue_eq_noted (lacks : c.Lacks key) (read : MetaKey.ofKey? key = some m) :
    c.getValue key = c.noted key ((c.getValue m.described).after (c.collect key).warnings) := by
  rw [getValue]
  split
  case h_1 v collected => exact absurd (collected.symm.trans lacks) (Option.some_ne_none v)
  case h_2 =>
    split
    case h_1 unread => exact absurd (read.symm.trans unread) (Option.some_ne_none m)
    case h_2 m' read' =>
      obtain rfl := Option.some.inj (read'.symm.trans read)
      rfl

/-- The rules lead to one answer, and it is the one of the look-up. -/
theorem Answers.eq_getValue {depth : Nat} {answer : Logged (Option PropertyValue)}
    (derived : c.Answers key depth answer) : answer = c.getValue key := by
  induction derived with
  | found collected =>
    rw [getValue]
    simp only [collected]
  | unknown lacks unread => exact (getValue_eq_of_unread lacks unread).symm
  | described lacks read inner ih => rw [getValue_eq_noted lacks read, ih]

/-- Of the three rules only one applies to a key. -/
theorem Answers.depth_unique {depth depth' : Nat} {answer answer' : Logged (Option PropertyValue)}
    (derived : c.Answers key depth answer) (derived' : c.Answers key depth' answer') :
    depth = depth' := by
  induction derived generalizing depth' answer' with
  | found collected =>
    cases derived' with
    | found => rfl
    | unknown lacks => exact nomatch collected.symm.trans lacks
    | described lacks => exact nomatch collected.symm.trans lacks
  | unknown lacks unread =>
    cases derived' with
    | found collected => exact nomatch collected.symm.trans lacks
    | unknown => rfl
    | described _ read => exact nomatch read.symm.trans unread
  | described lacks read inner ih =>
    cases derived' with
    | found collected => exact nomatch collected.symm.trans lacks
    | unknown _ unread => exact nomatch read.symm.trans unread
    | described _ read' inner' =>
      obtain rfl := Option.some.inj (read'.symm.trans read)
      rw [ih inner']

/-- Every described key is shorter by three characters at least, so the rules come to an end. -/
theorem answers_getValue (c : Context σ) (key : String) :
    ∃ depth, 3 * depth ≤ key.length ∧ c.Answers key depth (c.getValue key) := by
  induction size : key.length using Nat.strongRecOn generalizing key with
  | ind n ih =>
    cases collected : (c.collect key).value with
    | some v =>
      have derived := Answers.found collected
      exact ⟨0, Nat.zero_le _, derived.eq_getValue ▸ derived⟩
    | none =>
      cases read : MetaKey.ofKey? key with
      | none =>
        exact ⟨0, Nat.zero_le _, getValue_eq_of_unread collected read ▸ .unknown collected read⟩
      | some m =>
        have shorter := MetaKey.length_of_ofKey? read
        -- The described key is shorter, so its rules come to an end already.
        obtain ⟨depth, bound, inner⟩ := ih _ (by omega) m.described rfl
        have derived := Answers.described collected read inner
        exact ⟨depth + 1, by omega, derived.eq_getValue ▸ derived⟩

/-! ## What comes to the filters -/

/-- The value that comes to the filters: what is collected, or the note that a meta key asks for. -/
def incoming (c : Context σ) (key : String) : Option PropertyValue :=
  (c.collect key).value.or ((MetaKey.ofKey? key).bind fun m =>
    (c.getValue m.described).value.bind (noteOf key))

theorem getValue_value (c : Context σ) (key : String) :
    (c.getValue key).value = (c.incoming key).bind fun v => (c.filterSingle key v).value := by
  rw [getValue_eq, direct, incoming]
  cases (c.collect key).value with
  | some v => rfl
  | none =>
    cases MetaKey.ofKey? key with
    | none => rfl
    | some m =>
      simp only [Logged.andThen_value, Option.none_or, Option.bind_some]
      cases (c.getValue m.described).value.bind (noteOf key) with
      | none => rfl
      | some note => rfl

theorem incoming_of_lacks (lacks : c.Lacks key) (read : MetaKey.ofKey? key = some m) :
    c.incoming key = (c.getValue m.described).value.bind (noteOf key) := by
  rw [incoming, show (c.collect key).value = none from lacks, read, Option.none_or, Option.bind_some]

/-- Without filters what comes is answered. -/
theorem getValue_unfiltered (unfiltered : c.filters = []) (key : String) :
    (c.getValue key).value = c.incoming key := by
  rw [getValue_value]
  simp only [filterSingle, unfiltered, Filter.chain, Logged.quiet_value]
  exact Option.bind_fun_some _

theorem lacks_of_not_finds (grounded : c.policy.Grounded)
    (unanswered : ∀ r ∈ c.readers, ¬r.Finds key) : c.Lacks key := by
  refine Option.eq_none_iff_forall_ne_some.mpr fun v collected => ?_
  obtain ⟨w, none | ⟨r, mem, found⟩, -⟩ := grounded.collect collected
  · exact nomatch none
  · exact unanswered r mem ⟨w, found⟩

/-- An answer has the key that was asked for, if the sources put it on what they find. -/
theorem key_of_incoming (grounded : c.policy.Grounded) (keyed : ∀ r ∈ c.readers, r.Keyed)
    (comes : c.incoming key = some v) : v.key = key := by
  cases collected : (c.collect key).value with
  | some w =>
    rw [incoming, collected, Option.some_or] at comes
    obtain rfl := Option.some.inj comes
    obtain ⟨u, none | ⟨r, mem, found⟩, label⟩ := grounded.collect collected
    · exact nomatch none
    · exact label.trans (keyed r mem key u found)
  | none =>
    rw [incoming, collected, Option.none_or, Option.bind_eq_some_iff] at comes
    obtain ⟨m, -, comes⟩ := comes
    obtain ⟨winner, -, comes⟩ := Option.bind_eq_some_iff.mp comes
    obtain ⟨text, -, rfl⟩ := Option.map_eq_some_iff.mp comes
    rfl

/-! ## From one depth to the next -/

/-- What is not answered has no notes. -/
theorem getValue_meta_of_none (lacks : c.Lacks key) (read : MetaKey.ofKey? key = some m)
    (nothing : (c.getValue m.described).value = none) : (c.getValue key).value = none := by
  rw [getValue_value, incoming_of_lacks lacks read, nothing]
  rfl

/-- Nor have the notes that it does not have. -/
theorem getValue_further_of_none (read : MetaKey.ofKey? m.toKey = some m) {n : Nat}
    (lacks : ∀ i ≤ n, c.Lacks (m.further i))
    (nothing : (c.getValue m.described).value = none) :
    (c.getValue (m.further n)).value = none := by
  induction n with
  | zero => exact getValue_meta_of_none (lacks 0 Nat.le.refl) read nothing
  | succ n ih =>
    have below := ih fun i le => lacks i (Nat.le_succ_of_le le)
    exact getValue_meta_of_none (lacks (n + 1) Nat.le.refl)
      (MetaKey.ofKey?_source (m.further_ne_empty n)) below

/-- The note that is asked for first is one on the value, and all that follow are its source. -/
theorem getValue_further (unfiltered : c.filters = [])
    (answer : (c.getValue m.described).value = some v) (label : v.key = m.described)
    (described : m.described ≠ "") (named : m.name ≠ "") (pointless : '.' ∉ m.name.toList)
    {n : Nat} (lacks : ∀ i ≤ n, c.Lacks (m.further i)) :
    (c.getValue (m.further n)).value =
      (v.metadata[m.name]?.or (if m.name = "source" then some v.source else none)).map
        fun text => .plain (m.further n) (if n = 0 then text else v.source) v.source := by
  induction n with
  | zero =>
    exact getValue_note unfiltered answer label described named pointless (lacks 0 Nat.le.refl)
  | succ n ih =>
    have below := ih fun i le => lacks i (Nat.le_succ_of_le le)
    have nonempty := m.further_ne_empty n
    -- Without the first note there is none to describe; with it each note has the source of the
    -- value.
    cases noted : v.metadata[m.name]?.or (if m.name = "source" then some v.source else none) with
    | none =>
      rw [noted] at below
      exact getValue_meta_of_none (lacks (n + 1) Nat.le.refl) (MetaKey.ofKey?_source nonempty) below
    | some text =>
      rw [noted] at below
      exact getValue_note unfiltered below rfl nonempty (by decide) (by decide)
        (lacks (n + 1) Nat.le.refl)

/-- **Notes on notes.** Look-ups end for every key: its rules have exactly one derivation, of a
    depth that is a third of the key's length at most, and what is derived is the answer of the
    look-up.

    Under a policy that makes nothing up, and all policies here are such, nothing is collected for a
    key that no source finds; and if the sources put the key on what they find, every answer without
    filters has the key that was asked for.

    Now take a key that is not empty, a name that is not empty and has no point, and the meta keys
    that start with that note on that key, each one asking for the source of the one before. If
    nothing is collected for the first `n + 1` of them, then the last of these

    * is not answered if the key has no value;
    * is not answered if the key has a value and a filter vetoes it;
    * is answered from the value of the key, if there are no filters and the value has that key on
      it. Where the name is `source`, and no note has it, the answer is the source of the value.
      Where a note has the name, the answer for the first meta key is that note, and for the others
      the source of the value. -/
theorem notes_on_notes (c : Context σ) :
    (∀ key, ∃ depth, 3 * depth ≤ key.length ∧
      ∀ d answer, c.Answers key d answer ↔ d = depth ∧ answer = c.getValue key) ∧
    (c.policy.Grounded →
      (∀ key, (∀ r ∈ c.readers, ¬r.Finds key) → c.Lacks key) ∧
      (c.filters = [] → (∀ r ∈ c.readers, r.Keyed) →
        ∀ key v, (c.getValue key).value = some v → v.key = key)) ∧
    ∀ k name, k ≠ "" → name ≠ "" → '.' ∉ name.toList → ∀ n,
      (∀ i ≤ n, c.Lacks (MetaKey.further ⟨k, name⟩ i)) →
      let asked := (c.get (MetaKey.further ⟨k, name⟩ n)).value
      (c.incoming k = none → asked = none) ∧
      (∀ v, c.incoming k = some v → (c.filterSingle k v).value = none → asked = none) ∧
      (c.filters = [] → ∀ v, (c.getValue k).value = some v → v.key = k →
        (name = "source" → v.metadata["source"]? = none → asked = some v.source) ∧
        ∀ text, v.metadata[name]? = some text → asked = some (if n = 0 then text else v.source)) := by
  refine ⟨fun key => ?_, fun grounded => ⟨fun key => lacks_of_not_finds grounded, ?_⟩, ?_⟩
  · obtain ⟨depth, bound, derived⟩ := c.answers_getValue key
    refine ⟨depth, bound, fun d answer => ⟨fun other => ?_, ?_⟩⟩
    · exact ⟨other.depth_unique derived, other.eq_getValue⟩
    · rintro ⟨rfl, rfl⟩
      exact derived
  · intro unfiltered keyed key v answer
    exact key_of_incoming grounded keyed (getValue_unfiltered unfiltered key ▸ answer)
  intro k name described named pointless n lacks asked
  -- Both ways of having no value come to the same: what is described is not answered.
  have unanswered (nothing : (c.getValue k).value = none) : asked = none := by
    have read := MetaKey.ofKey?_toKey (m := ⟨k, name⟩) described named pointless
    have none := getValue_further_of_none (m := ⟨k, name⟩) read lacks nothing
    exact congrArg (Option.map PropertyValue.value) none
  refine ⟨fun absent => ?_, fun v comes vetoed => ?_, fun unfiltered v answer label => ?_⟩
  · exact unanswered (by rw [getValue_value, absent]; rfl)
  · exact unanswered (by rw [getValue_value, comes]; exact vetoed)
  have answered := getValue_further (m := ⟨k, name⟩) unfiltered answer label described named
    pointless lacks
  refine ⟨fun source unnoted => ?_, fun text noted => ?_⟩
  · subst source
    rw [unnoted, Option.none_or, if_pos rfl] at answered
    refine (congrArg (Option.map PropertyValue.value) answered).trans ?_
    exact congrArg some (ite_self _)
  · rw [noted, Option.some_or] at answered
    exact congrArg (Option.map PropertyValue.value) answered

/-- The key has a point, the source above fails, and the source that answers leaves a note. A filter
    vetoes the values of another key. -/
theorem notes_on_notes_of_stub :
    let entries := Entries.ofPairs [("db.url", "jdbc"), ("db.pass", "x")]
    let stub : Scripted := ⟨"stub source", 5, entries, false, [], false⟩
    let sources : List AnySource := [.scripted ⟨"down", 9, ∅, true, [], true⟩, .scripted stub]
    let plain : Context AnySource := ⟨sources, [], .overriding, .empty ⟨[], []⟩⟩
    let veto : FilterRule := ⟨"secret", "db.pass", none, .veto⟩
    let filtered : Context AnySource := { plain with filters := [veto.filter] }
    (plain.get "_db.url.stub").value = some "db.url" ∧
    (plain.get "___db.url.stub.source.source").value = some "stub source" ∧
    (plain.get "__db.url.source.source").value = some "stub source" ∧
    (plain.get "__nope.source.source").value = none ∧
    (filtered.get "__db.pass.source.source").value = none := by
  intro entries stub sources plain veto filtered
  have found : (plain.getValue "db.url").value =
      some ⟨"db.url", "jdbc", "stub source", .ofPairs [("stub", "db.url")]⟩ := by
    rw [getValue_unfiltered rfl]
    decide +kernel
  have comes : filtered.incoming "db.pass" =
      some ⟨"db.pass", "x", "stub source", .ofPairs [("stub", "db.pass")]⟩ := by decide +kernel
  have lacks (first : MetaKey) (n : Nat) (nothing : ∀ i ≤ n, ∀ s ∈ sources,
      (Source.reader s).value? (first.further i) = none) :
      ∀ i ≤ n, plain.Lacks (first.further i) := by
    intro i le
    refine ((notes_on_notes plain).2.1 CombinationPolicy.overriding_grounded).1 _ ?_
    exact List.forall_mem_map.mpr fun s mem => Reader.value?_eq_none_iff.mp (nothing i le s mem)
  obtain ⟨-, grounded, notes⟩ := notes_on_notes plain
  have label := (grounded CombinationPolicy.overriding_grounded).2 rfl
    (List.forall_mem_map.mpr fun s _ => s.keyed) "db.url" _ found
  have stubNotes (n : Nat) (nothing : ∀ i ≤ n, ∀ s ∈ sources,
      (Source.reader s).value? (MetaKey.further ⟨"db.url", "stub"⟩ i) = none) :
      (plain.get (MetaKey.further ⟨"db.url", "stub"⟩ n)).value =
        some (if n = 0 then "db.url" else "stub source") :=
    ((notes "db.url" "stub" (by decide) (by decide) (by decide) n (lacks _ n nothing)).2.2
      rfl _ found label).2 "db.url" (by decide +kernel)
  have keys : MetaKey.further ⟨"db.url", "stub"⟩ 0 = "_db.url.stub" ∧
      MetaKey.further ⟨"db.url", "stub"⟩ 2 = "___db.url.stub.source.source" ∧
      MetaKey.further ⟨"db.url", "source"⟩ 1 = "__db.url.source.source" ∧
      MetaKey.further ⟨"nope", "source"⟩ 1 = "__nope.source.source" ∧
      MetaKey.further ⟨"db.pass", "source"⟩ 1 = "__db.pass.source.source" := by decide
  obtain ⟨first, third, second, nope, pass⟩ := keys
  refine ⟨first ▸ stubNotes 0 (by decide +kernel), third ▸ stubNotes 2 (by decide +kernel),
    ?_, ?_, ?_⟩
  · rw [← second]
    have lacking := lacks ⟨"db.url", "source"⟩ 1 (by decide +kernel)
    exact ((notes "db.url" "source" (by decide) (by decide) (by decide) 1 lacking).2.2
      rfl _ found label).1 rfl (by decide +kernel)
  · rw [← nope]
    have lacking := lacks ⟨"nope", "source"⟩ 1 (by decide +kernel)
    exact (notes "nope" "source" (by decide) (by decide) (by decide) 1 lacking).1 (by decide +kernel)
  · rw [← pass]
    have lacking := lacks ⟨"db.pass", "source"⟩ 1 (by decide +kernel)
    exact ((notes_on_notes filtered).2.2 "db.pass" "source" (by decide) (by decide) (by decide) 1
      lacking).2.1 _ comes (by decide +kernel)

end Context

end LayeredConfig
