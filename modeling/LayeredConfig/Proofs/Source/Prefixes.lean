import LayeredConfig.Proofs.Entries
import LayeredConfig.Source.Table
import Mathlib.Data.List.Nodup

/-!
# Tables under a prefix

A table under a prefix knows the entries whose key goes on after the prefix, under the rest of their
key. The rest determines the key again, so no two entries meet under one key, and none is lost that
goes on at all (`Table.restored_perm`).

**A table under several prefixes, one after another, is the table under all of them put together**
(`Table.foldl_withPrefix`). An empty prefix takes nothing away from a key, but an entry whose key is
empty does not go on after it.

The keys of the result are told by `Table.rest?`, a partial function on keys that is injective where
it is defined (`Table.rest?_eq_some_iff`); all else is about a table whose keys have been renamed by
such a function, which the module on entries has. The prefixes themselves are texts like any other:
nothing is assumed of them, so they may be empty, contain the separator or occur in the keys again.
-/

set_option autoImplicit false

namespace LayeredConfig

namespace Text

variable {start s rest : String}

theorem afterPrefix?_eq_some_iff : afterPrefix? start s = some rest ↔ s = start ++ rest := by
  rw [afterPrefix?, Option.map_eq_some_iff]
  constructor
  · rintro ⟨cs, after, rfl⟩
    rw [List.isPrefixOf?_eq_some_iff_append_eq] at after
    apply String.toList_inj.mp
    simp [after]
  · rintro rfl
    refine ⟨rest.toList, ?_, String.ofList_toList⟩
    rw [List.isPrefixOf?_eq_some_iff_append_eq, String.toList_append]

theorem startsWith_iff : startsWith start s = true ↔ ∃ rest, s = start ++ rest := by
  rw [startsWith, List.isPrefixOf_iff_prefix]
  constructor
  · rintro ⟨cs, same⟩
    refine ⟨String.ofList cs, String.toList_inj.mp ?_⟩
    simp [same]
  · rintro ⟨rest, rfl⟩
    simp

end Text

namespace Table

variable {start key name : String}

/-! ## One prefix -/

/-- The key under which an entry is kept, if its own goes on after the prefix. -/
def rest? (start name : String) : Option String :=
  (Text.afterPrefix? start name).filter (· != "")

theorem rest?_eq_some_iff : rest? start name = some key ↔ key ≠ "" ∧ name = start ++ key := by
  rw [rest?, Option.filter_eq_some_iff, Text.afterPrefix?_eq_some_iff]
  simp [and_comm]

theorem entries_withPrefix (t : Table) (start : String) :
    (t.withPrefix start).entries = Entries.rekeyed (rest? start) (fun _ value => value) t.entries ∅ := by
  show t.entries.foldl _ ∅ = t.entries.foldl _ ∅
  congr 1
  funext kept name value
  cases after : Text.afterPrefix? start name with
  | none => simp [rest?, after]
  | some rest => by_cases empty : rest = "" <;> simp [rest?, after, empty, Option.filter_some]

/-- A table under a prefix answers a key as the table itself answers the prefix and the key. The
    empty key it does not answer. -/
theorem getElem?_withPrefix (t : Table) (start key : String) :
    (t.withPrefix start).entries[key]? = if key = "" then none else t.entries[start ++ key]? := by
  rw [entries_withPrefix]
  by_cases empty : key = ""
  · rw [if_pos empty, Entries.getElem?_rekeyed_of_unchosen, Std.ExtTreeMap.getElem?_empty]
    intro name _ _ kept
    exact (rest?_eq_some_iff.mp kept).1 empty
  -- The prefix and the rest give the name back, so two names never meet under one key.
  · have apart {a b rest : String} (h : rest? start a = some rest) (h' : rest? start b = some rest) :
        a = b := by
      rw [(rest?_eq_some_iff.mp h).2, (rest?_eq_some_iff.mp h').2]
    rw [if_neg empty, Entries.getElem?_rekeyed apart (rest?_eq_some_iff.mpr ⟨empty, rfl⟩)]
    simp

theorem getElem?_withPrefix_eq_some_iff {t : Table} {value : String} :
    (t.withPrefix start).entries[key]? = some value ↔
      key ≠ "" ∧ t.entries[start ++ key]? = some value := by
  rw [getElem?_withPrefix]
  by_cases empty : key = "" <;> simp [empty]

/-- With the prefix put back, what a table keeps under it is the entries that go on after it, each
    of them once. -/
theorem restored_perm (t : Table) (start : String) :
    ((t.withPrefix start).entries.toList.map fun entry => (start ++ entry.1, entry.2)).Perm
      (t.entries.toList.filter fun entry => Text.startsWith start entry.1 && entry.1 != start) := by
  have injective : Function.Injective fun entry : String × String => (start ++ entry.1, entry.2) := by
    rintro ⟨key, value⟩ ⟨key', value'⟩ same
    simpa using same
  -- No entry is listed twice on either side, so it is enough that both list the same ones.
  rw [List.perm_ext_iff_of_nodup ((Entries.nodup_toList _).map injective)
    ((Entries.nodup_toList _).filter _)]
  rintro ⟨name, value⟩
  simp only [List.mem_map, List.mem_filter, Prod.exists, Prod.mk.injEq, Bool.and_eq_true, bne_iff_ne,
    Std.ExtTreeMap.mem_toList_iff_getElem?_eq_some, getElem?_withPrefix_eq_some_iff, Text.startsWith_iff]
  constructor
  · rintro ⟨key, _, ⟨nonempty, found⟩, rfl, rfl⟩
    exact ⟨found, ⟨key, rfl⟩, by simpa using nonempty⟩
  · rintro ⟨found, ⟨key, rfl⟩, further⟩
    exact ⟨key, value, ⟨by simpa using further, found⟩, rfl, rfl⟩

theorem get_withPrefix (t : Table) (start key : String) :
    (t.withPrefix start).reader.get key =
      if key = "" then .ok none
      else (t.reader.get (start ++ key)).map (Option.map fun v => { v with key := key }) := by
  show Except.ok ((t.withPrefix start).value? key) = _
  rw [value?, getElem?_withPrefix]
  by_cases empty : key = ""
  · simp [empty]
  · rw [if_neg empty, if_neg empty]
    show _ = Except.ok ((t.value? (start ++ key)).map _)
    rw [value?, Option.map_map]
    rfl

/-! ## Prefixes one after another -/

theorem withPrefix_withPrefix (t : Table) (start start' : String) :
    (t.withPrefix start).withPrefix start' = t.withPrefix (start ++ start') := by
  have entries : ((t.withPrefix start).withPrefix start').entries =
      (t.withPrefix (start ++ start')).entries := by
    apply Std.ExtTreeMap.ext_getElem?
    intro key
    simp only [getElem?_withPrefix]
    by_cases empty : key = ""
    · simp [empty]
    · -- What is left after the first prefix is not empty: it starts with the second one, and goes on.
      simp [empty, String.append_assoc]
  rw [Table.mk.injEq]
  exact ⟨rfl, rfl, entries⟩

theorem foldl_withPrefix (t : Table) {prefixes : List String} (given : prefixes ≠ []) :
    prefixes.foldl withPrefix t = t.withPrefix (String.join prefixes) := by
  induction prefixes generalizing t with
  | nil => exact absurd rfl given
  | cons start more ih =>
    rw [List.foldl_cons, String.join_cons]
    -- With the first two prefixes put together there is one prefix less.
    cases more with
    | nil => simp
    | cons start' more => rw [ih _ (by simp), withPrefix_withPrefix]

/-- **Prefixes one after another take away what they make up together, and nothing else.** Whatever
    a table holds, the environment of a process or another, under a sequence of prefixes, empty and
    overlapping ones included:

    * it answers a key as it answered the prefixes and the key, apart from the key that the answer
      is labelled with, and the empty key not at all;
    * it lists exactly the entries that it answers, and with the prefixes put back these are the
      entries whose keys go on after them, each of them once;
    * it is the same table as under the prefixes put together. -/
theorem answers_under_prefixes (t : Table) (prefixes : List String) (given : prefixes ≠ []) :
    let kept := prefixes.foldl withPrefix t
    let start := String.join prefixes
    (∀ key, kept.reader.get key =
      if key = "" then .ok none
      else (t.reader.get (start ++ key)).map (Option.map fun v => { v with key := key })) ∧
    (∃ all listed, t.reader.properties = .ok all ∧ kept.reader.properties = .ok listed ∧
      (∀ key value, listed[key]? = some value ↔ key ≠ "" ∧ all[start ++ key]? = some value) ∧
      (listed.toList.map fun entry => (start ++ entry.1, entry.2)).Perm
        (all.toList.filter fun entry => Text.startsWith start entry.1 && entry.1 != start)) ∧
    kept = t.withPrefix start := by
  intro kept start
  have whole : kept = t.withPrefix start := foldl_withPrefix t given
  rw [whole]
  refine ⟨get_withPrefix t start, ⟨t.entries, _, rfl, rfl, ?_, restored_perm t start⟩, rfl⟩
  intro key value
  exact getElem?_withPrefix_eq_some_iff

/-- An empty prefix between two others, over variables of which one has no name but the prefix and
    one has it twice. -/
theorem answers_under_prefixes_of_environment :
    let env := environment
      [("APP_port", "1"), ("APP_", "2"), ("APP_APP_port", "3"), ("HOME", "4"), ("APP_port", "8080")]
    let kept := ["APP", "", "_"].foldl withPrefix env
    ["APP", "", "_"] ≠ [] ∧
      kept.reader.get "port" = .ok (some (.plain "port" "8080" environmentName)) ∧
      kept.reader.get "APP_port" = .ok (some (.plain "APP_port" "3" environmentName)) ∧
      kept.reader.get "" = .ok none ∧ kept = env.withPrefix "APP_" := by
  intro env kept
  have given : ["APP", "", "_"] ≠ [] := by decide
  obtain ⟨get, -, whole⟩ := answers_under_prefixes env ["APP", "", "_"] given
  refine ⟨given, ?_, ?_, get "", whole⟩
  · rw [get]
    decide +kernel
  · rw [get]
    decide +kernel

end Table

end LayeredConfig
