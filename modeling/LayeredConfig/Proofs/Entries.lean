import LayeredConfig.Entries

/-!
# Look-ups in tables made from tables

A table entered over another one, each of its entries changed by the way, answers a key from its own
entry if it has one and from the table below otherwise. The entries may get other keys, and some of
them may be left out, as long as no two of them get the same one (`getElem?_rekeyed`). Keys erased
one after another are gone, and no other.

A fold over a table goes by its list of entries, and a table built from a list answers a key from
the last pair that has it. Where no two pairs have the same key the order does not matter, and this
is what the hypotheses on the choice of keys are for.
-/

set_option autoImplicit false

namespace LayeredConfig.Entries

/-- No entry is listed twice: two entries of a table have different keys. -/
theorem nodup_toList (entries : Entries) : entries.toList.Nodup := by
  refine Std.ExtTreeMap.distinct_keys_toList.imp ?_
  intro entry entry' differ same
  apply differ
  rw [same]
  exact Std.ReflCmp.compare_self

/-! ## Entries under other keys -/

/-- The table `low` with entries of `high` entered over it, each changed by the way and under the
    key that is chosen for it. An entry for which none is chosen is left out. -/
def rekeyed {α β : Type} (choose : String → Option String) (enter : String → α → β)
    (high : Std.ExtTreeMap String α) (low : Std.ExtTreeMap String β) : Std.ExtTreeMap String β :=
  high.foldl (fun table name a =>
    match choose name with
    | some key => table.insert key (enter name a)
    | none => table) low

section Rekeyed

variable {α β : Type} {choose : String → Option String} {enter : String → α → β}
  {high : Std.ExtTreeMap String α} {low : Std.ExtTreeMap String β} {name key : String}

theorem rekeyed_eq : rekeyed choose enter high low =
    low.insertMany (high.toList.filterMap fun entry =>
      (choose entry.1).map fun key => (key, enter entry.1 entry.2)) := by
  rw [Std.ExtTreeMap.insertMany_list_eq_foldl, List.foldl_filterMap, rekeyed,
    Std.ExtTreeMap.foldl_eq_foldl_toList]
  congr 1
  funext table entry
  cases choose entry.1 <;> rfl

/-- A key that is chosen for no entry is answered from the table below. -/
theorem getElem?_rekeyed_of_unchosen
    (unchosen : ∀ name a, high[name]? = some a → choose name ≠ some key) :
    (rekeyed choose enter high low)[key]? = low[key]? := by
  rw [rekeyed_eq]
  refine Std.ExtTreeMap.getElem?_insertMany_list_of_contains_eq_false ?_
  rw [Bool.eq_false_iff]
  intro listed
  rw [List.contains_iff_mem] at listed
  obtain ⟨⟨key', b⟩, mem, same⟩ := List.mem_map.mp listed
  obtain ⟨⟨name, a⟩, entry, entered⟩ := List.mem_filterMap.mp mem
  obtain ⟨key'', chosen, pair⟩ := Option.map_eq_some_iff.mp entered
  obtain rfl : key'' = key := (congrArg Prod.fst pair).trans same
  exact unchosen name a (Std.ExtTreeMap.mem_toList_iff_getElem?_eq_some.mp entry) chosen

/-- A key that is chosen for one name only is answered from the entry of that name, if it has
    one. -/
theorem getElem?_rekeyed
    (apart : ∀ {a b key : String}, choose a = some key → choose b = some key → a = b)
    (chosen : choose name = some key) :
    (rekeyed choose enter high low)[key]? = (high[name]?.map (enter name)).or low[key]? := by
  cases found : high[name]? with
  | some a =>
    -- Different names get different keys, so no pair is entered over another one.
    have distinct : (high.toList.filterMap fun entry =>
        (choose entry.1).map fun key => (key, enter entry.1 entry.2)).Pairwise
          fun a b => ¬compare a.1 b.1 = .eq := by
      rw [List.pairwise_filterMap]
      refine Std.ExtTreeMap.distinct_keys_toList.imp ?_
      rintro ⟨name, a⟩ ⟨name', a'⟩ differ pair entered pair' entered' same
      obtain ⟨key, chosen, rfl⟩ := Option.map_eq_some_iff.mp entered
      obtain ⟨key', chosen', rfl⟩ := Option.map_eq_some_iff.mp entered'
      obtain rfl : key = key' := Std.LawfulEqCmp.eq_of_compare same
      obtain rfl := apart chosen chosen'
      exact differ Std.ReflCmp.compare_self
    have mem : (key, enter name a) ∈ high.toList.filterMap fun entry =>
        (choose entry.1).map fun key => (key, enter entry.1 entry.2) := by
      refine List.mem_filterMap.mpr ⟨(name, a), ?_, ?_⟩
      · exact Std.ExtTreeMap.mem_toList_iff_getElem?_eq_some.mpr found
      · simp [chosen]
    rw [rekeyed_eq,
      Std.ExtTreeMap.getElem?_insertMany_list_of_mem Std.ReflCmp.compare_self distinct mem]
    rfl
  | none =>
    refine getElem?_rekeyed_of_unchosen fun other a entry chosen' => ?_
    obtain rfl := apart chosen chosen'
    exact absurd (found.symm.trans entry) (by simp)

end Rekeyed

/-! ## Entries entered over others, and erased -/

/-- A table entered over another one, every entry under a key of its own and changed by the way. -/
theorem getElem?_foldl_insert_renamed {α β : Type} (rename : String → String)
    (apart : ∀ {a b : String}, rename a = rename b → a = b) (enter : String → α → β)
    (high : Std.ExtTreeMap String α) (low : Std.ExtTreeMap String β) (key : String) :
    (high.foldl (fun table key a => table.insert (rename key) (enter key a)) low)[rename key]? =
      (high[key]?.map (enter key)).or low[rename key]? := by
  show (rekeyed (fun name => some (rename name)) enter high low)[rename key]? = _
  refine getElem?_rekeyed ?_ rfl
  intro a b key chosen chosen'
  exact apart (Option.some.inj (chosen.trans chosen'.symm))

/-- The same with every entry under its own key. -/
theorem getElem?_foldl_insert {α β : Type} (enter : String → α → β)
    (high : Std.ExtTreeMap String α) (low : Std.ExtTreeMap String β) (key : String) :
    (high.foldl (fun table key a => table.insert key (enter key a)) low)[key]? =
      (high[key]?.map (enter key)).or low[key]? :=
  getElem?_foldl_insert_renamed (fun key => key) (fun same => same) enter high low key

theorem getElem?_overlay (high low : Entries) (key : String) :
    (high.overlay low)[key]? = high[key]?.or low[key]? := by
  rw [overlay, getElem?_foldl_insert fun _ value => value]
  simp

theorem getElem?_eraseEach (keys : List String) (table : Entries) (key : String) :
    (keys.foldl (fun table key => table.erase key) table)[key]? =
      if key ∈ keys then none else table[key]? := by
  induction keys generalizing table with
  | nil => simp
  | cons k ks ih =>
    rw [List.foldl_cons, ih, Std.ExtTreeMap.getElem?_erase]
    by_cases hk : k = key
    · subst hk
      simp
    · simp [hk, Ne.symm hk]

end LayeredConfig.Entries
