import LayeredConfig.ChangeSet
import LayeredConfig.Proofs.Entries

/-!
# Writes and the sets that hold them

A transaction is a list of writes in the order in which they were made. Nothing in this library
keeps that list: a `ChangeSet` holds, for each key, only the write that came last, and applies all
its additions before its removals. **`ChangeSet.apply_stageAll` says that nothing is lost by it**:
staging writes one after another and applying the set gives the table on which the writes have
been replayed one after another.

The reason is a statement about one key at a time (`ChangeSet.getElem?_apply`): a set answers a
look-up from its removals, then from its additions, then from the table below, and a write moves
its key to one side. That the two sides are disjoint is not needed for it, because the removals
come last in `apply`.
-/

set_option autoImplicit false

namespace LayeredConfig

/-- One write to a table of entries. -/
inductive Write
  | put (key value : String)
  | remove (key : String)
  deriving DecidableEq, Repr

namespace Write

def key : Write → String
  | put key _ => key
  | remove key => key

def apply : Write → Entries → Entries
  | put key value, table => table.insert key value
  | remove key, table => table.erase key

/-- The table after several writes, made one after another. -/
def replay (writes : List Write) (table : Entries) : Entries :=
  writes.foldl (fun table w => w.apply table) table

theorem replay_append (ws ws' : List Write) (table : Entries) :
    replay (ws ++ ws') table = replay ws' (replay ws table) := List.foldl_append

end Write

/-! ## One key at a time -/

namespace ChangeSet

/-- A look-up in the applied table, by where it is answered from. -/
theorem getElem?_apply (c : ChangeSet) (table : Entries) (key : String) :
    (c.apply table)[key]? =
      if key ∈ c.removed then none else c.added[key]?.or table[key]? := by
  unfold apply
  rw [Std.ExtTreeSet.foldl_eq_foldl_toList, Entries.getElem?_eraseEach, Entries.getElem?_overlay]
  simp

/-! ## One write after another -/

def stage (c : ChangeSet) : Write → ChangeSet
  | .put key value => c.put key value
  | .remove key => c.remove key

def stageAll (c : ChangeSet) (writes : List Write) : ChangeSet := writes.foldl stage c

theorem stageAll_append (c : ChangeSet) (ws ws' : List Write) :
    c.stageAll (ws ++ ws') = (c.stageAll ws).stageAll ws' := List.foldl_append

@[simp] theorem stageAll_singleton (c : ChangeSet) (w : Write) : c.stageAll [w] = c.stage w := rfl

/-- Tables are written one entry after another, by increasing keys. -/
theorem putAll_eq (c : ChangeSet) (entries : Entries) :
    c.putAll entries = c.stageAll (entries.toList.map fun entry => .put entry.1 entry.2) := by
  rw [putAll, Std.ExtTreeMap.foldl_eq_foldl_toList, stageAll, List.foldl_map]
  rfl

theorem removeAll_eq (c : ChangeSet) (keys : List String) :
    c.removeAll keys = c.stageAll (keys.map .remove) := by
  rw [removeAll, stageAll, List.foldl_map]
  rfl

@[simp] theorem apply_start (id : TransactionId) (now : Timestamp) (table : Entries) :
    (start id now).apply table = table := by
  refine Std.ExtTreeMap.ext_getElem? ?_
  intro key
  rw [getElem?_apply]
  simp [start]

/-- **The last write decides.** Staging a write under a set is writing over what the set makes of
    the table. -/
theorem apply_stage (c : ChangeSet) (w : Write) (table : Entries) :
    (c.stage w).apply table = w.apply (c.apply table) := by
  refine Std.ExtTreeMap.ext_getElem? ?_
  intro key
  -- The key of the write is answered by the side it went to; any other is answered as before.
  cases w with
  | put k value =>
    simp only [stage, put, Write.apply, getElem?_apply, Std.ExtTreeMap.getElem?_insert,
      Std.ExtTreeSet.mem_erase]
    by_cases hk : k = key <;> simp [hk]
  | remove k =>
    simp only [stage, remove, Write.apply, getElem?_apply, Std.ExtTreeMap.getElem?_erase,
      Std.ExtTreeSet.mem_insert]
    by_cases hk : k = key <;> simp [hk]

theorem apply_stageAll (c : ChangeSet) (writes : List Write) (table : Entries) :
    (c.stageAll writes).apply table = Write.replay writes (c.apply table) := by
  induction writes generalizing c with
  | nil => rfl
  | cons w ws ih =>
    calc ((c.stage w).stageAll ws).apply table
        = Write.replay ws ((c.stage w).apply table) := ih (c.stage w)
      _ = Write.replay ws (w.apply (c.apply table)) := by rw [apply_stage]

/-! ## In any order -/

/-- Writes of different keys can be staged in any order. -/
theorem stage_comm (c : ChangeSet) {w w' : Write} (distinct : w.key = w'.key → w = w') :
    (c.stage w).stage w' = (c.stage w').stage w := by
  by_cases same : w.key = w'.key
  · rw [distinct same]
  -- Different keys from here on, so each side is compared key by key: a key is named by one of the
  -- two writes at most.
  have added : ((c.stage w).stage w').added = ((c.stage w').stage w).added := by
    refine Std.ExtTreeMap.ext_getElem? ?_
    intro key
    cases w <;> cases w' <;>
      simp only [stage, put, remove, Std.ExtTreeMap.getElem?_insert, Std.ExtTreeMap.getElem?_erase]
    all_goals grind [Write.key]
  have removed : ((c.stage w).stage w').removed = ((c.stage w').stage w).removed := by
    refine Std.ExtTreeSet.ext_mem ?_
    intro key
    cases w <;> cases w' <;>
      simp only [stage, put, remove, Std.ExtTreeSet.mem_insert, Std.ExtTreeSet.mem_erase]
    all_goals grind [Write.key]
  cases w <;> cases w' <;> exact (mk.injEq ..).mpr ⟨rfl, rfl, added, removed⟩

theorem stageAll_perm (c : ChangeSet) {ws ws' : List Write}
    (distinct : ∀ w ∈ ws, ∀ w' ∈ ws, w.key = w'.key → w = w') (perm : ws.Perm ws') :
    c.stageAll ws = c.stageAll ws' :=
  perm.foldl_eq' (fun w hw w' hw' c => c.stage_comm (distinct w hw w' hw')) c

end ChangeSet

end LayeredConfig
