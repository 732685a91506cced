import LayeredConfig.Proofs.Staging

/-!
# What is staged for one key

Of all the writes of a transaction to a key only the last one counts, and a set of changes holds no
other. `ChangeSet.verdict?` reads it off: the write that the set makes to the key, if any. **A set
that has been staged write by write has the last write to each key for a verdict**
(`ChangeSet.verdict?_stageAll`), whatever has become of the earlier ones. Sets that are merged, and
the report of the changes that are pending, can so be told key by key, and no sequence of writes has
to be taken apart again.

A set that was read from somewhere may have a key on both sides; the removal counts then, as it is
made last. Staging leaves no such key (`ChangeSet.Exclusive`), and where there is none the verdict
is told by either side alone.
-/

set_option autoImplicit false

namespace LayeredConfig

/-! ## The last write -/

namespace Write

/-- The last of several writes to a key. -/
def last? (key : String) (ws : List Write) : Option Write :=
  (ws.filter fun w => w.key = key).getLast?

variable {key : String} {w : Write} {ws : List Write}

theorem last?_append (key : String) (ws ws' : List Write) :
    last? key (ws ++ ws') = (last? key ws').or (last? key ws) := by
  rw [last?, List.filter_append, List.getLast?_append]
  rfl

theorem last?_cons (key : String) (w : Write) (ws : List Write) :
    last? key (w :: ws) = (last? key ws).or (if w.key = key then some w else none) := by
  have single : last? key [w] = if w.key = key then some w else none := by
    by_cases hw : w.key = key <;> simp [last?, hw]
  rw [← List.singleton_append, last?_append, single]

theorem mem_of_last? (h : last? key ws = some w) : w ∈ ws ∧ w.key = key := by
  have mem := List.mem_filter.mp (List.mem_of_getLast? h)
  exact ⟨mem.1, by simpa using mem.2⟩

theorem last?_eq_none_iff : last? key ws = none ↔ ∀ w ∈ ws, w.key ≠ key := by
  simp [last?]

/-- A selection that goes by the key alone takes all the writes to a key or none of them. -/
theorem last?_filter {selects : Write → Bool}
    (byKey : ∀ w ∈ ws, ∀ w' ∈ ws, w.key = w'.key → selects w = selects w') (key : String) :
    last? key (ws.filter selects) = (last? key ws).filter selects := by
  have swapped : (ws.filter selects).filter (fun w => w.key = key) =
      (ws.filter fun w => w.key = key).filter selects := by
    simp only [List.filter_filter, Bool.and_comm]
  rw [last?, swapped]
  cases hl : last? key ws with
  | none =>
    rw [last?, List.getLast?_eq_none_iff] at hl
    rw [hl]
    rfl
  | some w =>
    have last := mem_of_last? hl
    -- The last write decides for all of them, as the selection does not tell writes to one key
    -- apart.
    have uniform : (ws.filter fun w => w.key = key).filter selects =
        (ws.filter fun w => w.key = key).filter fun _ => selects w := by
      refine List.filter_congr fun w' hw' => ?_
      obtain ⟨mem, same⟩ := List.mem_filter.mp hw'
      exact byKey w' mem w last.1 ((of_decide_eq_true same).trans last.2.symm)
    rw [uniform]
    cases selected : selects w with
    | true =>
      rw [List.filter_eq_self.mpr fun _ _ => rfl]
      exact hl.trans (by simp [Option.filter, selected])
    | false => simp [selected, Option.filter]

end Write

/-! ## The verdict of a set -/

namespace ChangeSet

/-- The write that a set of changes makes to a key, if any. -/
def verdict? (c : ChangeSet) (key : String) : Option Write :=
  if key ∈ c.removed then some (.remove key) else c.added[key]?.map (.put key)

variable {c : ChangeSet} {key value : String} {w : Write}

theorem key_of_verdict? (h : c.verdict? key = some w) : w.key = key := by
  unfold verdict? at h
  split at h
  · obtain rfl := Option.some_inj.mp h
    rfl
  · obtain ⟨value, -, rfl⟩ := Option.map_eq_some_iff.mp h
    rfl

theorem isSome_verdict? : (c.verdict? key).isSome ↔ key ∈ c.added ∨ key ∈ c.removed := by
  unfold verdict?
  split
  · simp [*]
  · simp [*]

/-! ## Staging -/

@[simp] theorem verdict?_start (id : TransactionId) (now : Timestamp) (key : String) :
    (start id now).verdict? key = none := by
  simp [verdict?, start]

theorem verdict?_stage (c : ChangeSet) (w : Write) (key : String) :
    (c.stage w).verdict? key = if w.key = key then some w else c.verdict? key := by
  cases w with
  | put k value =>
    simp only [stage, put, verdict?, Write.key, Std.ExtTreeMap.getElem?_insert,
      Std.ExtTreeSet.mem_erase]
    by_cases hk : k = key <;> simp [hk]
  | remove k =>
    simp only [stage, remove, verdict?, Write.key, Std.ExtTreeMap.getElem?_erase,
      Std.ExtTreeSet.mem_insert]
    by_cases hk : k = key <;> simp [hk]

/-- **The last write to a key is the verdict on it**, and where there is none the verdict stands. -/
theorem verdict?_stageAll (c : ChangeSet) (ws : List Write) (key : String) :
    (c.stageAll ws).verdict? key = (Write.last? key ws).or (c.verdict? key) := by
  induction ws generalizing c with
  | nil => rfl
  | cons w ws ih =>
    calc ((c.stage w).stageAll ws).verdict? key
        = (Write.last? key ws).or ((c.stage w).verdict? key) := ih (c.stage w)
      _ = (Write.last? key (w :: ws)).or (c.verdict? key) := by
        rw [verdict?_stage, Write.last?_cons, Option.or_assoc]
        split <;> simp

/-! ## One side only -/

theorem verdict?_eq_remove : c.verdict? key = some (.remove key) ↔ key ∈ c.removed := by
  unfold verdict?
  split <;> simp [*]

theorem verdict?_eq_put :
    c.verdict? key = some (.put key value) ↔ c.added[key]? = some value ∧ key ∉ c.removed := by
  unfold verdict?
  split <;> simp [*]

/-- No key is both written and removed. -/
def Exclusive (c : ChangeSet) : Prop := ∀ key ∈ c.removed, key ∉ c.added

theorem exclusive_start (id : TransactionId) (now : Timestamp) : (start id now).Exclusive := by
  simp [Exclusive, start]

theorem Exclusive.stage (h : c.Exclusive) (w : Write) : (c.stage w).Exclusive := by
  intro key removed added
  have apart := h key
  cases w <;> grind [ChangeSet.stage, put, remove]

theorem Exclusive.stageAll (h : c.Exclusive) (ws : List Write) : (c.stageAll ws).Exclusive := by
  induction ws generalizing c with
  | nil => exact h
  | cons w ws ih => exact ih (h.stage w)

theorem Exclusive.not_removed (h : c.Exclusive) (added : c.added[key]? = some value) :
    key ∉ c.removed :=
  fun removed => h key removed (Std.ExtTreeMap.mem_iff_isSome_getElem?.mpr (by rw [added]; rfl))

/-- A set does one thing to a key, and nothing else. -/
def Tells (c : ChangeSet) : Write → Prop
  | .put key value => c.added[key]? = some value ∧ key ∉ c.removed
  | .remove key => key ∈ c.removed ∧ key ∉ c.added

theorem Exclusive.tells_iff (h : c.Exclusive) : c.Tells w ↔ c.verdict? w.key = some w := by
  cases w with
  | put key value => exact verdict?_eq_put.symm
  | remove key => exact ⟨fun told => verdict?_eq_remove.mpr told.1, fun verdict =>
      ⟨verdict?_eq_remove.mp verdict, h key (verdict?_eq_remove.mp verdict)⟩⟩

end ChangeSet

end LayeredConfig
