import LayeredConfig.Proofs.Staging
import LayeredConfig.Transaction.Pending

/-!
# Merging staged changes

What is pending under a transaction is merged from the staging areas of all sources. A merge is a
staging like any other: the writes of the part, then its removals (`ChangeSet.merge_eq`). So the
keys of the result, written and removed, depend on the keys of the parts only, and not on the ids
and the times that the parts carry.

Two desks at which the same has been done may have drawn different ids at different times, as other
views may have been there at one of them. Then what is pending is not the same, but its two sides
are (`View.pendingSides?_congr`), and these are what a reader of it looks at.
-/

set_option autoImplicit false

namespace LayeredConfig

namespace ChangeSet

/-- The keys that are written, with their values, and the keys that are removed. -/
def sides (c : ChangeSet) : Entries × Keys := (c.added, c.removed)

variable {c c' part part' : ChangeSet}

/-- What a write makes of the two sides depends on them alone. -/
theorem sides_stage (h : c.sides = c'.sides) (w : Write) :
    (c.stage w).sides = (c'.stage w).sides := by
  obtain ⟨added, removed⟩ := Prod.mk.inj h
  cases w with
  | put key value => simp only [stage, put, sides, added, removed]
  | remove key => simp only [stage, remove, sides, added, removed]

/-- So does what several writes make of them. -/
theorem sides_stageAll (h : c.sides = c'.sides) (ws : List Write) :
    (c.stageAll ws).sides = (c'.stageAll ws).sides := by
  induction ws generalizing c c' with
  | nil => exact h
  | cons w rest ih => exact ih (sides_stage h w)

/-- A merge writes all values of the part and removes all its keys, as a staging would. -/
theorem merge_eq (c part : ChangeSet) :
    c.merge part = c.stageAll ((part.added.toList.map fun entry => .put entry.1 entry.2) ++
      part.removed.toList.map .remove) := by
  rw [merge, stageAll_append, ← putAll_eq, ← removeAll_eq]

theorem sides_merge (h : c.sides = c'.sides) (hp : part.sides = part'.sides) :
    (c.merge part).sides = (c'.merge part').sides := by
  obtain ⟨added, removed⟩ := Prod.mk.inj hp
  rw [merge_eq, merge_eq, added, removed]
  exact sides_stageAll h _

theorem sides_merges {parts parts' : List ChangeSet} {c c' : ChangeSet}
    (hps : parts.map sides = parts'.map sides) (h : c.sides = c'.sides) :
    (parts.foldl merge c).sides = (parts'.foldl merge c').sides := by
  -- Part by part, from any two sets with the same sides.
  induction parts generalizing parts' c c' with
  | nil =>
    obtain rfl := List.map_eq_nil_iff.mp hps.symm
    exact h
  | cons part rest ih =>
    obtain ⟨part', rest', rfl, hp, hrest⟩ := List.map_eq_cons_iff.mp hps.symm
    rw [List.foldl_cons, List.foldl_cons]
    exact ih hrest.symm (sides_merge h hp.symm)

end ChangeSet

/-! ## What the sources report -/

variable {σ : Type} [Source σ]

/-- The keys that one source adds to what is pending, if it takes part. -/
def Source.reports (id : TransactionId) (s : σ) : Option (Entries × Keys) :=
  if isMutable s then (changes? s id).map ChangeSet.sides else none

/-- The sides of what is reported, source by source. -/
theorem Shared.reported_sides (shared : Shared σ) (id : TransactionId) :
    (shared.reported id).map ChangeSet.sides =
      (shared.context.sources.map (Source.reports id)).filterMap fun sides => sides := by
  rw [reported, List.map_filterMap, List.filterMap_filter, List.filterMap_map]
  rfl

/-- The keys written and removed under the open transaction of a view. -/
def View.pendingSides? (v : View σ) (shared : Shared σ) : Option (Entries × Keys) :=
  (v.pending? shared).map ChangeSet.sides

/-- Views that work on sources with the same reports have the same keys pending. -/
theorem View.pendingSides?_congr {v v' : View σ} {shared shared' : Shared σ}
    {id id' : TransactionId} {now now' : Timestamp} (hv : v.lifecycle.opening = some (id, now))
    (hv' : v'.lifecycle.opening = some (id', now'))
    (reports : shared.context.sources.map (Source.reports id) =
      shared'.context.sources.map (Source.reports id')) :
    v.pendingSides? shared = v'.pendingSides? shared' := by
  have parts : (shared.reported id).map ChangeSet.sides =
      (shared'.reported id').map ChangeSet.sides := by
    rw [Shared.reported_sides, Shared.reported_sides, reports]
  rw [pendingSides?, pendingSides?, pending?, pending?, hv, hv']
  exact congrArg some (ChangeSet.sides_merges parts rfl)

end LayeredConfig
