import LayeredConfig.Proofs.Transaction.Memories

/-!
# Staging areas and the drafts of views

The staging areas of a memory are related to views here, not to transactions: each view may have a
transaction open, and what is staged under it is that view's part of the memory (`Areas`). Views
have different transactions, so a change of one view is looked at under its own transaction only
(`Areas.change`); this is where isolation comes from.

A plain source has no guard before it, so if it can be written it is a memory as it is. Under a
transaction that is open on it, writes end up in the area of that transaction
(`AnySource.writeAll_memory`).
-/

set_option autoImplicit false

namespace LayeredConfig

variable {ι : Type}

/-! ## Areas and owners -/

/-- The staging areas of a memory, if `tx` are the open transactions of the views and `part` is what
    each of them has written: every open transaction has an area with that, and nothing else has
    one. -/
structure Areas (tx : ι → Option TransactionId) (part : ι → List Write)
    (staged : Std.ExtTreeMap TransactionId ChangeSet) : Prop where
  mine : ∀ i id, tx i = some id →
    ∃ now, staged[id]? = some ((ChangeSet.start id now).stageAll (part i))
  others : ∀ id, (∀ i, tx i ≠ some id) → staged[id]? = none

namespace Areas

variable {tx tx' : ι → Option TransactionId} {part part' : ι → List Write}
variable {staged staged' : Std.ExtTreeMap TransactionId ChangeSet} {i : ι} {id : TransactionId}

theorem empty (idle : ∀ i, tx i = none) : Areas tx part ∅ where
  mine i _ h := nomatch (idle i).symm.trans h
  others _ _ := Std.ExtTreeMap.getElem?_empty

/-- **One view.** If a view does something under a transaction that no other view has, only the area
    of that transaction has to be looked at. -/
theorem change (h : Areas tx part staged) (alone : ∀ j, j ≠ i → tx j ≠ some id)
    (before : ∀ id', tx i = some id' → id' = id)
    (views : ∀ j, j ≠ i → tx' j = tx j ∧ part' j = part j)
    (elsewhere : ∀ other, other ≠ id → staged'[other]? = staged[other]?)
    (here : (tx' i = some id ∧
      ∃ now, staged'[id]? = some ((ChangeSet.start id now).stageAll (part' i))) ∨
      tx' i = none ∧ staged'[id]? = none) : Areas tx' part' staged' where
  mine j id' hj := by
    by_cases hji : j = i
    -- The view itself: its area is the one that has been looked at.
    · subst hji
      rcases here with ⟨htx, area⟩ | ⟨htx, -⟩
      · obtain rfl := Option.some.inj (htx.symm.trans hj)
        exact area
      · exact nomatch htx.symm.trans hj
    -- Any other view has another id, so its area is where it was.
    · obtain ⟨htx, hpart⟩ := views j hji
      rw [htx] at hj
      have other : id' ≠ id := fun same => alone j hji (same ▸ hj)
      rw [hpart, elsewhere id' other]
      exact h.mine j id' hj
  others other hother := by
    -- An id that nobody has: either it has just been given up, or it had no area before.
    by_cases ho : other = id
    · subst ho
      rcases here with ⟨htx, -⟩ | ⟨-, area⟩
      · exact absurd htx (hother i)
      · exact area
    · rw [elsewhere other ho]
      refine h.others other ?_
      intro j hj
      by_cases hji : j = i
      · subst hji
        exact ho (before other hj)
      · exact hother j ((views j hji).1.trans hj)

end Areas

/-- Where all open transactions are different, they still are after one view has none, or one that
    no other view has. -/
theorem alone_of_one {tx tx' : ι → Option TransactionId} {i : ι} {id : TransactionId}
    (alone : ∀ j k id, tx j = some id → tx k = some id → j = k)
    (nobody : ∀ j, j ≠ i → tx j ≠ some id) (there : ∀ j, j ≠ i → tx' j = tx j)
    (here : ∀ id', tx' i = some id' → id' = id) (j k : ι) (id' : TransactionId)
    (hj : tx' j = some id') (hk : tx' k = some id') : j = k := by
  -- Another view cannot have what this one has now.
  have apart (l : ι) (hl : l ≠ i) (hi : tx' i = some id') : tx' l ≠ some id' := by
    rw [there l hl, here id' hi]
    exact nobody l hl
  by_cases hji : j = i
  · by_cases hki : k = i
    · rw [hji, hki]
    · exact absurd hk (apart k hki (hji ▸ hj))
  · by_cases hki : k = i
    · exact absurd hj (apart j hji (hki ▸ hk))
    · rw [there j hji] at hj
      rw [there k hki] at hk
      exact alone j k id' hj hk

/-! ## Plain sources -/

namespace AnySource

/-- A source without a guard and without an open transaction. -/
def Plain : AnySource → Prop
  | .table _ | .scripted _ => True
  | .memory m => m.staged = ∅
  | .guarded _ => False

/-- A source that can be written, if at all, under an open transaction. -/
def Holds (id : TransactionId) : AnySource → Prop
  | .table _ | .scripted _ => True
  | .memory m => ∃ c, m.staged[id]? = some c
  | .guarded _ => False

variable {id : TransactionId} {m : Memory} {c : ChangeSet}

theorem Holds.holds {s : AnySource} (hs : s.Holds id) : Source.Holds memory id s := by
  intro hm
  cases s with
  | table | scripted => exact nomatch hm
  | guarded => exact hs.elim
  | memory m =>
    obtain ⟨c, hc⟩ := hs
    exact ⟨m, c, rfl, hc⟩

theorem writeAll_of_fixed {s : AnySource} (h : ∀ w, (Source.write id w s).2 = s) :
    ∀ ws : List Write, Source.writeAll id ws s = s
  | [] => rfl
  | w :: rest => by
    rw [Source.writeAll, List.foldl_cons, h w]
    exact writeAll_of_fixed h rest

/-- Accepted writes under an open transaction end up in its area, and nowhere else. -/
theorem writeAll_memory {ws : List Write} (h : m.staged[id]? = some c)
    (hws : ∀ w ∈ ws, Source.accepts (memory m) w = true) :
    ∃ staged, Source.writeAll id ws (memory m) = memory { m with staged := staged } ∧
      staged[id]? = some (c.stageAll ws) ∧
      ∀ other, other ≠ id → staged[other]? = m.staged[other]? := by
  rw [embeds.accepts] at hws
  obtain ⟨staged, written, area, elsewhere⟩ := Memory.writeAll_of_accepted ws h hws
  exact ⟨staged, (embeds.writeAll ws m).trans (congrArg memory written), area, elsewhere⟩

end AnySource

end LayeredConfig
