import LayeredConfig.Proofs.Staging
import Mathlib.Logic.Function.Basic

/-!
# Ledgers

What a transactional store is compared with: a book that forgets nothing. A ledger keeps, for
every owner with an open transaction, the entries that the owner has made since it was opened,
and the list of all settled transactions in the order in which they were settled. Settling moves
the draft of one owner to the end of that list; of a draft that is dropped nothing stays but that
it has been begun, and the drafts ever begun are counted.

The owners are transaction ids where the store is one source and views where it is all sources of
a configuration; the entries are single writes there and changes of a view here. So the type has
both as parameters.

Owners do not get in each other's way: an operation for one owner changes no draft but its own (the
section on all others). Operations that do not fit are left without effect, so a ledger can be kept
beside a store for any calls: beginning twice keeps the draft, and settling an owner without a draft
settles nothing.
-/

set_option autoImplicit false

namespace LayeredConfig

/-- The entries of open transactions by their owner, the settled transactions in order, and how
    many transactions have been begun. -/
structure Ledger (κ α : Type) where
  draft : κ → Option (List α)
  settled : List (κ × List α)
  begun : Nat

namespace Ledger

variable {κ α : Type}

def blank : Ledger κ α := ⟨fun _ => none, [], 0⟩

variable [DecidableEq κ]

/-- Opens a draft, if the owner has none. -/
def begin (l : Ledger κ α) (owner : κ) : Ledger κ α :=
  match l.draft owner with
  | some _ => l
  | none => { l with draft := Function.update l.draft owner (some []), begun := l.begun + 1 }

/-- Adds an entry to the draft of an owner. -/
def note (l : Ledger κ α) (owner : κ) (entry : α) : Ledger κ α :=
  { l with draft := Function.update l.draft owner ((l.draft owner).map (· ++ [entry])) }

/-- Moves the draft of an owner to the settled transactions. -/
def settle (l : Ledger κ α) (owner : κ) : Ledger κ α :=
  match l.draft owner with
  | some entries =>
    { l with
      draft := Function.update l.draft owner none
      settled := l.settled ++ [(owner, entries)] }
  | none => l

/-- Forgets the draft of an owner. -/
def drop (l : Ledger κ α) (owner : κ) : Ledger κ α :=
  { l with draft := Function.update l.draft owner none }

section

variable {l : Ledger κ α} {owner other : κ} {entries : List α} {entry : α}

/-! ## The owner -/

theorem begin_of_some (h : l.draft owner = some entries) : l.begin owner = l := by
  unfold begin
  rw [h]

theorem begin_of_none (h : l.draft owner = none) :
    l.begin owner =
      { l with draft := Function.update l.draft owner (some []), begun := l.begun + 1 } := by
  unfold begin
  rw [h]

theorem settle_of_some (h : l.draft owner = some entries) :
    l.settle owner = { l.drop owner with settled := l.settled ++ [(owner, entries)] } := by
  unfold settle
  rw [h]
  rfl

theorem settle_of_none (h : l.draft owner = none) : l.settle owner = l := by
  unfold settle
  rw [h]

theorem drop_of_none (h : l.draft owner = none) : l.drop owner = l := by
  unfold drop
  rw [← h, Function.update_eq_self]

theorem begin_draft_of_none (h : l.draft owner = none) : (l.begin owner).draft owner = some [] := by
  rw [begin_of_none h]
  exact Function.update_self ..

@[simp] theorem note_draft_self :
    (l.note owner entry).draft owner = (l.draft owner).map (· ++ [entry]) :=
  Function.update_self ..

@[simp] theorem drop_draft_self : (l.drop owner).draft owner = none := Function.update_self ..

theorem settle_draft_self : (l.settle owner).draft owner = none := by
  cases h : l.draft owner with
  | none => rw [settle_of_none h, h]
  | some entries =>
    rw [settle_of_some h]
    exact drop_draft_self

/-! ## All others -/

theorem begin_draft_of_ne (h : other ≠ owner) : (l.begin owner).draft other = l.draft other := by
  unfold begin
  split
  · rfl
  · exact Function.update_of_ne h ..

theorem note_draft_of_ne (h : other ≠ owner) :
    (l.note owner entry).draft other = l.draft other := Function.update_of_ne h ..

theorem drop_draft_of_ne (h : other ≠ owner) : (l.drop owner).draft other = l.draft other :=
  Function.update_of_ne h ..

theorem settle_draft_of_ne (h : other ≠ owner) : (l.settle owner).draft other = l.draft other := by
  unfold settle
  split
  · exact Function.update_of_ne h ..
  · rfl

/-! ## What is settled, and what was begun -/

@[simp] theorem begin_settled : (l.begin owner).settled = l.settled := by
  unfold begin
  split
  · rfl
  · rfl

@[simp] theorem note_settled : (l.note owner entry).settled = l.settled := rfl

@[simp] theorem drop_settled : (l.drop owner).settled = l.settled := rfl

@[simp] theorem note_begun : (l.note owner entry).begun = l.begun := rfl

@[simp] theorem settle_begun : (l.settle owner).begun = l.begun := by
  unfold settle
  split
  · rfl
  · rfl

end

end Ledger

end LayeredConfig
