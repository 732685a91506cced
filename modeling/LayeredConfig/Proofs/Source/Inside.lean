import LayeredConfig.Proofs.Source.Attempts
import LayeredConfig.Proofs.Source.Isolation
import LayeredConfig.Source.Any

/-!
# What a source holds

A source holds something only in the memory behind it: committed entries and staging areas. An
operation reaches that memory or is refused before, and `AnySource.Reached` has a case for each way
in which that can go. So a fact about memories becomes one about all sources once, in
`Reached.keeps`, and not for each operation again.

The fact needed most often is that an operation under one transaction leaves all the rest alone:
the committed entries, and the areas of all other transactions. All of this is kept exactly if the
memory stays the same up to the area of that transaction, and `Memory.forget` takes this area away.
Everything but a commit keeps what is left then.

Writing a table is the one operation that has no case there: a guard passes it on entry by entry,
and may refuse one after it has let others through. It is a chain of single writes, and keeps what
they keep (`AnySource.putAll_besides`).
-/

set_option autoImplicit false

namespace LayeredConfig

/-! ## Memories -/

namespace Memory

/-- The memory without the staging area of one transaction. -/
def forget (id : TransactionId) (m : Memory) : Memory := { m with staged := m.staged.erase id }

/-- What the committed entries are once a transaction has been committed. -/
def committing (id : TransactionId) (m : Memory) : Entries :=
  match m.staged[id]? with
  | some changes => changes.apply m.committed
  | none => m.committed

variable {m : Memory} {id : TransactionId}

/-- Only the area of the transaction is written, and that is taken away. -/
theorem forget_insert (changes : ChangeSet) :
    forget id { m with staged := m.staged.insert id changes } = forget id m := by
  simp only [forget, Memory.mk.injEq, true_and]
  refine Std.ExtTreeMap.ext_getElem? ?_
  intro other
  simp only [Std.ExtTreeMap.getElem?_erase, Std.ExtTreeMap.getElem?_insert]
  split
  · rfl
  · rfl

theorem forget_erase : forget id { m with staged := m.staged.erase id } = forget id m := by
  simp only [forget, Memory.mk.injEq, true_and]
  refine Std.ExtTreeMap.ext_getElem? ?_
  intro other
  simp only [Std.ExtTreeMap.getElem?_erase]
  split
  · rfl
  · rfl

theorem forget_start (now : Timestamp) (m : Memory) :
    forget id (m.start id now).2 = forget id m := by
  unfold start
  split
  · rfl
  · exact forget_insert _

theorem forget_stage (key : String) (change : ChangeSet → ChangeSet) (m : Memory) :
    forget id (m.stage id key change).2 = forget id m := by
  unfold stage
  split
  · rfl
  · split
    · exact forget_insert _
    · rfl

theorem forget_rollback (m : Memory) : forget id (m.rollback id).2 = forget id m := by
  unfold rollback
  split
  · exact forget_erase
  · rfl

/-- A transaction that is rolled back has no staging area, whether or not it had one before. -/
theorem rollback_area (m : Memory) : (m.rollback id).2.staged[id]? = none := by
  cases h : m.staged[id]? with
  | some c =>
    rw [rollback_of_some h]
    exact Std.ExtTreeMap.getElem?_erase_self
  | none =>
    rw [rollback_of_none h]
    exact h

theorem commit_area (m : Memory) : (m.commit id).2.staged[id]? = none := by
  cases h : m.staged[id]? with
  | some c =>
    rw [commit_of_some h]
    exact Std.ExtTreeMap.getElem?_erase_self
  | none =>
    rw [commit_of_none h]
    exact h

theorem commit_committed (m : Memory) : (m.commit id).2.committed = m.committing id := by
  unfold committing
  cases h : m.staged[id]? with
  | some c => rw [commit_of_some h]
  | none => rw [commit_of_none h]

end Memory

/-! ## Through to the memory -/

namespace AnySource

/-- What an operation can do to a source: nothing, if there is no memory behind it or a guard
    refuses; otherwise what it does to the memory. -/
inductive Reached (op : Memory → Attempt SourceError Memory) :
    AnySource → Attempt SourceError AnySource → Prop
  | table (t : Table) (e : SourceError) : Reached op (.table t) (.error e, .table t)
  | scripted (s : Scripted) (e : SourceError) : Reached op (.scripted s) (.error e, .scripted s)
  | memory (m : Memory) : Reached op (.memory m) ((op m).1, .memory (op m).2)
  | refused (g : Guarded Memory) (e : SourceError) : Reached op (.guarded g) (.error e, .guarded g)
  | passed (g : Guarded Memory) :
    Reached op (.guarded g) ((op g.inner).1, .guarded { g with inner := (op g.inner).2 })

section Operations

variable (id : TransactionId)

/-- A guard refuses an operation or passes it on. -/
theorem Reached.guard (op : Memory → Attempt SourceError Memory) (asked : SourceOperation)
    (g : Guarded Memory) :
    Reached op (.guarded g) (within .guarded (Guarded.guard asked op g)) := by
  unfold Guarded.guard
  split
  · exact .refused g _
  · exact .passed g

theorem start_reached (now : Timestamp) :
    ∀ s : AnySource, Reached (Memory.start id now) s (Source.start id now s)
  | .table t => .table t _
  | .scripted s => .scripted s _
  | .memory m => .memory m
  | .guarded g => .guard (Memory.start id now) .start g

theorem put_reached (key value : String) :
    ∀ s : AnySource, Reached (Memory.put id key value) s (Source.put id key value s)
  | .table t => .table t _
  | .scripted s => .scripted s _
  | .memory m => .memory m
  | .guarded g => .guard (Memory.put id key value) (.put key) g

theorem remove_reached (key : String) :
    ∀ s : AnySource, Reached (Memory.remove id key) s (Source.remove id key s)
  | .table t => .table t _
  | .scripted s => .scripted s _
  | .memory m => .memory m
  | .guarded g => .guard (Memory.remove id key) (.remove key) g

theorem commit_reached : ∀ s : AnySource, Reached (Memory.commit id) s (Source.commit id s)
  | .table t => .table t _
  | .scripted s => .scripted s _
  | .memory m => .memory m
  | .guarded g => .guard (Memory.commit id) .commit g

theorem rollback_reached : ∀ s : AnySource, Reached (Memory.rollback id) s (Source.rollback id s)
  | .table t => .table t _
  | .scripted s => .scripted s _
  | .memory m => .memory m
  | .guarded g => .guard (Memory.rollback id) .rollback g

end Operations

/-- What an operation keeps of every memory it keeps of every source. -/
theorem Reached.keeps {τ : Type} {f : Memory → τ} {op : Memory → Attempt SourceError Memory}
    (h : ∀ m, f (op m).2 = f m) {s : AnySource} {result : Attempt SourceError AnySource}
    (r : Reached op s result) : result.2.memory?.map f = s.memory?.map f := by
  cases r with
  | table | scripted | refused => rfl
  | memory m | passed g => simp only [memory?, Option.map_some, h]

/-! ## What is there to be seen -/

/-- What a source has committed, if it can hold anything. -/
def committed? (s : AnySource) : Option Entries := s.memory?.map Memory.committed

/-- What is staged on a source under a transaction, if anything. -/
def area? (id : TransactionId) (s : AnySource) : Option ChangeSet :=
  s.memory?.bind fun m => m.staged[id]?

/-- A source without the staging area of one transaction, as far as it holds anything. -/
def besides (id : TransactionId) (s : AnySource) : Option Memory := s.memory?.map (Memory.forget id)

theorem committed?_eq_besides (id : TransactionId) (s : AnySource) :
    s.committed? = (s.besides id).map Memory.committed := by
  simp only [besides, Option.map_map]
  rfl

theorem area?_eq_besides {id other : TransactionId} (h : other ≠ id) (s : AnySource) :
    s.area? other = (s.besides id).bind fun m => m.staged[other]? := by
  unfold area? besides
  cases s.memory? with
  | none => rfl
  | some m =>
    -- Forgetting one area leaves the others, so they can be looked up in what is left.
    have other_area : (m.staged.erase id)[other]? = m.staged[other]? := by
      simp [Std.ExtTreeMap.getElem?_erase, Ne.symm h]
    exact other_area.symm

section Keeping

variable (id : TransactionId)

theorem start_besides (now : Timestamp) (s : AnySource) :
    (Source.start id now s).2.besides id = s.besides id :=
  (start_reached id now s).keeps (Memory.forget_start now)

theorem put_besides (key value : String) (s : AnySource) :
    (Source.put id key value s).2.besides id = s.besides id :=
  (put_reached id key value s).keeps (Memory.forget_stage key _)

/-- A guard passes several writes on one by one, so it may refuse after some of them; what has been
    passed on before is under the same transaction. -/
theorem putAll_besides (entries : Entries) (s : AnySource) :
    (Source.putAll id entries s).2.besides id = s.besides id := by
  cases s with
  | table | scripted => rfl
  | memory m =>
    have one (entry : String × String) (m : Memory) :
        Memory.forget id (Memory.put id entry.1 entry.2 m).2 = Memory.forget id m :=
      Memory.forget_stage entry.1 _ m
    have kept : Memory.forget id (Source.putEach (Memory.put id) entries m).2 =
        Memory.forget id m :=
      Attempt.each_keeps (f := Memory.forget id) one entries.toList m
    exact congrArg some kept
  | guarded g =>
    -- The guard may refuse any of the entries; what is inside is then as it was.
    have one (entry : String × String) (g : Guarded Memory) :
        Memory.forget id (Guarded.put id entry.1 entry.2 g).2.inner = Memory.forget id g.inner := by
      unfold Guarded.put Guarded.guard
      split
      · rfl
      · exact Memory.forget_stage entry.1 _ g.inner
    have kept : Memory.forget id (Source.putEach (Guarded.put id) entries g).2.inner =
        Memory.forget id g.inner :=
      Attempt.each_keeps (f := fun g : Guarded Memory => Memory.forget id g.inner) one
        entries.toList g
    exact congrArg some kept

theorem remove_besides (key : String) (s : AnySource) :
    (Source.remove id key s).2.besides id = s.besides id :=
  (remove_reached id key s).keeps (Memory.forget_stage key _)

theorem rollback_besides (s : AnySource) :
    (Source.rollback id s).2.besides id = s.besides id :=
  (rollback_reached id s).keeps Memory.forget_rollback

end Keeping

/-- What the committed entries of a source are once a transaction has been committed on it. -/
def committing (id : TransactionId) (s : AnySource) : Option Entries :=
  s.memory?.map (Memory.committing id)

end AnySource

end LayeredConfig
