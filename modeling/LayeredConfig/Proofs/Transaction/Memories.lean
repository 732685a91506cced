import LayeredConfig.Proofs.Transaction.Routes
import LayeredConfig.Source.Any

/-!
# Memories among other sources

A configuration has sources of many kinds in one list, so a memory in it is wrapped. `Source.Embeds`
says what is relied on: the wrapped memory answers as the memory does, and an operation on it is the
operation on what is inside. Nothing is said of the kinds beside it; where all sources that can be
written have to be memories, that is `Source.Backed`.

**Under a transaction that is open on it, a wrapped memory takes all that it accepts**
(`Source.Embeds.yields`), which is what routes need to know of it.
-/

set_option autoImplicit false

namespace LayeredConfig

variable {ε σ τ : Type}

/-- An attempt on the inside of a thing, as an attempt on the thing. -/
def Attempt.within (wrap : τ → σ) (attempt : Attempt ε τ) : Attempt ε σ :=
  (attempt.1, wrap attempt.2)

/-- A way to have memories among the sources of some kind: whatever is asked of the wrapped memory
    is asked of the memory. -/
structure Source.Embeds [Source σ] (wrap : Memory → σ) : Prop where
  injective : Function.Injective wrap
  reader : ∀ m, reader (wrap m) = reader m
  isMutable : ∀ m, isMutable (wrap m) = true
  isWritable : ∀ m key, isWritable (wrap m) key = isWritable m key
  isRemovable : ∀ m key, isRemovable (wrap m) key = isRemovable m key
  start : ∀ id now m, start id now (wrap m) = Attempt.within wrap (start id now m)
  put : ∀ id key value m, put id key value (wrap m) = Attempt.within wrap (put id key value m)
  putAll : ∀ id entries m, putAll id entries (wrap m) = Attempt.within wrap (putAll id entries m)
  remove : ∀ id key m, remove id key (wrap m) = Attempt.within wrap (remove id key m)
  commit : ∀ id m, commit id (wrap m) = Attempt.within wrap (commit id m)
  rollback : ∀ id m, rollback id (wrap m) = Attempt.within wrap (rollback id m)

theorem AnySource.embeds : Source.Embeds memory where
  injective _ _ h := memory.inj h
  reader _ := rfl
  isMutable _ := rfl
  isWritable _ _ := rfl
  isRemovable _ _ := rfl
  start _ _ _ := rfl
  put _ _ _ _ := rfl
  putAll _ _ _ := rfl
  remove _ _ _ := rfl
  commit _ _ := rfl
  rollback _ _ := rfl

/-! ## Writes on a memory -/

namespace Memory

variable {m : Memory} {id : TransactionId} {c : ChangeSet}

theorem accepts_eq (m : Memory) (w : Write) : Source.accepts m w = !m.isReadOnly w.key := by
  cases w <;> rfl

theorem write_of_accepted (h : m.staged[id]? = some c) {w : Write}
    (hw : Source.accepts m w = true) :
    Source.write id w m = (.ok (), { m with staged := m.staged.insert id (c.stage w) }) := by
  rw [accepts_eq, Bool.not_eq_true'] at hw
  rw [write_eq, hw, h]
  rfl

/-- Accepted writes under an open transaction end up in its area, and nowhere else. -/
theorem writeAll_of_accepted : ∀ (ws : List Write) {m : Memory} {c : ChangeSet},
    m.staged[id]? = some c → (∀ w ∈ ws, Source.accepts m w = true) →
    ∃ staged, Source.writeAll id ws m = { m with staged := staged } ∧
      staged[id]? = some (c.stageAll ws) ∧ ∀ other, other ≠ id → staged[other]? = m.staged[other]?
  | [], m, c, h, _ => ⟨m.staged, rfl, h, fun _ _ => rfl⟩
  | w :: rest, m, c, h, hws => by
    obtain ⟨hw, hrest⟩ := List.forall_mem_cons.mp hws
    -- The first write leaves a memory whose area is there again, with that write staged.
    obtain ⟨staged, written, area, elsewhere⟩ := writeAll_of_accepted rest
      (m := { m with staged := m.staged.insert id (c.stage w) }) (c := c.stage w)
      Std.ExtTreeMap.getElem?_insert_self hrest
    refine ⟨staged, ?_, area, fun other ho => ?_⟩
    · rw [Source.writeAll, List.foldl_cons, write_of_accepted h hw]
      exact written
    · rw [elsewhere other ho]
      simp [Std.ExtTreeMap.getElem?_insert, Ne.symm ho]

/-- A table that is written entry by entry, as a memory does it, is the writes of its entries. -/
theorem putEach_of_accepted : ∀ (entries : List (String × String)) {m : Memory} {c : ChangeSet},
    m.staged[id]? = some c →
    (∀ entry ∈ entries, Source.accepts m (.put entry.1 entry.2) = true) →
    Attempt.each (fun entry => put id entry.1 entry.2) entries m =
      (.ok (), Source.writeAll id (entries.map fun entry => .put entry.1 entry.2) m)
  | [], _, _, _, _ => rfl
  | entry :: rest, m, c, h, hes => by
    obtain ⟨he, hrest⟩ := List.forall_mem_cons.mp hes
    have written := write_of_accepted h he
    have inner : put id entry.1 entry.2 m = _ := written
    rw [Attempt.each, inner, List.map_cons, Source.writeAll, List.foldl_cons, written]
    exact putEach_of_accepted rest (c := c.stage (.put entry.1 entry.2))
      Std.ExtTreeMap.getElem?_insert_self hrest

end Memory

/-! ## Writes on a wrapped memory -/

namespace Source

variable [Source σ] {wrap : Memory → σ}

/-- A source that can be written, if at all, as a memory on which the transaction is open. -/
def Holds (wrap : Memory → σ) (id : TransactionId) (s : σ) : Prop :=
  isMutable s = true → ∃ m c, s = wrap m ∧ m.staged[id]? = some c

/-- Every source that can be written is a memory, of which something is true. -/
def Backed (wrap : Memory → σ) (P : Nat → Memory → Prop) (sources : List σ) : Prop :=
  ∀ p s, sources[p]? = some s → isMutable s = true → ∃ m, s = wrap m ∧ P p m

theorem Backed.mono {P P' : Nat → Memory → Prop} {sources : List σ} (h : Backed wrap P sources)
    (imp : ∀ p m, sources[p]? = some (wrap m) → P p m → P' p m) : Backed wrap P' sources := by
  intro p s hs hm
  obtain ⟨m, rfl, hp⟩ := h p s hs hm
  exact ⟨m, rfl, imp p m hs hp⟩

theorem Backed.holds {P : Nat → Memory → Prop} {sources : List σ} {id : TransactionId}
    (h : Backed wrap P sources) (area : ∀ p m, P p m → ∃ c, m.staged[id]? = some c) :
    ∀ s ∈ sources, Holds wrap id s := by
  intro s hs hm
  obtain ⟨p, hp⟩ := List.mem_iff_getElem?.mp hs
  obtain ⟨m, rfl, held⟩ := h p s hp hm
  obtain ⟨c, hc⟩ := area p m held
  exact ⟨m, c, rfl, hc⟩

theorem Backed.memory (e : Embeds wrap) {P : Nat → Memory → Prop} {sources : List σ} {p : Nat}
    {m : Memory} (h : Backed wrap P sources) (hs : sources[p]? = some (wrap m)) : P p m := by
  obtain ⟨m', same, hp⟩ := h p _ hs (e.isMutable m)
  rwa [e.injective same]

theorem isMutable_of_accepts {s : σ} {w : Write} (h : accepts s w = true) : isMutable s = true := by
  cases w <;> exact (Bool.and_eq_true_iff.mp h).1

namespace Embeds

variable (e : Embeds wrap) {id : TransactionId}
include e

theorem name (m : Memory) : Source.name (wrap m) = m.name := congrArg Reader.name (e.reader m)

theorem accepts (m : Memory) : Source.accepts (wrap m) = Source.accepts m := by
  funext w
  cases w with
  | put key value => rw [Source.accepts, Source.accepts, e.isMutable, e.isWritable]; rfl
  | remove key => rw [Source.accepts, Source.accepts, e.isMutable, e.isRemovable]; rfl

theorem accepts_eq (m : Memory) (w : Write) :
    Source.accepts (wrap m) w = !m.isReadOnly w.key := by
  rw [e.accepts, Memory.accepts_eq]

/-- What routes look at in a memory is its name and its read-only keys. -/
theorem profile_congr {m m' : Memory} (name : m'.name = m.name)
    (readOnly : m'.readOnly = m.readOnly) :
    profile (wrap m') = profile (wrap m) := by
  refine Prod.ext ((e.name m').trans (name.trans (e.name m).symm)) ?_
  funext w
  show Source.accepts (wrap m') w = Source.accepts (wrap m) w
  rw [e.accepts_eq, e.accepts_eq, Memory.isReadOnly, Memory.isReadOnly, readOnly]

theorem write (w : Write) (m : Memory) :
    Source.write id w (wrap m) = Attempt.within wrap (Source.write id w m) := by
  cases w with
  | put key value => exact e.put id key value m
  | remove key => exact e.remove id key m

theorem writeAll (ws : List Write) (m : Memory) :
    Source.writeAll id ws (wrap m) = wrap (Source.writeAll id ws m) := by
  induction ws generalizing m with
  | nil => rfl
  | cons w rest ih =>
    rw [Source.writeAll, List.foldl_cons, e.write]
    exact ih _

/-- An accepted write succeeds, under an open transaction, and nothing but its area is changed. -/
theorem write_holds {s : σ} {w : Write} (hs : Holds wrap id s) (hw : Source.accepts s w = true) :
    (Source.write id w s).1 = .ok () ∧ Holds wrap id (Source.write id w s).2 ∧
    Source.isMutable (Source.write id w s).2 = Source.isMutable s ∧
    profile (Source.write id w s).2 = profile s := by
  obtain ⟨m, c, rfl, hc⟩ := hs (isMutable_of_accepts hw)
  rw [e.accepts] at hw
  rw [e.write, Memory.write_of_accepted hc hw]
  refine ⟨rfl, fun _ => ⟨_, c.stage w, rfl, Std.ExtTreeMap.getElem?_insert_self⟩, ?_, ?_⟩
  · exact (e.isMutable _).trans (e.isMutable m).symm
  · exact e.profile_congr rfl rfl

/-- Under an open transaction a wrapped memory takes all that it accepts. -/
theorem yields (id : TransactionId) : Yields id (Holds wrap id) where
  ok hs hw := (e.write_holds hs hw).1
  keeps hs hw := (e.write_holds hs hw).2.1
  isMutable hs hw := (e.write_holds hs hw).2.2.1
  profile hs hw := (e.write_holds hs hw).2.2.2
  putAll {s entries} hs hm hes := by
    obtain ⟨m, c, rfl, hc⟩ := hs hm
    simp only [e.accepts] at hes
    -- A memory writes a table entry by entry, so no entry fails where each is accepted.
    have inner : Source.putAll id entries m = _ := Memory.putEach_of_accepted entries.toList hc hes
    rw [e.putAll, inner, e.writeAll]
    rfl

end Embeds

end Source

/-- What goes to a source is accepted by it. -/
theorem Route.accepts_of_mem_share [Source σ] (r : Route) {sources : List σ} {p : Nat} {s : σ}
    {c : Change} (hs : sources[p]? = some s) {w : Write} (hw : w ∈ r.share sources p c) :
    Source.accepts s w = true := by
  simp only [share, hs] at hw
  exact (r.mem_and_accepts_of_taken hw).2

end LayeredConfig
