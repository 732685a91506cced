import LayeredConfig.Proofs.Transaction.Memories

/-!
# Where a change goes

A policy has three ways to stage: one write, several writes together and several removals, and the
policies walk through keys and sources in different orders. **`Route.stages_its_shares` says that
the order is not seen**: on memories with an open transaction, the staging area of each is what it
was with its share of the writes made one by one, in whatever order, and nothing else has changed.
So it is also the same to ask the policy for each write alone.

Two facts carry it. Where nothing is refused a policy hands every source its share
(`Route.stage_of_yields`), and the writes of one change have different keys or are equal, so that
they can be staged in any order (`ChangeSet.stageAll_perm`).
-/

set_option autoImplicit false

namespace LayeredConfig

variable {σ : Type}

/-! ## The writes of one change -/

/-- A write as a change of its own. -/
def Write.alone : Write → Change
  | .put key value => .put key value
  | .remove key => .remove [key]

theorem Write.alone_writes (w : Write) : w.alone.writes = [w] := by cases w <;> rfl

/-- A change has one write for each key, though a removal may be asked for repeatedly. -/
theorem Change.eq_of_key_eq {c : Change} {w w' : Write} (hw : w ∈ c.writes) (hw' : w' ∈ c.writes)
    (same : w.key = w'.key) : w = w' := by
  cases c with
  | put key value => rw [List.mem_singleton.mp hw, List.mem_singleton.mp hw']
  | putAll entries =>
    obtain ⟨⟨key, value⟩, mem, rfl⟩ := List.mem_map.mp hw
    obtain ⟨⟨key', value'⟩, mem', rfl⟩ := List.mem_map.mp hw'
    obtain rfl : key = key' := same
    rw [Std.ExtTreeMap.mem_toList_iff_getElem?_eq_some] at mem mem'
    rw [Option.some.inj (mem.symm.trans mem')]
  | remove keys =>
    obtain ⟨key, -, rfl⟩ := List.mem_map.mp hw
    obtain ⟨key', -, rfl⟩ := List.mem_map.mp hw'
    exact congrArg Write.remove same

/-- A memory after its part of the writes of one change, in any order. -/
theorem Memory.writeAll_perm {m : Memory} {id : TransactionId} {changes : ChangeSet} {c : Change}
    {ws ws' : List Write} (area : m.staged[id]? = some changes) (perm : ws.Perm ws')
    (part : ∀ w ∈ ws, w ∈ c.writes ∧ Source.accepts m w = true) :
    Source.writeAll id ws m = Source.writeAll id ws' m := by
  obtain ⟨staged, written, here, elsewhere⟩ :=
    writeAll_of_accepted ws area fun w hw => (part w hw).2
  obtain ⟨staged', written', here', elsewhere'⟩ :=
    writeAll_of_accepted ws' area fun w hw => (part w (perm.mem_iff.mpr hw)).2
  -- The two areas have the same writes in another order, and all else is as it was before.
  have same : staged = staged' := by
    refine Std.ExtTreeMap.ext_getElem? ?_
    intro other
    by_cases ho : other = id
    · rw [ho, here, here', changes.stageAll_perm
        (fun w hw w' hw' => Change.eq_of_key_eq (part w hw).1 (part w' hw').1) perm]
    · rw [elsewhere other ho, elsewhere' other ho]
  rw [written, written', same]

/-! ## One write after another -/

variable [Source σ]

/-- Asking a policy for one write after another gives each source its part of them. -/
theorem Route.each_alone_of_yields {id : TransactionId} {Inv : σ → Prop}
    (y : Source.Yields id Inv) (r : Route) (ws : List Write) {sources : List σ}
    (h : ∀ s ∈ sources, Inv s) :
    Attempt.each (fun w => r.policy.stage id w.alone) ws sources =
      (.ok (), sources.mapIdx fun p s =>
        Source.writeAll id (ws.filter (r.takes (sources.take p) s)) s) := by
  refine r.each_of_yields y (fun w sources h => ?_) ws h
  rw [r.stage_of_yields y w.alone h]
  refine congrArg _ (List.ext_getElem? ?_)
  intro p
  rw [List.getElem?_mapIdx, List.getElem?_mapIdx]
  cases hs : sources[p]? with
  | none => rfl
  | some s =>
    simp only [Option.map_some, share, hs, hand, Write.alone_writes, List.filter_cons,
      List.filter_nil]
    split
    · rfl
    · rfl

/-- What a source makes of its part of the writes of one change does not depend on their order. -/
theorem Source.Embeds.writeAll_perm {wrap : Memory → σ} (e : Source.Embeds wrap)
    {id : TransactionId} {c : Change} {s : σ} (held : Source.Holds wrap id s) {ws ws' : List Write}
    (perm : ws.Perm ws') (part : ∀ w ∈ ws, w ∈ c.writes ∧ Source.accepts s w = true) :
    Source.writeAll id ws s = Source.writeAll id ws' s := by
  cases ws with
  -- A source with no part of the change need not be writable, so `held` says nothing about it.
  | nil => rw [perm.nil_eq]
  | cons w rest =>
    obtain ⟨m, changes, rfl, area⟩ := held (Source.isMutable_of_accepts (part w (by simp)).2)
    rw [e.accepts] at part
    rw [e.writeAll, e.writeAll, Memory.writeAll_perm area perm part]

namespace Route

variable {wrap : Memory → σ}

/-- A change is staged as its writes are in any order. -/
theorem stage_perm (e : Source.Embeds wrap) (r : Route) {id : TransactionId} {c : Change}
    {sources : List σ} (held : ∀ s ∈ sources, Source.Holds wrap id s) {order : List Write}
    (perm : order.Perm c.writes) :
    r.policy.stage id c sources = (.ok (), sources.mapIdx fun p s =>
      Source.writeAll id (order.filter (r.takes (sources.take p) s)) s) := by
  rw [r.stage_of_yields (e.yields id) c held]
  refine congrArg _ (List.ext_getElem? ?_)
  intro p
  rw [List.getElem?_mapIdx, List.getElem?_mapIdx]
  cases hs : sources[p]? with
  | none => rfl
  | some s =>
    simp only [Option.map_some, share, hs]
    refine congrArg some (e.writeAll_perm (held s (List.mem_of_getElem? hs))
      (perm.symm.filter _) fun w hw => r.mem_and_accepts_of_taken hw)

/-- **Routing is exact.** On sources of which the writable ones are memories with an open
    transaction, a policy stages a change without a failure. What it makes of the sources is the
    same as if it were asked for the writes of the change one by one, in any order: the writes of a
    table, or the removals, of which some may be repeated.

    A source that none of the writes goes to stays as it is. Of any other memory nothing changes but
    the area of this transaction, and that has the memory's share of the writes staged on it, again
    in any order. Which writes these are is what `takes` says: those of an accepted key, and of them
    all, those of a selected source, those that no source above accepts, or none. -/
theorem stages_its_shares (e : Source.Embeds wrap) (r : Route) (id : TransactionId) (c : Change)
    {sources : List σ} (held : ∀ s ∈ sources, Source.Holds wrap id s) :
    ∃ after, r.policy.stage id c sources = (.ok (), after) ∧ after.length = sources.length ∧
      (∀ order : List Write, order.Perm c.writes →
        Attempt.each (fun w => r.policy.stage id w.alone) order sources = (.ok (), after)) ∧
      (∀ (p : Nat) s, sources[p]? = some s →
        Source.isMutable s = false ∨ (∀ w ∈ c.writes, r.takes (sources.take p) s w = false) →
        after[p]? = some s) ∧
      ∀ (p : Nat) m changes, sources[p]? = some (wrap m) → m.staged[id]? = some changes →
        ∃ staged, after[p]? = some (wrap { m with staged := staged }) ∧
          (∀ order : List Write, order.Perm c.writes →
            staged[id]? =
              some (changes.stageAll (order.filter (r.takes (sources.take p) (wrap m))))) ∧
          ∀ other, other ≠ id → staged[other]? = m.staged[other]? := by
  refine ⟨_, r.stage_perm e held (.refl _), List.length_mapIdx, ?_, ?_, ?_⟩
  · intro order perm
    -- Made one by one, the writes reach each source in the order they are made in; so `stage_perm`
    -- takes both sides to that order.
    rw [r.each_alone_of_yields (e.yields id) order held, ← r.stage_perm e held perm,
      r.stage_perm e held (.refl _)]
  · intro p s hs untouched
    -- Nothing of the change goes to this source: it accepts nothing, or nothing is for it.
    have share_nil : c.writes.filter (r.takes (sources.take p) s) = [] := by
      refine List.filter_eq_nil_iff.mpr fun w hw taken => ?_
      rcases untouched with unwritable | none
      · have accepted := (Bool.and_eq_true_iff.mp taken).1
        exact nomatch unwritable.symm.trans (Source.isMutable_of_accepts accepted)
      · exact nomatch (none w hw).symm.trans taken
    rw [List.getElem?_mapIdx, hs, Option.map_some, share_nil]
    rfl
  · intro p m changes hs area
    have part (w : Write) (hw : w ∈ c.writes.filter (r.takes (sources.take p) (wrap m))) :
        w ∈ c.writes ∧ Source.accepts m w = true := by
      rw [← e.accepts]
      exact r.mem_and_accepts_of_taken hw
    obtain ⟨staged, written, here, elsewhere⟩ :=
      Memory.writeAll_of_accepted _ area fun w hw => (part w hw).2
    refine ⟨staged, ?_, fun order perm => ?_, elsewhere⟩
    · rw [List.getElem?_mapIdx, hs, Option.map_some, e.writeAll, written]
    · rw [here, changes.stageAll_perm (fun w hw w' hw' => ?_) (perm.symm.filter _)]
      exact Change.eq_of_key_eq (part w hw).1 (part w' hw').1

/-- Removals of five keys, one of them twice, from two memories with read-only prefixes, each key
    from the highest memory that gives it up. Nobody gives up `a.b.k`; the lower memory has already
    staged a write of `a.k`. -/
theorem stages_its_shares_overlapping :
    let id : TransactionId := .ofNat 0
    let begun := ChangeSet.start id ⟨0, 0⟩
    let working (changes : ChangeSet) (m : Memory) : Memory :=
      { m with staged := m.staged.insert id changes }
    let high := working begun (.ofPairs "high" 2 ["a.", "c"] [("x", "1")])
    let low := working (begun.put "a.k" "2") (.ofPairs "low" 1 ["a.b.", "x"] [("x", "2")])
    let sources : List AnySource := [.memory high, .table ⟨"file", 1, ∅⟩, .memory low]
    let keys := ["x", "a.k", "a.b.k", "x", "c.k", "z"]
    ∃ after, Route.mostSignificant.policy.stage id (.remove keys) sources = (.ok (), after) ∧
      after[1]? = sources[1]? ∧
      (∃ staged, after[0]? = some (.memory { high with staged := staged }) ∧
        staged[id]? = some (begun.removeAll ["z", "x", "x"])) ∧
      ∃ staged, after[2]? = some (.memory { low with staged := staged }) ∧
        staged[id]? = some ((begun.put "a.k" "2").removeAll ["c.k", "a.k"]) := by
  intro id begun working high low sources keys
  have area (changes : ChangeSet) (m : Memory) : (working changes m).staged[id]? = some changes :=
    Std.ExtTreeMap.getElem?_insert_self
  have held : ∀ s ∈ sources, Source.Holds AnySource.memory id s := by
    simp only [sources, List.forall_mem_cons]
    exact ⟨fun _ => ⟨_, _, rfl, area _ _⟩, fun unwritable => (nomatch unwritable),
      fun _ => ⟨_, _, rfl, area _ _⟩, fun _ none => (nomatch none)⟩
  obtain ⟨after, ok, -, -, untouched, shares⟩ :=
    stages_its_shares AnySource.embeds .mostSignificant id (.remove keys) held
  have backwards := (Change.remove keys).writes.reverse_perm
  refine ⟨after, ok, untouched 1 _ rfl (.inl rfl), ?_, ?_⟩
  · obtain ⟨staged, there, mine, -⟩ := shares 0 high _ rfl (area _ _)
    refine ⟨staged, there, (mine _ backwards).trans ?_⟩
    have share : (Change.remove keys).writes.reverse.filter
        (mostSignificant.takes (sources.take 0) (.memory high)) =
          [.remove "z", .remove "x", .remove "x"] := by decide +kernel
    rw [share]
    rfl
  · obtain ⟨staged, there, mine, -⟩ := shares 2 low _ rfl (area _ _)
    refine ⟨staged, there, (mine _ backwards).trans ?_⟩
    have share : (Change.remove keys).writes.reverse.filter
        (mostSignificant.takes (sources.take 2) (.memory low)) =
          [.remove "c.k", .remove "a.k"] := by decide +kernel
    rw [share]
    rfl

end Route

end LayeredConfig
