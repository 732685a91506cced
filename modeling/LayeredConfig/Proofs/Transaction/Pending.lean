import LayeredConfig.Proofs.Transaction.Merging
import LayeredConfig.Proofs.Transaction.Readiness
import LayeredConfig.Proofs.Verdicts

/-!
# What is pending under a transaction

The changes that the sources report under a transaction are merged from the highest source to the
lowest, each over what came before. Nothing is assumed of the reports: a source may report anything,
and may have a key on both sides.

* **`View.pending_merges`**: no key is lost, none is added, none ends up on both sides, and the
  start is the earliest that is reported.
* **`View.pending_of_lowest`**: where several sources have staged something for one key, the lowest
  of them is told. A look-up asks the highest source first, so what is told is not what will be in
  effect (`View.pending_hides_highest`).

A merge is a staging, so both go by the verdicts on one key: that of the merged set is the verdict
of the last part that has one (`ChangeSet.verdict?_merges`).

## How a merge is told key by key

`ChangeSet.merge` puts all values of a part into the merged set and then takes its removals out. As
writes that is one list, the values first, so that a merge is a staging (`merge_eq`) and the verdict
on a key is the last write to it (`verdict?_stageAll`). A part that has a key on both sides ends up
with the removal, as the removals come last; the merged set has no key on both sides whatever the
parts are.

From there on a report is known by the list of its verdicts (`Shared.stagings`), and the questions
what is lost, what is added and who wins are questions about the last element of a list.
-/

set_option autoImplicit false

namespace LayeredConfig

/-! ## The earliest start -/

namespace Timestamp

variable {a b c : Timestamp}

/-- No time is before itself. -/
theorem before_irrefl (a : Timestamp) : a.before a = false := by
  simp [before]

/-- The order of times is total, so that not to be before is transitive. -/
theorem not_before_trans (hab : a.before b = false) (hbc : b.before c = false) :
    a.before c = false := by
  simp only [before, Bool.or_eq_false_iff, Bool.and_eq_false_iff, decide_eq_false_iff_not,
    beq_eq_false_iff_ne] at *
  omega

theorem not_before_of_before (h : a.before b = true) : b.before a = false := by
  simp only [before, Bool.or_eq_true, Bool.and_eq_true, decide_eq_true_eq, beq_iff_eq] at h
  simp only [before, Bool.or_eq_false_iff, Bool.and_eq_false_iff, decide_eq_false_iff_not,
    beq_eq_false_iff_ne]
  omega

/-- The earlier of two times is one of them. -/
theorem earlier_eq (a b : Timestamp) : a.earlier b = a ∨ a.earlier b = b := by
  unfold earlier
  split
  · exact .inr rfl
  · exact .inl rfl

/-- Neither of two times is before the earlier one. -/
theorem not_before_earlier (a b : Timestamp) :
    a.before (a.earlier b) = false ∧ b.before (a.earlier b) = false := by
  unfold earlier
  split
  case isTrue h => exact ⟨not_before_of_before h, before_irrefl b⟩
  case isFalse h => exact ⟨before_irrefl a, Bool.eq_false_iff.mpr h⟩

end Timestamp

namespace ChangeSet

/-- The least of a start and those of several sets is one of them, and none is before it. -/
theorem foldl_earlier (cs : List ChangeSet) (t : Timestamp) :
    let least := cs.foldl (fun t c => t.earlier c.startedAt) t
    (least = t ∨ ∃ c ∈ cs, c.startedAt = least) ∧
      t.before least = false ∧ ∀ c ∈ cs, c.startedAt.before least = false := by
  induction cs generalizing t with
  | nil => exact ⟨.inl rfl, t.before_irrefl, fun _ hc => nomatch hc⟩
  | cons c rest ih =>
    obtain ⟨attained, below, others⟩ := ih (t.earlier c.startedAt)
    obtain ⟨ht, hc⟩ := t.not_before_earlier c.startedAt
    refine ⟨?_, Timestamp.not_before_trans ht below, ?_⟩
    -- The least is the start itself, the first set, or one of the rest; the first two are told
    -- apart by which of them is the earlier one.
    · rcases attained with same | ⟨c', mem, same⟩
      · rcases t.earlier_eq c.startedAt with old | new
        · exact .inl (same.trans old)
        · exact .inr ⟨c, List.mem_cons_self, (same.trans new).symm⟩
      · exact .inr ⟨c', List.mem_cons_of_mem c mem, same⟩
    · rintro c' (_ | ⟨_, mem⟩)
      · exact Timestamp.not_before_trans hc below
      · exact others c' mem

theorem earliest?_eq_none_iff {cs : List ChangeSet} : earliest? cs = none ↔ cs = [] := by
  cases cs with
  | nil => exact iff_of_true rfl rfl
  | cons c rest => exact iff_of_false (fun h => nomatch h) (fun h => nomatch h)

/-- The earliest start is that of some set, and no set has started before. -/
theorem earliest?_spec {cs : List ChangeSet} {t : Timestamp} (h : earliest? cs = some t) :
    (∃ c ∈ cs, c.startedAt = t) ∧ ∀ c ∈ cs, c.startedAt.before t = false := by
  cases cs with
  | nil => exact nomatch h
  | cons c rest =>
    obtain ⟨attained, first, others⟩ := foldl_earlier rest c.startedAt
    rw [Option.some_inj.mp h] at attained first others
    refine ⟨?_, List.forall_mem_cons.mpr ⟨first, others⟩⟩
    rcases attained with same | ⟨c', mem, same⟩
    · exact ⟨c, List.mem_cons_self, same.symm⟩
    · exact ⟨c', List.mem_cons_of_mem c mem, same⟩

/-! ## Merging -/

variable {c part : ChangeSet} {parts : List ChangeSet}

/-- The transaction and the start of a set are not touched by what is staged. -/
theorem heading_stageAll (c : ChangeSet) (ws : List Write) :
    (c.stageAll ws).transaction = c.transaction ∧ (c.stageAll ws).startedAt = c.startedAt := by
  induction ws generalizing c with
  | nil => exact ⟨rfl, rfl⟩
  | cons w rest ih =>
    obtain ⟨transaction, startedAt⟩ := ih (c.stage w)
    cases w <;> exact ⟨transaction, startedAt⟩

/-- Merging adds to the two sides, and to nothing else. -/
theorem heading_merges (parts : List ChangeSet) (c : ChangeSet) :
    (parts.foldl merge c).transaction = c.transaction ∧
      (parts.foldl merge c).startedAt = c.startedAt := by
  induction parts generalizing c with
  | nil => exact ⟨rfl, rfl⟩
  | cons part rest ih =>
    have step : (c.merge part).transaction = c.transaction ∧
        (c.merge part).startedAt = c.startedAt := by
      rw [merge_eq]
      exact c.heading_stageAll _
    exact ⟨(ih _).1.trans step.1, (ih _).2.trans step.2⟩

/-- A merge leaves no key on both sides, whatever is merged. -/
theorem Exclusive.merges (h : c.Exclusive) (parts : List ChangeSet) :
    (parts.foldl merge c).Exclusive := by
  induction parts generalizing c with
  | nil => exact h
  | cons part rest ih =>
    refine ih ?_
    rw [merge_eq]
    exact h.stageAll _

/-- A table has at most one entry for a key. -/
theorem last?_puts (entries : Entries) (key : String) :
    Write.last? key (entries.toList.map fun entry => .put entry.1 entry.2) =
      entries[key]?.map (.put key) := by
  -- A last write to the key is an entry of the table, and if there is none the table has no entry
  -- for it. There is no need to know in which order the entries come.
  cases hl : Write.last? key (entries.toList.map fun entry => .put entry.1 entry.2) with
  | some w =>
    obtain ⟨mem, rfl⟩ := Write.mem_of_last? hl
    obtain ⟨⟨key, value⟩, entry, rfl⟩ := List.mem_map.mp mem
    have value? := Std.ExtTreeMap.mem_toList_iff_getElem?_eq_some.mp entry
    simp only [Write.key, value?, Option.map_some]
  | none =>
    cases value? : entries[key]? with
    | none => rfl
    | some value =>
      have entry := Std.ExtTreeMap.mem_toList_iff_getElem?_eq_some.mpr value?
      exact absurd rfl (Write.last?_eq_none_iff.mp hl _ (List.mem_map_of_mem entry))

/-- The last removal of a key is the removal of it, if there is one at all. -/
theorem last?_removes (keys : List String) (key : String) :
    Write.last? key (keys.map .remove) = if key ∈ keys then some (.remove key) else none := by
  induction keys with
  | nil => rfl
  | cons k rest ih =>
    rw [List.map_cons, Write.last?_cons, ih]
    by_cases hk : k = key
    · by_cases hr : key ∈ rest <;> simp [Write.key, hk, hr]
    · by_cases hr : key ∈ rest <;> simp [Write.key, hk, hr, Ne.symm hk]

/-- A part decides the keys that it has a verdict on; the others stay as they have been merged. -/
theorem verdict?_merge (c part : ChangeSet) (key : String) :
    (c.merge part).verdict? key = (part.verdict? key).or (c.verdict? key) := by
  rw [merge_eq, verdict?_stageAll, Write.last?_append, last?_removes, last?_puts]
  simp only [Std.ExtTreeSet.mem_toList]
  -- A removal comes after the values, so that it decides.
  by_cases removed : key ∈ part.removed
  · simp [verdict?, removed]
  · simp [verdict?, removed]

/-- **The last part that has a verdict gives it.** -/
theorem verdict?_merges (parts : List ChangeSet) (c : ChangeSet) (key : String) :
    (parts.foldl merge c).verdict? key =
      (parts.filterMap (·.verdict? key)).getLast?.or (c.verdict? key) := by
  induction parts generalizing c with
  | nil => rfl
  | cons part rest ih =>
    rw [List.foldl_cons, ih, verdict?_merge, ← Option.or_assoc, List.filterMap_cons]
    -- The first part counts only if none of the rest has a verdict.
    cases part.verdict? key with
    | none => simp
    | some w => simp [List.getLast?_cons, Option.or_some]

end ChangeSet

/-! ## What the sources report -/

variable {σ : Type} [Source σ] {shared : Shared σ} {v : View σ} {id : TransactionId}
  {now : Timestamp} {key : String}

/-- A writable source reports a set of changes under a transaction. -/
def Shared.Reports (shared : Shared σ) (id : TransactionId) (part : ChangeSet) : Prop :=
  ∃ s ∈ shared.context.sources, Source.isMutable s = true ∧ Source.changes? s id = some part

theorem Shared.mem_reported {part : ChangeSet} :
    part ∈ shared.reported id ↔ shared.Reports id part := by
  simp only [reported, Reports, List.mem_filterMap, List.mem_filter, and_assoc]

/-- What a writable source has staged for a key. -/
def Source.staged? (id : TransactionId) (key : String) (s : σ) : Option Write :=
  if isMutable s then (changes? s id).bind (·.verdict? key) else none

/-- What the sources have staged for a key, from the highest to the lowest. -/
def Shared.stagings (shared : Shared σ) (id : TransactionId) (key : String) : List Write :=
  shared.context.sources.filterMap (Source.staged? id key)

theorem Shared.verdicts_reported (shared : Shared σ) (id : TransactionId) (key : String) :
    (shared.reported id).filterMap (·.verdict? key) = shared.stagings id key := by
  rw [reported, List.filterMap_filterMap, List.filterMap_filter]
  rfl

theorem Shared.mem_stagings {w : Write} :
    w ∈ shared.stagings id key ↔ ∃ part, shared.Reports id part ∧ part.verdict? key = some w := by
  rw [← verdicts_reported, List.mem_filterMap]
  simp only [mem_reported]

theorem Shared.isSome_getLast?_stagings : (shared.stagings id key).getLast?.isSome ↔
    ∃ part, shared.Reports id part ∧ (part.verdict? key).isSome := by
  rw [List.getLast?_isSome, ← List.isEmpty_eq_false_iff,
    List.isEmpty_eq_false_iff_exists_mem]
  simp only [mem_stagings, Option.isSome_iff_exists]
  exact ⟨fun ⟨w, part, reports, h⟩ => ⟨part, reports, w, h⟩,
    fun ⟨part, reports, w, h⟩ => ⟨w, part, reports, h⟩⟩

namespace View

theorem pending?_eq (opened : v.lifecycle.opening = some (id, now)) (shared : Shared σ) :
    v.pending? shared = some ((shared.reported id).foldl ChangeSet.merge
      (.start id ((ChangeSet.earliest? (shared.reported id)).getD now))) := by
  rw [pending?, opened]
  rfl

/-- What is pending for a key is what was staged last on the way down. -/
theorem verdict?_pending (opened : v.transaction? = some id) (shared : Shared σ) :
    ∃ pending, v.pending? shared = some pending ∧ pending.Exclusive ∧
      ∀ key, pending.verdict? key = (shared.stagings id key).getLast? := by
  obtain ⟨⟨id, now⟩, opening, rfl⟩ := Option.map_eq_some_iff.mp opened
  refine ⟨_, pending?_eq opening shared, (ChangeSet.exclusive_start _ _).merges _, ?_⟩
  intro key
  rw [ChangeSet.verdict?_merges, ChangeSet.verdict?_start, Option.or_none, Shared.verdicts_reported]

/-! ## Any reports -/

/-- Something is pending exactly while a transaction is open. -/
theorem pending?_eq_none_iff (steady : v.lifecycle.Steady) (shared : Shared σ) :
    v.pending? shared = none ↔ v.lifecycle.state ≠ .open := by
  unfold pending?
  rcases steady with hl | ⟨id, now, hl⟩
  · rw [hl]
    exact iff_of_true rfl (fun h => nomatch h)
  · rw [hl]
    exact iff_of_false (fun h => nomatch h) (fun h => h rfl)

/-- What is pending is pending under the open transaction, from the earliest start that is known. -/
theorem heading_pending {pending : ChangeSet} (h : v.pending? shared = some pending) :
    v.transaction? = some pending.transaction ∧
    v.lifecycle.startedAt?.map
      (ChangeSet.earliest? (shared.reported pending.transaction)).getD = some pending.startedAt := by
  obtain ⟨⟨id, now⟩, opening, rfl⟩ := Option.map_eq_some_iff.mp h
  obtain ⟨transaction, startedAt⟩ := ChangeSet.heading_merges (shared.reported id)
    (.start id ((ChangeSet.earliest? (shared.reported id)).getD now))
  dsimp only
  rw [transaction, startedAt, transaction?, Lifecycle.id?, Lifecycle.startedAt?, opening]
  exact ⟨rfl, rfl⟩

/-- Without a report the view itself says when it has started. -/
theorem startedAt_of_unreported {pending : ChangeSet} (h : v.pending? shared = some pending)
    (nobody : ∀ part, ¬shared.Reports pending.transaction part) :
    v.lifecycle.startedAt? = some pending.startedAt := by
  have nothing : shared.reported pending.transaction = [] :=
    List.eq_nil_iff_forall_not_mem.mpr fun part mem => nobody part (Shared.mem_reported.mp mem)
  obtain ⟨-, started⟩ := heading_pending h
  rw [nothing] at started
  simpa [ChangeSet.earliest?] using started

/-- With reports it is the earliest of theirs, whatever the view says. -/
theorem startedAt_of_reported {pending part : ChangeSet} (h : v.pending? shared = some pending)
    (somebody : shared.Reports pending.transaction part) :
    (∃ part, shared.Reports pending.transaction part ∧ part.startedAt = pending.startedAt) ∧
    ∀ part, shared.Reports pending.transaction part →
      part.startedAt.before pending.startedAt = false := by
  cases least : ChangeSet.earliest? (shared.reported pending.transaction) with
  -- There is a report, so there is an earliest one.
  | none =>
    rw [ChangeSet.earliest?_eq_none_iff] at least
    exact absurd (Shared.mem_reported.mpr somebody) (least ▸ List.not_mem_nil)
  | some t =>
    obtain ⟨-, started⟩ := heading_pending h
    rw [least] at started
    obtain ⟨_, -, rfl⟩ := Option.map_eq_some_iff.mp started
    obtain ⟨⟨c, mem, attained⟩, below⟩ := ChangeSet.earliest?_spec least
    exact ⟨⟨c, Shared.mem_reported.mp mem, attained⟩,
      fun c reports => below c (Shared.mem_reported.mpr reports)⟩

/-- **What is pending is what is reported.** Take a new view with any policy, any requests to it one
    after the other, each at a time when anything at all is shared, and anything that is shared now.

    * Nothing is pending exactly when no transaction is open, and what is pending is pending under
      the open one.
    * If no source reports anything, it has started when the view says; otherwise when a source
      says, and no source says an earlier time.
    * Its keys are the keys that are reported, each on one side only, and every value is reported
      for its key. -/
theorem pending_merges (policy : Propagation σ) (visits : List (Shared σ × Request σ))
    (shared : Shared σ) :
    let v := (fresh.withPolicy policy).attend visits
    (v.pending? shared = none ↔ v.lifecycle.state ≠ .open) ∧
    ∀ pending, v.pending? shared = some pending →
      let Reported (part : ChangeSet) := shared.Reports pending.transaction part
      v.transaction? = some pending.transaction ∧
      ((∀ part, ¬Reported part) → v.lifecycle.startedAt? = some pending.startedAt) ∧
      ((∃ part, Reported part) →
        (∃ part, Reported part ∧ part.startedAt = pending.startedAt) ∧
        ∀ part, Reported part → part.startedAt.before pending.startedAt = false) ∧
      (∀ key, key ∈ pending.added ∨ key ∈ pending.removed ↔
        ∃ part, Reported part ∧ (key ∈ part.added ∨ key ∈ part.removed)) ∧
      (∀ key, ¬(key ∈ pending.added ∧ key ∈ pending.removed)) ∧
      ∀ key value : String, pending.added[key]? = some value →
        ∃ part, Reported part ∧ part.added[key]? = some value := by
  intro v
  refine ⟨pending?_eq_none_iff (attend_steady (.inl rfl) visits) shared, ?_⟩
  intro pending h Reported
  have opened := (heading_pending h).1
  obtain ⟨_, same, exclusive, verdicts⟩ := verdict?_pending opened shared
  obtain rfl := Option.some_inj.mp (same.symm.trans h)
  refine ⟨opened, startedAt_of_unreported h, fun ⟨_, reports⟩ => startedAt_of_reported h reports,
    ?keys, fun key both => exclusive key both.2 both.1, ?values⟩
  case keys =>
    intro key
    rw [← ChangeSet.isSome_verdict?, verdicts, Shared.isSome_getLast?_stagings]
    simp only [← ChangeSet.isSome_verdict?, Reported]
  case values =>
    intro key value added
    have last := (verdicts key).symm.trans
      (ChangeSet.verdict?_eq_put.mpr ⟨added, exclusive.not_removed added⟩)
    obtain ⟨part, reports, put⟩ := Shared.mem_stagings.mp (List.mem_of_getLast? last)
    exact ⟨part, reports, (ChangeSet.verdict?_eq_put.mp put).1⟩

/-- Both memories report `x`, the lower one on both sides, and its guard says another start. -/
theorem pending_merges_both_sides :
    let area (name : String) (added : List (String × String)) (removed : List String) : Memory :=
      { Memory.ofPairs name 0 [] [] with
        staged := (∅ : Std.ExtTreeMap TransactionId ChangeSet).insert (.ofNat 0)
          ⟨.ofNat 0, ⟨7, 0⟩, Entries.ofPairs added, Keys.ofKeys removed⟩ }
    let high := area "high" [("x", "1"), ("y", "2")] []
    let low := area "low" [("x", "3")] ["x", "z"]
    let v := (fresh.withPolicy .all).attend [(Shared.numbered [], .call .start)]
    let shared : Shared AnySource := Shared.numbered
      [.table (.ofPairs "table" [("x", "4")]), .memory high,
        .guarded ⟨low, fun _ => true, true, true, some ⟨5, 1⟩⟩]
    ∃ pending, v.pending? shared = some pending ∧ pending.transaction = .ofNat 0 ∧
      (∃ part, shared.Reports pending.transaction part ∧ part.startedAt = pending.startedAt) ∧
      ("x" ∈ pending.added ∨ "x" ∈ pending.removed) ∧
      ¬("x" ∈ pending.added ∧ "x" ∈ pending.removed) := by
  intro area high low v shared
  have isOpen : v.lifecycle.state = .open := by decide +kernel
  have working : v.transaction? = some (.ofNat 0) := by decide +kernel
  obtain ⟨absent, present⟩ := pending_merges .all [(Shared.numbered [], .call .start)] shared
  obtain ⟨pending, h⟩ := Option.ne_none_iff_exists'.mp fun none => absent.mp none isOpen
  obtain ⟨opened, -, starts, keys, sides, -⟩ := present pending h
  have id : pending.transaction = .ofNat 0 := Option.some_inj.mp (opened.symm.trans working)
  have reports : shared.Reports pending.transaction (high.staged[TransactionId.ofNat 0]) :=
    ⟨.memory high, by simp [shared, Shared.numbered], rfl, by rw [id]; rfl⟩
  exact ⟨pending, h, id, (starts ⟨_, reports⟩).1, (keys "x").mpr ⟨_, reports, .inl (by decide +kernel)⟩,
    sides "x"⟩

/-! ## Several sources, one key -/

/-- **The lowest source is told.** Whatever the sources have staged for a key, under any policies,
    what is pending for it is what the lowest of those sources has staged that have staged anything.
    So it is what the highest of them has staged exactly when the two have staged the same. -/
theorem pending_of_lowest (opened : v.transaction? = some id) (shared : Shared σ) :
    ∃ pending, v.pending? shared = some pending ∧ ∀ key highest lowest,
      (shared.stagings id key).head? = some highest →
      (shared.stagings id key).getLast? = some lowest →
      pending.Tells lowest ∧ (pending.Tells highest ↔ highest = lowest) := by
  obtain ⟨pending, h, exclusive, verdicts⟩ := verdict?_pending opened shared
  refine ⟨pending, h, fun key highest lowest first last => ?_⟩
  have sameKey {w : Write} (mem : w ∈ shared.stagings id key) : w.key = key := by
    obtain ⟨part, -, verdict⟩ := Shared.mem_stagings.mp mem
    exact ChangeSet.key_of_verdict? verdict
  rw [exclusive.tells_iff, exclusive.tells_iff, sameKey (List.mem_of_head? first),
    sameKey (List.mem_of_getLast? last), verdicts, last]
  exact ⟨rfl, by rw [Option.some_inj, eq_comm]⟩

/-- The higher memory takes no removals, so `x` is removed from the lower one only. -/
theorem pending_of_lowest_unremovable :
    let high := AnySource.guarded ⟨.ofPairs "high" 1 [] [], fun _ => false, true, false, none⟩
    let low := AnySource.memory (.ofPairs "low" 0 [] [])
    let o : Opening Unit AnySource := ⟨.numbered [high, low], fun _ => .all, fun _ => false⟩
    let d := o.desk.servedAll [((), .call (.change (.put "x" "1"))),
      ((), .call (.change (.put "y" "2"))), ((), .call (.change (.remove ["x"])))]
    ∃ pending, (d.view ()).pending? d.shared = some pending ∧
      pending.Tells (.remove "x") ∧ ¬pending.Tells (.put "x" "1") ∧
      pending.Tells (.put "y" "2") := by
  intro high low o d
  have opened : (d.view ()).transaction? = some (.ofNat 0) := by decide +kernel
  have x : d.shared.stagings (.ofNat 0) "x" = [.put "x" "1", .remove "x"] := by decide +kernel
  have y : d.shared.stagings (.ofNat 0) "y" = [.put "y" "2", .put "y" "2"] := by decide +kernel
  obtain ⟨pending, h, told⟩ := pending_of_lowest opened d.shared
  obtain ⟨lowest, highest⟩ := told "x" (.put "x" "1") (.remove "x") (by rw [x]; rfl) (by rw [x]; rfl)
  have same := told "y" (.put "y" "2") (.put "y" "2") (by rw [y]; rfl) (by rw [y]; rfl)
  exact ⟨pending, h, lowest, fun tells => absurd (highest.mp tells) (by decide), same.1⟩

/-- A view sends a write of `x` to the higher memory and then, its policy changed, another one to
    the lower memory. The second one is told, and after the commit the first one is read. -/
theorem pending_hides_highest :
    let memory (name : String) (ordinal : Int) := AnySource.memory (.ofPairs name ordinal [] [])
    let o : Opening Unit AnySource :=
      ⟨.numbered [memory "high" 1, memory "low" 0], fun _ => .selective ["high"], fun _ => false⟩
    let d := o.desk.servedAll [((), .call (.change (.put "x" "1"))),
      ((), .route (.selective ["low"])), ((), .call (.change (.put "x" "2")))]
    ∃ pending, (d.view ()).pending? d.shared = some pending ∧
      (d.shared.stagings pending.transaction "x").head? = some (.put "x" "1") ∧
      ¬pending.Tells (.put "x" "1") ∧ pending.Tells (.put "x" "2") ∧
      ((d.perform () .commit).shared.context.get "x").value = some "1" := by
  intro memory o d
  have opened : (d.view ()).transaction? = some (.ofNat 0) := by decide +kernel
  have staged : d.shared.stagings (.ofNat 0) "x" = [.put "x" "1", .put "x" "2"] := by decide +kernel
  obtain ⟨pending, h, exclusive, verdicts⟩ := verdict?_pending opened d.shared
  have id : pending.transaction = .ofNat 0 :=
    Option.some_inj.mp ((heading_pending h).1.symm.trans opened)
  have told : pending.verdict? "x" = some (.put "x" "2") := by rw [verdicts, staged]; rfl
  refine ⟨pending, h, by rw [id, staged]; rfl, ?_, exclusive.tells_iff.mpr told, by decide +kernel⟩
  intro tells
  exact absurd (told.symm.trans (exclusive.tells_iff.mp tells)) (by decide)

end View

end LayeredConfig
