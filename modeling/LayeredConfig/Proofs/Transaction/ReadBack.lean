import LayeredConfig.Proofs.Lookup.FirstFound
import LayeredConfig.Proofs.Transaction.Readiness

/-!
# What is committed is read

**`Desk.committed_is_read` follows one key through a commit and back**, at a desk after any
requests. A write of the key by a view that sends its changes to all memories, or to the highest
that accepts them, is found in the highest memory that accepts the key, unless a source above it has
the key; and after a removal from all memories the key is found where it can not be removed, if
anywhere.

What the view has staged before does not come in the way. It is committed with the last write, but
before it (`Memory.Turn`), and what has been staged are writes that the memory accepts, so a memory
that does not accept the key has nothing new for it.

## What is followed

The sources are taken as they are after the requests (`Desk.Ready`), as lists of writes and areas by
position. One change and one commit are two turns of every memory, put together to one
(`View.change_then_commit`), with automatic commit just as without. What a memory has for the key
after it is read off the last write (`Memory.Turn.value?_of_put`, `value?_of_remove`), or, where the
key is not accepted, off the fact that no write was to it (`value?_of_readOnly`). The look-up then
is a search for the first source that has something, and it is asked source by source.

Without the overriding policy or with filters something else would be read, but the same would be
found in each source; so these come in at the very end.
-/

set_option autoImplicit false

namespace LayeredConfig

variable {ι σ : Type}

/-! ## One key of one memory -/

namespace Write

variable {ws : List Write} {table : Entries} {key value : String}

/-- Writes of other keys are not seen. -/
theorem getElem?_replay_of_ne (h : ∀ w ∈ ws, w.key ≠ key) :
    (replay ws table)[key]? = table[key]? := by
  induction ws generalizing table with
  | nil => rfl
  | cons w ws ih =>
    obtain ⟨hw, hrest⟩ := List.forall_mem_cons.mp h
    rw [replay, List.foldl_cons]
    refine (ih hrest).trans ?_
    cases w with
    | put k value =>
      have other : k ≠ key := hw
      simp [apply, Std.ExtTreeMap.getElem?_insert, other]
    | remove k =>
      have other : k ≠ key := hw
      simp [apply, Std.ExtTreeMap.getElem?_erase, other]

theorem getElem?_replay_put (ws : List Write) (table : Entries) (key value : String) :
    (replay (ws ++ [.put key value]) table)[key]? = some value := by
  rw [replay_append]
  exact Std.ExtTreeMap.getElem?_insert_self

theorem getElem?_replay_remove (ws : List Write) (table : Entries) (key : String) :
    (replay (ws ++ [.remove key]) table)[key]? = none := by
  rw [replay_append]
  exact Std.ExtTreeMap.getElem?_erase_self

end Write

namespace Memory.Turn

variable {id : TransactionId} {draft : Option (List Write)} {ws : List Write} {m m' : Memory}
  {key value : String}

/-- What a memory has for a key after its turn. -/
theorem value?_eq (turn : Turn id draft ws m m') (key : String) :
    m'.value? key = (Write.replay ws m.committed)[key]?.map fun value => .plain key value m.name := by
  rw [value?, turn.committed, turn.name]

/-- What a memory does not accept, it does not get. -/
theorem value?_of_readOnly (turn : Turn id draft ws m m')
    (accepted : ∀ w ∈ ws, Source.accepts m w = true)
    (readOnly : m.isReadOnly key = true) : m'.value? key = m.value? key := by
  have others : ∀ w ∈ ws, w.key ≠ key := by
    intro w hw same
    have taken := accepted w hw
    rw [accepts_eq, same, readOnly] at taken
    exact nomatch taken
  rw [turn.value?_eq, Write.getElem?_replay_of_ne others]
  rfl

theorem value?_of_put (turn : Turn id draft (ws ++ [.put key value]) m m') :
    m'.value? key = some (.plain key value m.name) := by
  rw [turn.value?_eq, Write.getElem?_replay_put]
  rfl

theorem value?_of_remove (turn : Turn id draft (ws ++ [.remove key]) m m') :
    m'.value? key = none := by
  rw [turn.value?_eq, Write.getElem?_replay_remove]
  rfl

end Memory.Turn

/-! ## One key of many sources -/

/-- An element, what is before it and what is after it. -/
theorem split_of_getElem? {α : Type} {l : List α} {p : Nat} {a : α} (here : l[p]? = some a) :
    l = l.take p ++ a :: l.drop (p + 1) := by
  rw [← List.singleton_append, ← Option.toList_some, ← here, ← List.drop_eq_getElem?_toList_append,
    List.take_append_drop]

/-- The first element with an answer, by its position. -/
theorem findSome?_of_first {α β : Type} {l : List α} {f : α → Option β} {p : Nat} {a : α} {b : β}
    (here : l[p]? = some a) (found : f a = some b)
    (above : ∀ q < p, ∀ u, l[q]? = some u → f u = none) : l.findSome? f = some b := by
  rw [List.findSome?_eq_some_iff]
  refine ⟨l.take p, a, l.drop (p + 1), split_of_getElem? here, found, fun u hu => ?_⟩
  obtain ⟨q, hq, rfl⟩ := List.mem_take_iff_getElem.mp hu
  exact above q (by omega) _ (List.getElem?_eq_getElem _)

/-- A change with a single write, at a source that is to have it. -/
theorem Route.share_eq_singleton [Source σ] {r : Route} {sources : List σ} {p : Nat} {s : σ}
    {c : Change} {w : Write} (hs : sources[p]? = some s) (single : c.writes = [w])
    (takes : r.takes (sources.take p) s w = true) : r.share sources p c = [w] := by
  simp only [share, hs, single, List.filter_cons, takes, if_true, List.filter_nil]

namespace Source

variable [Source σ] {wrap : Memory → σ} {id : TransactionId} {draft : Option (List Write)}
  {ws : List Write} {w : Write} {s s' : σ}

/-- What is found for a key after a write of it. -/
def found (name : String) : Write → Option PropertyValue
  | .put key value => some (.plain key value name)
  | .remove _ => none

variable (e : Embeds wrap)
include e

theorem Embeds.value? (m : Memory) (key : String) :
    (Source.reader (wrap m)).value? key = m.value? key := by
  rw [e.reader]
  rfl

/-- A source that does not accept a write has for its key what it had before. -/
theorem Became.value?_of_refused (became : Became wrap (Memory.Turn id draft ws) s s')
    (accepted : isMutable s = true → ∀ w ∈ ws, accepts s w = true) (refused : accepts s w = false) :
    (reader s').value? w.key = (reader s).value? w.key := by
  cases became with
  | same => rfl
  | @memory m m' turn =>
    rw [e.accepts_eq, Bool.not_eq_false'] at refused
    rw [e.accepts] at accepted
    rw [e.value?, e.value?]
    exact turn.value?_of_readOnly (accepted (e.isMutable m)) refused

/-- A source that accepts a write and gets it last has for its key what the write says. -/
theorem Became.value?_of_taken (became : Became wrap (Memory.Turn id draft (ws ++ [w])) s s')
    (taken : accepts s w = true) : (reader s').value? w.key = found (name s) w := by
  cases became with
  | same readOnly =>
    rw [isMutable_of_accepts taken] at readOnly
    exact nomatch readOnly
  | @memory m m' turn =>
    rw [e.value?, e.name]
    cases w with
    | put key value => exact turn.value?_of_put
    | remove key => exact turn.value?_of_remove

end Source

namespace Context

variable [Source σ] {c : Context σ} {key : String} {v : PropertyValue}

/-- Under the overriding policy the first source that finds something is the one that counts. -/
theorem collect_sources (overriding : c.policy = .overriding) (key : String) :
    (c.collect key).value = c.sources.findSome? fun s => (Source.reader s).value? key := by
  rw [collect_value overriding, readers, List.findSome?_map]
  rfl

/-- Where nothing is collected, nothing is answered, unless the key asks for a note of another. -/
theorem nothing_of_collected (plain : MetaKey.ofKey? key = none)
    (collected : (c.collect key).value = none) :
    (c.getValue key).value = none ∧ (c.get key).value = none := by
  have value : (c.getValue key).value = none := by
    rw [getValue]
    simp only [collected]
    split
    · rfl
    next described => exact absurd (plain.symm.trans described) (Option.some_ne_none _).symm
  exact ⟨value, by rw [get, Logged.map_value, value]; rfl⟩

end Context

/-! ## A change and a commit -/

namespace View

variable [Source σ] {wrap : Memory → σ} {v : View σ} {shared : Shared σ} {r : Route}
  {draft : Nat → Option (List Write)}

/-- A change that is directly followed by a commit: with automatic commit there is nothing left to
    commit, and without it the change comes last in the draft. -/
theorem change_then_commit (e : Source.Embeds wrap) (steady : v.lifecycle.Steady)
    (policy : v.policy = r.policy) (drafted : v.Drafted wrap shared draft) (c : Change) :
    let changed := v.perform shared (.change c)
    let ended := changed.view.perform changed.shared .commit
    changed.answer = .ok () ∧ ended.answer = .ok () ∧
    ended.shared.context = { shared.context with sources := ended.shared.context.sources } ∧
    Source.Moved wrap (fun p => Memory.Turn (v.target shared) none
        ((draft p).getD [] ++ r.share shared.context.sources p c))
      shared.context.sources ended.shared.context.sources := by
  intro changed ended
  have granted := perform_turn e steady policy drafted (.change c)
  have context : changed.shared.context =
      { shared.context with sources := changed.shared.context.sources } := by
    have left : changed.shared = _ := granted.left
    generalize changed.shared.context.sources = sources at left
    rw [left]
    split
    · rfl
    · rfl
  have moved := granted.moved
  simp only [WriteCall.turn] at moved
  cases auto : v.autoCommit with
  -- The change has been committed, and the commit finds nothing open.
  | true =>
    have idle : changed.view.lifecycle = .idle := granted.idle (by rw [auto]; rfl)
    have outcome : ended = ⟨.ok (), changed.view, changed.shared, [.nothingToCommit]⟩ :=
      commit_of_idle idle
    rw [outcome]
    rw [auto] at moved
    exact ⟨granted.answer, rfl, context, moved⟩
  -- The transaction is open with the change at the end of every draft, and is committed with it.
  | false =>
    obtain ⟨now, working⟩ := granted.working (by rw [auto]; rfl)
    rw [auto] at moved
    obtain ⟨sources, answer, committed⟩ := commit_granted e changed.shared working
      (moved.backed e drafted.areas fun p m m' _ _ turn => turn.area)
    have outcome : ended = _ := answer
    rw [outcome]
    refine ⟨granted.answer, rfl, ?_, moved.trans e committed fun p m m' m'' _ turn turn' => ?_⟩
    · exact congrArg (fun c : Context σ => { c with sources := sources }) context
    · exact turn.trans turn'

end View

namespace Desk.Ready

variable [Source σ] [DecidableEq ι] {wrap : Memory → σ} {r : Route} {o : Opening ι σ} {drawn : Nat}
  {part : Nat → ι → List Write} {d : Desk ι σ} {i : ι} {key value : String}

theorem change_then_commit (e : Source.Embeds wrap) (h : Ready wrap o drawn part d)
    (told : o.shared.supply.TellsApart ι (drawn + 1)) (policy : (d.view i).policy = r.policy)
    (c : Change) :
    let sources := d.shared.context.sources
    let changed := d.after i (.change c)
    let committed := (changed.after i .commit).shared.context
    (d.perform i (.change c)).answer = .ok () ∧ (changed.perform i .commit).answer = .ok () ∧
    committed = { d.shared.context with sources := committed.sources } ∧
    ∃ id, ∃ ws : Nat → List Write,
      Source.Moved wrap (fun p => Memory.Turn id none (ws p ++ r.share sources p c)) sources
        committed.sources ∧
      ∀ p s, sources[p]? = some s → Source.isMutable s = true →
        ∀ w ∈ ws p ++ r.share sources p c, Source.accepts s w = true := by
  intro sources changed committed
  have ended : changed.perform i .commit =
      (d.perform i (.change c)).view.perform changed.shared .commit := by
    rw [perform, after_view]
  obtain ⟨answer, answer', context, moved⟩ :=
    View.change_then_commit e (h.steady i) policy (h.drafted told i) c
  have left : committed = _ := congrArg (fun o : Outcome σ Unit => o.shared.context) ended
  refine ⟨answer, by rw [ended]; exact answer', ?_, _, _, by rw [left]; exact moved, ?_⟩
  · rw [left]
    exact context
  · intro p s hs hm w hw
    rcases List.mem_append.mp hw with drafted | shared
    · obtain ⟨m, rfl, -, accepted⟩ := h.areas p s hs hm
      rw [e.accepts]
      refine accepted i w ?_
      cases tx : (d.view i).transaction? with
      | none => rw [tx] at drafted; cases drafted
      | some id => rw [tx] at drafted; exact drafted
    · exact r.accepts_of_mem_share hs shared

variable (e : Source.Embeds wrap) (h : Ready wrap o drawn part d)
  (told : o.shared.supply.TellsApart ι (drawn + 1))
  (overriding : d.shared.context.policy = .overriding)
include e h told overriding

/-- A write is found in the source that takes it, if there is nothing to be found above. -/
theorem put_collected (policy : (d.view i).policy = r.policy) {above below : List σ} {s : σ}
    (split : d.shared.context.sources = above ++ s :: below)
    (takes : r.takes above s (.put key value) = true)
    (refused : ∀ u ∈ above,
      Source.accepts u (.put key value) = false ∧ ¬(Source.reader u).Finds key) :
    let committed := ((d.after i (.change (.put key value))).after i .commit).shared.context
    (committed.collect key).value = some (.plain key value (Source.name s)) := by
  intro committed
  obtain ⟨-, -, context, id, ws, moved, accepted⟩ :=
    h.change_then_commit e told policy (.put key value)
  have hs : d.shared.context.sources[above.length]? = some s := by simp [split]
  have share : r.share d.shared.context.sources above.length (.put key value) = [.put key value] :=
    Route.share_eq_singleton hs rfl (by simpa [split] using takes)
  obtain ⟨s', hs', became⟩ := moved.getElem? hs
  rw [share] at became
  rw [Context.collect_sources ((congrArg Context.policy context).trans overriding)]
  -- Here is the write, and above there is what there was before: no source above accepts the key.
  refine findSome?_of_first hs' (became.value?_of_taken e (Bool.and_eq_true_iff.mp takes).1) ?_
  intro q hq u' hu'
  have hu : d.shared.context.sources[q]? = some above[q] := by
    simp [split, List.getElem?_append_left, hq]
  obtain ⟨refused, nothing⟩ := refused _ (List.getElem_mem hq)
  obtain ⟨u, same, became⟩ := moved.getElem? hu
  obtain rfl := Option.some_inj.mp (hu'.symm.trans same)
  exact (became.value?_of_refused e (accepted q _ hu) refused).trans
    (Reader.value?_eq_none_iff.mpr nothing)

/-- After a removal from all sources the key is found where the removal is not accepted, as
    before. -/
theorem remove_collected (policy : (d.view i).policy = .all) :
    let committed := ((d.after i (.change (.remove [key]))).after i .commit).shared.context
    (committed.collect key).value = d.shared.context.sources.findSome? fun s =>
      if Source.accepts s (.remove key) then none else (Source.reader s).value? key := by
  intro committed
  obtain ⟨-, -, context, id, ws, moved, accepted⟩ :=
    h.change_then_commit (r := .all) e told policy (.remove [key])
  rw [Context.collect_sources ((congrArg Context.policy context).trans overriding)]
  -- Source by source: one that accepts the removal has nothing for the key now, and every other one
  -- has what it had.
  have each := moved.map_eq (f := fun s => (Source.reader s).value? key)
    (g := fun s => if Source.accepts s (.remove key) then none else (Source.reader s).value? key) ?_
  · have first := congrArg (List.findSome? fun found => found) each
    rwa [List.findSome?_map, List.findSome?_map] at first
  intro p s s' hs became
  cases taken : Source.accepts s (.remove key) with
  | false => exact became.value?_of_refused e (accepted p s hs) taken
  | true =>
    rw [Route.share_eq_singleton (w := .remove key) hs rfl (by simp [Route.takes, taken])] at became
    exact became.value?_of_taken e taken

end Desk.Ready

/-- **What is committed is read.** Take sources of which those that can be written are memories, the
    overriding policy and no filters, and any requests of any number of views, after which view `i`
    may have a transaction open or not. It is asked for one more change, and then for a commit; both
    are granted.

    * Let the change be a write of a key, under the policy of all sources or of the highest. If `s`
      is the highest source that accepts it, and the key is found in no source above `s`, the value
      is read afterwards, with `s` as where it comes from.
    * Let the change be a removal of a key, under the policy of all sources. What is collected for
      the key is afterwards what was found in the highest source that does not accept the removal
      and in which the key was found; and it is nothing if there is no such source, so that there is
      no answer either, unless the key asks for a note of another key. -/
theorem Desk.committed_is_read [Source σ] [DecidableEq ι] {wrap : Memory → σ}
    (e : Source.Embeds wrap) (o : Opening ι σ)
    (fresh : Source.Backed wrap (fun _ m => m.staged = ∅) o.shared.context.sources)
    (overriding : o.shared.context.policy = .overriding)
    (unfiltered : o.shared.context.filters = []) (errands : List (ι × Errand))
    (told : o.shared.supply.TellsApart ι (errands.length + 1)) (i : ι) (key : String) :
    let d := o.desk.servedAll errands
    let sources := d.shared.context.sources
    let changed (c : Change) := d.after i (.change c)
    let committed (c : Change) := ((changed c).after i .commit).shared.context
    (∀ c, (d.perform i (.change c)).answer = .ok () ∧
      ((changed c).perform i .commit).answer = .ok ()) ∧
    ((d.view i).policy = .all ∨ (d.view i).policy = .mostSignificant →
      ∀ value above s below, sources = above ++ s :: below →
        Source.accepts s (.put key value) = true →
        (∀ u ∈ above, Source.accepts u (.put key value) = false ∧ ¬(Source.reader u).Finds key) →
        let c := committed (.put key value)
        (c.getValue key).value = some (.plain key value (Source.name s)) ∧
        (c.get key).value = some value) ∧
    ((d.view i).policy = .all →
      let c := committed (.remove [key])
      (∀ v above s below, sources = above ++ s :: below →
        Source.accepts s (.remove key) = false → (Source.reader s).get key = .ok (some v) →
        (∀ u ∈ above, Source.accepts u (.remove key) = false → ¬(Source.reader u).Finds key) →
        (c.collect key).value = some v ∧ (c.getValue key).value = some v ∧
        (c.get key).value = some v.value) ∧
      ((∀ s ∈ sources, Source.accepts s (.remove key) = false → ¬(Source.reader s).Finds key) →
        (c.collect key).value = none ∧
        (MetaKey.ofKey? key = none →
          (c.getValue key).value = none ∧ (c.get key).value = none))) := by
  intro d sources changed committed
  obtain ⟨drawn, part, hd, ready⟩ := Ready.run e fresh errands (told.mono (Nat.le_succ _))
  have told' := told.mono (Nat.succ_le_succ hd)
  have overriding' : d.shared.context.policy = .overriding := by rw [ready.context]; exact overriding
  -- No request changes the filters of the context, nor does the change or the commit.
  have unfiltered' (c : Change) : (committed c).filters = [] := by
    obtain ⟨r, policy⟩ := ready.policy i
    obtain ⟨-, -, context, -⟩ := ready.change_then_commit e told' policy c
    exact (congrArg Context.filters context).trans
      ((congrArg Context.filters ready.context).trans unfiltered)
  refine ⟨fun c => ?granted, ?put, fun policy => ⟨?kept, ?gone⟩⟩
  case granted =>
    obtain ⟨r, policy⟩ := ready.policy i
    obtain ⟨answer, answer', -⟩ := ready.change_then_commit e told' policy c
    exact ⟨answer, answer'⟩
  case put =>
    intro policy value above s below split taken refused
    refine Context.answers_of_collected (unfiltered' _) ?_
    rcases policy with all | highest
    · exact ready.put_collected (r := .all) e told' overriding' all split
        (by simp [Route.takes, taken]) refused
    · refine ready.put_collected (r := .mostSignificant) e told' overriding' highest split ?_ refused
      simp only [Route.takes, taken, Bool.true_and, Bool.not_eq_true', List.any_eq_false]
      exact fun u hu => by simp [(refused u hu).1]
  case kept =>
    intro v above s below split refused finds nothing
    have collected : ((committed (.remove [key])).collect key).value = some v := by
      refine (ready.remove_collected e told' overriding' policy).trans ?_
      rw [List.findSome?_eq_some_iff]
      refine ⟨above, s, below, split, ?_, fun u hu => ?_⟩
      · rw [refused, if_neg Bool.false_ne_true]
        exact Reader.value?_eq_some_iff.mpr finds
      · cases accepted : Source.accepts u (.remove key) with
        | true => rfl
        | false => exact Reader.value?_eq_none_iff.mpr (nothing u hu accepted)
    exact ⟨collected, Context.answers_of_collected (unfiltered' _) collected⟩
  case gone =>
    intro nothing
    have collected : ((committed (.remove [key])).collect key).value = none := by
      refine (ready.remove_collected e told' overriding' policy).trans ?_
      rw [List.findSome?_eq_none_iff]
      intro s hs
      cases accepted : Source.accepts s (.remove key) with
      | true => rfl
      | false => exact Reader.value?_eq_none_iff.mpr (nothing s hs accepted)
    exact ⟨collected, fun plain => Context.nothing_of_collected plain collected⟩

/-- Two memories between two tables, the higher memory with a read-only prefix. View 0 has staged
    the key for all sources, and other views have theirs staged or committed at once; then view 0
    writes the key again, under another policy, or removes it. -/
theorem Desk.committed_is_read_after_others :
    let top := AnySource.table ⟨"top", 3, .ofPairs [("z", "0")]⟩
    let locked := AnySource.memory (.ofPairs "locked" 2 ["sys."] [])
    let low := AnySource.memory (.ofPairs "low" 1 [] [("sys.k", "1")])
    let base := AnySource.table ⟨"base", 0, .ofPairs [("sys.k", "0")]⟩
    let o : Opening Nat AnySource :=
      ⟨.numbered [top, locked, low, base], fun _ => .all, fun i => i = 2⟩
    let change (i : Nat) (c : Change) : Nat × Errand := (i, .call (.change c))
    let before := [change 0 (.put "sys.k" "2"), change 1 (.put "sys.k" "3"),
      change 2 (.put "sys.k" "4")]
    let errands := before ++ [(0, .route .mostSignificant)]
    let written := (((o.desk.servedAll errands).after 0 (.change (.put "sys.k" "5"))).after 0
      .commit).shared.context
    let removed := (((o.desk.servedAll before).after 0 (.change (.remove ["sys.k"]))).after 0
      .commit).shared.context
    Source.Backed AnySource.memory (fun _ m => m.staged = ∅) o.shared.context.sources ∧
      o.shared.supply.TellsApart Nat (errands.length + 1) ∧
      (written.getValue "sys.k").value = some (.plain "sys.k" "5" "low") ∧
      (removed.getValue "sys.k").value = some (.plain "sys.k" "0" "base") := by
  intro top locked low base o change before errands written removed
  have fresh : Source.Backed AnySource.memory (fun _ m => m.staged = ∅) o.shared.context.sources := by
    intro p s hs hm
    match p, hs with
    | 0, rfl | 3, rfl => exact nomatch hm
    | 1, rfl | 2, rfl => exact ⟨_, rfl, rfl⟩
  have told (n : Nat) (hn : n ≤ 2 ^ 128) : o.shared.supply.TellsApart Nat n :=
    .inr (Shared.numbered_distinct _ hn)
  refine ⟨fresh, told _ (by decide), ?_, ?_⟩
  · have policy : ((o.desk.servedAll errands).view 0).policy = .mostSignificant := rfl
    have facts : (o.desk.servedAll errands).shared.context.sources[2]?.isSome = true ∧
        ((o.desk.servedAll errands).shared.context.sources[2]?.all fun s =>
          Source.accepts s (.put "sys.k" "5") && Source.name s == "low") = true ∧
        ((o.desk.servedAll errands).shared.context.sources.take 2).all fun u =>
          !Source.accepts u (.put "sys.k" "5") && ((Source.reader u).value? "sys.k").isNone := by
      decide +kernel
    obtain ⟨found, here, above⟩ := facts
    obtain ⟨s, hs⟩ := Option.isSome_iff_exists.mp found
    simp only [hs, Option.all_some, Bool.and_eq_true, beq_iff_eq, List.all_eq_true,
      Bool.not_eq_true', Option.isNone_iff_eq_none] at here above
    obtain ⟨-, read, -⟩ := committed_is_read AnySource.embeds o fresh rfl rfl errands
      (told _ (by decide)) 0 "sys.k"
    have written := read (.inr policy) "5" _ s _ (split_of_getElem? hs) here.1 fun u hu =>
      ⟨(above u hu).1, Reader.value?_eq_none_iff.mp (above u hu).2⟩
    rw [here.2] at written
    dsimp only at written
    exact written.1
  · have policy : ((o.desk.servedAll before).view 0).policy = .all := rfl
    have facts : (o.desk.servedAll before).shared.context.sources[3]?.isSome = true ∧
        ((o.desk.servedAll before).shared.context.sources[3]?.all fun s =>
          !Source.accepts s (.remove "sys.k") &&
          decide ((Source.reader s).value? "sys.k" = some (.plain "sys.k" "0" "base"))) = true ∧
        ((o.desk.servedAll before).shared.context.sources.take 3).all fun u =>
          Source.accepts u (.remove "sys.k") || ((Source.reader u).value? "sys.k").isNone := by
      decide +kernel
    obtain ⟨found, here, above⟩ := facts
    obtain ⟨s, hs⟩ := Option.isSome_iff_exists.mp found
    simp only [hs, Option.all_some, Bool.and_eq_true, decide_eq_true_eq, List.all_eq_true,
      Bool.not_eq_true', Bool.or_eq_true, Option.isNone_iff_eq_none] at here above
    obtain ⟨-, -, read⟩ := committed_is_read AnySource.embeds o fresh rfl rfl before
      (told _ (by decide)) 0 "sys.k"
    have removed := (read policy).1 _ _ s _ (split_of_getElem? hs) here.1
      (Reader.value?_eq_some_iff.mp here.2) fun u hu kept => ?_
    · dsimp only at removed
      exact removed.2.1
    · rcases above u hu with accepted | nothing
      · rw [kept] at accepted
        exact nomatch accepted
      · exact Reader.value?_eq_none_iff.mp nothing

end LayeredConfig
