import LayeredConfig.Proofs.Transaction.Drafts
import LayeredConfig.Proofs.Transaction.Journal

/-!
# Views that share sources

Any number of views write to the same memories, each with its own policy and its own automatic
commit, their calls in any order.

The desk is compared with its journal (`Desk.Kept`): the views with a draft are those with an open
transaction, all under different ids, and every source has replayed its shares of the settled
transactions and has a staging area for each draft, with its share of it. A call of a view changes
the areas of one transaction, which no other view has, so `Desk.Kept.change` leaves little to be
looked at for each kind of step: what it does to one memory. **`Desk.Kept.after` is one call**: it
is granted, and the desk stays beside its journal.

Ids have 128 bits, so they cannot be different for ever. What is assumed is that they are different
as far as they are drawn.

## The plan

`Desk.Kept` is the invariant, and its five parts speak of different things: what never changes of
the context, how many ids are drawn, the sessions of the views, that no two of them are under one
transaction, and the sources. The parts are kept together by every step, but a step of one view
touches them in a uniform way. So `Desk.Kept.change` is proved once and for all: it is told what
happens to the session of the view and to one memory, and it puts the five parts together again. Its
many hypotheses are the things that do differ between the kinds of steps.

There are four kinds: a transaction is opened, a change is staged, a transaction is settled, and one
is dropped (`opens`, `stages`, `settles`, `drops`). Each is an application of `change` whose goals
are the named hypotheses. A call is one or two of these steps, or three for a change that opens a
transaction and settles it (`starts`, `changes`, and the main statement).

A memory keeps, besides what is committed, one staging area for each open transaction. That the
areas of different views do not get in each other's way is `Areas.change`; that no two views have
the same id is where the ids have to be different.
-/

set_option autoImplicit false

namespace LayeredConfig

variable {ι : Type}

/-! ## What is written where

The journal knows views and changes; the sources know positions and writes. `Route.shares` goes from
the first to the second: it is what the policy of a view makes of a change at a position.
-/

/-- The writes of several changes that go to the source at a position. -/
def Route.shares (r : Route) (sources : List AnySource) (p : Nat) (cs : List Change) : List Write :=
  cs.flatMap (r.share sources p)

/-- The writes of all settled transactions that go to the source at a position. -/
def Opening.settled (o : Opening ι AnySource) (p : Nat) (l : Ledger ι Change) : List Write :=
  l.settled.flatMap fun t => (o.route t.1).shares o.shared.context.sources p t.2

/-- The writes of the draft of a view that go to the source at a position. -/
def Opening.drafted (o : Opening ι AnySource) (p : Nat) (l : Ledger ι Change) (i : ι) :
    List Write :=
  (o.route i).shares o.shared.context.sources p ((l.draft i).getD [])

/-- The id of the `k`-th transaction to come. -/
def Opening.id (o : Opening ι AnySource) (k : Nat) : TransactionId :=
  o.shared.supply.id (o.shared.supply.next + k)

/-- The next transactions, as many as are given, have different ids. -/
def TransactionSupply.Distinct (s : TransactionSupply) (n : Nat) : Prop :=
  ∀ a b, a < n → b < n → s.id (s.next + a) = s.id (s.next + b) → a = b

/-- What has become of a source after writes have been committed to it. -/
inductive AnySource.After (ws : List Write)
    (areas : Std.ExtTreeMap TransactionId ChangeSet → Prop) : AnySource → AnySource → Prop
  | table (t : Table) : After ws areas (.table t) (.table t)
  | scripted (s : Scripted) : After ws areas (.scripted s) (.scripted s)
  | memory (m : Memory) {staged : Std.ExtTreeMap TransactionId ChangeSet} (h : areas staged) :
    After ws areas (.memory m)
      (.memory { m with committed := Write.replay ws m.committed, staged := staged })

/-- One operation more: nothing happens to a source that is only read. -/
theorem AnySource.After.next {ws gained : List Write}
    {areas areas' : Std.ExtTreeMap TransactionId ChangeSet → Prop} {before now : AnySource}
    (h : After ws areas before now) {f : AnySource → AnySource}
    (table : ∀ t, f (.table t) = .table t) (scripted : ∀ t, f (.scripted t) = .scripted t)
    (memory : ∀ m : Memory, now = .memory m → areas m.staged → ∃ staged,
      f (.memory m) = .memory
        { m with committed := Write.replay gained m.committed, staged := staged } ∧
      areas' staged) : After (ws ++ gained) areas' before (f now) := by
  cases h with
  | table t =>
    rw [table]
    exact .table t
  | scripted t =>
    rw [scripted]
    exact .scripted t
  | memory m staged =>
    obtain ⟨staged', hf, kept⟩ := memory _ rfl staged
    rw [hf]
    -- The writes that were committed before come first, then those of this operation.
    have after : AnySource.After (ws ++ gained) areas' (.memory m) _ := .memory m kept
    rw [Write.replay_append] at after
    exact after

/-- An idle view without a draft, or one that works under one of the ids drawn, with its draft. -/
def Opening.Session (o : Opening ι AnySource) (l : Ledger ι Change) (i : ι) (id : TransactionId)
    (lifecycle : Lifecycle) : Prop :=
  l.draft i = none ∧ lifecycle = .idle ∨
  ∃ k now cs, k < l.begun ∧ o.id k = id ∧ l.draft i = some cs ∧ lifecycle = .working id now

/-- With a draft the transaction of the view is the given one, and without one it has none. -/
theorem Opening.Session.transaction? {o : Opening ι AnySource} {l : Ledger ι Change} {i : ι}
    {id : TransactionId} {lifecycle : Lifecycle} (h : o.Session l i id lifecycle) :
    (o.view i lifecycle).transaction? = some id ∧ l.draft i ≠ none ∨
    (o.view i lifecycle).transaction? = none ∧ l.draft i = none := by
  rcases h with ⟨hd, rfl⟩ | ⟨k, now, cs, -, -, hd, rfl⟩
  · exact .inr ⟨rfl, hd⟩
  · exact .inl ⟨rfl, by simp [hd]⟩

/-- A desk beside the journal of the calls that led to it. -/
structure Desk.Kept (o : Opening ι AnySource) (d : Desk ι AnySource) (l : Ledger ι Change) :
    Prop where
  context : d.shared.context = { o.shared.context with sources := d.shared.context.sources }
  supply : d.shared.supply = { o.shared.supply with next := o.shared.supply.next + l.begun }
  view : ∀ i, ∃ id lifecycle, d.view i = o.view i lifecycle ∧ o.Session l i id lifecycle
  alone : ∀ i j id, (d.view i).transaction? = some id → (d.view j).transaction? = some id → i = j
  sources : ∀ p, Option.Rel
    (AnySource.After (o.settled p l) (Areas (fun i => (d.view i).transaction?) (o.drafted p l)))
    o.shared.context.sources[p]? d.shared.context.sources[p]?

namespace Desk.Kept

variable {o : Opening ι AnySource} {d : Desk ι AnySource} {l : Ledger ι Change}

/-- At the beginning nothing is settled and no view has a draft. -/
theorem blank (plain : ∀ s ∈ o.shared.context.sources, s.Plain) : Kept o o.desk .blank where
  context := rfl
  supply := rfl
  view i := ⟨o.id 0, .idle, rfl, .inl ⟨rfl, rfl⟩⟩
  alone _ _ _ h := nomatch h
  sources p := by
    show Option.Rel _ o.shared.context.sources[p]? o.shared.context.sources[p]?
    cases hs : o.shared.context.sources[p]? with
    | none => exact .none
    | some s =>
      have fresh := plain s (List.mem_of_getElem? hs)
      refine .some ?_
      cases s with
      | table t => exact .table t
      | scripted t => exact .scripted t
      | guarded => exact fresh.elim
      | memory m =>
        -- A memory without staging areas to which nothing has been written is the memory that it
        -- was.
        have unchanged : m = { m with
            committed := Write.replay (o.settled p .blank) m.committed, staged := ∅ } := by
          rw [← show m.staged = ∅ from fresh]
          rfl
        have after : AnySource.After (o.settled p .blank)
            (Areas (fun i => (o.desk.view i).transaction?) (o.drafted p .blank)) (.memory m) _ :=
          .memory m (.empty fun _ => rfl)
        rw [← unchanged] at after
        exact after

/-! ## What it says of one source

What is read off here is said of a single position, so that the steps need not take the relation of
the lists apart.
-/

/-- Every source is plain, and the staging areas of a memory belong to the open transactions. -/
theorem source_cases (h : Kept o d l) {p : Nat} {s : AnySource}
    (hs : d.shared.context.sources[p]? = some s) :
    (∃ t, s = .table t) ∨ (∃ t, s = .scripted t) ∨ ∃ m, s = .memory m ∧
      Areas (fun i => (d.view i).transaction?) (o.drafted p l) m.staged := by
  have related := h.sources p
  rw [hs] at related
  generalize o.shared.context.sources[p]? = before at related
  cases related with
  | some after =>
    cases after with
    | table t => exact .inl ⟨t, rfl⟩
    | scripted t => exact .inr (.inl ⟨t, rfl⟩)
    | memory m areas => exact .inr (.inr ⟨_, rfl, areas⟩)

theorem areas (h : Kept o d l) {p : Nat} {m : Memory}
    (hs : d.shared.context.sources[p]? = some (.memory m)) :
    Areas (fun i => (d.view i).transaction?) (o.drafted p l) m.staged := by
  rcases h.source_cases hs with ⟨_, hm⟩ | ⟨_, hm⟩ | ⟨m', hm, areas⟩
  · exact nomatch hm
  · exact nomatch hm
  · cases hm
    exact areas

/-- An operation that succeeds on every memory succeeds on all sources. -/
theorem each_ok (h : Kept o d l) (op : AnySource → Attempt SourceError AnySource)
    (ok : ∀ (p : Nat) (m : Memory), d.shared.context.sources[p]? = some (.memory m) →
      (op (.memory m)).1 = .ok ()) :
    Spread.each Source.isMutable op d.shared.context.sources =
      (.ok (), d.shared.context.sources.map (Spread.touched Source.isMutable op)) := by
  refine Spread.each_of_ok ?_
  intro s hs hm
  obtain ⟨p, hp⟩ := List.mem_iff_getElem?.mp hs
  rcases h.source_cases hp with ⟨t, rfl⟩ | ⟨t, rfl⟩ | ⟨m, rfl, -⟩
  · exact nomatch hm
  · exact nomatch hm
  · exact ok p m hp

/-- Names, read-only prefixes and whether a source can be written: of these no call changes
    anything. -/
theorem profiles (h : Kept o d l) :
    d.shared.context.sources.map Source.profile = o.shared.context.sources.map Source.profile := by
  refine List.ext_getElem? ?_
  intro p
  rw [List.getElem?_map, List.getElem?_map]
  have related := h.sources p
  generalize o.shared.context.sources[p]? = before, d.shared.context.sources[p]? = now at related
  cases related with
  | none => rfl
  | some after =>
    cases after with
    | table | scripted => rfl
    | memory m =>
      exact congrArg some (AnySource.embeds.profile_congr rfl rfl)

/-! ## What it says of one view -/

theorem context_withSources (h : Kept o d l) (sources : List AnySource) :
    (d.shared.withSources sources).context = { o.shared.context with sources := sources } := by
  rw [Shared.withSources, h.context]

/-- A view without a draft is idle. -/
theorem idle_view (h : Kept o d l) {i : ι} (hd : l.draft i = none) :
    d.view i = o.view i .idle := by
  obtain ⟨id, lifecycle, hv, ⟨-, rfl⟩ | ⟨_, _, _, -, -, hd', -⟩⟩ := h.view i
  · exact hv
  · exact nomatch hd.symm.trans hd'

/-- A view with a draft works under one of the ids drawn. -/
theorem working_view (h : Kept o d l) {i : ι} {cs : List Change} (hd : l.draft i = some cs) :
    ∃ k now, k < l.begun ∧ d.view i = o.view i (.working (o.id k) now) := by
  obtain ⟨id, lifecycle, hv, ⟨hd', -⟩ | ⟨k, now, _, hk, rfl, -, rfl⟩⟩ := h.view i
  · exact nomatch hd.symm.trans hd'
  · exact ⟨k, now, hk, hv⟩

/-- The next id is nobody's. -/
theorem fresh (h : Kept o d l) (distinct : o.shared.supply.Distinct (l.begun + 1)) (j : ι) :
    (d.view j).transaction? ≠ some (o.id l.begun) := by
  intro same
  obtain ⟨id, lifecycle, hv, hs⟩ := h.view j
  rw [hv] at same
  rcases hs with ⟨-, rfl⟩ | ⟨k, now, cs, hk, rfl, -, rfl⟩
  · exact nomatch same
  -- The id was drawn before, and the ids that are drawn are different.
  · have equal := distinct k l.begun (by omega) (by omega) (Option.some.inj same)
    omega

/-! ## One view, one transaction -/

/-- Whether a staging area is what the draft of a view makes it. -/
def Draws (o : Opening ι AnySource) (l : Ledger ι Change) (i : ι) (id : TransactionId) (p : Nat)
    (area : Option ChangeSet) : Prop :=
  (l.draft i ≠ none ∧ ∃ now, area = some ((ChangeSet.start id now).stageAll (o.drafted p l i))) ∨
  l.draft i = none ∧ area = none

/-- Whether a transaction is the view's own, or at least nobody else's. -/
def Owns (d : Desk ι AnySource) (i : ι) (id : TransactionId) : Prop :=
  (d.view i).transaction? = some id ∨
  (d.view i).transaction? = none ∧ ∀ j, (d.view j).transaction? ≠ some id

/-- The transaction of a view is nobody else's. -/
theorem not_others (h : Kept o d l) {i : ι} {id : TransactionId} (owns : Owns d i id) {j : ι}
    (hj : j ≠ i) : (d.view j).transaction? ≠ some id := by
  rcases owns with mine | ⟨-, nobody⟩
  · exact fun same => hj (h.alone j i id same mine)
  · exact nobody j

theorem Owns.eq_of_transaction? {i : ι} {id id' : TransactionId} (owns : Owns d i id)
    (hi : (d.view i).transaction? = some id') : id' = id := by
  rcases owns with mine | ⟨idle, -⟩
  · exact Option.some.inj (hi.symm.trans mine)
  · exact nomatch idle.symm.trans hi

variable [DecidableEq ι]

/-- No two views have the same transaction after one of them has got another session. -/
theorem alone_update (h : Kept o d l) {i : ι} {id : TransactionId} (owns : Owns d i id)
    {v : View AnySource} (hv : ∀ id', v.transaction? = some id' → id' = id) (j j' : ι)
    (id' : TransactionId) (hj : (Function.update d.view i v j).transaction? = some id')
    (hj' : (Function.update d.view i v j').transaction? = some id') : j = j' := by
  have there (k : ι) (hk : k ≠ i) :
      (Function.update d.view i v k).transaction? = (d.view k).transaction? :=
    congrArg View.transaction? (Function.update_of_ne hk ..)
  have here : (Function.update d.view i v i).transaction? = v.transaction? :=
    congrArg View.transaction? (Function.update_self ..)
  exact alone_of_one h.alone (fun k hk => h.not_others owns hk) there
    (fun id' hi => hv id' (here ▸ hi)) j j' id' hj hj'

/-- **A change of one view under one transaction**, which no other view has. What is left to say is
    what happens to each memory: which writes are committed to it, that the areas of other
    transactions stay, and that the area of this one follows the draft. -/
theorem change (h : Kept o d l) (i : ι) (id : TransactionId) {lifecycle : Lifecycle}
    {shared : Shared AnySource} {l' : Ledger ι Change} (f : Nat → AnySource → AnySource)
    (gained : Nat → List Write)
    (context : shared.context =
      { o.shared.context with sources := d.shared.context.sources.mapIdx f })
    (supply : shared.supply = { o.shared.supply with next := o.shared.supply.next + l'.begun })
    (begun : l.begun ≤ l'.begun) (drafts : ∀ j, j ≠ i → l'.draft j = l.draft j)
    (owner : Owns d i id) (session : o.Session l' i id lifecycle)
    (settled : ∀ p, o.settled p l' = o.settled p l ++ gained p)
    (fixed : ∀ p, (∀ t, f p (.table t) = .table t) ∧ ∀ t, f p (.scripted t) = .scripted t)
    (memories : ∀ (p : Nat) (m : Memory), d.shared.context.sources[p]? = some (.memory m) →
      ∃ staged, f p (.memory m) = .memory
          { m with committed := Write.replay (gained p) m.committed, staged := staged } ∧
        (∀ other, other ≠ id → staged[other]? = m.staged[other]?) ∧ Draws o l' i id p staged[id]?) :
    Kept o ⟨shared, Function.update d.view i (o.view i lifecycle)⟩ l' := by
  have others (j : ι) (hj : j ≠ i) :
      Function.update d.view i (o.view i lifecycle) j = d.view j := Function.update_of_ne hj ..
  have own : Function.update d.view i (o.view i lifecycle) i = o.view i lifecycle :=
    Function.update_self ..
  constructor
  case context => rw [context]
  case supply => exact supply
  case view =>
    intro j
    -- The view itself has the session that is given. The others have theirs, and the ids that they
    -- work under were drawn before.
    by_cases hj : j = i
    · subst hj
      exact ⟨id, lifecycle, own, session⟩
    · obtain ⟨id', lifecycle', hv, hs⟩ := h.view j
      refine ⟨id', lifecycle', (others j hj).trans hv, ?_⟩
      rcases hs with ⟨hd, hl⟩ | ⟨k, now, cs, hk, hid, hd, hl⟩
      · exact .inl ⟨(drafts j hj).trans hd, hl⟩
      · exact .inr ⟨k, now, cs, Nat.lt_of_lt_of_le hk begun, hid, (drafts j hj).trans hd, hl⟩
  case alone =>
    refine h.alone_update owner ?_
    intro id' ho
    rcases session.transaction? with ⟨ht, -⟩ | ⟨ht, -⟩
    · exact Option.some.inj (ho.symm.trans ht)
    · exact nomatch ht.symm.trans ho
  -- Position by position: the writes that the memory has gained come after those settled before,
  -- and of the areas only the one of this transaction has changed.
  case sources =>
    intro p
    rw [context, settled p, List.getElem?_mapIdx]
    have related := h.sources p
    have memory := memories p
    generalize o.shared.context.sources[p]? = start at related
    generalize d.shared.context.sources[p]? = now at related memory
    cases related with
    | none => exact .none
    | some kept =>
      refine .some (kept.next (fixed p).1 (fixed p).2 ?_)
      intro m hm areas
      obtain ⟨staged, hf, elsewhere, draws⟩ := memory m (congrArg some hm)
      refine ⟨staged, hf, areas.change (fun j hj => h.not_others owner hj)
        (fun id' => owner.eq_of_transaction?) (fun j hj => ⟨?_, ?_⟩) elsewhere ?_⟩
      · exact congrArg View.transaction? (others j hj)
      · rw [Opening.drafted, Opening.drafted, drafts j hj]
      -- The area of the view follows its draft: it is there if the session is a working one, and
      -- gone if it is idle. The mixed cases contradict each other in the draft.
      · have still := congrArg View.transaction? own
        rcases draws with ⟨hd, area⟩ | ⟨hd, area⟩
        · rcases session.transaction? with ⟨ht, -⟩ | ⟨-, hd'⟩
          · exact .inl ⟨still.trans ht, area⟩
          · exact absurd hd' hd
        · rcases session.transaction? with ⟨-, hd'⟩ | ⟨ht, -⟩
          · exact absurd hd hd'
          · exact .inr ⟨still.trans ht, area⟩

/-! ## Each kind of step -/

/-- A view without a draft opens a transaction under the next id. -/
theorem opens (h : Kept o d l) {i : ι} (hd : l.draft i = none)
    (distinct : o.shared.supply.Distinct (l.begun + 1)) :
    ∃ shared now, (d.view i).start d.shared =
        ⟨.ok (o.id l.begun), o.view i (.working (o.id l.begun) now), shared, []⟩ ∧
      Kept o ⟨shared, Function.update d.view i (o.view i (.working (o.id l.begun) now))⟩
        (l.begin i) := by
  have fresh := h.fresh distinct
  have idle := h.idle_view hd
  have nextId : d.shared.nextId = o.id l.begun := by
    rw [Shared.nextId, h.supply]
    rfl
  have begin_eq := Ledger.begin_of_none hd
  -- No memory has an area under the next id, so none of them can refuse the start.
  have none_yet (p : Nat) (m : Memory)
      (hs : d.shared.context.sources[p]? = some (.memory m)) : m.staged[o.id l.begun]? = none :=
    (h.areas hs).others _ fresh
  have granted := h.each_ok (Source.start d.shared.nextId d.shared.nextTime) fun p m hs => by
    show (m.start _ _).1 = _
    rw [nextId, Memory.start_of_none _ (none_yet p m hs)]
  refine ⟨d.shared.drawn.withSources (d.shared.context.sources.map
      (Spread.touched Source.isMutable (Source.start d.shared.nextId d.shared.nextTime))),
    d.shared.nextTime, ?_, h.change i (o.id l.begun)
    (fun _ => Spread.touched Source.isMutable (Source.start d.shared.nextId d.shared.nextTime))
    (fun _ => []) ?context ?supply ?begun ?drafts ?owner ?session ?settled ?fixed ?memories⟩
  · rw [View.start_of_granted (by rw [idle]; rfl) granted, nextId, idle]
    rfl
  case context =>
    rw [← map_eq_mapIdx]
    exact h.context_withSources _
  case supply =>
    rw [begin_eq]
    show d.shared.supply.drawn = _
    rw [h.supply]
    rfl
  case begun => exact (l.begin_begun_le i).1
  case drafts => exact fun j hj => Ledger.begin_draft_of_ne hj
  case owner => exact .inr ⟨by rw [idle]; rfl, fresh⟩
  -- The draft is there, and it is empty.
  case session =>
    exact .inr ⟨l.begun, d.shared.nextTime, [], by rw [begin_eq]; exact Nat.lt_succ_self _, rfl,
      Ledger.begin_draft_of_none hd, rfl⟩
  case settled =>
    intro p
    rw [Opening.settled, Ledger.begin_settled, List.append_nil]
    rfl
  case fixed => exact fun p => ⟨fun _ => rfl, fun _ => rfl⟩
  case memories =>
    intro p m hs
    have started : Spread.touched Source.isMutable
        (Source.start d.shared.nextId d.shared.nextTime) (AnySource.memory m) =
        .memory (m.start d.shared.nextId d.shared.nextTime).2 := rfl
    rw [started, nextId, Memory.start_of_none _ (none_yet p m hs)]
    refine ⟨_, rfl, fun other ho => ?_, .inl ⟨?_, d.shared.nextTime, ?_⟩⟩
    · simp [Std.ExtTreeMap.getElem?_insert, Ne.symm ho]
    · rw [Ledger.begin_draft_of_none hd]
      simp
    · rw [Std.ExtTreeMap.getElem?_insert_self, Opening.drafted, Ledger.begin_draft_of_none hd]
      rfl

/-- A working view stages a change: every source gets its share of it. -/
theorem stages (h : Kept o d l) {i : ι} {cs : List Change} (hd : l.draft i = some cs) {k : Nat}
    {now : Timestamp} (hk : k < l.begun) (hv : d.view i = o.view i (.working (o.id k) now))
    (c : Change) :
    ∃ sources, (o.route i).policy.stage (o.id k) c d.shared.context.sources = (.ok (), sources) ∧
      Kept o ⟨d.shared.withSources sources, d.view⟩ (l.note i c) := by
  have working : (d.view i).transaction? = some (o.id k) := by rw [hv]; rfl
  -- Every memory has an area for the transaction, so nothing can refuse the change.
  have holds : ∀ s ∈ d.shared.context.sources, Source.Holds AnySource.memory (o.id k) s := by
    intro s hs
    refine AnySource.Holds.holds ?_
    obtain ⟨p, hp⟩ := List.mem_iff_getElem?.mp hs
    rcases h.source_cases hp with ⟨t, rfl⟩ | ⟨t, rfl⟩ | ⟨m, rfl, areas⟩
    · trivial
    · trivial
    · obtain ⟨now, area⟩ := areas.mine i (o.id k) working
      exact ⟨_, area⟩
  have draft : (l.note i c).draft i = some (cs ++ [c]) := by
    rw [Ledger.note_draft_self, hd]
    rfl
  refine ⟨_, Route.stage_of_yields (AnySource.embeds.yields (o.id k)) (o.route i) c holds, ?_⟩
  -- The view itself does not change, so that it is updated with what it is already.
  have same : d.view = Function.update d.view i (o.view i (.working (o.id k) now)) := by
    rw [← hv, Function.update_eq_self]
  rw [same]
  refine h.change i (o.id k)
    (fun p => Source.writeAll (o.id k) ((o.route i).share d.shared.context.sources p c))
    (fun _ => []) ?context ?supply ?begun ?drafts ?owner ?session ?settled ?fixed ?memories
  case context => exact h.context_withSources _
  case supply => exact h.supply
  case begun => exact Nat.le_refl _
  case drafts => exact fun j hj => Ledger.note_draft_of_ne hj
  case owner => exact .inl working
  case session => exact .inr ⟨k, now, cs ++ [c], hk, rfl, draft, rfl⟩
  case settled => exact fun p => (List.append_nil _).symm
  case fixed =>
    refine fun p => ⟨fun t => ?_, fun t => ?_⟩
    · exact AnySource.writeAll_of_fixed (fun w => by cases w <;> rfl) _
    · exact AnySource.writeAll_of_fixed (fun w => by cases w <;> rfl) _
  case memories =>
    intro p m hs
    obtain ⟨now, area⟩ := (h.areas hs).mine i (o.id k) working
    -- A share holds only writes that the source accepts, so that all of it gets into the area.
    have accepted : ∀ w ∈ (o.route i).share d.shared.context.sources p c,
        Source.accepts (AnySource.memory m) w = true := by
      intro w hw
      rw [Route.share, hs] at hw
      exact (Bool.and_eq_true_iff.mp (List.mem_filter.mp hw).2).1
    obtain ⟨staged, written, area', elsewhere⟩ := AnySource.writeAll_memory area accepted
    refine ⟨staged, written, elsewhere, .inl ⟨by rw [draft]; exact Option.some_ne_none _, now, ?_⟩⟩
    -- The shares are worked out from the sources as they are now. They have the profiles that they
    -- had at the beginning, and with these the same shares.
    rw [area', ← ChangeSet.stageAll_append, Route.share_congr _ h.profiles]
    simp only [Opening.drafted, Route.shares, hd, draft, Option.getD_some, List.flatMap_append,
      List.flatMap_cons, List.flatMap_nil, List.append_nil]

/-- A view with a draft commits it: its shares are added to what every source has replayed. -/
theorem settles (h : Kept o d l) {i : ι} {cs : List Change} (hd : l.draft i = some cs) :
    ∃ shared, (d.view i).commit d.shared = ⟨.ok (), o.view i .idle, shared, []⟩ ∧
      Kept o ⟨shared, Function.update d.view i (o.view i .idle)⟩ (l.settle i) := by
  obtain ⟨k, now, hk, hv⟩ := h.working_view hd
  have working : (d.view i).transaction? = some (o.id k) := by rw [hv]; rfl
  -- Every memory has the area, so none of them can refuse the commit.
  have granted := h.each_ok (Source.commit (o.id k)) fun p m hs => by
    obtain ⟨_, area⟩ := (h.areas hs).mine i (o.id k) working
    show (m.commit _).1 = _
    rw [Memory.commit_of_some area]
  refine ⟨d.shared.withSources (d.shared.context.sources.map
      (Spread.touched Source.isMutable (Source.commit (o.id k)))), ?_, h.change i (o.id k)
    (fun _ => Spread.touched Source.isMutable (Source.commit (o.id k))) (fun p => o.drafted p l i)
    ?context ?supply ?begun ?drafts ?owner ?session ?settled ?fixed ?memories⟩
  · rw [View.commit_of_granted (by rw [hv]; rfl) granted, hv]
    rfl
  case context =>
    rw [← map_eq_mapIdx]
    exact h.context_withSources _
  case supply =>
    rw [Ledger.settle_begun]
    exact h.supply
  case begun => exact Nat.le_of_eq Ledger.settle_begun.symm
  case drafts => exact fun j hj => Ledger.settle_draft_of_ne hj
  case owner => exact .inl working
  case session => exact .inl ⟨Ledger.settle_draft_self, rfl⟩
  -- The draft moves to the end of what is settled, and its shares with it.
  case settled =>
    intro p
    simp only [Opening.settled, Opening.drafted, Ledger.settle_of_some hd, hd, Option.getD_some,
      List.flatMap_append, List.flatMap_cons, List.flatMap_nil, List.append_nil]
  case fixed => exact fun p => ⟨fun _ => rfl, fun _ => rfl⟩
  -- The area is applied to the table and removed: the table has gained the writes of the draft.
  case memories =>
    intro p m hs
    obtain ⟨_, area⟩ := (h.areas hs).mine i (o.id k) working
    have done : Spread.touched Source.isMutable (Source.commit (o.id k)) (AnySource.memory m) =
        .memory (m.commit (o.id k)).2 := rfl
    rw [done, Memory.commit_of_some area]
    refine ⟨m.staged.erase (o.id k), ?_, fun other ho => ?_, .inr ⟨Ledger.settle_draft_self, ?_⟩⟩
    · rw [ChangeSet.apply_stageAll, ChangeSet.apply_start]
    · simp [Std.ExtTreeMap.getElem?_erase, Ne.symm ho]
    · exact Std.ExtTreeMap.getElem?_erase_self

/-- A view with a draft gives it up. -/
theorem drops (h : Kept o d l) {i : ι} {cs : List Change} (hd : l.draft i = some cs) :
    ((d.view i).rollback d.shared).answer = .ok () ∧
      Kept o ⟨((d.view i).rollback d.shared).shared,
        Function.update d.view i ((d.view i).rollback d.shared).view⟩ (l.drop i) := by
  obtain ⟨k, now, hk, hv⟩ := h.working_view hd
  have working : (d.view i).transaction? = some (o.id k) := by rw [hv]; rfl
  obtain ⟨answer, view, shared⟩ := View.rollback_of_working d.shared
    (show (d.view i).lifecycle = .working (o.id k) now by rw [hv]; rfl)
  have idle : ((d.view i).rollback d.shared).view = o.view i .idle := by
    rw [view, hv]
    rfl
  rw [answer, shared, idle, Source.rollbackAll_sources]
  refine ⟨rfl, h.change i (o.id k) (fun _ => Spread.touched Source.isMutable
      (Source.rollback (o.id k))) (fun _ => [])
    ?context ?supply ?begun ?drafts ?owner ?session ?settled ?fixed ?memories⟩
  case context =>
    rw [← map_eq_mapIdx]
    exact h.context_withSources _
  case supply => exact h.supply
  case begun => exact Nat.le_refl _
  case drafts => exact fun j hj => Ledger.drop_draft_of_ne hj
  case owner => exact .inl working
  case session => exact .inl ⟨Ledger.drop_draft_self, rfl⟩
  case settled => exact fun p => (List.append_nil _).symm
  case fixed => exact fun p => ⟨fun _ => rfl, fun _ => rfl⟩
  -- The area is removed, and the table stays.
  case memories =>
    intro p m hs
    obtain ⟨_, area⟩ := (h.areas hs).mine i (o.id k) working
    have done : Spread.touched Source.isMutable (Source.rollback (o.id k)) (AnySource.memory m) =
        .memory (m.rollback (o.id k)).2 := rfl
    rw [done, Memory.rollback_of_some area]
    refine ⟨m.staged.erase (o.id k), rfl, fun other ho => ?_, .inr ⟨Ledger.drop_draft_self, ?_⟩⟩
    · simp [Std.ExtTreeMap.getElem?_erase, Ne.symm ho]
    · exact Std.ExtTreeMap.getElem?_erase_self

/-! ## Each call -/

/-- A call that does nothing leaves the desk beside its journal. -/
theorem untouched (h : Kept o d l) (i : ι) :
    Kept o ⟨d.shared, Function.update d.view i (d.view i)⟩ l := by
  rw [Function.update_eq_self]
  exact h

/-- A start, whether it opens a transaction or joins the open one. -/
theorem starts (h : Kept o d l) (i : ι) (distinct : o.shared.supply.Distinct (l.begin i).begun) :
    ∃ shared id now, (d.view i).start d.shared =
        ⟨.ok id, o.view i (.working id now), shared, []⟩ ∧
      Kept o ⟨shared, Function.update d.view i (o.view i (.working id now))⟩ (l.begin i) := by
  cases hd : l.draft i with
  | none =>
    rw [Ledger.begin_of_none hd] at distinct
    obtain ⟨shared, now, started, kept⟩ := h.opens hd distinct
    exact ⟨shared, _, now, started, kept⟩
  | some cs =>
    obtain ⟨k, now, hk, hv⟩ := h.working_view hd
    refine ⟨d.shared, o.id k, now, ?_, ?_⟩
    · rw [View.start_of_working (by rw [hv]; rfl), hv]
    · rw [Ledger.begin_of_some hd, ← hv]
      exact h.untouched i

/-- After a start there is a draft, be it an old or an empty one. -/
theorem begin_draft (l : Ledger ι Change) (i : ι) : ∃ cs, (l.begin i).draft i = some cs := by
  cases hd : l.draft i with
  | none => exact ⟨[], Ledger.begin_draft_of_none hd⟩
  | some cs => exact ⟨cs, by rw [Ledger.begin_of_some hd, hd]⟩

/-- A change: the view has a transaction then, every source its share, and with automatic commit
    the transaction is settled. -/
theorem changes (h : Kept o d l) (i : ι) (c : Change)
    (distinct : o.shared.supply.Distinct (l.begin i).begun) :
    (d.perform i (.change c)).answer = .ok () ∧
      Kept o (d.after i (.change c)) (l.enter o.auto (i, .change c)) := by
  obtain ⟨shared, id, now, started, kept⟩ := h.starts i distinct
  obtain ⟨cs, draft⟩ := begin_draft l i
  have own : (Desk.mk shared (Function.update d.view i (o.view i (.working id now)))).view i =
      o.view i (.working id now) := Function.update_self ..
  obtain ⟨k, now', hk, hv⟩ := kept.working_view draft
  -- The transaction that has a draft is the one that the start has answered.
  obtain rfl : o.id k = id := by
    have same := congrArg View.transaction? (hv.symm.trans own)
    exact Option.some.inj same
  obtain ⟨sources, staged, kept'⟩ := kept.stages draft hk hv c
  -- A view never changes its policy, so it is still the one of its route.
  have policy : (d.view i).policy = (o.route i).policy := by
    obtain ⟨_, _, hv, -⟩ := h.view i
    rw [hv]
    rfl
  have write : d.perform i (.change c) = if o.auto i then
        (o.view i (.working (o.id k) now)).commit (shared.withSources sources)
      else ⟨.ok (), o.view i (.working (o.id k) now), shared.withSources sources, []⟩ := by
    rw [Desk.perform, View.perform_change, View.write_of_started started, policy, staged]
    rfl
  rw [Desk.after, write]
  unfold Ledger.enter
  dsimp only
  cases o.auto i with
  | false =>
    rw [if_neg Bool.false_ne_true, if_neg Bool.false_ne_true]
    exact ⟨rfl, kept'⟩
  -- With automatic commit the transaction is settled right away. It is the same view all along, so
  -- that the three updates of the desk come to one.
  | true =>
    have draft' : ((l.begin i).note i c).draft i = some (cs ++ [c]) := by
      rw [Ledger.note_draft_self, draft]
      rfl
    obtain ⟨shared', committed, kept''⟩ := kept'.settles draft'
    rw [own] at committed
    simp only [Function.update_idem] at kept''
    rw [if_pos rfl, if_pos rfl, committed]
    exact ⟨rfl, kept''⟩

/-- **One call.** It is granted, and the desk stays beside its journal. -/
theorem after (h : Kept o d l) (i : ι) (call : WriteCall)
    (distinct : o.shared.supply.Distinct (l.enter o.auto (i, call)).begun) :
    (d.perform i call).answer = .ok () ∧
      Kept o (d.after i call) (l.enter o.auto (i, call)) := by
  cases call with
  | start =>
    obtain ⟨shared, id, now, started, kept⟩ := h.starts i distinct
    rw [Desk.after, Desk.perform, View.perform, started]
    exact ⟨rfl, kept⟩
  | change c =>
    refine h.changes i c ?_
    -- Staging and settling draw no id, so that as many ids are needed as for the start alone.
    have begun : (l.enter o.auto (i, .change c)).begun = (l.begin i).begun := by
      unfold Ledger.enter
      dsimp only
      split
      · rw [Ledger.settle_begun, Ledger.note_begun]
      · rfl
    rw [← begun]
    exact distinct
  | commit =>
    rw [Desk.after, Desk.perform, View.perform_commit]
    unfold Ledger.enter
    cases hd : l.draft i with
    -- Without a draft the view is idle, and there is nothing to commit.
    | none =>
      rw [Ledger.settle_of_none hd, View.commit_of_idle (by rw [h.idle_view hd]; rfl)]
      exact ⟨rfl, h.untouched i⟩
    | some cs =>
      obtain ⟨shared, committed, kept⟩ := h.settles hd
      rw [committed]
      exact ⟨rfl, kept⟩
  | rollback =>
    rw [Desk.after, Desk.perform, View.perform_rollback]
    unfold Ledger.enter
    cases hd : l.draft i with
    | none =>
      rw [Ledger.drop_of_none hd, View.rollback_of_idle (by rw [h.idle_view hd]; rfl)]
      exact ⟨rfl, h.untouched i⟩
    | some cs => exact h.drops hd

end Desk.Kept

end LayeredConfig
