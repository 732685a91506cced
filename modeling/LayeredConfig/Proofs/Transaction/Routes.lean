import LayeredConfig.Proofs.Source.Isolation
import LayeredConfig.Proofs.Transaction.Spreading

/-!
# What a policy stages

The four policies of this library, as data, and what becomes of the sources when one of them stages
a change.

A policy is a function of three operations, and about any function of that kind little can be said.
The policies that the library brings along are four, and three of them look at one source at a time;
the fourth looks for the highest one that accepts a write. So that they can be reasoned about
together, each is named by a `Route`, and what it does is said in one way for all: `Route.takes`
says of a write whether it goes to a source, given the sources above. A share is what remains of a
change then.

Two statements are proved of them. Without any assumption, what every single write keeps is kept by
the whole (`Route.stage_keeps`), however far the staging gets. And where no source refuses what it
accepts, every source gets its share and nothing else happens (`Route.stage_of_yields`).
-/

set_option autoImplicit false

namespace LayeredConfig

variable {σ τ : Type}

/-- A change that is asked of a view. -/
inductive Change
  | put (key value : String)
  | putAll (entries : Entries)
  | remove (keys : List String)
  deriving DecidableEq

def Propagation.stage (p : Propagation σ) (id : TransactionId) : Change → Spread σ
  | .put key value => p.put id key value
  | .putAll entries => p.putAll id entries
  | .remove keys => p.remove id keys

/-- The policies of this library, as data. -/
inductive Route
  | all
  | selective (names : List String)
  | mostSignificant
  | none
  deriving DecidableEq

def Route.policy [Source σ] : Route → Propagation σ
  | all => .all
  | selective names => .selective names
  | mostSignificant => .mostSignificant
  | none => .none

/-! ## Who gets what -/

/-- The writes of a change, in the order in which they are made. -/
def Change.writes : Change → List Write
  | .put key value => [.put key value]
  | .putAll entries => entries.toList.map fun entry => .put entry.1 entry.2
  | .remove keys => keys.map .remove

/-- Whether a source takes a write. -/
def Source.accepts [Source σ] (s : σ) : Write → Bool
  | .put key _ => isMutable s && isWritable s key
  | .remove key => isMutable s && isRemovable s key

/-- Whether a write goes to a source, given the sources above it. -/
def Route.takes [Source σ] (r : Route) (above : List σ) (s : σ) (w : Write) : Bool :=
  Source.accepts s w &&
    match r with
    | all => true
    | selective names => names.contains (Source.name s)
    | mostSignificant => !above.any fun u => Source.accepts u w
    | none => false

/-- The writes of a change that go to the source at a position. -/
def Route.share [Source σ] (r : Route) (sources : List σ) (p : Nat) (c : Change) : List Write :=
  match sources[p]? with
  | some s => c.writes.filter (r.takes (sources.take p) s)
  | Option.none => []

/-- The writes among several that go to the source at a position. -/
def Route.portion [Source σ] (r : Route) (sources : List σ) (p : Nat) (ws : List Write) :
    List Write :=
  match sources[p]? with
  | some s => ws.filter (r.takes (sources.take p) s)
  | Option.none => []

/-- A source after several writes have been staged on it. -/
def Source.writeAll [Source σ] (id : TransactionId) (ws : List Write) (s : σ) : σ :=
  ws.foldl (fun s w => (Source.write id w s).2) s

/-- A source after one write, if it goes there. -/
def Route.hand [Source σ] (r : Route) (id : TransactionId) (w : Write) (above : List σ) (s : σ) : σ :=
  if r.takes above s w then (Source.write id w s).2 else s

/-- All that routes look at in a source. -/
def Source.profile [Source σ] (s : σ) : String × (Write → Bool) := (name s, accepts s)

section Profile

variable [Source σ]

/-- What a route takes for a source is among the writes, and the source accepts it. -/
theorem Route.mem_and_accepts_of_taken (r : Route) {above : List σ} {s : σ} {ws : List Write}
    {w : Write} (hw : w ∈ ws.filter (r.takes above s)) : w ∈ ws ∧ Source.accepts s w = true := by
  obtain ⟨mem, taken⟩ := List.mem_filter.mp hw
  exact ⟨mem, (Bool.and_eq_true_iff.mp taken).1⟩

/-- A route looks at profiles, and at nothing else. -/
theorem Route.takes_congr (r : Route) {above above' : List σ} {s s' : σ}
    (ha : above.map Source.profile = above'.map Source.profile)
    (hs : Source.profile s = Source.profile s') : r.takes above s = r.takes above' s' := by
  obtain ⟨hname, haccepts⟩ := Prod.mk.inj hs
  have hany : ∀ w, above.any (fun u => Source.accepts u w) =
      above'.any fun u => Source.accepts u w := by
    intro w
    have through := congrArg (fun l => l.any fun q : String × (Write → Bool) => q.2 w) ha
    simp only [List.any_map] at through
    exact through
  funext w
  simp only [takes, haccepts, hname, hany]

/-- Portions depend on nothing that a write changes. -/
theorem Route.portion_congr (r : Route) {sources sources' : List σ}
    (h : sources.map Source.profile = sources'.map Source.profile) (p : Nat) (ws : List Write) :
    r.portion sources p ws = r.portion sources' p ws := by
  have here := congrArg (fun l => l[p]?) h
  have above : (sources.take p).map Source.profile = (sources'.take p).map Source.profile := by
    rw [List.map_take, List.map_take, h]
  simp only [List.getElem?_map] at here
  unfold portion
  -- Both lists have a source at the position or neither has, as they have the same profiles.
  cases hs : sources[p]? with
  | none =>
    cases hs' : sources'[p]? with
    | none => rfl
    | some s' => simp [hs, hs'] at here
  | some s =>
    cases hs' : sources'[p]? with
    | none => simp [hs, hs'] at here
    | some s' =>
      rw [hs, hs', Option.map_some, Option.map_some, Option.some_inj] at here
      dsimp only
      rw [r.takes_congr above here]

/-- A share is a portion of the writes of a change. -/
theorem Route.share_congr (r : Route) {sources sources' : List σ}
    (h : sources.map Source.profile = sources'.map Source.profile) (p : Nat) (c : Change) :
    r.share sources p c = r.share sources' p c :=
  r.portion_congr h p c.writes

/-- Of no writes nothing goes anywhere. -/
theorem Route.portion_nil (r : Route) (sources : List σ) (p : Nat) : r.portion sources p [] = [] := by
  unfold portion
  split
  · rfl
  · rfl

/-- Writes are handed out one by one, so a portion of two lists is the two portions. -/
theorem Route.portion_append (r : Route) (sources : List σ) (p : Nat) (ws ws' : List Write) :
    r.portion sources p (ws ++ ws') = r.portion sources p ws ++ r.portion sources p ws' := by
  unfold portion
  split
  · exact List.filter_append ws ws'
  · rfl

end Profile

/-! ## What is kept

A staging is a list of writes on some sources, which may stop at any of them. A function of a source
that no write changes has the same values before and after, wherever it has stopped.
-/

section Keeping

variable [Source σ] {f : σ → τ} {id : TransactionId}

/-- The accepted entries are written in one call, if there are any. -/
theorem Source.putAccepted_keeps (putAll : ∀ entries s, f (Source.putAll id entries s).2 = f s)
    (entries : Entries) (s : σ) : f (putAccepted id entries s).2 = f s := by
  unfold putAccepted
  dsimp only
  split
  · rfl
  · exact putAll _ s

/-- The accepted keys are removed one after the other. -/
theorem Source.removeAccepted_keeps (remove : ∀ key s, f (Source.remove id key s).2 = f s)
    (keys : List String) (s : σ) : f (removeAccepted id keys s).2 = f s := by
  refine Attempt.each_keeps (fun key s => ?_) keys s
  split
  · exact remove key s
  · rfl

/-- What every write of one source keeps is kept of all sources when a change is staged, whether
    the staging succeeds or not. -/
theorem Route.stage_keeps (put : ∀ key value s, f (Source.put id key value s).2 = f s)
    (putAll : ∀ entries s, f (Source.putAll id entries s).2 = f s)
    (remove : ∀ key s, f (Source.remove id key s).2 = f s) (r : Route) (c : Change)
    (sources : List σ) : (r.policy.stage id c sources).2.map f = sources.map f := by
  -- All sources and the selected ones are candidates that are served one after the other; only
  -- which they are differs.
  have toEach (name : String) (candidate : σ → Bool) :
      (((Propagation.toEach name candidate).stage id c) sources).2.map f = sources.map f := by
    cases c with
    | put key value => exact Spread.each_keeps (put key value) _ sources
    | putAll entries => exact Spread.each_keeps (Source.putAccepted_keeps putAll entries) _ sources
    | remove keys => exact Spread.each_keeps (Source.removeAccepted_keeps remove keys) _ sources
  cases r with
  | all => exact toEach _ _
  | selective names => exact toEach _ _
  | none => cases c <;> rfl
  | mostSignificant =>
    cases c with
    | put key value => exact Spread.first_keeps (put key value) _ sources
    -- To the highest source each entry goes on its own, as the next one may have another highest
    -- source.
    | putAll entries =>
      exact Attempt.each_keeps (f := List.map f)
        (fun entry : String × String => Spread.first_keeps (put entry.1 entry.2) _) _ sources
    | remove keys =>
      exact Attempt.each_keeps (f := List.map f)
        (fun key => Spread.first_keeps (remove key) _) _ sources

end Keeping

/-! ## When nothing is refused

Where every source takes what it accepts, a route is a matter of bookkeeping: each source gets its
share of the writes, in their order, and nothing else happens. -/

/-- Sources of a kind on which an accepted write succeeds wherever an invariant holds, and changes
    neither that nor anything that routes look at. -/
structure Source.Yields [Source σ] (id : TransactionId) (Inv : σ → Prop) : Prop where
  ok : ∀ {s w}, Inv s → accepts s w = true → (write id w s).1 = .ok ()
  keeps : ∀ {s w}, Inv s → accepts s w = true → Inv (write id w s).2
  isMutable : ∀ {s w}, Inv s → accepts s w = true → isMutable (write id w s).2 = isMutable s
  profile : ∀ {s w}, Inv s → accepts s w = true → profile (write id w s).2 = profile s
  putAll : ∀ {s} {entries : Entries}, Inv s → Source.isMutable s = true →
    (∀ entry ∈ entries.toList, accepts s (.put entry.1 entry.2) = true) →
    Source.putAll id entries s =
      (.ok (), writeAll id (entries.toList.map fun entry => .put entry.1 entry.2) s)

section Yielding

variable [Source σ] {id : TransactionId} {Inv : σ → Prop}

theorem Source.accepts_and_isMutable (s : σ) (w : Write) :
    (accepts s w && Source.isMutable s) = accepts s w := by
  cases w with
  | put key value => rw [accepts, Bool.and_right_comm, Bool.and_self]
  | remove key => rw [accepts, Bool.and_right_comm, Bool.and_self]

theorem Source.Yields.accepts (y : Source.Yields id Inv) {s : σ} {w : Write} (hs : Inv s)
    (hw : Source.accepts s w = true) : Source.accepts (Source.write id w s).2 = Source.accepts s :=
  (Prod.mk.inj (y.profile hs hw)).2

/-- Of the writes of a table, a writable source takes those of the entries that it accepts. -/
theorem Source.filter_writes {s : σ} (hm : Source.isMutable s = true) (entries : Entries) :
    (Change.putAll entries).writes.filter (accepts s) =
      (entries.filter fun key _ => isWritable s key).toList.map
        fun entry => .put entry.1 entry.2 := by
  rw [Std.ExtTreeMap.toList_filter, Change.writes, List.filter_map]
  refine congrArg _ (List.filter_congr ?_)
  intro entry _
  rw [Function.comp_apply, Source.accepts, hm, Bool.true_and]

/-- A table is written as far as it is accepted, entry by entry. -/
theorem Source.putAccepted_of_yields (y : Source.Yields id Inv) {s : σ} (hs : Inv s)
    (hm : Source.isMutable s = true) (entries : Entries) :
    putAccepted id entries s =
      (.ok (), writeAll id ((Change.putAll entries).writes.filter (accepts s)) s) := by
  unfold putAccepted
  rw [filter_writes hm]
  dsimp only
  split
  -- Nothing of the table is accepted, so the source is not called, and there is nothing to write
  -- either.
  case isTrue hempty =>
    rw [Std.ExtTreeMap.isEmpty_iff] at hempty
    rw [hempty]
    rfl
  case isFalse =>
    refine y.putAll hs hm ?_
    intro entry he
    rw [Std.ExtTreeMap.toList_filter, List.mem_filter] at he
    rw [Source.accepts, hm, Bool.true_and]
    exact he.2

/-- A list of keys is removed as far as it is accepted. -/
theorem Source.removeAccepted_of_yields (y : Source.Yields id Inv) :
    ∀ (keys : List String) {s : σ}, Inv s → Source.isMutable s = true →
      removeAccepted id keys s =
        (.ok (), writeAll id ((Change.remove keys).writes.filter (accepts s)) s)
  | [], _, _, _ => rfl
  | key :: rest, s, hs, hm => by
    have accepted : Source.accepts s (.remove key) = isRemovable s key := by
      rw [Source.accepts, hm, Bool.true_and]
    rw [Change.writes, List.map_cons, List.filter_cons, accepted]
    cases hr : isRemovable s key with
    -- A key that is not accepted is passed over, and is no part of the share.
    | false =>
      have ih := removeAccepted_of_yields y rest hs hm
      unfold removeAccepted at ih ⊢
      rw [Attempt.each]
      simp only [hr, Bool.false_eq_true, if_false]
      exact ih
    -- After the removal the source accepts what it did, so that the share of the rest is the same.
    | true =>
      have hw : Source.accepts s (.remove key) = true := accepted.trans hr
      have ih := removeAccepted_of_yields y rest (y.keeps hs hw) ((y.isMutable hs hw).trans hm)
      rw [y.accepts hs hw] at ih
      have hok := y.ok hs hw
      unfold removeAccepted at ih ⊢
      rw [Attempt.each]
      simp only [hr, if_true]
      rw [show Source.remove id key s = Source.write id (.remove key) s from rfl]
      cases hres : Source.write id (.remove key) s with
      | mk answer after =>
        rw [hres] at hok ih
        cases hok
        simp only [writeAll, List.foldl_cons, hres]
        exact ih

/-- Every candidate gets what it accepts. -/
theorem Propagation.toEach_of_yields (y : Source.Yields id Inv) {candidate : σ → Bool}
    (hc : ∀ s, candidate s = true → Source.isMutable s = true) (name : String) (c : Change)
    {sources : List σ} (h : ∀ s ∈ sources, Inv s) :
    (toEach name candidate).stage id c sources = (.ok (), sources.map fun s =>
      Source.writeAll id (c.writes.filter fun w => Source.accepts s w && candidate s) s) := by
  have of_candidate (op : σ → Attempt SourceError σ)
      (result : ∀ s, Inv s → Source.isMutable s = true → op s =
        (.ok (), Source.writeAll id (c.writes.filter (Source.accepts s)) s)) :
      Spread.each candidate op sources = (.ok (), sources.map fun s =>
        Source.writeAll id (c.writes.filter fun w => Source.accepts s w && candidate s) s) := by
    refine Spread.each_eq_map (fun s hs hsel => ?_) fun s _ hsel => ?_
    · rw [result s (h s hs) (hc s hsel)]
      simp only [hsel, Bool.and_true]
    · rw [List.filter_eq_nil_iff.mpr fun w _ => by simp [hsel]]
      rfl
  cases c with
  -- A single write is asked for before it is made, so that a source that does not accept it is no
  -- candidate.
  | put key value =>
    refine Spread.each_eq_map (fun s hs hsel => ?_) fun s _ hsel => ?_
    · obtain ⟨hcand, hw⟩ := Bool.and_eq_true_iff.mp hsel
      have accepted : Source.accepts s (.put key value) = true := by
        rw [Source.accepts, hc s hcand, hw, Bool.and_self]
      have ok := y.ok (h s hs) accepted
      simp only [Change.writes, List.filter_cons, List.filter_nil, accepted, hcand, Bool.and_self,
        if_true]
      exact Prod.ext ok rfl
    · have refused : (Source.accepts s (.put key value) && candidate s) = false := by
        rw [Source.accepts, Bool.and_assoc, Bool.and_comm (Source.isWritable s key), hsel,
          Bool.and_false]
      simp only [Change.writes, List.filter_cons, List.filter_nil, refused, Bool.false_eq_true,
        if_false]
      rfl
  | putAll entries =>
    exact of_candidate _ fun s hs hm => Source.putAccepted_of_yields y hs hm entries
  | remove keys =>
    exact of_candidate _ fun s hs hm => Source.removeAccepted_of_yields y keys hs hm

theorem Source.Yields.hand (y : Source.Yields id Inv) (r : Route) (w : Write) (above : List σ)
    {s : σ} (hs : Inv s) :
    Inv (r.hand id w above s) ∧ Source.profile (r.hand id w above s) = Source.profile s := by
  unfold Route.hand
  split
  case isTrue ht =>
    have hw := (Bool.and_eq_true_iff.mp ht).1
    exact ⟨y.keeps hs hw, y.profile hs hw⟩
  case isFalse => exact ⟨hs, rfl⟩

/-- Steps that keep the profile of each source keep all profiles. -/
theorem Source.profiles_mapIdx {next : Nat → σ → σ} {sources : List σ}
    (h : ∀ p, ∀ s ∈ sources, profile (next p s) = profile s) :
    (sources.mapIdx next).map profile = sources.map profile := by
  refine List.ext_getElem? ?_
  intro p
  rw [List.getElem?_map, List.getElem?_map, List.getElem?_mapIdx]
  cases hs : sources[p]? with
  | none => rfl
  | some s => exact congrArg some (h p s (List.mem_of_getElem? hs))

/-- Writes that are handed on one by one reach every source as its share of all of them: what a
    write makes of the sources changes none of the shares to come. -/
theorem Route.each_of_yields (y : Source.Yields id Inv) (r : Route) {step : Write → Spread σ}
    (one : ∀ w {sources : List σ}, (∀ s ∈ sources, Inv s) →
      step w sources = (.ok (), sources.mapIdx fun p => r.hand id w (sources.take p))) :
    ∀ (ws : List Write) {sources : List σ}, (∀ s ∈ sources, Inv s) →
      Attempt.each step ws sources = (.ok (), sources.mapIdx fun p s =>
        Source.writeAll id (ws.filter (r.takes (sources.take p) s)) s)
  | [], sources, _ => by
    rw [Attempt.each]
    refine congrArg _ (List.ext_getElem? ?_)
    intro p
    simp [Source.writeAll]
  | w :: rest, sources, h => by
    -- What the first write makes of a source still yields, and accepts what it did.
    have kept (p : Nat) (s : σ) (hs : s ∈ sources) := y.hand r w (sources.take p) (h s hs)
    have profiles := Source.profiles_mapIdx fun p s hs => (kept p s hs).2
    rw [Attempt.each, one w h]
    dsimp only
    rw [each_of_yields y r one rest fun s hs => ?yields]
    case yields =>
      obtain ⟨p, hp, rfl⟩ := List.mem_mapIdx.mp hs
      exact (kept p _ (List.getElem_mem hp)).1
    refine congrArg _ (List.ext_getElem? ?_)
    intro p
    rw [List.getElem?_mapIdx, List.getElem?_mapIdx, List.getElem?_mapIdx]
    cases hs : sources[p]? with
    | none => rfl
    | some s =>
      have above : ((sources.mapIdx fun p => r.hand id w (sources.take p)).take p).map
          Source.profile = (sources.take p).map Source.profile := by
        rw [List.map_take, profiles, List.map_take]
      have same := r.takes_congr above (kept p s (List.mem_of_getElem? hs)).2
      simp only [Option.map_some]
      rw [same, List.filter_cons, Route.hand]
      split
      · rfl
      · rfl

/-- Several writes, each to the highest source that accepts it. -/
theorem Spread.first_each_of_yields (y : Source.Yields id Inv) (ws : List Write) {sources : List σ}
    (h : ∀ s ∈ sources, Inv s) :
    Attempt.each (fun w => Spread.first (fun s => Source.accepts s w) (Source.write id w)) ws
      sources = (.ok (), sources.mapIdx fun p s =>
        Source.writeAll id (ws.filter (Route.mostSignificant.takes (sources.take p) s)) s) :=
  Route.each_of_yields y .mostSignificant
    (fun _ _ h => first_of_ok fun s hs hw => y.ok (h s hs) hw) ws h

/-- **Shares.** A policy of this library stages on every source its share of a change, and no
    staging fails. -/
theorem Route.stage_of_yields (y : Source.Yields id Inv) (r : Route) (c : Change)
    {sources : List σ} (h : ∀ s ∈ sources, Inv s) :
    r.policy.stage id c sources = (.ok (), sources.mapIdx fun p s =>
      Source.writeAll id (r.share sources p c) s) := by
  have given : (sources.mapIdx fun p s => Source.writeAll id (r.share sources p c) s) =
      sources.mapIdx fun p s =>
        Source.writeAll id (c.writes.filter (r.takes (sources.take p) s)) s := by
    refine List.ext_getElem? ?_
    intro p
    rw [List.getElem?_mapIdx, List.getElem?_mapIdx]
    cases hs : sources[p]? with
    -- Nobody takes anything, so that all shares are empty.
    | none => rfl
    | some s =>
      simp only [share, hs]
      rfl
  -- A part that does not depend on the sources above.
  have everywhere (q : σ → Write → Bool) (hq : ∀ above s, r.takes above s = q s) :
      (sources.map fun s => Source.writeAll id (c.writes.filter (q s)) s) =
        sources.mapIdx fun p s =>
          Source.writeAll id (c.writes.filter (r.takes (sources.take p) s)) s := by
    rw [map_eq_mapIdx]
    simp only [hq]
  rw [given]
  cases r with
  | all =>
    refine (Propagation.toEach_of_yields y (fun _ hm => hm) _ c h).trans ?_
    refine congrArg _ (everywhere _ fun _ s => funext fun w => ?_)
    rw [takes, Bool.and_true, Source.accepts_and_isMutable]
  | selective names =>
    refine (Propagation.toEach_of_yields y (fun s hs => (Bool.and_eq_true_iff.mp hs).1) _ c h).trans
      ?_
    refine congrArg _ (everywhere _ fun _ s => funext fun w => ?_)
    rw [takes, ← Bool.and_assoc, Source.accepts_and_isMutable]
  | none =>
    rw [← everywhere (fun _ _ => false) fun _ _ => funext fun w => Bool.and_false _]
    have kept (s : σ) : Source.writeAll id (c.writes.filter fun _ => false) s = s := by
      rw [List.filter_eq_nil_iff.mpr fun _ _ => Bool.false_ne_true]
      rfl
    simp only [kept, List.map_id']
    cases c <;> rfl
  -- A table and a list of keys are handed on one by one, in the order of the writes of the change.
  | mostSignificant =>
    cases c with
    | put key value =>
      rw [← Spread.first_each_of_yields y _ h, Change.writes, Attempt.each_singleton]
      rfl
    | putAll entries =>
      rw [← Spread.first_each_of_yields y _ h, Change.writes, Attempt.each_map]
      rfl
    | remove keys =>
      rw [← Spread.first_each_of_yields y _ h, Change.writes, Attempt.each_map]
      rfl

end Yielding

end LayeredConfig
