import LayeredConfig.Proofs.Lookup.Readers
import LayeredConfig.Proofs.Source.Inside
import LayeredConfig.Proofs.Transaction.Merging
import LayeredConfig.Proofs.Transaction.Sharing
import Mathlib.Algebra.Group.Nat.Defs
import Mathlib.Data.List.Induction

/-!
# Views do not disturb each other

Several views write to the same sources, their calls in any order. **`Desk.run_serializable` says
that they might as well take turns**: no call is refused, what a view has pending depends on the
changes that it has made itself, and what is committed and read is what there would be if the
committed transactions were made one after another, in the order of their commits.

All of this is about two desks beside their journals: the one with the calls as they came, and
another one with other calls. Where the journals agree, so do the desks.

Nothing here is proved about a single call: `Desk.Kept.after`, in the module on journals, is the
step, and `Desk.Kept.run` its induction. What is compared of two desks is compared source by source
(`Desk.Kept.sources_congr`), since the sources of both come from the same list.
-/

set_option autoImplicit false

namespace LayeredConfig

variable {ι : Type}

theorem TransactionSupply.Distinct.mono {s : TransactionSupply} {m n : Nat} (h : s.Distinct n)
    (hm : m ≤ n) : s.Distinct m :=
  fun a b ha hb => h a b (Nat.lt_of_lt_of_le ha hm) (Nat.lt_of_lt_of_le hb hm)

/-- Numbers are different ids as long as there are bits for them. -/
theorem Shared.numbered_distinct (sources : List AnySource) {n : Nat} (hn : n ≤ 2 ^ 128) :
    (numbered sources).supply.Distinct n := by
  intro a b ha hb same
  have bits := congrArg (fun id : TransactionId => id.bits.toNat) same
  simp only [numbered, TransactionId.ofNat, BitVec.toNat_ofNat, Nat.zero_add] at bits
  rwa [Nat.mod_eq_of_lt (Nat.lt_of_lt_of_le ha hn), Nat.mod_eq_of_lt (Nat.lt_of_lt_of_le hb hn)]
    at bits

/-! ## Two desks -/

/-- A source has the same to read and the same committed, whatever is staged on it. -/
theorem AnySource.After.same {ws : List Write}
    {areas areas' : Std.ExtTreeMap TransactionId ChangeSet → Prop} {before now now' : AnySource}
    (h : After ws areas before now) (h' : After ws areas' before now') :
    Source.reader now = Source.reader now' ∧ now.committed? = now'.committed? := by
  cases h with
  | table | scripted =>
    cases h'
    exact ⟨rfl, rfl⟩
  | memory m _ =>
    cases h' with
    | memory _ _ => exact ⟨rfl, rfl⟩

theorem AnySource.reports_memory {m : Memory} {id : TransactionId} {area : ChangeSet}
    (h : m.staged[id]? = some area) : Source.reports id (memory m) = some area.sides :=
  congrArg (Option.map ChangeSet.sides) h

namespace Desk.Kept

variable {o : Opening ι AnySource} {d d' : Desk ι AnySource} {l l' : Ledger ι Change}

/-- Whatever can be said of two desks source by source. -/
theorem sources_congr (h : Kept o d l) (h' : Kept o d' l') {τ : Type} {f f' : AnySource → τ}
    (each : ∀ p before now now',
      AnySource.After (o.settled p l) (Areas (fun i => (d.view i).transaction?) (o.drafted p l))
        before now →
      AnySource.After (o.settled p l') (Areas (fun i => (d'.view i).transaction?) (o.drafted p l'))
        before now' → f now = f' now') :
    d.shared.context.sources.map f = d'.shared.context.sources.map f' := by
  refine List.ext_getElem? ?_
  intro p
  rw [List.getElem?_map, List.getElem?_map]
  -- Both desks started from the same source at this place, and each has made its own of it.
  have related := h.sources p
  have related' := h'.sources p
  generalize o.shared.context.sources[p]? = before at related related'
  generalize d.shared.context.sources[p]? = now, d'.shared.context.sources[p]? = now' at *
  cases related with
  | none =>
    cases related'
    rfl
  | some after =>
    cases related' with
    | some after' => exact congrArg some (each p _ _ _ after after')

/-- With the same transactions settled there is the same to read, and the same committed. -/
theorem settled_congr (h : Kept o d l) (h' : Kept o d' l') (same : l.settled = l'.settled) :
    d.shared.context.readers = d'.shared.context.readers ∧
    d.shared.context.sources.map AnySource.committed? =
      d'.shared.context.sources.map AnySource.committed? := by
  have replayed (p : Nat) : o.settled p l = o.settled p l' := by
    rw [Opening.settled, Opening.settled, same]
  refine ⟨h.sources_congr h' fun p _ _ _ after after' => ?_,
    h.sources_congr h' fun p _ _ _ after after' => ?_⟩
  · rw [replayed p] at after
    exact (after.same after').1
  · rw [replayed p] at after
    exact (after.same after').2

/-- With the same draft a view has the same keys pending. -/
theorem draft_congr (h : Kept o d l) (h' : Kept o d' l') {i : ι}
    (same : l.draft i = l'.draft i) :
    (d.view i).pendingSides? d.shared = (d'.view i).pendingSides? d'.shared := by
  cases hd : l.draft i with
  | none =>
    rw [h.idle_view hd, h'.idle_view (same.symm.trans hd)]
    rfl
  | some cs =>
    -- Ids and times differ between the two desks, but the sides of a set have neither.
    obtain ⟨k, now, -, hv⟩ := h.working_view hd
    obtain ⟨k', now', -, hv'⟩ := h'.working_view (same.symm.trans hd)
    have drafted (p : Nat) : o.drafted p l i = o.drafted p l' i := by
      rw [Opening.drafted, Opening.drafted, same]
    refine View.pendingSides?_congr (by rw [hv]; rfl) (by rw [hv']; rfl)
      (h.sources_congr h' fun p before s s' after after' => ?_)
    cases after with
    | table | scripted =>
      cases after'
      rfl
    | memory m areas =>
      cases after' with
      | memory _ areas' =>
        obtain ⟨opened, area⟩ := areas.mine i (o.id k) (by rw [hv]; rfl)
        obtain ⟨opened', area'⟩ := areas'.mine i (o.id k') (by rw [hv']; rfl)
        have started : (ChangeSet.start (o.id k) opened).sides =
            (ChangeSet.start (o.id k') opened').sides := rfl
        rw [AnySource.reports_memory area, AnySource.reports_memory area', drafted p]
        exact congrArg some (ChangeSet.sides_stageAll started _)

theorem memory_committed (h : Kept o d l) {p : Nat} {m : Memory}
    (hs : o.shared.context.sources[p]? = some (.memory m)) :
    ∃ m', d.shared.context.sources[p]? = some (.memory m') ∧
      m'.committed = Write.replay (o.settled p l) m.committed := by
  have related := h.sources p
  rw [hs] at related
  generalize d.shared.context.sources[p]? = now at related
  cases related with
  | some after =>
    cases after with
    | memory _ _ => exact ⟨_, rfl, rfl⟩

/-- With the same transactions settled, every look-up has the same answer. -/
theorem lookup_congr (h : Kept o d l) (h' : Kept o d' l') (same : l.settled = l'.settled) :
    Context.Alike d.shared.context d'.shared.context := by
  have settings : { d.shared.context with sources := o.shared.context.sources } =
      { d'.shared.context with sources := o.shared.context.sources } := by
    rw [h.context, h'.context]
  obtain ⟨-, filters, policy, converters⟩ := Context.mk.inj settings
  have profiles := congrArg (List.map Prod.fst) (h.profiles.trans h'.profiles.symm)
  refine Context.alike (h.settled_congr h' same).1 filters policy converters ?_
  rwa [List.map_map, List.map_map] at profiles

/-! ## One call after another -/

variable [DecidableEq ι]

/-- The desk stays beside its journal, as long as the ids that have been drawn are different. -/
theorem run (plain : ∀ s ∈ o.shared.context.sources, s.Plain) (calls : List (ι × WriteCall))
    (distinct : o.shared.supply.Distinct (Ledger.ofCalls o.auto calls).begun) :
    Kept o (o.desk.run calls) (.ofCalls o.auto calls) := by
  induction calls using List.reverseRecOn with
  | nil => exact blank plain
  | append_singleton before call ih =>
    have step : Ledger.ofCalls o.auto (before ++ [call]) =
        (Ledger.ofCalls o.auto before).enter o.auto call := List.foldl_append
    -- By the last call: the desk before it is kept, as fewer ids have been drawn by then.
    rw [step] at distinct ⊢
    have kept := ih (distinct.mono ((Ledger.ofCalls o.auto before).enter_begun_le o.auto call).1)
    rw [Desk.run, List.foldl_append]
    exact (kept.after call.1 call.2 distinct).2

theorem granted (plain : ∀ s ∈ o.shared.context.sources, s.Plain) (calls : List (ι × WriteCall))
    (distinct : o.shared.supply.Distinct (calls.length + 1)) (i : ι) (call : WriteCall) :
    ((o.desk.run calls).perform i call).answer = .ok () := by
  have begun := (Ledger.ofCalls_le o.auto calls).1
  have next := ((Ledger.ofCalls o.auto calls).enter_begun_le o.auto (i, call)).2
  have kept := run plain calls (distinct.mono (by omega))
  exact (kept.after i call (distinct.mono (by omega))).1

end Desk.Kept

/-! ## Serializability -/

variable [DecidableEq ι]

/-- **As if the transactions were made one after another.** Views write to the same plain sources,
    in any order, and no id comes twice. Then

    * all their calls are granted;
    * what a view has pending depends on its draft, the changes that it has made since its
      transaction was opened, and the draft depends on its own calls;
    * there is the same to read and the same committed as on a desk where the settled transactions
      are made again, one after another in the order of their commits, and none is open;
    * and to each memory, the share of each settled transaction has been committed once, in that
      order. -/
theorem Desk.run_serializable (o : Opening ι AnySource)
    (plain : ∀ s ∈ o.shared.context.sources, s.Plain) (calls : List (ι × WriteCall))
    (distinct : o.shared.supply.Distinct calls.length) :
    let journal := Ledger.ofCalls o.auto calls
    let d := o.desk.run calls
    let serial := o.desk.run journal.serially
    (∀ before i call rest, calls = before ++ (i, call) :: rest →
      ((o.desk.run before).perform i call).answer = .ok ()) ∧
    (∀ i, journal.draft i =
        (Ledger.ofCalls o.auto (calls.filter fun call => call.1 = i)).draft i ∧
      ∀ calls', o.shared.supply.Distinct calls'.length →
        (Ledger.ofCalls o.auto calls').draft i = journal.draft i →
        ((o.desk.run calls').view i).pendingSides? (o.desk.run calls').shared =
          (d.view i).pendingSides? d.shared) ∧
    (∀ i, (serial.view i).transaction? = none) ∧
    Context.Alike d.shared.context serial.shared.context ∧
    d.shared.context.sources.map AnySource.committed? =
      serial.shared.context.sources.map AnySource.committed? ∧
    ∀ p m, o.shared.context.sources[p]? = some (.memory m) →
      ∃ m', d.shared.context.sources[p]? = some (.memory m') ∧
        m'.committed = Write.replay (o.settled p journal) m.committed := by
  intro journal d serial
  have kept : Kept o d journal :=
    Kept.run plain calls (distinct.mono (Ledger.ofCalls_le o.auto calls).1)
  have bounded : journal.settled.length ≤ calls.length := (Ledger.ofCalls_le o.auto calls).2
  -- Taking turns has the same transactions settled, and begins no more than there are of them.
  have again : Ledger.ofCalls o.auto journal.serially =
      ⟨fun _ => none, journal.settled, journal.settled.length⟩ :=
    Ledger.ofCalls_serially (.ofCalls o.auto calls)
  have keptSerial : Kept o serial (.ofCalls o.auto journal.serially) :=
    Kept.run plain _ (distinct.mono (by rw [again]; exact bounded))
  rw [again] at keptSerial
  refine ⟨?_, fun i => ⟨(Ledger.ofCalls_draft_own o.auto calls i).symm, ?_⟩, ?_,
    kept.lookup_congr keptSerial rfl, (kept.settled_congr keptSerial rfl).2,
    fun p m hs => kept.memory_committed hs⟩
  · intro before i call rest split
    refine Kept.granted plain before (distinct.mono ?_) i call
    rw [split, List.length_append, List.length_cons]
    omega
  · intro calls' distinct' same
    have drawn := (Ledger.ofCalls_le o.auto calls').1
    exact (Kept.run plain calls' (distinct'.mono drawn)).draft_congr kept same
  · intro i
    rw [keptSerial.idle_view rfl]
    rfl

/-- Three views at two memories: one that writes to the highest source, one that writes to all, and
    one whose writes are committed at once. They write the same keys at the same time, and the
    commits decide. -/
theorem Desk.run_serializable_three_views :
    let high := AnySource.memory (.ofPairs "high" 1 ["sys."] [("a", "0")])
    let low := AnySource.memory (.ofPairs "low" 0 [] [("a", "0"), ("b", "0")])
    let route (i : Nat) : Route := if i = 0 then .mostSignificant else .all
    let o : Opening Nat AnySource := ⟨.numbered [high, low], route, fun i => i = 2⟩
    let calls : List (Nat × WriteCall) := [
      (0, .change (.put "a" "1")), (1, .change (.put "a" "2")), (2, .change (.put "c" "3")),
      (1, .start), (1, .change (.remove ["b", "c"])), (0, .change (.put "sys.x" "1")),
      (2, .change (.put "a" "3")), (1, .commit), (2, .rollback), (0, .commit), (1, .commit)]
    (∀ s ∈ o.shared.context.sources, s.Plain) ∧ o.shared.supply.Distinct calls.length ∧
      (o.desk.run calls).shared.context.sources.map AnySource.committed? =
        [some (Entries.ofPairs [("a", "1")]), some (Entries.ofPairs [("a", "2"), ("sys.x", "1")])] := by
  intro high low route o calls
  have plain : ∀ s ∈ o.shared.context.sources, s.Plain :=
    List.forall_mem_cons.mpr ⟨rfl, List.forall_mem_singleton.mpr rfl⟩
  have distinct : o.shared.supply.Distinct calls.length :=
    Shared.numbered_distinct [high, low] (by decide)
  obtain ⟨-, -, -, -, committed, -⟩ := run_serializable o plain calls distinct
  refine ⟨plain, distinct, committed.trans ?_⟩
  decide +kernel

end LayeredConfig
