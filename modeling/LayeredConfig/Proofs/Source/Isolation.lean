import LayeredConfig.Proofs.Ledger
import LayeredConfig.Source.Memory

/-!
# A memory shows committed transactions only

Any number of transactions may be open on one memory, their calls in any order, with ids that are
unknown, used twice or used again. **`Memory.run_eq_replay` says what is to be seen of them**: the
committed entries are those of the beginning, on which the transactions with a successful commit
have been replayed in the order of their commits, each with the writes granted to it and no
others.

The memory is compared with a ledger that records every granted call. The memory itself keeps no
such list; what it keeps is related to it by `Memory.Books`: there is a staging area for a
transaction exactly if the ledger has a draft for it, and the area is that draft, staged write by
write. One call keeps the two in step (`Memory.Books.perform`), and it is granted exactly if the
ledger says so, so the ledger also tells every answer in advance.

What one operation does is stated once per answer, granted or refused (`Memory.start_of_none` and
the others), and used in `Memory.Books.perform` only. The three results that an operation can have
on the books are an area with one more write (`Memory.Books.insert`), an area less
(`Memory.Books.erase`), and none at all; a commit is the second of them with other committed
entries.
-/

set_option autoImplicit false

namespace LayeredConfig

/-! ## Calls -/

/-- What can be asked of a writable source under a transaction. -/
inductive SourceRequest
  | start (now : Timestamp)
  | write (w : Write)
  | commit
  | rollback
  deriving DecidableEq

structure SourceCall where
  transaction : TransactionId
  request : SourceRequest
  deriving DecidableEq

def Source.write {σ : Type} [Source σ] (id : TransactionId) : Write → σ → Attempt SourceError σ
  | .put key value => Source.put id key value
  | .remove key => Source.remove id key

def SourceCall.perform {σ : Type} [Source σ] (call : SourceCall) : σ → Attempt SourceError σ :=
  match call.request with
  | .start now => Source.start call.transaction now
  | .write w => Source.write call.transaction w
  | .commit => Source.commit call.transaction
  | .rollback => Source.rollback call.transaction

namespace Ledger

/-- The ledger after a call that has been granted. -/
def record (l : Ledger TransactionId Write) (call : SourceCall) : Ledger TransactionId Write :=
  match call.request with
  | .start _ => l.begin call.transaction
  | .write w => l.note call.transaction w
  | .commit => l.settle call.transaction
  | .rollback => l.drop call.transaction

/-- The table on which the settled transactions have been replayed, one after another. -/
def replay (l : Ledger TransactionId Write) (table : Entries) : Entries :=
  l.settled.foldl (fun table transaction => Write.replay transaction.2 table) table

end Ledger

namespace Memory

/-- A memory with its ledger, after one more call. A refused call is not recorded. -/
def account (m : Memory × Ledger TransactionId Write) (call : SourceCall) :
    Memory × Ledger TransactionId Write :=
  match call.perform m.1 with
  | (.ok (), after) => (after, m.2.record call)
  | (.error _, after) => (after, m.2)

/-- A memory after several calls, with the ledger of those granted. -/
def run (m : Memory) (calls : List SourceCall) : Memory × Ledger TransactionId Write :=
  calls.foldl account (m, .blank)

/-- Whether a memory is going to grant a call, by its ledger: a transaction is started only if it
    is not open, anything else needs it open, and a write needs a key that may be written. -/
def grants (m : Memory) (l : Ledger TransactionId Write) (call : SourceCall) : Bool :=
  match call.request with
  | .start _ => (l.draft call.transaction).isNone
  | .write w => !m.isReadOnly w.key && (l.draft call.transaction).isSome
  | .commit | .rollback => (l.draft call.transaction).isSome

/-! ## What each operation does -/

section Operations

variable {m : Memory} {id : TransactionId}

theorem start_of_none (now : Timestamp) (h : m.staged[id]? = none) :
    m.start id now = (.ok (), { m with staged := m.staged.insert id (.start id now) }) := by
  unfold start
  rw [Std.ExtTreeMap.contains_eq_isSome_getElem?, h]
  rfl

theorem start_of_some (now : Timestamp) {c : ChangeSet} (h : m.staged[id]? = some c) :
    m.start id now = (.error (.transactionExists m.name id), m) := by
  unfold start
  rw [Std.ExtTreeMap.contains_eq_isSome_getElem?, h]
  rfl

/-- Both kinds of write are one operation on the staging area. -/
theorem write_eq (w : Write) :
    Source.write id w m =
      if m.isReadOnly w.key then (.error (.readOnly m.name w.key), m)
      else match m.staged[id]? with
        | some c => (.ok (), { m with staged := m.staged.insert id (c.stage w) })
        | none => (.error (.noTransaction m.name id), m) := by
  cases w <;> rfl

theorem commit_of_some {c : ChangeSet} (h : m.staged[id]? = some c) :
    m.commit id =
      (.ok (), { m with committed := c.apply m.committed, staged := m.staged.erase id }) := by
  unfold commit
  rw [h]

theorem commit_of_none (h : m.staged[id]? = none) :
    m.commit id = (.error (.noTransaction m.name id), m) := by
  unfold commit
  rw [h]

theorem rollback_of_some {c : ChangeSet} (h : m.staged[id]? = some c) :
    m.rollback id = (.ok (), { m with staged := m.staged.erase id }) := by
  unfold rollback
  rw [Std.ExtTreeMap.contains_eq_isSome_getElem?, h]
  rfl

theorem rollback_of_none (h : m.staged[id]? = none) :
    m.rollback id = (.error (.noTransaction m.name id), m) := by
  unfold rollback
  rw [Std.ExtTreeMap.contains_eq_isSome_getElem?, h]
  rfl

end Operations

/-! ## The memory beside its ledger -/

/-- A staging area beside the draft of its transaction: both are missing, or the area is the draft
    staged write by write. -/
inductive Area (id : TransactionId) : Option (List Write) → Option ChangeSet → Prop
  | closed : Area id none none
  | opened (now : Timestamp) (ws : List Write) :
    Area id (some ws) (some ((ChangeSet.start id now).stageAll ws))

/-- What became of a memory, `before`, by the calls in a ledger. -/
structure Books (before m : Memory) (l : Ledger TransactionId Write) : Prop where
  name : m.name = before.name
  ordinal : m.ordinal = before.ordinal
  readOnly : m.readOnly = before.readOnly
  committed : m.committed = l.replay before.committed
  areas : ∀ id, Area id (l.draft id) m.staged[id]?

namespace Books

variable {before m : Memory} {l l' : Ledger TransactionId Write} {id : TransactionId}

theorem blank (fresh : before.staged = ∅) : Books before before .blank where
  name := rfl
  ordinal := rfl
  readOnly := rfl
  committed := rfl
  areas id := by
    rw [fresh, Std.ExtTreeMap.getElem?_empty]
    exact .closed

theorem isReadOnly (h : Books before m l) (key : String) :
    m.isReadOnly key = before.isReadOnly key := by
  simp only [Memory.isReadOnly, h.readOnly]

/-- A change of one transaction: nothing else has to be looked at again. -/
theorem change (h : Books before m l) (id : TransactionId) {committed : Entries}
    {staged : Std.ExtTreeMap TransactionId ChangeSet}
    (replayed : committed = l'.replay before.committed) (here : Area id (l'.draft id) staged[id]?)
    (elsewhere : ∀ other, other ≠ id →
      l'.draft other = l.draft other ∧ staged[other]? = m.staged[other]?) :
    Books before { m with committed := committed, staged := staged } l' where
  name := h.name
  ordinal := h.ordinal
  readOnly := h.readOnly
  committed := replayed
  areas other := by
    by_cases ho : other = id
    · exact ho ▸ here
    · obtain ⟨hd, hs⟩ := elsewhere other ho
      rw [hd, hs]
      exact h.areas other

/-- A staging area is opened, or filled with one more write. -/
theorem insert (h : Books before m l) (now : Timestamp) (ws : List Write)
    (settled : l'.settled = l.settled) (here : l'.draft id = some ws)
    (elsewhere : ∀ other, other ≠ id → l'.draft other = l.draft other) :
    Books before
      { m with staged := m.staged.insert id ((ChangeSet.start id now).stageAll ws) } l' := by
  refine h.change id ?_ ?_ fun other ho => ⟨elsewhere other ho, ?_⟩
  · simp only [Ledger.replay, settled]
    exact h.committed
  · rw [here, Std.ExtTreeMap.getElem?_insert_self]
    exact .opened now ws
  · simp [Std.ExtTreeMap.getElem?_insert, Ne.symm ho]

/-- A staging area is closed, with or without a commit. -/
theorem erase (h : Books before m l) {committed : Entries}
    (replayed : committed = l'.replay before.committed) (here : l'.draft id = none)
    (elsewhere : ∀ other, other ≠ id → l'.draft other = l.draft other) :
    Books before { m with committed := committed, staged := m.staged.erase id } l' := by
  refine h.change id replayed ?_ fun other ho => ⟨elsewhere other ho, ?_⟩
  · rw [here, Std.ExtTreeMap.getElem?_erase_self]
    exact .closed
  · simp [Std.ExtTreeMap.getElem?_erase, Ne.symm ho]

/-- What the ledger says of a transaction, as the memory has it. -/
theorem area_cases (h : Books before m l) (id : TransactionId) :
    (l.draft id = none ∧ m.staged[id]? = none) ∨
    ∃ now ws, l.draft id = some ws ∧ m.staged[id]? = some ((ChangeSet.start id now).stageAll ws) := by
  have ha := h.areas id
  generalize l.draft id = draft, m.staged[id]? = area at ha
  cases ha with
  | closed => exact .inl ⟨rfl, rfl⟩
  | opened now ws => exact .inr ⟨now, ws, rfl, rfl⟩

/-- **One call.** A call that the ledger allows is granted and recorded; any other is refused, and
    changes nothing. -/
theorem perform (h : Books before m l) (call : SourceCall) :
    if before.grants l call then
      ∃ after, call.perform m = (.ok (), after) ∧ Books before after (l.record call)
    else ∃ e, call.perform m = (.error e, m) := by
  obtain ⟨id, request⟩ := call
  -- By the ledger: with no draft only a start is granted, with a draft everything but a start, and
  -- writes of read-only keys are refused in both.
  rcases h.area_cases id with ⟨hd, hs⟩ | ⟨now, ws, hd, hs⟩
  · cases request with
    | start now =>
      simp only [grants, hd, Option.isNone_none, if_true]
      refine ⟨_, start_of_none now hs, h.insert now [] Ledger.begin_settled ?_ fun other => ?_⟩
      · exact Ledger.begin_draft_of_none hd
      · exact Ledger.begin_draft_of_ne
    | write w =>
      simp only [grants, hd, Option.isSome_none, Bool.and_false, Bool.false_eq_true, if_false]
      rw [show SourceCall.perform ⟨id, .write w⟩ m = Source.write id w m from rfl, write_eq, hs]
      split
      · exact ⟨_, rfl⟩
      · exact ⟨_, rfl⟩
    | commit =>
      simp only [grants, hd, Option.isSome_none, Bool.false_eq_true, if_false]
      exact ⟨_, commit_of_none hs⟩
    | rollback =>
      simp only [grants, hd, Option.isSome_none, Bool.false_eq_true, if_false]
      exact ⟨_, rollback_of_none hs⟩
  · cases request with
    | start later =>
      simp only [grants, hd, Option.isNone_some, Bool.false_eq_true, if_false]
      exact ⟨_, start_of_some later hs⟩
    | write w =>
      rw [show SourceCall.perform ⟨id, .write w⟩ m = Source.write id w m from rfl, write_eq, hs,
        h.isReadOnly]
      cases hr : before.isReadOnly w.key with
      | true =>
        simp only [grants, hr, Bool.not_true, Bool.false_and, Bool.false_eq_true, if_false]
        exact ⟨_, rfl⟩
      | false =>
        simp only [grants, hr, hd, Bool.not_false, Option.isSome_some, Bool.and_self, if_true]
        refine ⟨_, rfl, ?_⟩
        -- The area with one more write is the draft with one more write, staged anew.
        rw [← ChangeSet.stageAll_singleton, ← ChangeSet.stageAll_append]
        refine h.insert now (ws ++ [w]) (by rfl) ?_ fun other => Ledger.note_draft_of_ne
        simp [Ledger.record, hd]
    | commit =>
      simp only [grants, hd, Option.isSome_some, if_true]
      refine ⟨_, commit_of_some hs, h.erase ?_ ?_ ?_⟩
      all_goals simp only [Ledger.record, Ledger.settle_of_some hd]
      -- Committing applies the area once; the ledger replays the draft write by write.
      · rw [ChangeSet.apply_stageAll, ChangeSet.apply_start, h.committed]
        simp [Ledger.replay]
      · exact Ledger.drop_draft_self
      · exact fun other => Ledger.drop_draft_of_ne
    | rollback =>
      simp only [grants, hd, Option.isSome_some, if_true]
      refine ⟨_, rollback_of_some hs, h.erase h.committed ?_ fun other => Ledger.drop_draft_of_ne⟩
      exact Ledger.drop_draft_self

theorem account {m : Memory × Ledger TransactionId Write} (h : Books before m.1 m.2)
    (call : SourceCall) : Books before (account m call).1 (account m call).2 := by
  have hp := h.perform call
  unfold Memory.account
  split at hp
  · obtain ⟨after, ha, hb⟩ := hp
    rw [ha]
    exact hb
  · obtain ⟨e, he⟩ := hp
    rw [he]
    exact h

theorem run (fresh : before.staged = ∅) (calls : List SourceCall) :
    Books before (before.run calls).1 (before.run calls).2 :=
  List.foldlRecOn calls Memory.account (motive := fun m => Books before m.1 m.2) (blank fresh)
    fun _ h call _ => h.account call

/-- Look-ups and listings of a memory depend on what is committed, and on nothing staged. -/
theorem reader_eq (h : Books before m l) :
    Source.reader m = { before with committed := l.replay before.committed }.reader := by
  obtain ⟨name, ordinal, readOnly, committed, staged⟩ := m
  obtain ⟨rfl, rfl, rfl, rfl, -⟩ := h
  rfl

end Books

/-! ## Every run -/

/-- **Committed transactions, one after another, and nothing else.** After any calls on a memory
    without open transactions, its committed entries are those of the beginning with the settled
    transactions of the ledger replayed on them, and look-ups and listings answer from these
    alone. The next call is granted exactly if the ledger allows it; if it is refused, the memory
    stays as it is with all its staging areas, and unless it is a commit no reader notices it. -/
theorem run_eq_replay (m : Memory) (fresh : m.staged = ∅) (calls : List SourceCall) :
    let after := (m.run calls).1
    let ledger := (m.run calls).2
    after.committed = ledger.replay m.committed ∧
    (Source.reader after).properties = .ok (ledger.replay m.committed) ∧
    (∀ key, (Source.reader after).get key =
      .ok ((ledger.replay m.committed)[key]?.map fun value => .plain key value m.name)) ∧
    ∀ call : SourceCall,
      ((call.perform after).1 = .ok () ↔ m.grants ledger call = true) ∧
      (∀ e, (call.perform after).1 = .error e → (call.perform after).2 = after) ∧
      (call.request ≠ .commit → Source.reader (call.perform after).2 = Source.reader after) := by
  intro after ledger
  have h : Books m after ledger := Books.run fresh calls
  refine ⟨h.committed, ?_, fun key => ?_, fun call => ?_⟩
  · rw [h.reader_eq]
    rfl
  · rw [h.reader_eq]
    rfl
  · have hp := h.perform call
    split at hp
    case isFalse hg =>
      obtain ⟨e, he⟩ := hp
      rw [he]
      exact ⟨⟨fun ha => (nomatch ha), fun ha => absurd ha hg⟩, fun _ _ => rfl, fun _ => rfl⟩
    case isTrue hg =>
      obtain ⟨next, hn, hb⟩ := hp
      rw [hn]
      refine ⟨⟨fun _ => hg, fun _ => rfl⟩, fun _ he => (nomatch he), fun hc => ?_⟩
      -- Readers see what is settled, and nothing but a commit settles anything.
      have settled : (ledger.record call).settled = ledger.settled := by
        obtain ⟨id, request⟩ := call
        cases request with
        | commit => exact absurd rfl hc
        | start => exact Ledger.begin_settled
        | write | rollback => rfl
      rw [hb.reader_eq, h.reader_eq, Ledger.replay, Ledger.replay, settled]

/-- Two transactions at once, the second one started twice; a write of a key that is read only;
    the id of the first used again after its commit, and rolled back; a commit of an id that is
    not open. What is left are the writes of the first transaction under those of the second. -/
theorem run_eq_replay_interleaved :
    let m := Memory.ofPairs "mem" 0 ["sys."] [("a", "0"), ("b", "0")]
    let call (n : Nat) (request : SourceRequest) : SourceCall := ⟨.ofNat n, request⟩
    let calls := [
      call 1 (.start ⟨0, 0⟩), call 2 (.start ⟨0, 0⟩), call 1 (.write (.put "a" "1")),
      call 2 (.write (.put "a" "2")), call 2 (.start ⟨1, 0⟩), call 1 (.write (.remove "b")),
      call 1 (.write (.put "sys.x" "1")), call 1 .commit, call 1 (.start ⟨2, 0⟩),
      call 1 (.write (.put "c" "3")), call 2 .commit, call 1 .rollback, call 2 .commit]
    m.staged = ∅ ∧ (m.run calls).1.committed = Entries.ofPairs [("a", "2")] :=
  ⟨rfl, (run_eq_replay _ rfl _).1.trans (by decide +kernel)⟩

end Memory

end LayeredConfig
