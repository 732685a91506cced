import LayeredConfig.Proofs.Ledger
import LayeredConfig.Proofs.Transaction.Desk

/-!
# The journal of several views

The ledger of a desk has the views for owners and their changes for entries. It follows from the
calls alone: a start opens a draft, a change is noted in it, a commit settles it, a rollback drops
it. With automatic commit a change is settled at once, so a draft of such a view is empty and a
settled transaction has one change at most (`Ledger.Brief`).

The settled transactions can be made again by calls, one transaction after another
(`Ledger.serially`). **`Ledger.ofCalls_serially` says that these calls have the same transactions
settled, and nothing else**: each of them is opened, made and settled before the next one begins.

Nothing here is about sources. The ledger is a function of the calls, and what is proved of it are
facts about lists of calls: whose calls a draft comes from, how many transactions there can be, and
that what was settled in any order of the views can be settled again one transaction at a time. The
sources come in when a desk is laid beside its journal, and then they only have to follow.
-/

set_option autoImplicit false

namespace LayeredConfig

variable {ι : Type} [DecidableEq ι]

namespace Ledger

def enter (auto : ι → Bool) (l : Ledger ι Change) (call : ι × WriteCall) : Ledger ι Change :=
  match call.2 with
  | .start => l.begin call.1
  | .change c =>
    let noted := (l.begin call.1).note call.1 c
    if auto call.1 then noted.settle call.1 else noted
  | .commit => l.settle call.1
  | .rollback => l.drop call.1

def ofCalls (auto : ι → Bool) (calls : List (ι × WriteCall)) : Ledger ι Change :=
  calls.foldl (enter auto) .blank

/-- The calls that make one transaction. -/
def remade (t : ι × List Change) : List (ι × WriteCall) :=
  (t.1, .start) :: t.2.map (fun c => (t.1, .change c)) ++ [(t.1, .commit)]

/-- The calls that make the settled transactions again, one after another. -/
def serially (l : Ledger ι Change) : List (ι × WriteCall) := l.settled.flatMap remade

/-! ## The draft of a view

It comes from the calls of that view alone. -/

section Draft

variable {auto : ι → Bool} {l l' : Ledger ι Change}

/-- Whether a start opens a draft depends on the draft alone. -/
theorem begin_draft_congr {i : ι} (h : l.draft i = l'.draft i) :
    (l.begin i).draft i = (l'.begin i).draft i := by
  cases hd : l.draft i with
  | none => rw [begin_draft_of_none hd, begin_draft_of_none (h.symm.trans hd)]
  | some cs => rw [begin_of_some hd, begin_of_some (h.symm.trans hd), h]

/-- What a call of a view makes of its draft depends on the draft alone. -/
theorem enter_draft_congr {i : ι} (h : l.draft i = l'.draft i) (call : WriteCall) :
    (l.enter auto (i, call)).draft i = (l'.enter auto (i, call)).draft i := by
  cases call with
  | start => exact begin_draft_congr h
  | change c =>
    unfold enter
    dsimp only
    split
    · rw [settle_draft_self, settle_draft_self]
    · rw [note_draft_self, note_draft_self, begin_draft_congr h]
  | commit => exact settle_draft_self.trans settle_draft_self.symm
  | rollback => exact drop_draft_self.trans drop_draft_self.symm

/-- A call of another view leaves a draft alone. -/
theorem enter_draft_of_ne {i : ι} {call : ι × WriteCall} (h : i ≠ call.1) :
    (l.enter auto call).draft i = l.draft i := by
  obtain ⟨j, call⟩ := call
  cases call with
  | start => exact begin_draft_of_ne h
  | change c =>
    have noted : ((l.begin j).note j c).draft i = l.draft i := by
      rw [note_draft_of_ne h, begin_draft_of_ne h]
    unfold enter
    dsimp only
    split
    · rw [settle_draft_of_ne h, noted]
    · exact noted
  | commit => exact settle_draft_of_ne h
  | rollback => exact drop_draft_of_ne h

/-- The draft of a view comes from its own calls. -/
theorem ofCalls_draft_own (auto : ι → Bool) (calls : List (ι × WriteCall)) (i : ι) :
    (ofCalls auto (calls.filter fun call => call.1 = i)).draft i =
      (ofCalls auto calls).draft i := by
  -- By the calls, for any two ledgers that agree on the draft of the view: what the others do
  -- changes one of them only, and not in this draft.
  have fromLedger : ∀ (calls : List (ι × WriteCall)) (l l' : Ledger ι Change),
      l.draft i = l'.draft i →
      ((calls.filter fun call => call.1 = i).foldl (enter auto) l).draft i =
        (calls.foldl (enter auto) l').draft i := by
    intro calls
    induction calls with
    | nil => exact fun _ _ h => h
    | cons call rest ih =>
      intro l l' h
      by_cases mine : call.1 = i
      · subst mine
        rw [List.filter_cons_of_pos (by simp)]
        exact ih _ _ (enter_draft_congr h call.2)
      · rw [List.filter_cons_of_neg (by simpa using mine)]
        exact ih _ _ (h.trans (enter_draft_of_ne (Ne.symm mine)).symm)
  exact fromLedger calls _ _ rfl

end Draft

/-! ## How much there is of it

The ids are different as far as they are drawn, so it has to be known how many that are. The bound
by the number of calls is all that is used of it: it needs no look at the calls.
-/

section Counting

theorem begin_begun_le (l : Ledger ι Change) (i : ι) :
    l.begun ≤ (l.begin i).begun ∧ (l.begin i).begun ≤ l.begun + 1 := by
  unfold begin
  split
  · exact ⟨Nat.le_refl _, Nat.le_succ _⟩
  · exact ⟨Nat.le_succ _, Nat.le_refl _⟩

theorem enter_begun_le (auto : ι → Bool) (l : Ledger ι Change) (call : ι × WriteCall) :
    l.begun ≤ (l.enter auto call).begun ∧ (l.enter auto call).begun ≤ l.begun + 1 := by
  obtain ⟨i, call⟩ := call
  cases call with
  | start => exact l.begin_begun_le i
  | change c =>
    unfold enter
    dsimp only
    split
    · rw [settle_begun, note_begun]
      exact l.begin_begun_le i
    · exact l.begin_begun_le i
  | commit => exact ⟨by simp [enter], by simp [enter]⟩
  | rollback => exact ⟨Nat.le_refl _, Nat.le_succ _⟩

theorem settle_settled_length_le {α : Type} (l : Ledger ι α) (i : ι) :
    (l.settle i).settled.length ≤ l.settled.length + 1 := by
  cases h : l.draft i with
  | none =>
    rw [settle_of_none h]
    exact Nat.le_succ _
  | some cs => simp [settle_of_some h]

theorem enter_settled_length_le (auto : ι → Bool) (l : Ledger ι Change) (call : ι × WriteCall) :
    (l.enter auto call).settled.length ≤ l.settled.length + 1 := by
  obtain ⟨i, call⟩ := call
  cases call with
  | start => simp [enter]
  | change c =>
    unfold enter
    dsimp only
    split
    · exact Nat.le_trans (settle_settled_length_le _ i) (by simp)
    · simp
  | commit => exact l.settle_settled_length_le i
  | rollback => simp [enter]

/-- Each call begins one transaction at most, and settles one at most. -/
theorem ofCalls_le (auto : ι → Bool) (calls : List (ι × WriteCall)) :
    (ofCalls auto calls).begun ≤ calls.length ∧
    (ofCalls auto calls).settled.length ≤ calls.length := by
  have fromLedger : ∀ (calls : List (ι × WriteCall)) (l : Ledger ι Change),
      (calls.foldl (enter auto) l).begun ≤ l.begun + calls.length ∧
      (calls.foldl (enter auto) l).settled.length ≤ l.settled.length + calls.length := by
    intro calls
    induction calls with
    | nil => exact fun l => ⟨Nat.le_refl _, Nat.le_refl _⟩
    | cons call rest ih =>
      intro l
      obtain ⟨hb, hs⟩ := ih (l.enter auto call)
      have begun := (l.enter_begun_le auto call).2
      have settled := l.enter_settled_length_le auto call
      rw [List.foldl_cons, List.length_cons]
      omega
  have h := fromLedger calls .blank
  simpa [ofCalls, blank] using h

end Counting

/-! ## Automatic commit

A transaction of a view with automatic commit could be made again by a start, its change and a
commit, but the change settles it already, and the commit finds nothing. With two changes the second
one would be a transaction of its own. So it matters that there never are two.
-/

/-- With automatic commit there is one change in a transaction at most, and it does not wait. -/
structure Brief (auto : ι → Bool) (l : Ledger ι Change) : Prop where
  draft : ∀ i cs, auto i = true → l.draft i = some cs → cs = []
  settled : ∀ t ∈ l.settled, auto t.1 = true → t.2.length ≤ 1

namespace Brief

variable {auto : ι → Bool} {l : Ledger ι Change}

omit [DecidableEq ι] in
theorem blank : Brief auto (Ledger.blank : Ledger ι Change) where
  draft _ _ _ h := nomatch h
  settled _ ht := nomatch ht

theorem begin (h : Brief auto l) (i : ι) : Brief auto (l.begin i) where
  draft j cs hj hd := by
    by_cases hji : j = i
    · subst hji
      cases hl : l.draft j with
      | some cs' =>
        rw [begin_of_some hl] at hd
        exact h.draft j cs hj hd
      | none =>
        rw [begin_draft_of_none hl] at hd
        exact (Option.some.inj hd).symm
    · rw [begin_draft_of_ne hji] at hd
      exact h.draft j cs hj hd
  settled t ht := by
    rw [begin_settled] at ht
    exact h.settled t ht

/-- What is settled has to be short; what is left has been there before. -/
theorem settle {i : ι} (others : ∀ j cs, j ≠ i → auto j = true → l.draft j = some cs → cs = [])
    (own : ∀ cs, auto i = true → l.draft i = some cs → cs.length ≤ 1)
    (settled : ∀ t ∈ l.settled, auto t.1 = true → t.2.length ≤ 1) : Brief auto (l.settle i) where
  draft j cs hj hd := by
    by_cases hji : j = i
    · subst hji
      exact nomatch settle_draft_self.symm.trans hd
    · rw [settle_draft_of_ne hji] at hd
      exact others j cs hji hj hd
  settled t ht ha := by
    cases hl : l.draft i with
    | none =>
      rw [settle_of_none hl] at ht
      exact settled t ht ha
    | some cs =>
      rw [settle_of_some hl] at ht
      rcases List.mem_append.mp ht with ht | ht
      · exact settled t ht ha
      · obtain rfl := List.mem_singleton.mp ht
        exact own cs ha hl

theorem enter (h : Brief auto l) (call : ι × WriteCall) : Brief auto (l.enter auto call) := by
  obtain ⟨i, call⟩ := call
  cases call with
  | start => exact h.begin i
  | change c =>
    have begun := h.begin i
    unfold Ledger.enter
    dsimp only
    cases hi : auto i with
    | true =>
      refine settle (fun j cs hji hj hd => ?_) (fun cs _ hd => ?_) begun.settled
      · rw [note_draft_of_ne hji] at hd
        exact begun.draft j cs hj hd
      · rw [note_draft_self] at hd
        obtain ⟨cs', hd', rfl⟩ := Option.map_eq_some_iff.mp hd
        rw [begun.draft i cs' hi hd']
        exact Nat.le_refl _
    | false =>
      refine ⟨fun j cs hj hd => ?_, begun.settled⟩
      by_cases hji : j = i
      · subst hji
        exact absurd (hi.symm.trans hj) Bool.false_ne_true
      · rw [if_neg Bool.false_ne_true, note_draft_of_ne hji] at hd
        exact begun.draft j cs hj hd
  | commit =>
    refine settle (fun j cs _ hj hd => h.draft j cs hj hd) (fun cs hi hd => ?_) h.settled
    rw [h.draft i cs hi hd]
    exact Nat.zero_le _
  | rollback =>
    refine ⟨fun j cs hj hd => ?_, h.settled⟩
    by_cases hji : j = i
    · subst hji
      exact nomatch drop_draft_self.symm.trans hd
    · rw [Ledger.enter, drop_draft_of_ne hji] at hd
      exact h.draft j cs hj hd

theorem ofCalls (auto : ι → Bool) (calls : List (ι × WriteCall)) :
    Brief auto (Ledger.ofCalls auto calls) :=
  List.foldlRecOn calls _ blank fun _ h call _ => h.enter call

end Brief

/-! ## Once more, one by one

Each transaction is remade while its view has no draft, and leaves none. So the drafts are empty in
between, and what is settled grows by one transaction at a time.
-/

section Serially

variable {auto : ι → Bool} {l : Ledger ι Change}

/-- Changes of a view without automatic commit are noted one after another. -/
theorem foldl_change {i : ι} (hi : auto i = false) :
    ∀ (cs : List Change) {l : Ledger ι Change} {before : List Change},
      l.draft i = some before →
      (cs.map fun c => (i, WriteCall.change c)).foldl (enter auto) l =
        { l with draft := Function.update l.draft i (some (before ++ cs)) }
  | [], l, before, h => by
    rw [List.append_nil, ← h, Function.update_eq_self]
    rfl
  | c :: rest, l, before, h => by
    have noted : l.enter auto (i, .change c) = l.note i c := by
      rw [enter]
      simp only [hi, begin_of_some h, Bool.false_eq_true, if_false]
    have draft : (l.note i c).draft i = some (before ++ [c]) := by rw [note_draft_self, h]; rfl
    rw [List.map_cons, List.foldl_cons, noted, foldl_change hi rest draft]
    simp only [note, Function.update_idem, List.append_assoc, List.singleton_append]

/-- Opened, filled and settled again: the drafts are as before. -/
theorem settle_update {i : ι} (idle : l.draft i = none) (cs : List Change) (begun : Nat) :
    settle ⟨Function.update l.draft i (some cs), l.settled, begun⟩ i =
      ⟨l.draft, l.settled ++ [(i, cs)], begun⟩ := by
  rw [settle_of_some (Function.update_self ..)]
  simp only [drop, Function.update_idem]
  rw [← idle, Function.update_eq_self]

/-- A transaction that is made while its view has none is settled at the end of it. -/
theorem foldl_remade {t : ι × List Change} (idle : l.draft t.1 = none)
    (brief : auto t.1 = true → t.2.length ≤ 1) :
    (remade t).foldl (enter auto) l = ⟨l.draft, l.settled ++ [t], l.begun + 1⟩ := by
  obtain ⟨i, cs⟩ := t
  have opened := begin_draft_of_none idle
  dsimp only at idle brief opened
  have steps : (remade (i, cs)).foldl (enter auto) l =
      ((cs.map fun c => (i, WriteCall.change c)).foldl (enter auto) (l.begin i)).settle i := by
    rw [remade, List.foldl_append]
    rfl
  rw [steps]
  cases hi : auto i with
  -- The changes are noted one after the other, and the commit settles them all.
  | false =>
    rw [foldl_change hi cs opened, begin_of_none idle, List.nil_append]
    simp only [Function.update_idem]
    exact settle_update idle cs (l.begun + 1)
  | true =>
    match cs, brief hi with
    | [], _ =>
      rw [List.map_nil, List.foldl_nil, begin_of_none idle]
      exact settle_update idle [] (l.begun + 1)
    | [c], _ =>
      -- The change is settled at once, and nothing is left for the commit.
      have noted : ((l.begin i).begin i).note i c =
          ⟨Function.update l.draft i (some [c]), l.settled, l.begun + 1⟩ := by
        rw [begin_of_some opened, begin_of_none idle]
        simp [note]
      simp only [List.map_cons, List.map_nil, List.foldl_cons, List.foldl_nil, enter, hi, if_true]
      rw [noted, settle_update idle]
      exact settle_of_none idle

/-- **The settled transactions, and no other.** -/
theorem ofCalls_serially (h : Brief auto l) :
    ofCalls auto l.serially = ⟨fun _ => none, l.settled, l.settled.length⟩ := by
  -- By the transactions that are left, with those that are done in front.
  have following : ∀ (ts done : List (ι × List Change)),
      (∀ t ∈ ts, auto t.1 = true → t.2.length ≤ 1) →
      (ts.flatMap remade).foldl (enter auto) ⟨fun _ => none, done, done.length⟩ =
        ⟨fun _ => none, done ++ ts, (done ++ ts).length⟩ := by
    intro ts
    induction ts with
    | nil => exact fun done _ => by simp
    | cons t rest ih =>
      intro done brief
      obtain ⟨first, others⟩ := List.forall_mem_cons.mp brief
      rw [List.flatMap_cons, List.foldl_append, foldl_remade (by rfl) first]
      simpa using ih (done ++ [t]) others
  exact following l.settled [] h.settled

end Serially

end Ledger

end LayeredConfig
