import LayeredConfig.Proofs.Transaction.Discipline
import LayeredConfig.Proofs.Transaction.Serializability
import LayeredConfig.Proofs.Transaction.Turns

/-!
# What a desk is ready for

Views that share memories may be asked for anything at any time: for calls, and for another policy
or another setting of automatic commit. **`Desk.Ready.run` says that the desk is ready for the next
call all the same**: every view is idle or has its transaction open on every memory, with a draft
there of writes that the memory accepts, and no two views have the same transaction.

What a view has written stays written when its policy is changed, so a draft is not the share of
some changes under one policy. It is kept apart here as what it is, a list of writes for each view
and each memory (`part`), and a call of a view changes that list and no other.

Views are told apart by their transactions. Where there is more than one, the ids have to be
different as far as they are drawn.

The steps are the same for every request. `Desk.Ready.drafted` reads off what the view sees of its
own transaction on each memory, `View.perform_turn` (in the module on turns) says what one call
makes of it, and `Desk.Ready.areas_of_turn` puts the area back among those of the other views. A
request that is no call leaves what is shared alone (`Desk.Ready.reseat`).
-/

set_option autoImplicit false

namespace LayeredConfig

variable {ι σ : Type}

/-! ## Requests -/

/-- What can be asked of a view that has the policies of this library. -/
inductive Errand
  | call (call : WriteCall)
  | autoCommit (on : Bool)
  | route (r : Route)

def Errand.request [Source σ] : Errand → View.Request σ
  | call c => .call c
  | autoCommit on => .autoCommit on
  | route r => .policy r.policy

/-- The ids of the next transactions, as many as are given, are different, unless there is only one
    view. -/
def TransactionSupply.TellsApart (ι : Type) (s : TransactionSupply) (n : Nat) : Prop :=
  Subsingleton ι ∨ s.Distinct n

theorem TransactionSupply.TellsApart.mono {s : TransactionSupply} {m n : Nat}
    (h : s.TellsApart ι n) (hm : m ≤ n) : s.TellsApart ι m :=
  h.imp_right fun distinct => distinct.mono hm

namespace Desk

variable [Source σ]

/-- What a request to one view answers and leaves. -/
def serve (d : Desk ι σ) (i : ι) (errand : Errand) : Outcome σ Unit :=
  (d.view i).serve d.shared errand.request

/-! ## Between two requests -/

/-- A desk, after so many transactions have been drawn, with what each view has written to each
    memory and not yet committed. -/
structure Ready (wrap : Memory → σ) (o : Opening ι σ) (drawn : Nat)
    (part : Nat → ι → List Write) (d : Desk ι σ) : Prop where
  context : d.shared.context = { o.shared.context with sources := d.shared.context.sources }
  supply : d.shared.supply = { o.shared.supply with next := o.shared.supply.next + drawn }
  steady : ∀ i, (d.view i).lifecycle.Steady
  policy : ∀ i, ∃ r : Route, (d.view i).policy = r.policy
  issued : ∀ i id, (d.view i).transaction? = some id →
    ∃ k < drawn, id = o.shared.supply.id (o.shared.supply.next + k)
  alone : ∀ i j id, (d.view i).transaction? = some id → (d.view j).transaction? = some id → i = j
  areas : Source.Backed wrap (fun p m =>
    Areas (fun i => (d.view i).transaction?) (part p) m.staged ∧
    ∀ i, ∀ w ∈ part p i, Source.accepts m w = true) d.shared.context.sources

namespace Ready

variable {wrap : Memory → σ} {o : Opening ι σ} {drawn : Nat} {part : Nat → ι → List Write}
  {d : Desk ι σ} {i : ι}

theorem blank (fresh : Source.Backed wrap (fun _ m => m.staged = ∅) o.shared.context.sources) :
    Ready wrap o 0 (fun _ _ => []) o.desk where
  context := rfl
  supply := rfl
  steady _ := .inl rfl
  policy i := ⟨o.route i, rfl⟩
  issued _ _ h := nomatch h
  alone _ _ _ h := nomatch h
  areas := fresh.mono fun p m _ empty =>
    ⟨by rw [empty]; exact .empty fun _ => rfl, fun _ _ hw => nomatch hw⟩

/-- The transaction that a view is under is that of no other view. -/
theorem target_alone (h : Ready wrap o drawn part d)
    (told : o.shared.supply.TellsApart ι (drawn + 1)) (i : ι) :
    ∀ j, j ≠ i → (d.view j).transaction? ≠ some ((d.view i).target d.shared) := by
  intro j hji same
  cases tx : (d.view i).transaction? with
  | some id =>
    rw [View.target, tx, Option.getD_some] at same
    exact hji (h.alone j i id same tx)
  | none =>
    rw [View.target, tx, Option.getD_none, Shared.nextId, h.supply] at same
    -- Its transaction would be drawn now, so the other view would have an id that comes twice.
    rcases told with single | distinct
    · exact hji (Subsingleton.elim j i)
    · obtain ⟨k, hk, hid⟩ := h.issued j _ same
      exact absurd (distinct drawn k (by omega) (by omega) hid) (by omega)

/-- What the view that makes the next call has on each memory: its draft if its transaction is open,
    and nothing under the id that would be drawn. -/
theorem drafted (h : Ready wrap o drawn part d) (told : o.shared.supply.TellsApart ι (drawn + 1))
    (i : ι) : (d.view i).Drafted wrap d.shared
      fun p => (d.view i).transaction?.map fun _ => part p i where
  opened p := Option.isSome_map
  areas := h.areas.mono fun p m _ held => by
    -- An idle view looks under the next id, and nobody has an area under that.
    cases tx : (d.view i).transaction? with
    | some id =>
      obtain ⟨now, area⟩ := held.1.mine i id tx
      rw [View.target, tx, Option.getD_some, area]
      exact .opened now _
    | none =>
      have nobody : ∀ j, (d.view j).transaction? ≠ some ((d.view i).target d.shared) := by
        intro j
        by_cases hji : j = i
        · rw [hji, tx]
          exact (Option.some_ne_none _).symm
        · exact h.target_alone told i j hji
      rw [held.1.others _ nobody]
      exact .closed

/-- The transaction that a call of a view is under is drawn then, or has been before. -/
theorem target_issued (h : Ready wrap o drawn part d) (i : ι) :
    ∃ k < if (d.view i).transaction?.isNone then drawn + 1 else drawn,
      (d.view i).target d.shared = o.shared.supply.id (o.shared.supply.next + k) := by
  cases tx : (d.view i).transaction? with
  | some id =>
    rw [View.target, tx]
    exact h.issued i id tx
  | none =>
    rw [View.target, tx, Option.getD_none, Shared.nextId, h.supply]
    exact ⟨drawn, Nat.lt_succ_self drawn, rfl⟩

end Ready

/-! ## One request after another -/

variable [DecidableEq ι]

/-- The desk after a request to one view. -/
def served (d : Desk ι σ) (i : ι) (errand : Errand) : Desk ι σ :=
  ⟨(d.serve i errand).shared, Function.update d.view i (d.serve i errand).view⟩

/-- The desk after several requests, each to the view that is named with it. -/
def servedAll (d : Desk ι σ) (errands : List (ι × Errand)) : Desk ι σ :=
  errands.foldl (fun d errand => d.served errand.1 errand.2) d

namespace Ready

variable {wrap : Memory → σ} {o : Opening ι σ} {drawn : Nat} {part : Nat → ι → List Write}
  {d : Desk ι σ} {i : ι}

/-- Another view in the place of one that has the same transaction. -/
theorem reseat (h : Ready wrap o drawn part d) {v : View σ}
    (same : v.lifecycle = (d.view i).lifecycle)
    (policy : ∃ r : Route, v.policy = r.policy) :
    Ready wrap o drawn part ⟨d.shared, Function.update d.view i v⟩ := by
  have lifecycles (j : ι) : (Function.update d.view i v j).lifecycle = (d.view j).lifecycle := by
    by_cases hji : j = i
    · rw [hji, Function.update_self, same]
    · rw [Function.update_of_ne hji]
  have transactions (j : ι) : (Function.update d.view i v j).transaction? = (d.view j).transaction? :=
    congrArg Lifecycle.id? (lifecycles j)
  constructor
  case context => exact h.context
  case supply => exact h.supply
  case steady => exact fun j => lifecycles j ▸ h.steady j
  case policy =>
    intro j
    by_cases hji : j = i
    · rw [hji]
      simpa only [Function.update_self] using policy
    · simpa only [Function.update_of_ne hji] using h.policy j
  case issued => simpa only [transactions] using h.issued
  case alone => simpa only [transactions] using h.alone
  case areas => simpa only [transactions] using h.areas

variable (e : Source.Embeds wrap)
include e

/-- What a call of one view makes of a memory: the area of its transaction follows its draft, and
    the draft grows by what the memory accepts. -/
theorem areas_of_turn (h : Ready wrap o drawn part d)
    (told : o.shared.supply.TellsApart ι (drawn + 1)) {r : Route} {call : WriteCall}
    {tx : ι → Option TransactionId} (there : ∀ j, j ≠ i → tx j = (d.view j).transaction?)
    (here : tx i =
      if call.leavesOpen (d.view i).autoCommit then some ((d.view i).target d.shared) else none)
    {p : Nat} {m m' : Memory} (hs : d.shared.context.sources[p]? = some (wrap m)) :
    let turn := call.turn (d.view i).autoCommit (r.share d.shared.context.sources p)
      ((d.view i).transaction?.map fun _ => part p i)
    let part' := Function.update (part p) i (turn.1.getD [])
    Memory.Turn ((d.view i).target d.shared) turn.1 turn.2 m m' →
    Areas tx part' m'.staged ∧ ∀ j, ∀ w ∈ part' j, Source.accepts m' w = true := by
  intro turn part' turned
  obtain ⟨areas, accepted⟩ := h.areas.memory e hs
  refine ⟨areas.change (h.target_alone told i) ?before ?views turned.elsewhere ?here, ?accepted⟩
  case before =>
    intro id open'
    rw [View.target, open', Option.getD_some]
  case views => exact fun j hji => ⟨there j hji, Function.update_of_ne hji _ _⟩
  case here =>
    have isOpen : turn.1.isSome = call.leavesOpen (d.view i).autoCommit := call.turn_isSome ..
    have area : Memory.Area _ turn.1 m'.staged[_]? := turned.area
    rw [here, show part' i = turn.1.getD [] from Function.update_self .., ← isOpen]
    -- Whether the call leaves a transaction open is told by whether it leaves a draft.
    generalize turn.1 = draft at area ⊢
    cases draft with
    | none => exact .inr ⟨rfl, area.eq_none⟩
    | some ws => exact .inl ⟨rfl, area.eq_some⟩
  case accepted =>
    rw [turned.accepts]
    intro j w hw
    by_cases hji : j = i
    · rw [hji, show part' i = turn.1.getD [] from Function.update_self ..] at hw
      -- A write in the new draft has been there before, or it is in the share of this memory.
      rcases WriteCall.mem_turn hw with drafted | ⟨c, shared⟩
      · refine accepted i w ?_
        cases tx : (d.view i).transaction? with
        | none => rw [tx] at drafted; cases drafted
        | some id => rw [tx] at drafted; exact drafted
      · rw [← e.accepts]
        exact r.accepts_of_mem_share hs shared
    · rw [show part' j = part p j from Function.update_of_ne hji _ _] at hw
      exact accepted j w hw

/-- **One call.** A call is granted, and the desk is ready for the next one. -/
theorem after (h : Ready wrap o drawn part d) (told : o.shared.supply.TellsApart ι (drawn + 1))
    (i : ι) (call : WriteCall) : (d.perform i call).answer = .ok () ∧
      ∃ drawn' part', drawn' ≤ drawn + 1 ∧ Ready wrap o drawn' part' (d.after i call) := by
  obtain ⟨r, policy⟩ := h.policy i
  have granted := View.perform_turn e (h.steady i) policy (h.drafted told i) call
  have here : ((d.after i call).view i).transaction? =
      if call.leavesOpen (d.view i).autoCommit then some ((d.view i).target d.shared) else none := by
    rw [after_view]
    exact granted.transaction
  have there (j : ι) (hji : j ≠ i) : (d.after i call).view j = d.view j :=
    d.after_view_of_ne i call hji
  have opened (id : TransactionId) (tx : ((d.after i call).view i).transaction? = some id) :
      id = (d.view i).target d.shared ∧ call.leavesOpen (d.view i).autoCommit = true := by
    rw [here] at tx
    split at tx
    · exact ⟨(Option.some_inj.mp tx).symm, ‹_›⟩
    · cases tx
  have left : (d.after i call).shared =
      Shared.withSources _ (d.after i call).shared.context.sources := granted.left
  refine ⟨granted.answer, if call.begins && (d.view i).transaction?.isNone then drawn + 1 else drawn,
    fun p => Function.update (part p) i
      ((call.turn (d.view i).autoCommit (r.share d.shared.context.sources p)
        ((d.view i).transaction?.map fun _ => part p i)).1.getD []), ?_, ?_⟩
  · split
    · exact Nat.le_refl _
    · omega
  -- Whatever concerns another view is as it was; what concerns this one is in `granted`.
  constructor
  case context =>
    generalize (d.after i call).shared.context.sources = sources at left
    rw [left]
    split
    · exact congrArg (fun c : Context σ => { c with sources := sources }) h.context
    · exact congrArg (fun c : Context σ => { c with sources := sources }) h.context
  case supply =>
    rw [left]
    split
    · exact congrArg TransactionSupply.drawn h.supply
    · exact h.supply
  case steady =>
    intro j
    by_cases hji : j = i
    · rw [hji, after_view]
      exact granted.steady
    · rw [there j hji]
      exact h.steady j
  case policy =>
    intro j
    by_cases hji : j = i
    · rw [hji, after_view]
      exact ⟨r, ((d.view i).perform_settings d.shared call).1.trans policy⟩
    · rw [there j hji]
      exact h.policy j
  case issued =>
    intro j id tx
    by_cases hji : j = i
    · obtain ⟨rfl, opens⟩ := opened id (hji ▸ tx)
      rw [WriteCall.begins_of_leavesOpen opens, Bool.true_and]
      exact h.target_issued i
    · rw [there j hji] at tx
      obtain ⟨k, hk, hid⟩ := h.issued j id tx
      exact ⟨k, by split <;> omega, hid⟩
  case alone =>
    exact alone_of_one h.alone (h.target_alone told i)
      (fun j hji => congrArg View.transaction? (there j hji)) fun id tx => (opened id tx).1
  case areas =>
    refine granted.moved.backed e h.areas fun p m m' hs _ turn => ?_
    exact h.areas_of_turn e told (fun j hji => congrArg View.transaction? (there j hji)) here hs turn

/-- **One request.** Another policy or another setting leaves what has been written alone. -/
theorem served (h : Ready wrap o drawn part d) (told : o.shared.supply.TellsApart ι (drawn + 1))
    (i : ι) (errand : Errand) :
    ∃ drawn' part', drawn' ≤ drawn + 1 ∧ Ready wrap o drawn' part' (d.served i errand) := by
  cases errand with
  | call call => exact (h.after e told i call).2
  | route r => exact ⟨drawn, part, Nat.le_succ drawn, h.reseat rfl ⟨r, rfl⟩⟩
  | autoCommit on =>
    have kept : ((d.view i).setAutoCommit on).2.lifecycle = (d.view i).lifecycle ∧
        ((d.view i).setAutoCommit on).2.policy = (d.view i).policy := by
      unfold View.setAutoCommit
      split
      · exact ⟨rfl, rfl⟩
      · exact ⟨rfl, rfl⟩
    exact ⟨drawn, part, Nat.le_succ drawn, h.reseat kept.1 (kept.2 ▸ h.policy i)⟩

/-- **Any requests.** The desk stays ready as long as ids are left that tell the views apart. -/
theorem servedAll (errands : List (ι × Errand)) {drawn : Nat} {part : Nat → ι → List Write}
    {d : Desk ι σ} (h : Ready wrap o drawn part d)
    (told : o.shared.supply.TellsApart ι (drawn + errands.length)) :
    ∃ drawn' part', drawn' ≤ drawn + errands.length ∧
      Ready wrap o drawn' part' (d.servedAll errands) := by
  induction errands generalizing drawn part d with
  | nil => exact ⟨drawn, part, Nat.le_refl _, h⟩
  | cons errand errands ih =>
    -- Each request draws one id at most.
    rw [List.length_cons] at told
    obtain ⟨next, part', hn, h'⟩ := h.served e (told.mono (by omega)) errand.1 errand.2
    obtain ⟨last, part'', hl, h''⟩ := ih h' (told.mono (by omega))
    exact ⟨last, part'', by rw [List.length_cons]; omega, h''⟩

/-- A desk at which no transaction has been opened yet is ready after any requests. -/
theorem run (fresh : Source.Backed wrap (fun _ m => m.staged = ∅) o.shared.context.sources)
    (errands : List (ι × Errand)) (told : o.shared.supply.TellsApart ι errands.length) :
    ∃ drawn part, drawn ≤ errands.length ∧ Ready wrap o drawn part (o.desk.servedAll errands) := by
  obtain ⟨drawn, part, hd, h⟩ := (blank fresh).servedAll e errands (told.mono (by omega))
  exact ⟨drawn, part, by omega, h⟩

end Ready

end Desk

end LayeredConfig
