import LayeredConfig.Timestamp
import LayeredConfig.Transaction.Lifecycle
import Mathlib.Data.List.Infix

/-!
# When a transaction has an id

A transaction is opened in two ways. `Lifecycle.begin` opens it and names it; the bare event opens
it as well, but an event brings neither an id nor a start time. So a transaction can be open without
them, and can get them later, when it is begun although it is open already.

**`Lifecycle.wellNamed_iff` says that ids and states part in this way only**: in a run of any calls,
fitting ones and others, there is an id whenever the transaction is not idle, and the same one until
it is idle again, if and only if the bare event never comes while it is idle. A call that does not
fit changes nothing in any run.

All that one call can do is `Lifecycle.Does`; what is true of every call is read off its cases, and
a run goes by its last call.
-/

set_option autoImplicit false

namespace LayeredConfig.Lifecycle

/-- Everything that can be asked of a transaction. -/
inductive Call
  | begin
  | event (event : TransactionEvent)
  deriving DecidableEq, Repr

/-- Whether a call fits, and what it leaves. -/
def call (l : Lifecycle) (supply : TransactionSupply) :
    Call → Except TransitionError Unit × Lifecycle × TransactionSupply
  | .begin => ((l.begin supply).1.map fun _ => (), (l.begin supply).2)
  | .event event => ((l.apply event).1.map fun _ => (), (l.apply event).2, supply)

/-- A new transaction after several calls. -/
def after (supply : TransactionSupply) (calls : List Call) : Lifecycle × TransactionSupply :=
  calls.foldl (fun s c => (s.1.call s.2 c).2) (idle, supply)

/-- There is an id, and a start time, exactly when the transaction is not idle. -/
def Identified (l : Lifecycle) : Prop :=
  (l.id?.isSome ↔ l.state ≠ .idle) ∧ (l.startedAt?.isSome ↔ l.state ≠ .idle)

/-- What is expected of a run at every point of it. -/
structure WellNamed (supply : TransactionSupply) (calls : List Call) : Prop where
  identified : ∀ before, before <+: calls → (after supply before).1.Identified
  /-- As long as the transaction does not become idle, it keeps its id and its start time. -/
  constant : ∀ before during, before ++ during <+: calls →
    (∀ part, part <+: during → (after supply (before ++ part)).1.state ≠ .idle) →
    (after supply (before ++ during)).1.id? = (after supply before).1.id? ∧
      (after supply (before ++ during)).1.startedAt? = (after supply before).1.startedAt?
  /-- A call that does not fit changes nothing. -/
  unchanged : ∀ before c, before ++ [c] <+: calls → ∀ e,
    ((after supply before).1.call (after supply before).2 c).1 = .error e →
    after supply (before ++ [c]) = after supply before

variable {l : Lifecycle} {supply : TransactionSupply} {c : Call} {calls : List Call}

theorem identified_iff : l.Identified ↔ (l.opening.isSome ↔ l.state ≠ .idle) := by
  simp [Identified, id?, startedAt?]

/-! ## One call -/

/-- All that a call can do. -/
inductive Does (l : Lifecycle) (supply : TransactionSupply) :
    Call → Except TransitionError Unit × Lifecycle × TransactionSupply → Prop
  | refuses (c : Call) (e : TransitionError) : Does l supply c (.error e, l, supply)
  | joins (c : Call) (isOpen : l.state = .open) : Does l supply c (.ok (), l, supply)
  /-- Also a transaction that is open without an id gets one. -/
  | names (unnamed : l.state = .idle ∨ l.opening = none) :
    Does l supply .begin
      (.ok (), ⟨.open, some (supply.id supply.next, supply.time supply.next)⟩, supply.drawn)
  | opens (isIdle : l.state = .idle) :
    Does l supply (.event .begin) (.ok (), { l with state := .open }, supply)
  | ends (event : TransactionEvent) (ended : TransactionState) (isOpen : l.state = .open)
      (terminal : ended.isTerminal = true) (other : event ≠ .begin) :
    Does l supply (.event event) (.ok (), { l with state := ended }, supply)
  | releases (terminal : l.state.isTerminal = true) :
    Does l supply (.event .release) (.ok (), idle, supply)

theorem does_call (l : Lifecycle) (supply : TransactionSupply) (c : Call) :
    l.Does supply c (l.call supply c) := by
  obtain ⟨state, opening⟩ := l
  cases c with
  | begin =>
    -- By the state first: it decides which events fit.
    cases state with
    | idle => exact .names (.inl rfl)
    | «open» =>
      cases opening with
      | none => exact .names (.inr rfl)
      | some named => exact .joins _ rfl
    | committed | rolledBack => exact .refuses _ _
  | event event =>
    cases state with
    | idle =>
      cases event with
      | begin => exact .opens rfl
      | commit | rollback | release => exact .refuses _ _
    | «open» =>
      cases event with
      | begin => exact .joins _ rfl
      | commit => exact .ends _ .committed rfl rfl nofun
      | rollback => exact .ends _ .rolledBack rfl rfl nofun
      | release => exact .refuses _ _
    | committed | rolledBack =>
      cases event with
      | release => exact .releases rfl
      | begin | commit | rollback => exact .refuses _ _

/-- A call that does not fit draws no id either. -/
theorem call_of_error {e : TransitionError} (failed : (l.call supply c).1 = .error e) :
    (l.call supply c).2 = (l, supply) := by
  have does := does_call l supply c
  generalize l.call supply c = done at does failed
  cases does with
  | refuses => rfl
  | joins | names | opens | ends | releases => exact nomatch failed

/-- Any call but the bare event at an idle transaction keeps ids and states together. -/
theorem call_identified (h : l.Identified) (begun : c = .event .begin → l.state ≠ .idle) :
    (l.call supply c).2.1.Identified := by
  have does := does_call l supply c
  generalize l.call supply c = done at does
  cases does with
  | refuses | joins => exact h
  | names => exact identified_iff.mpr (by simp)
  | opens isIdle => exact absurd isIdle (begun rfl)
  | ends event ended isOpen terminal =>
    have named : l.opening.isSome := (identified_iff.mp h).mpr (by simp [isOpen])
    have busy : ended ≠ .idle := by
      rintro rfl
      exact nomatch terminal
    exact identified_iff.mpr (iff_of_true named busy)
  | releases => exact identified_iff.mpr (by simp [idle])

/-- Only a call that leaves the idle state or comes to it changes the id. -/
theorem call_opening (h : l.Identified) (here : l.state ≠ .idle)
    (there : (l.call supply c).2.1.state ≠ .idle) : (l.call supply c).2.1.opening = l.opening := by
  have does := does_call l supply c
  generalize l.call supply c = done at does there
  cases does with
  | refuses | joins | opens | ends => rfl
  | names unnamed =>
    have named : l.opening.isSome := (identified_iff.mp h).mpr here
    rcases unnamed with isIdle | none
    · exact absurd isIdle here
    · simp [none] at named
  | releases => exact absurd rfl there

/-! ## One call after another -/

theorem after_concat (supply : TransactionSupply) (before : List Call) (c : Call) :
    after supply (before ++ [c]) =
      ((after supply before).1.call (after supply before).2 c).2 := by
  rw [after, List.foldl_append]
  rfl

theorem after_identified (begun : ∀ before, before ++ [.event .begin] <+: calls →
    (after supply before).1.state ≠ .idle) : (after supply calls).1.Identified := by
  induction calls using List.reverseRecOn with
  | nil => exact identified_iff.mpr (by simp [after, idle])
  | append_singleton before c ih =>
    have earlier := ih fun part within => begun part (within.trans (List.prefix_append before [c]))
    rw [after_concat]
    refine call_identified earlier ?_
    rintro rfl
    exact begun before List.prefix_rfl

/-- The id and the start time stay as they are over any stretch of a run that never comes to the
    idle state. -/
theorem after_opening {before during : List Call}
    (identified : ∀ part, part <+: during → (after supply (before ++ part)).1.Identified)
    (stays : ∀ part, part <+: during → (after supply (before ++ part)).1.state ≠ .idle) :
    (after supply (before ++ during)).1.opening = (after supply before).1.opening := by
  induction during using List.reverseRecOn with
  | nil => rw [List.append_nil]
  | append_singleton during c ih =>
    have within : during <+: during ++ [c] := List.prefix_append during [c]
    have earlier := ih (fun part h => identified part (h.trans within))
      fun part h => stays part (h.trans within)
    have there := stays (during ++ [c]) List.prefix_rfl
    -- The last call neither leaves the idle state nor comes to it, so it changes no id.
    rw [← List.append_assoc, after_concat] at there ⊢
    rw [call_opening (identified during within) (stays during within) there, earlier]

/-- **A transaction has an id from its opening to its release if it is opened by being begun**, and
    only then: the run of any calls is as expected at every point if and only if the bare event
    never comes while the transaction is idle. -/
theorem wellNamed_iff (supply : TransactionSupply) (calls : List Call) :
    WellNamed supply calls ↔ ∀ before, before ++ [.event .begin] <+: calls →
      (after supply before).1.state ≠ .idle := by
  constructor
  case mp =>
    intro named before within isIdle
    have opened : after supply (before ++ [.event .begin]) =
        ({ (after supply before).1 with state := .open }, (after supply before).2) := by
      rw [after_concat, call, apply, isIdle]
      rfl
    -- The event opens it and brings no id, so there would have to be one before; but it was idle.
    have nameless := identified_iff.mp
      (named.identified before ((List.prefix_append before _).trans within))
    have identified := identified_iff.mp (named.identified _ within)
    rw [opened] at identified
    exact nameless.mp (identified.mpr nofun) isIdle
  case mpr =>
    intro begun
    have identified (before : List Call) (within : before <+: calls) :
        (after supply before).1.Identified :=
      after_identified fun part h => begun part (h.trans within)
    refine ⟨identified, fun before during within stays => ?_, fun before c _ e failed => ?_⟩
    · have same := after_opening (fun part h => identified (before ++ part)
        (((List.prefix_append_right_inj before).mpr h).trans within)) stays
      exact ⟨by rw [id?, id?, same], by rw [startedAt?, startedAt?, same]⟩
    · rw [after_concat, call_of_error failed]

/-- The bare event comes once, while the transaction is open. The second transaction has another
    id. -/
theorem wellNamed_iff_joined :
    let supply : TransactionSupply := ⟨.ofNat, fun n => ⟨n, 0⟩, 0⟩
    let first : List Call := [.begin, .event .begin, .begin, .event .commit]
    let calls : List Call := first ++ [.begin, .event .release, .event .rollback, .begin]
    WellNamed supply calls ∧ (after supply first).1.id? = some (.ofNat 0) ∧
      (after supply calls).1.id? = some (.ofNat 1) := by
  intro supply first calls
  -- There are few places at which the bare event may come, so all of them are looked at.
  have begun : ∀ before ∈ calls.inits, before ++ [.event .begin] <+: calls →
      (after supply before).1.state ≠ .idle := by decide
  refine ⟨(wellNamed_iff supply calls).mpr fun before within => ?_, by decide, by decide⟩
  exact begun before ((List.mem_inits ..).mpr ((List.prefix_append before _).trans within)) within

/-- Opened by the bare event, a transaction has no id and no start time until it is begun as
    well. -/
theorem opened_unnamed :
    let supply : TransactionSupply := ⟨.ofNat, fun n => ⟨n, 0⟩, 0⟩
    let opened := (after supply [.event .begin]).1
    let begun := (after supply [.event .begin, .begin]).1
    opened.state = .open ∧ opened.id? = none ∧ opened.startedAt? = none ∧
      begun.state = .open ∧ begun.id? = some (.ofNat 0) ∧ ¬WellNamed supply [.event .begin] := by
  intro supply opened begun
  refine ⟨rfl, rfl, rfl, rfl, rfl, fun named => ?_⟩
  exact absurd rfl ((wellNamed_iff supply [.event .begin]).mp named [] List.prefix_rfl)

end LayeredConfig.Lifecycle
