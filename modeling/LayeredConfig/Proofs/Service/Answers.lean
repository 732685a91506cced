import LayeredConfig.Proofs.Service.Calls
import LayeredConfig.Source.Table

/-!
# What services answer

What is asked of services between two registrations leaves no trace. **Every answer is the one that
the registrations for its capability call for** (`ServiceContext.answers_from_registrations`): all
of them, ranked by priority; or the one on top of that ranking, unless there is none or others share
its priority. Earlier queries, choices that have failed, bundles that come again, and registrations
for other capabilities do not show.

The answer for one service is described by its three cases and not by how it is found
(`ServiceContext.Chosen`). It is found by a comparison of the first of the ranking with those behind
it, and `ServiceContext.chosen_of_ranked` says that this is the same as looking for the highest
priority among all registrations and counting who has it. That earlier calls do not show is read off
the registrations (`ServiceContext.answers_congr`), since what is kept is right at any time.
-/

set_option autoImplicit false

namespace LayeredConfig.ServiceContext

variable {σ : Type} {c : ServiceContext σ} {capability : TypeKey}
  {mine : List (ServiceEntry σ)} {top : Int}

/-! ## The choice -/

/-- No registration has a priority above the given one, and at least two have it. -/
def Tied (mine : List (ServiceEntry σ)) (top : Int) : Prop :=
  (∀ e ∈ mine, e.priority ≤ top) ∧ 2 ≤ (mine.filter (·.priority = top)).length

instance : Decidable (Tied mine top) := inferInstanceAs (Decidable (_ ∧ _))

/-- The answer when one service is to be chosen: that there is none, that the highest priority is
    shared, with the names of all that share it, or the first of the ranking. -/
structure Chosen (capability : TypeKey) (mine ranked : List (ServiceEntry σ))
    (answer : Except ConfigError (Option (ServiceEntry σ))) : Prop where
  none : answer = .ok none ↔ mine = []
  ambiguous : ∀ e, answer = .error e ↔ ∃ top, Tied mine top ∧
    e = .ambiguousService capability.name top
      ((mine.filter (·.priority = top)).map ServiceEntry.name)
  first : ∀ found, answer = .ok (some found) → ranked.head? = some found

theorem not_tied_nil : ¬ Tied ([] : List (ServiceEntry σ)) top :=
  fun tied => absurd tied.2 (Nat.not_succ_le_zero 1)

/-- A tie is at the priority of the first in the ranking. -/
theorem Tied.eq_first {first : ServiceEntry σ} (tied : Tied mine top) (mem : first ∈ mine)
    (highest : ∀ e ∈ mine, e.priority ≤ first.priority) : top = first.priority := by
  obtain ⟨e, shares⟩ := List.exists_mem_of_length_pos (Nat.lt_of_lt_of_le Nat.two_pos tied.2)
  have at_top : e.priority = top := by simpa using (List.mem_filter.mp shares).2
  have le : top ≤ first.priority := at_top ▸ highest e (List.mem_filter.mp shares).1
  exact Int.le_antisymm le (tied.1 first mem)

/-- Nothing is registered: no service, and no error. -/
theorem choose_of_nil (nothing : c.rank capability = []) : c.choose capability = .ok none := by
  unfold choose
  rw [nothing]

section First

variable {first second : ServiceEntry σ} {rest others : List (ServiceEntry σ)}

/-- The first of the ranking has its priority for itself. -/
theorem choose_of_single (found : c.rank capability = first :: rest)
    (single : (rest.filter fun e => e.priority == first.priority) = []) :
    c.choose capability = .ok (some first) := by
  unfold choose
  rw [found]
  dsimp only
  rw [single]

/-- Others share the priority of the first, and are named after it. -/
theorem choose_of_shared (found : c.rank capability = first :: rest)
    (shared : (rest.filter fun e => e.priority == first.priority) = second :: others) :
    c.choose capability = .error (.ambiguousService capability.name first.priority
      ((first :: second :: others).map ServiceEntry.name)) := by
  unfold choose
  rw [found]
  dsimp only
  rw [shared]

end First

theorem chosen_of_ranked (h : Ranking.Ranked ServiceEntry.priority mine (c.rank capability)) :
    Chosen capability mine (c.rank capability) (c.choose capability) := by
  cases found : c.rank capability with
  | nil =>
    obtain rfl : mine = [] := List.nil_perm.mp (found ▸ h.perm)
    rw [choose_of_nil found]
    refine ⟨iff_of_true rfl rfl, fun e => iff_of_false nofun ?_, nofun⟩
    rintro ⟨top, tied, -⟩
    exact not_tied_nil tied
  | cons first rest =>
    rw [found] at h
    have highest : ∀ e ∈ mine, e.priority ≤ first.priority := fun _ => h.le_first
    have nonempty : mine ≠ [] := List.ne_nil_of_mem h.first_mem
    -- Those at the highest priority are the first of the ranking and the rest that share it.
    have sharing : mine.filter (·.priority = first.priority) =
        first :: rest.filter fun e => e.priority == first.priority := by
      rw [← h.stable, List.filter_cons_of_pos (by simp)]
      rfl
    cases sharers : rest.filter fun e => e.priority == first.priority with
    | nil =>
      rw [sharers] at sharing
      rw [choose_of_single found sharers]
      refine ⟨iff_of_false nofun nonempty, fun e => iff_of_false nofun ?_, ?_⟩
      · rintro ⟨top, shared, -⟩
        obtain rfl := shared.eq_first h.first_mem highest
        rw [Tied, sharing] at shared
        exact absurd shared.2 (Nat.lt_irrefl 1)
      · rintro chosen ⟨⟩
        rfl
    | cons second others =>
      rw [sharers] at sharing
      rw [choose_of_shared found sharers]
      have shared : Tied mine first.priority :=
        ⟨highest, by rw [sharing]; exact Nat.succ_le_succ (Nat.succ_le_succ (Nat.zero_le _))⟩
      refine ⟨iff_of_false nofun nonempty, fun e => ⟨?_, ?_⟩, nofun⟩
      · rintro ⟨⟩
        exact ⟨first.priority, shared, by rw [sharing]⟩
      · rintro ⟨top, shared', rfl⟩
        obtain rfl := shared'.eq_first h.first_mem highest
        rw [sharing]

theorem rank_ranked (c : ServiceContext σ) (capability : TypeKey) :
    Ranking.Ranked ServiceEntry.priority (c.entries.filter fun e => e.capability == capability)
      (c.rank capability) :=
  Ranking.descending_ranked _ _

/-- The registration whose priority is the highest, and that of no other. -/
def Sole (mine : List (ServiceEntry σ)) (e : ServiceEntry σ) : Prop :=
  (∀ other ∈ mine, other.priority ≤ e.priority) ∧ mine.filter (·.priority = e.priority) = [e]

theorem Chosen.sole {e : ServiceEntry σ} {ranked : List (ServiceEntry σ)}
    (h : Ranking.Ranked ServiceEntry.priority mine ranked)
    (chosen : Chosen capability mine ranked (.ok (some e))) : Sole mine e := by
  obtain ⟨rest, rfl⟩ : ∃ rest, ranked = e :: rest := List.head?_eq_some_iff.mp (chosen.first e rfl)
  have highest : ∀ other ∈ mine, other.priority ≤ e.priority := fun _ => h.le_first
  -- A tie would have been answered by an error, so no two have the highest priority.
  have untied : ¬ Tied mine e.priority := fun tied =>
    nomatch (chosen.ambiguous _).mpr ⟨e.priority, tied, rfl⟩
  have here : e ∈ mine.filter (·.priority = e.priority) :=
    List.mem_filter.mpr ⟨h.first_mem, by simp⟩
  have few : (mine.filter (·.priority = e.priority)).length < 2 :=
    Nat.lt_of_not_le fun two => untied ⟨highest, two⟩
  have one : (mine.filter (·.priority = e.priority)).length = 1 :=
    Nat.le_antisymm (Nat.le_of_lt_succ few) (List.length_pos_of_mem here)
  obtain ⟨only, is⟩ := List.length_eq_one_iff.mp one
  rw [is] at here
  exact ⟨highest, by rw [is, List.mem_singleton.mp here]⟩

/-! ## What does not show -/

/-- Calls that register nothing for a capability: queries, registrations for another one, and
    bundles that have all been offered before. -/
inductive Unrelated (before : List (Call σ)) (capability : TypeKey) : Call σ → Prop
  | services (other : TypeKey) : Unrelated before capability (.services other)
  | service (other : TypeKey) : Unrelated before capability (.service other)
  | register (e : ServiceEntry σ) :
      e.capability ≠ capability → Unrelated before capability (.register e)
  | bootstrap (plugins : List (ServicePlugin σ)) :
      (∀ p ∈ plugins, p.name ∈ bundleNames (offers before)) →
      Unrelated before capability (.bootstrap plugins)

theorem registrations_append (before after : List (Call σ)) :
    registrations (before ++ after) =
      registrations before ++ given (bundleNames (offers before)) (offers after) := by
  rw [registrations, offers_append, given_append, List.append_nil]
  rfl

theorem registeredFor_unrelated {before after : List (Call σ)} {call : Call σ}
    (unrelated : Unrelated before capability call) :
    registeredFor (before ++ call :: after) capability =
      registeredFor (before ++ after) capability := by
  rw [registeredFor, registeredFor, registrations_append, registrations_append, offers_cons,
    List.filter_append, List.filter_append]
  congr 1
  -- Each kind of unrelated call adds nothing to the registrations for this capability.
  cases unrelated with
  | services other => rfl
  | service other => rfl
  | register e ne => exact List.filter_cons_of_neg (by simpa using ne)
  | bootstrap plugins known => rw [Call.offers, given_known known]

/-- The registrations for a capability decide its answers. -/
theorem answers_congr {calls calls' : List (Call σ)}
    (same : registeredFor calls capability = registeredFor calls' capability) :
    ((empty.after calls).services capability).1 = ((empty.after calls').services capability).1 ∧
    ((empty.after calls).service capability).1 = ((empty.after calls').service capability).1 := by
  have ranks : (empty.after calls).rank capability = (empty.after calls').rank capability := by
    rw [rank_after, rank_after, same]
  rw [(sound_after calls).services_fst, (sound_after calls').services_fst,
    (sound_after calls).service_fst, (sound_after calls').service_fst]
  exact ⟨ranks, choose_congr ranks⟩

/-- What is counted is the names that are new. -/
theorem bootstrap_fst (c : ServiceContext σ) (plugins : List (ServicePlugin σ)) :
    (c.bootstrap plugins).2.applied.length = c.applied.length + (c.bootstrap plugins).1 := by
  have names : (c.bootstrap plugins).2.applied = _ := perform_applied c (.bootstrap plugins)
  rw [names, Discovery.pending_snd, List.length_append, List.length_map]
  rfl

theorem bootstrap_of_known {plugins : List (ServicePlugin σ)}
    (known : ∀ p ∈ plugins, p.name ∈ c.applied) : c.bootstrap plugins = (0, c) := by
  unfold bootstrap
  rw [Discovery.pending_of_known known]
  rfl

/-- **The answers for a capability are those that its registrations call for**, after any calls:

    * asked for all, services answer the registrations so far, ranked by priority, those of equal
      priority in the order of registration;
    * asked for the one to be used, they answer that there is none exactly if nothing is registered,
      the ambiguity, with the shared priority and the names in the order of registration, exactly if
      two or more share the highest priority, and otherwise the first of all;
    * queries, registrations for other capabilities and bundles that come again might as well be
      left out;
    * each bundle is applied once: the names that are applied are those of the bundles that have
      been offered, each once; as many are counted as are new; and bundles that are all known are
      not counted and change nothing. -/
theorem answers_from_registrations (calls : List (Call σ)) (capability : TypeKey) :
    let c := empty.after calls
    Ranking.Ranked ServiceEntry.priority (registeredFor calls capability)
      (c.services capability).1 ∧
    Chosen capability (registeredFor calls capability)
      (c.services capability).1 (c.service capability).1 ∧
    (∀ before call after, calls = before ++ call :: after → Unrelated before capability call →
      (c.services capability).1 = ((empty.after (before ++ after)).services capability).1 ∧
      (c.service capability).1 = ((empty.after (before ++ after)).service capability).1) ∧
    c.applied.Nodup ∧
    (∀ name, name ∈ c.applied ↔ name ∈ bundleNames (offers calls)) ∧
    ∀ plugins, (c.bootstrap plugins).2.applied.length = c.applied.length + (c.bootstrap plugins).1 ∧
      ((∀ p ∈ plugins, p.name ∈ c.applied) → c.bootstrap plugins = (0, c)) := by
  intro c
  have sound : Sound c := sound_after calls
  have ranked : Ranking.Ranked ServiceEntry.priority (registeredFor calls capability)
      (c.rank capability) := by
    rw [rank_after]
    exact Ranking.descending_ranked _ _
  rw [sound.services_fst, sound.service_fst]
  refine ⟨ranked, chosen_of_ranked ranked, ?_, ?_, ?_,
    fun plugins => ⟨bootstrap_fst c plugins, bootstrap_of_known⟩⟩
  · rintro before call after split unrelated
    rw [← sound.services_fst, ← sound.service_fst]
    refine answers_congr ?_
    rw [split]
    exact registeredFor_unrelated unrelated
  · exact nodup_after_applied List.nodup_nil
  · intro name
    rw [mem_after_applied]
    exact or_iff_right List.not_mem_nil

/-- Two greeters are tied, which fails; a bundle brings one above them, which settles it. That the
    bundle comes again before a last greeter does not show. -/
theorem answers_from_registrations_tie_settled :
    let greeter : TypeKey := .named "dyn Greeter"
    let entry (name : String) (priority : Int) : ServiceEntry Table :=
      ⟨name, priority, .other greeter⟩
    let greeters : ServicePlugin Table := ⟨"greeters", [entry "c" 5]⟩
    let tied : List (Call Table) := [.register (entry "a" 1), .register (entry "b" 1)]
    let before := tied ++ [.services greeter, .service greeter, .bootstrap [greeters]]
    let last : List (Call Table) := [.register (entry "d" 1)]
    let again := before ++ .bootstrap [greeters] :: last
    Unrelated before greeter (.bootstrap [greeters]) ∧
      ((empty.after tied).service greeter).1 =
        .error (.ambiguousService "dyn Greeter" 1 ["a", "b"]) ∧
      ((empty.after again).services greeter).1.map ServiceEntry.name = ["c", "a", "b", "d"] ∧
      ((empty.after again).service greeter).1 = ((empty.after (before ++ last)).service greeter).1 ∧
      (empty.after again).applied = ["greeters"] := by
  intro greeter entry greeters tied before last again
  have unrelated : Unrelated before greeter (.bootstrap [greeters]) :=
    .bootstrap _ fun p mem => by rw [List.mem_singleton.mp mem]; decide +kernel
  obtain ⟨-, chosen, -⟩ := answers_from_registrations tied greeter
  have shared : Tied (registeredFor tied greeter) 1 := by decide +kernel
  obtain ⟨-, -, unseen, -⟩ := answers_from_registrations again greeter
  exact ⟨unrelated, (chosen.ambiguous _).mpr ⟨1, shared, by decide +kernel⟩, by decide +kernel,
    (unseen before _ last rfl unrelated).2, by decide +kernel⟩

end LayeredConfig.ServiceContext
