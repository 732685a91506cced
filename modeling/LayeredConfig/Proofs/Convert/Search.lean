import LayeredConfig.Proofs.Convert.Paths

/-!
# The search for ancestors comes to an end

Two loops find the ancestors of a type: one climbs from superclass to superclass, and one expands
types for as long as any are waiting. Both are given fuel, which is no part of what they do. Here
they are told without it, by a rule for one more turn and one for each way to end
(`Hierarchy.Climbs`, `Walk.Ends`), so that a loop that went on for ever would come to nothing.
**`Hierarchy.ancestors_found` says that on any declarations, circles included, the loops end with
the ancestors and with nothing else, and what these are: the superclasses up to the first that would
come again, and then interfaces that are declared somewhere on the way, each type once and numbered
in order.**

A rule that has no fuel can only be used for finitely many turns, so a derivation is a run that has
ended; that there is one is what termination means here. There is at most one
(`Hierarchy.Finds.unique`), since in each state a single rule applies.
-/

set_option autoImplicit false

namespace LayeredConfig

/-! ## The loops -/

/-- The climb from a type on: it ends where no superclass is declared, or one that has been met. -/
inductive Hierarchy.Climbs (h : Hierarchy) :
    List TypeKey → TypeKey → Path → Nat → List Ancestor → Prop
  | top {seen : List TypeKey} {type : TypeKey} {path : Path} {depth : Nat} :
      h.superclassStep? type = none → Climbs h seen type path depth []
  | round {seen : List TypeKey} {type : TypeKey} {path : Path} {depth : Nat} {step : Step} :
      h.superclassStep? type = some step → step.target ∈ seen → Climbs h seen type path depth []
  | up {seen : List TypeKey} {type : TypeKey} {path : Path} {depth : Nat} {step : Step}
      {higher : List Ancestor} :
      h.superclassStep? type = some step → step.target ∉ seen →
      Climbs h (step.target :: seen) step.target (path ++ [step]) (depth + 1) higher →
      Climbs h seen type path depth
        (⟨step.target, .superclass (depth + 1), path ++ [step]⟩ :: higher)

/-- The search from a state on: it ends when no type is waiting. -/
inductive Walk.Ends (h : Hierarchy) : Walk → Walk → Prop
  | done {w : Walk} : w.queue = [] → Ends h w w
  | turn {w final : Walk} {type : TypeKey} {path : Path} {queue : List (TypeKey × Path)} :
      w.queue = (type, path) :: queue →
      Ends h (expand h { w with queue := queue } type path) final → Ends h w final

namespace Hierarchy

/-- The climb and, with what it has listed, the search. -/
def Finds (h : Hierarchy) (start : TypeKey) (answer : List Ancestor) : Prop :=
  ∃ chain final, h.Climbs [start] start [] 0 chain ∧
    Walk.Ends h ⟨start :: chain.map Ancestor.key, [start], [(start, [])], []⟩ final ∧
    answer = chain ++ final.found

/-- Superclasses as they follow on each other, up to the last one or the first that would come
    again, and interfaces that are declared by types on the way. -/
structure Pedigree (h : Hierarchy) (start : TypeKey) (superclasses interfaces : List TypeKey) :
    Prop where
  chain : (start :: superclasses).IsChain fun type above => h.superclass? type = some above
  top : ∀ above, h.superclass? ((start :: superclasses).getLast (List.cons_ne_nil _ _)) = some above →
    above ∈ start :: superclasses
  distinct : (start :: superclasses ++ interfaces).Nodup
  declared : ∀ type ∈ interfaces, ∃ path source, h.Follows start path source ∧
    ∃ step ∈ h.interfaceSteps source, step.target = type

variable {h : Hierarchy} {start type : TypeKey} {seen : List TypeKey} {path : Path} {depth : Nat}
  {chain chain' : List Ancestor}

/-! ## The climb -/

namespace Climbs

theorem unique (a : h.Climbs seen type path depth chain) (b : h.Climbs seen type path depth chain') :
    chain = chain' := by
  induction a generalizing chain' with
  | top none =>
    cases b with
    | top _ => rfl
    | round declared _ => exact nomatch none.symm.trans declared
    | up declared _ _ => exact nomatch none.symm.trans declared
  | round declared met =>
    cases b with
    | top _ => rfl
    | round _ _ => rfl
    | up declared' new _ =>
      obtain rfl := Option.some.inj (declared.symm.trans declared')
      exact absurd met new
  | up declared new _ ih =>
    cases b with
    | top none => exact nomatch none.symm.trans declared
    | round declared' met =>
      obtain rfl := Option.some.inj (declared.symm.trans declared')
      exact absurd met new
    | up declared' _ further =>
      obtain rfl := Option.some.inj (declared.symm.trans declared')
      rw [ih further]

/-- Depths are counted from the one at which the climb begins. -/
theorem numbered (climbs : h.Climbs seen type path depth chain) :
    chain.map (fun a => (a.key, a.kind)) =
      (chain.map Ancestor.key).mapIdx fun i type => (type, .superclass (depth + i + 1)) := by
  induction climbs with
  | top _ => rfl
  | round _ _ => rfl
  | up _ _ _ ih =>
    rw [List.map_cons, List.map_cons, List.mapIdx_cons, ih]
    simp only [Nat.add_zero, Nat.add_assoc, Nat.add_comm 1]

theorem isChain (climbs : h.Climbs seen type path depth chain) :
    (type :: chain.map Ancestor.key).IsChain fun type above => h.superclass? type = some above := by
  induction climbs with
  | top _ => exact .singleton _
  | round _ _ => exact .singleton _
  | up declared _ _ ih =>
    refine .cons_cons ?_ ih
    rw [superclass?, declared, Option.map_some]

/-- What would follow on the last type has been met. -/
theorem mem_of_last (climbs : h.Climbs seen type path depth chain) {above : TypeKey}
    (last : h.superclass? ((type :: chain.map Ancestor.key).getLast (List.cons_ne_nil _ _)) =
      some above) :
    above ∈ seen ∨ above ∈ chain.map Ancestor.key := by
  induction climbs with
  | top none =>
    rw [List.map_nil, List.getLast_singleton, superclass?, none, Option.map_none] at last
    cases last
  | round declared met =>
    rw [List.map_nil, List.getLast_singleton, superclass?, declared, Option.map_some] at last
    exact .inl (Option.some.inj last ▸ met)
  | up declared _ _ ih =>
    rcases ih (by simpa using last) with met | higher
    · rcases List.mem_cons.mp met with rfl | met
      · exact .inr List.mem_cons_self
      · exact .inl met
    · exact .inr (List.mem_cons_of_mem _ higher)

end Climbs

/-- With fuel for every declared type the climb ends by itself. -/
theorem chainFrom_climbs {fuel : Nat} (here : h.climb depth start = some type)
    (met : h.Met start depth seen) (enough : h.declarations.length ≤ depth + fuel) :
    h.Climbs seen type path depth (h.chainFrom fuel seen type path depth) := by
  induction fuel generalizing seen type path depth with
  | zero =>
    cases declared : h.superclassStep? type with
    | none => exact .top declared
    | some step =>
      -- No fuel is left after as many types as are declared, so the next one has been met.
      refine .round declared (by_contra fun new => ?_)
      have above := met.above (climb_step here declared) new
      exact absurd above.le_declarations (by omega)
  | succ fuel ih =>
    unfold chainFrom
    cases declared : h.superclassStep? type with
    | none => exact .top declared
    | some step =>
      have next := climb_step here declared
      by_cases old : step.target ∈ seen
      · simp only [List.contains_iff_mem, old, if_true]
        exact .round declared old
      · simp only [List.contains_iff_mem, old, if_false]
        exact .up declared old (ih next (met.succ next) (by omega))

theorem chain_climbs (h : Hierarchy) (start : TypeKey) :
    h.Climbs [start] start [] 0 (h.chain start) :=
  chainFrom_climbs (by rfl) (met_start h start) (by omega)

end Hierarchy

/-! ## The search -/

namespace Walk

variable {h : Hierarchy} {listed : List TypeKey} {done waiting : List Visit} {start : TypeKey}
  {w final final' : Walk}

theorem Ends.unique (a : Ends h w final) (b : Ends h w final') : final = final' := by
  induction a with
  | done empty =>
    cases b with
    | done _ => rfl
    | turn first _ => exact nomatch empty.symm.trans first
  | turn first _ ih =>
    cases b with
    | done empty => exact nomatch empty.symm.trans first
    | turn first' further =>
      cases first.symm.trans first'
      exact ih further

/-- With fuel for every type that can be reached the search ends by itself. -/
theorem Mirrors.ends {fuel : Nat} (m : Mirrors listed done waiting w)
    (s : h.Surveyed start done waiting fun p hop => p ∈ done ∧ hop ∈ h.hops p.type)
    (enough : fuel + done.length = h.linkCount + 1) : Ends h w (Walk.run h fuel w) := by
  have queue := m.queue
  induction fuel generalizing done waiting w with
  | zero =>
    -- As many types have been visited as there can be, so none is waiting.
    have count := s.length_le
    obtain rfl : waiting = [] := List.eq_nil_of_length_eq_zero (by omega)
    exact .done queue
  | succ fuel ih =>
    cases waiting with
    | nil =>
      rw [Walk.run, queue, List.map_nil]
      exact .done queue
    | cons v waiting =>
      rw [Walk.run, queue, List.map_cons]
      have expanded := m.dequeue.expand h
      refine .turn queue (ih expanded s.visit ?_ expanded.queue)
      rw [List.length_append, List.length_singleton]
      omega

end Walk

namespace Hierarchy

variable {h : Hierarchy} {start : TypeKey}

theorem finds_ancestors (h : Hierarchy) (start : TypeKey) : h.Finds start (h.ancestors start) :=
  ⟨h.chain start, _, h.chain_climbs start,
    (Walk.Mirrors.begun _ start).ends (Surveyed.begun h start) rfl, rfl⟩

/-- The loops leave no choice. -/
theorem Finds.unique {answer answer' : List Ancestor} (a : h.Finds start answer)
    (b : h.Finds start answer') : answer = answer' := by
  obtain ⟨chain, final, climbs, ends, rfl⟩ := a
  obtain ⟨chain', final', climbs', ends', rfl⟩ := b
  obtain rfl := climbs.unique climbs'
  rw [ends.unique ends']

/-! ## What is found -/

/-- An interface is declared by a type that can be reached. -/
theorem declared_of_mem_interfaces {listed : List TypeKey} {v : Visit}
    (mem : v ∈ Visit.interfaces listed (h.visits start)) :
    ∃ path source, h.Follows start path source ∧
      ∃ step ∈ h.interfaceSteps source, step.target = v.type := by
  obtain ⟨visited, ends, -⟩ := Visit.mem_interfaces_iff.mp mem
  obtain ⟨way, hop, snoc, kind⟩ := Visit.isInterface_iff.mp ends
  have leads : h.Leads start (way ++ [hop]) v.type := snoc ▸ (mem_visits_iff.mp visited).1
  obtain ⟨source, before, has, target⟩ := leads.last
  exact ⟨_, source, before.follows, hop.step,
    (exists_mem_hops_iff .interface).mp ⟨hop, has, kind, rfl⟩, target⟩

/-- **The search ends, and with what.** Whatever is declared, the loops end from any type, with its
    ancestors and with nothing else. These are the superclasses of the type, numbered from one, and
    after them interfaces, numbered from zero. -/
theorem ancestors_found (h : Hierarchy) (start : TypeKey) :
    (∀ answer, h.Finds start answer ↔ answer = h.ancestors start) ∧
    ∃ superclasses interfaces, h.Pedigree start superclasses interfaces ∧
      (h.ancestors start).map (fun a => (a.key, a.kind)) =
        superclasses.mapIdx (fun i type => (type, .superclass (i + 1))) ++
          interfaces.mapIdx fun rank type => (type, .interface rank) := by
  refine ⟨fun answer => ⟨fun finds => finds.unique (h.finds_ancestors start), ?_⟩, ?_⟩
  · rintro rfl
    exact h.finds_ancestors start
  -- The chain is told by the climb, the interfaces by the survey that the search mirrors.
  · have climbs := h.chain_climbs start
    let found := Visit.interfaces (h.listedBefore start) (h.visits start)
    refine ⟨(h.chain start).map Ancestor.key, found.map Visit.type, ⟨climbs.isChain, ?_, ?_, ?_⟩, ?_⟩
    · intro above last
      rcases climbs.mem_of_last last with met | higher
      · exact List.mem_singleton.mp met ▸ List.mem_cons_self
      · exact List.mem_cons_of_mem _ higher
    · have distinct := h.ancestors_distinct start
      rwa [keys_ancestors, ← List.cons_append] at distinct
    · intro type mem
      obtain ⟨v, listed, rfl⟩ := List.mem_map.mp mem
      exact declared_of_mem_interfaces listed
    · rw [ancestors, List.map_append, climbs.numbered, interfacesBeyond_eq,
        Visit.numbered_ancestors]
      simp only [Nat.zero_add]
      rfl

end Hierarchy

end LayeredConfig
