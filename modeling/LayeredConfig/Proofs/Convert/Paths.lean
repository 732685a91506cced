import LayeredConfig.Proofs.Convert.Ancestors

/-!
# Paths of declared links

An ancestor comes with the path on which values are lifted to it. Such paths are told here without a
search: declared steps, each from the type where the one before it ended (`Hierarchy.Follows`). What
a path makes of a typed value is the composition of its links (`Path.Lifts`), and **the check that a
step makes of the type of its value succeeds all the way, if the path begins at the type of the
value (`Path.Lifts.lift?_val`).**

The ancestors of a type have two kinds of paths. A superclass is reached by superclass links alone,
as many as its depth (`Hierarchy.path_of_superclass`), and an interface by a path that no other path
of declared links is shorter than (`Hierarchy.path_of_interface`). The interfaces of higher rank are
not nearer (`Hierarchy.length_le_of_rank_le`).

A way, in the module on ways, is a sequence of turns that can be compared; a path is what an
ancestor carries, the declared steps themselves. Each way has a path (`Hierarchy.Leads.follows`) and
each path comes from a way (`Hierarchy.Follows.leads`), with as many links, so that the first of all
ways is a shortest path.
-/

set_option autoImplicit false

namespace LayeredConfig

namespace Hierarchy

def interfaceSteps (h : Hierarchy) (type : TypeKey) : List Step :=
  (h.find? type).elim [] Declaration.interfaceSteps

/-- A step that stands in the declaration for the type from which it starts. -/
def Declares (h : Hierarchy) (step : Step) : Prop :=
  step ∈ h.interfaceSteps step.source ∨ h.superclassStep? step.source = some step

/-- Declared steps, each from where the one before it ended. -/
inductive Follows (h : Hierarchy) (start : TypeKey) : Path → TypeKey → Prop
  | here : Follows h start [] start
  | on {path : Path} {step : Step} :
      Follows h start path step.source → h.Declares step →
      Follows h start (path ++ [step]) step.target

/-- A path to a type such that no other path to it has fewer links. -/
def Shortest (h : Hierarchy) (start : TypeKey) (path : Path) (type : TypeKey) : Prop :=
  h.Follows start path type ∧ ∀ other, h.Follows start other type → path.length ≤ other.length

/-- A path of superclass links alone. -/
def Ascends (h : Hierarchy) (path : Path) : Prop :=
  ∀ step ∈ path, h.superclassStep? step.source = some step

end Hierarchy

/-- What a path makes of values of the type where it starts: its links one after the other. -/
inductive Path.Lifts {start : TypeKey} :
    Path → (target : TypeKey) → (Typed start → Typed target) → Prop
  | here : Lifts [] start id
  | on {path : Path} {step : Step} {lift : Typed start → Typed step.source} :
      Lifts path step.source lift → Lifts (path ++ [step]) step.target (step.link.lift ∘ lift)

/-! ## Lifting -/

theorem Path.lift?_snoc (path : Path) (step : Step) (v : Value) :
    Path.lift? (path ++ [step]) v = (path.lift? v).bind step.lift? := by
  simp [Path.lift?, List.foldlM_append]

/-- **No check of a type fails on the way.** -/
theorem Path.Lifts.lift?_val {start target : TypeKey} {path : Path}
    {lift : Typed start → Typed target} (lifts : path.Lifts target lift) (v : Typed start) :
    path.lift? v.val = some (lift v).val := by
  induction lifts with
  | here => rfl
  | on _ ih =>
    rw [Path.lift?_snoc, ih, Option.bind_some, Step.lift?, Value.as?_val]
    rfl

namespace Hierarchy

variable {h : Hierarchy} {start type : TypeKey} {path : Path} {step : Step} {hop : Hop}
  {way : List Hop} {a b : Ancestor}

namespace Follows

theorem lifts (follows : h.Follows start path type) :
    ∃ lift : Typed start → Typed type, path.Lifts type lift := by
  induction follows with
  | here => exact ⟨id, .here⟩
  | on _ _ ih =>
    obtain ⟨lift, lifts⟩ := ih
    exact ⟨_, .on lifts⟩

/-- What stands before a step leads to where the step starts. -/
theorem before {after : Path} (follows : h.Follows start (path ++ step :: after) type) :
    h.Follows start path step.source := by
  generalize whole : path ++ step :: after = p at follows
  induction follows generalizing after with
  | here => exact absurd whole (by simp)
  | @on init last before _ ih =>
    -- The step is the last one of the path, or it stands in what comes before the last one.
    rcases List.eq_nil_or_concat after with rfl | ⟨after', last', rfl⟩
    · obtain ⟨rfl, same⟩ := List.append_inj' whole rfl
      obtain rfl := List.singleton_inj.mp same
      exact before
    · rw [List.concat_eq_append, ← List.cons_append, ← List.append_assoc] at whole
      exact ih (List.append_inj' whole rfl).1

end Follows

/-! ## Steps and hops -/

theorem source_of_mem_interfaceSteps (mem : step ∈ h.interfaceSteps type) : step.source = type := by
  unfold interfaceSteps at mem
  cases found : h.find? type with
  | none =>
    rw [found] at mem
    exact nomatch mem
  | some d =>
    rw [found] at mem
    obtain ⟨link, -, rfl⟩ := List.mem_map.mp mem
    simpa using List.find?_some found

theorem source_of_superclassStep? (declared : h.superclassStep? type = some step) :
    step.source = type := by
  obtain ⟨d, found, has⟩ := Option.bind_eq_some_iff.mp declared
  obtain ⟨link, -, rfl⟩ := Option.map_eq_some_iff.mp has
  simpa using List.find?_some found

/-- The links of a type are its interface links and its superclass link. -/
theorem exists_mem_hops_iff (kind : LinkKind) :
    (∃ hop ∈ h.hops type, hop.kind = kind ∧ hop.step = step) ↔
      match kind with
      | .interface => step ∈ h.interfaceSteps type
      | .superclass => h.superclassStep? type = some step := by
  have among : (∃ hop ∈ h.hops type, hop.kind = kind ∧ hop.step = step) ↔
      ∃ d, h.find? type = some d ∧ (kind, step) ∈ d.links := by
    constructor
    · rintro ⟨hop, has, rfl, rfl⟩
      obtain ⟨d, found, turn, lt, rfl⟩ := mem_hops_iff.mp has
      exact ⟨d, found, List.getElem_mem lt⟩
    · rintro ⟨d, found, mem⟩
      obtain ⟨turn, lt, same⟩ := List.mem_iff_getElem.mp mem
      refine ⟨_, mem_hops_iff.mpr ⟨d, found, turn, lt, rfl⟩, ?_⟩
      rw [same]
      exact ⟨rfl, rfl⟩
  rw [among]
  unfold interfaceSteps superclassStep?
  cases h.find? type with
  | none => cases kind <;> simp
  | some d => cases kind <;> simp [Declaration.links]

theorem step_of_mem_hops (has : hop ∈ h.hops type) :
    hop.step.source = type ∧ h.Declares hop.step := by
  have declared := (exists_mem_hops_iff hop.kind).mp ⟨hop, has, rfl, rfl⟩
  cases kind : hop.kind with
  | interface =>
    rw [kind] at declared
    have source := source_of_mem_interfaceSteps declared
    exact ⟨source, .inl (source ▸ declared)⟩
  | superclass =>
    rw [kind] at declared
    have source := source_of_superclassStep? declared
    exact ⟨source, .inr (source ▸ declared)⟩

theorem Declares.exists_hop (declared : h.Declares step) :
    ∃ hop ∈ h.hops step.source, hop.step = step := by
  rcases declared with interface | superclass
  · obtain ⟨hop, has, -, same⟩ := (exists_mem_hops_iff .interface).mpr interface
    exact ⟨hop, has, same⟩
  · obtain ⟨hop, has, -, same⟩ := (exists_mem_hops_iff .superclass).mpr superclass
    exact ⟨hop, has, same⟩

theorem Leads.follows (leads : h.Leads start way type) :
    h.Follows start (way.map Hop.step) type := by
  induction leads with
  | here => exact .here
  | on _ has ih =>
    obtain ⟨source, declared⟩ := step_of_mem_hops has
    rw [List.map_append]
    exact .on (source ▸ ih) declared

theorem Follows.leads (follows : h.Follows start path type) :
    ∃ way, h.Leads start way type ∧ way.map Hop.step = path := by
  induction follows with
  | here => exact ⟨[], .here, rfl⟩
  | on _ declared ih =>
    obtain ⟨way, leads, rfl⟩ := ih
    obtain ⟨hop, has, rfl⟩ := declared.exists_hop
    exact ⟨way ++ [hop], .on leads has, List.map_append⟩

/-! ## The paths of the ancestors -/

/-- The first of all ways has as few links as any path. -/
theorem First.shortest (first : h.First start type way) :
    h.Shortest start (way.map Hop.step) type := by
  refine ⟨first.1.follows, fun other follows => ?_⟩
  obtain ⟨way', leads, rfl⟩ := follows.leads
  rw [List.length_map, List.length_map]
  exact Hop.length_le_of_place_le (first.2 way' leads)

/-- In the chain a path goes on by the superclass link of the type to which it leads. -/
theorem path_of_mem_chainFrom {fuel depth : Nat} {seen : List TypeKey}
    (mem : a ∈ h.chainFrom fuel seen type path depth) (follows : h.Follows start path type)
    (ascends : h.Ascends path) (length : path.length = depth) :
    h.Follows start a.path a.key ∧ h.Ascends a.path ∧ a.kind = .superclass a.path.length := by
  induction fuel generalizing seen type path depth with
  | zero => exact nomatch mem
  | succ fuel ih =>
    unfold chainFrom at mem
    split at mem
    · exact nomatch mem
    case h_2 step declared =>
      have source := source_of_superclassStep? declared
      have up : h.superclassStep? step.source = some step := source ▸ declared
      have follows' : h.Follows start (path ++ [step]) step.target := .on (source ▸ follows) (.inr up)
      have ascends' : h.Ascends (path ++ [step]) :=
        List.forall_mem_append.mpr ⟨ascends, List.forall_mem_singleton.mpr up⟩
      have length' : (path ++ [step]).length = depth + 1 := by simp [length]
      split at mem
      · exact nomatch mem
      -- The ancestor is the next superclass, or it is found from there on.
      · rcases List.mem_cons.mp mem with rfl | higher
        · exact ⟨follows', ascends', congrArg AncestorKind.superclass length'.symm⟩
        · exact ih higher follows' ascends' length'

theorem mem_ancestors_iff :
    a ∈ h.ancestors start ↔ a ∈ h.chain start ∨
      ∃ rank v, (Visit.interfaces (h.listedBefore start) (h.visits start))[rank]? = some v ∧
        a = ⟨v.type, .interface rank, v.path⟩ := by
  rw [ancestors, List.mem_append, interfacesBeyond_eq, Visit.ancestors, List.mem_mapIdx]
  refine or_congr Iff.rfl (exists_congr fun rank => ?_)
  constructor
  · rintro ⟨lt, rfl⟩
    exact ⟨_, List.getElem?_eq_getElem lt, rfl⟩
  · rintro ⟨v, found, rfl⟩
    obtain ⟨lt, rfl⟩ := List.getElem?_eq_some_iff.mp found
    exact ⟨lt, rfl⟩

/-- **A superclass is reached by superclass links, as many as its depth.** -/
theorem path_of_superclass {depth : Nat} (mem : a ∈ h.ancestors start)
    (kind : a.kind = .superclass depth) :
    h.Follows start a.path a.key ∧ h.Ascends a.path ∧ a.path.length = depth := by
  rcases mem_ancestors_iff.mp mem with chain | ⟨rank, v, -, rfl⟩
  · obtain ⟨follows, ascends, length⟩ :=
      path_of_mem_chainFrom chain .here (List.forall_mem_nil _) rfl
    exact ⟨follows, ascends, AncestorKind.superclass.inj (length.symm.trans kind)⟩
  · exact nomatch kind

theorem visit_of_interface {rank : Nat} (mem : a ∈ h.ancestors start)
    (kind : a.kind = .interface rank) :
    ∃ v, (Visit.interfaces (h.listedBefore start) (h.visits start))[rank]? = some v ∧
      a.key = v.type ∧ a.path = v.path := by
  rcases mem_ancestors_iff.mp mem with chain | ⟨rank', v, found, rfl⟩
  · obtain ⟨depth, superclass⟩ := kind_of_mem_chainFrom chain
    exact nomatch superclass.symm.trans kind
  · obtain rfl := AncestorKind.interface.inj kind
    exact ⟨v, found, rfl, rfl⟩

/-- **No path of declared links to an interface has fewer links than the one on which it is
    found.** -/
theorem path_of_interface {rank : Nat} (mem : a ∈ h.ancestors start)
    (kind : a.kind = .interface rank) : h.Shortest start a.path a.key := by
  obtain ⟨v, found, key, path⟩ := visit_of_interface mem kind
  have visited := (Visit.mem_interfaces_iff.mp (List.mem_of_getElem? found)).1
  rw [key, path]
  exact (mem_visits_iff.mp visited).shortest

/-- **The interfaces of higher rank are not nearer.** -/
theorem length_le_of_rank_le {i j : Nat} (ha : a ∈ h.ancestors start) (hb : b ∈ h.ancestors start)
    (kindA : a.kind = .interface i) (kindB : b.kind = .interface j) (le : i ≤ j) :
    a.path.length ≤ b.path.length := by
  obtain ⟨u, foundA, -, pathA⟩ := visit_of_interface ha kindA
  obtain ⟨v, foundB, -, pathB⟩ := visit_of_interface hb kindB
  obtain ⟨ltA, rfl⟩ := List.getElem?_eq_some_iff.mp foundA
  obtain ⟨ltB, rfl⟩ := List.getElem?_eq_some_iff.mp foundB
  rw [pathA, pathB, Visit.path, Visit.path, List.length_map, List.length_map]
  rcases Nat.lt_or_eq_of_le le with lt | rfl
  -- Interfaces are ranked as they are visited, and visits go by the order of the ways.
  · have sorted := (h.visits_sorted start).sublist
      (List.filter_sublist (p := fun v => v.isInterface && !(h.listedBefore start).contains v.type))
    exact Hop.length_le_of_place_le (List.pairwise_iff_getElem.mp sorted i j ltA ltB lt).le
  · exact Nat.le_refl _

/-- Every ancestor has a path of declared links. -/
theorem follows_of_mem_ancestors (mem : a ∈ h.ancestors start) : h.Follows start a.path a.key := by
  cases kind : a.kind with
  | superclass depth => exact (path_of_superclass mem kind).1
  | interface rank => exact (path_of_interface mem kind).1

end Hierarchy

end LayeredConfig
