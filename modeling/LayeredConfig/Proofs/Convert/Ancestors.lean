import LayeredConfig.Proofs.Convert.Ways

/-!
# The ancestors of a type

The search for interfaces keeps a queue, two marks and the interfaces found. What it does is the
survey of all types that can be reached: it visits them in the same order, on the same ways
(`Walk.Mirrors`), and lists those that it comes to over an interface link and that are not listed
already. **So `Hierarchy.mem_ancestors_interface_iff` tells the interfaces without a search: a type
off the superclass chain is listed exactly if the first of all ways to it ends with an interface
link.**

The search differs from the survey in what it keeps. It has a list of types that are listed, and one
of those visited, where the survey has the visits themselves; and its queue has paths for ways.
`Walk.Mirrors` relates the two, and is kept by one link (`Walk.Mirrors.via`) and so by one turn of
the loop.
-/

set_option autoImplicit false

namespace LayeredConfig

namespace Visit

def path (v : Visit) : Path := v.way.map Hop.step

/-- The link by which the search has come to the type, if there is one, is an interface link. -/
def isInterface (v : Visit) : Bool := v.way.getLast?.any fun hop => hop.kind = .interface

/-- The visits that add an interface to those listed already. -/
def interfaces (listed : List TypeKey) (visits : List Visit) : List Visit :=
  visits.filter fun v => v.isInterface && !listed.contains v.type

def ancestors (visits : List Visit) : List Ancestor :=
  visits.mapIdx fun rank v => ⟨v.type, .interface rank, v.path⟩

theorem isInterface_iff {v : Visit} :
    v.isInterface = true ↔ ∃ way hop, v.way = way ++ [hop] ∧ hop.kind = .interface := by
  unfold isInterface
  rcases List.eq_nil_or_concat v.way with nil | ⟨way, hop, snoc⟩
  · simp [nil]
  · simp [snoc]

theorem mem_interfaces_iff {listed : List TypeKey} {visits : List Visit} {v : Visit} :
    v ∈ interfaces listed visits ↔ v ∈ visits ∧ v.isInterface = true ∧ v.type ∉ listed := by
  simp [interfaces]

theorem interfaces_snoc (listed : List TypeKey) (visits : List Visit) (v : Visit) :
    interfaces listed (visits ++ [v]) =
      interfaces listed visits ++ if v.isInterface && !listed.contains v.type then [v] else [] := by
  unfold interfaces
  rw [List.filter_append, List.filter_singleton]
  cases v.isInterface && !listed.contains v.type <;> rfl

theorem ancestors_snoc (visits : List Visit) (v : Visit) :
    ancestors (visits ++ [v]) =
      ancestors visits ++ [⟨v.type, .interface (ancestors visits).length, v.path⟩] := by
  simp [ancestors]

theorem keys_ancestors (visits : List Visit) :
    (ancestors visits).map Ancestor.key = visits.map Visit.type :=
  List.ext_getElem (by simp [ancestors]) fun _ _ _ => by simp [ancestors]

theorem numbered_ancestors (visits : List Visit) :
    (ancestors visits).map (fun a => (a.key, a.kind)) =
      (visits.map Visit.type).mapIdx fun rank type => (type, .interface rank) :=
  List.ext_getElem (by simp [ancestors]) fun _ _ _ => by simp [ancestors]

end Visit

namespace Walk

variable {h : Hierarchy} {listed : List TypeKey} {done waiting : List Visit} {v : Visit}
  {w : Walk}

def via (path : Path) (w : Walk) (link : LinkKind × Step) : Walk :=
  match link.1 with
  | .interface => viaInterface path w link.2
  | .superclass => viaSuperclass path w link.2

theorem expand_eq (h : Hierarchy) (w : Walk) (type : TypeKey) (path : Path) :
    expand h w type path = (h.hops type).foldl (fun w hop => via path w (hop.kind, hop.step)) w := by
  unfold expand Hierarchy.hops
  cases h.find? type with
  | none => rfl
  | some d =>
    -- Interface links first and then the superclass link, which is the order of the turns.
    have links : d.links.foldl (via path) w = d.superclassStep?.toList.foldl (viaSuperclass path)
        (d.interfaceSteps.foldl (viaInterface path) w) := by
      rw [Declaration.links, List.foldl_append, List.foldl_map, List.foldl_map]
      rfl
    dsimp only [Option.elim]
    rw [← links, List.mapIdx_eq_zipIdx_map, List.foldl_map]
    conv_lhs => rw [← List.zipIdx_map_fst 0 d.links, List.foldl_map]

theorem via_of_new {path : Path} {kind : LinkKind} {step : Step} (new : step.target ∉ w.visited) :
    via path w (kind, step) =
      let adds := kind = .interface ∧ step.target ∉ w.listed
      { listed := if adds then step.target :: w.listed else w.listed
        visited := step.target :: w.visited
        queue := w.queue ++ [(step.target, path ++ [step])]
        found := w.found ++
          if adds then [⟨step.target, .interface w.found.length, path ++ [step]⟩] else [] } := by
  cases kind with
  | interface =>
    by_cases old : step.target ∈ w.listed <;> simp [via, viaInterface, new, old]
  | superclass => simp [via, viaSuperclass, new]

theorem via_of_old {path : Path} {kind : LinkKind} {step : Step} (old : step.target ∈ w.visited) :
    via path w (kind, step) = w := by
  cases kind <;> simp [via, viaInterface, viaSuperclass, old]

/-- A search that began with some types listed has come as far as a survey. -/
structure Mirrors (before : List TypeKey) (done waiting : List Visit) (w : Walk) : Prop where
  visited : ∀ t, t ∈ w.visited ↔ t ∈ (done ++ waiting).map Visit.type
  queue : w.queue = waiting.map fun v => (v.type, v.path)
  listed : ∀ t, t ∈ w.listed ↔ t ∈ before ∨ t ∈ w.found.map Ancestor.key
  found : w.found = Visit.ancestors (Visit.interfaces before (done ++ waiting))

namespace Mirrors

theorem begun (listed : List TypeKey) (start : TypeKey) :
    Mirrors listed [] [⟨[], start⟩] ⟨listed, [start], [(start, [])], []⟩ :=
  ⟨fun _ => Iff.rfl, rfl, fun _ => (or_iff_left List.not_mem_nil).symm, rfl⟩

/-- What is listed by the search has been visited by it. -/
theorem mem_types_of_mem_found (m : Mirrors listed done waiting w) {t : TypeKey}
    (mem : t ∈ w.found.map Ancestor.key) : t ∈ (done ++ waiting).map Visit.type := by
  rw [m.found, Visit.keys_ancestors] at mem
  obtain ⟨v, hv, rfl⟩ := List.mem_map.mp mem
  exact List.mem_map_of_mem (Visit.mem_interfaces_iff.mp hv).1

theorem via (m : Mirrors listed done waiting w) (v : Visit) (hop : Hop) :
    Mirrors listed done (Hierarchy.note done v waiting hop)
      (Walk.via v.path w (hop.kind, hop.step)) := by
  unfold Hierarchy.note
  by_cases known : hop.target ∈ (done ++ waiting).map Visit.type
  · rw [if_pos known, via_of_old ((m.visited hop.target).mpr known)]
    exact m
  · rw [if_neg known, via_of_new (mt (m.visited hop.target).mp known)]
    have path : (v.next hop).path = v.path ++ [hop.step] := List.map_append
    -- What the search has found itself it has visited, so it does not matter for a new type.
    have adds : hop.kind = .interface ∧ hop.step.target ∉ w.listed ↔
        ((v.next hop).isInterface && !listed.contains (v.next hop).type) = true := by
      rw [m.listed, Bool.and_eq_true, Bool.not_eq_true', ← Bool.not_eq_true, List.contains_iff_mem]
      refine and_congr (by simp [Visit.isInterface, Visit.next]) ⟨?_, ?_⟩
      · exact fun new old => new (.inl old)
      · exact fun new old => old.elim new fun found => known (m.mem_types_of_mem_found found)
    have shown := Visit.interfaces_snoc listed (done ++ waiting) (v.next hop)
    rw [List.append_assoc] at shown
    -- The two marks, the queue and the interfaces found, each with the new type at its end.
    refine ⟨fun t => ?_, ?_, fun t => ?_, ?_⟩
    · rw [← List.append_assoc, List.map_append, List.mem_append, ← m.visited, List.mem_cons,
        List.map_singleton, List.mem_singleton, or_comm]
      rfl
    · rw [List.map_append, ← m.queue, List.map_singleton, path]
      rfl
    · by_cases added : hop.kind = .interface ∧ hop.step.target ∉ w.listed
      · simp only [if_pos added]
        rw [List.mem_cons, m.listed, List.map_append, List.mem_append, List.map_singleton,
          List.mem_singleton, or_comm, or_assoc]
      · simp only [if_neg added, List.append_nil]
        exact m.listed t
    · by_cases added : hop.kind = .interface ∧ hop.step.target ∉ w.listed
      · rw [if_pos (adds.mp added)] at shown
        simp only [if_pos added]
        rw [shown, Visit.ancestors_snoc, ← m.found, path]
        rfl
      · rw [if_neg (mt adds.mpr added), List.append_nil] at shown
        simp only [if_neg added, List.append_nil]
        rw [shown, m.found]

theorem expand (m : Mirrors listed (done ++ [v]) waiting w) (h : Hierarchy) :
    Mirrors listed (done ++ [v]) ((h.hops v.type).foldl (Hierarchy.note (done ++ [v]) v) waiting)
      (Walk.expand h w v.type v.path) := by
  rw [expand_eq]
  induction h.hops v.type generalizing waiting w with
  | nil => exact m
  | cons hop rest ih => exact ih (m.via v hop)

/-- The first type that waits is taken from the queue. -/
theorem dequeue (m : Mirrors listed done (v :: waiting) w) :
    Mirrors listed (done ++ [v]) waiting
      { w with queue := waiting.map fun v => (v.type, v.path) } :=
  ⟨by simpa using m.visited, rfl, m.listed, by simpa using m.found⟩

theorem run (m : Mirrors listed done waiting w) (h : Hierarchy) (fuel : Nat) :
    (Walk.run h fuel w).found =
      Visit.ancestors (Visit.interfaces listed (h.survey fuel done waiting)) := by
  induction fuel generalizing done waiting w with
  | zero => exact m.found
  | succ fuel ih =>
    have queue := m.queue
    cases waiting with
    | nil =>
      rw [Walk.run, queue, List.map_nil, Hierarchy.survey]
      simpa using m.found
    | cons v waiting =>
      rw [Walk.run, queue, List.map_cons, Hierarchy.survey]
      exact ih (m.dequeue.expand h)

end Mirrors

end Walk

namespace Hierarchy

variable {h : Hierarchy} {start type : TypeKey}

theorem interfacesBeyond_eq (h : Hierarchy) (start : TypeKey) (listed : List TypeKey) :
    h.interfacesBeyond start listed =
      Visit.ancestors (Visit.interfaces listed (h.visits start)) :=
  (Walk.Mirrors.begun listed start).run h _

abbrev listedBefore (h : Hierarchy) (start : TypeKey) : List TypeKey :=
  start :: (h.chain start).map Ancestor.key

theorem keys_ancestors (h : Hierarchy) (start : TypeKey) :
    (h.ancestors start).map Ancestor.key = (h.chain start).map Ancestor.key ++
      (Visit.interfaces (h.listedBefore start) (h.visits start)).map Visit.type := by
  rw [ancestors, List.map_append, interfacesBeyond_eq, Visit.keys_ancestors]

/-- No type is listed twice among the ancestors, and a type is not its own ancestor. -/
theorem ancestors_distinct (h : Hierarchy) (start : TypeKey) :
    (start :: (h.ancestors start).map Ancestor.key).Nodup := by
  obtain ⟨chain, unseen⟩ := h.chainFrom_keys h.declarations.length [start] start [] 0
  have first : (h.listedBefore start).Nodup := by
    refine List.nodup_cons.mpr ⟨fun mem => ?_, chain⟩
    obtain ⟨a, ha, same⟩ := List.mem_map.mp mem
    exact unseen a ha (List.mem_singleton.mpr same)
  -- The chain has no type twice; the interfaces have none twice, and none of the chain.
  rw [keys_ancestors, ← List.cons_append]
  refine List.nodup_append.mpr ⟨first, ?_, ?_⟩
  · exact (h.visits_distinct start).sublist (List.filter_sublist.map Visit.type)
  · rintro t ht t' ht' rfl
    obtain ⟨v, hv, rfl⟩ := List.mem_map.mp ht'
    exact (Visit.mem_interfaces_iff.mp hv).2.2 ht

theorem mem_ancestors_superclass_iff {depth : Nat} :
    (∃ p, ⟨type, .superclass depth, p⟩ ∈ h.ancestors start) ↔ h.Above start type depth := by
  rw [← mem_chain_iff]
  refine exists_congr fun p => ?_
  rw [ancestors, List.mem_append, or_iff_left]
  rw [interfacesBeyond_eq, Visit.ancestors, List.mem_mapIdx]
  rintro ⟨_, _, same⟩
  exact AncestorKind.noConfusion (congrArg Ancestor.kind same)

/-- **A type off the superclass chain is listed exactly if the first of all ways to it ends with an
    interface link.** -/
theorem mem_ancestors_interface_iff :
    (∃ rank p, ⟨type, .interface rank, p⟩ ∈ h.ancestors start) ↔
      (¬ ∃ n, h.climb n start = some type) ∧
        ∃ way hop, h.First start type (way ++ [hop]) ∧ hop.kind = .interface := by
  have listed : (∃ rank p, ⟨type, .interface rank, p⟩ ∈ h.ancestors start) ↔
      ∃ v ∈ Visit.interfaces (h.listedBefore start) (h.visits start), v.type = type := by
    rw [← List.mem_map, ← Visit.keys_ancestors, List.mem_map, ← interfacesBeyond_eq]
    constructor
    · rintro ⟨rank, p, mem⟩
      rw [ancestors, List.mem_append] at mem
      rcases mem with chain | beyond
      · obtain ⟨d, kind⟩ := kind_of_mem_chainFrom chain
        exact nomatch kind
      · exact ⟨_, beyond, rfl⟩
    · rintro ⟨a, beyond, rfl⟩
      have mem : a ∈ h.ancestors start := List.mem_append_right _ beyond
      rw [interfacesBeyond_eq, Visit.ancestors, List.mem_mapIdx] at beyond
      obtain ⟨rank, lt, rfl⟩ := beyond
      exact ⟨rank, _, mem⟩
  -- From here on it is about visits, which are told by first ways.
  rw [listed]
  constructor
  · rintro ⟨v, mem, rfl⟩
    obtain ⟨visited, ends, unlisted⟩ := Visit.mem_interfaces_iff.mp mem
    obtain ⟨way, hop, snoc, kind⟩ := Visit.isInterface_iff.mp ends
    refine ⟨mt mem_start_cons_chain_iff.mpr unlisted, way, hop, ?_, kind⟩
    exact snoc ▸ mem_visits_iff.mp visited
  · rintro ⟨off, way, hop, first, kind⟩
    refine ⟨⟨way ++ [hop], type⟩, Visit.mem_interfaces_iff.mpr ⟨?_, ?_, ?_⟩, rfl⟩
    · exact mem_visits_iff.mpr first
    · exact Visit.isInterface_iff.mpr ⟨way, hop, rfl, kind⟩
    · exact mt mem_start_cons_chain_iff.mp off

end Hierarchy

end LayeredConfig
