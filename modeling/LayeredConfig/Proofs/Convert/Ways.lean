import LayeredConfig.Proofs.Convert.Chain
import Mathlib.Data.List.Lex
import Mathlib.Data.Prod.Lex

/-!
# Ways through the declared links

From a type its links can be followed one after the other: a way. The links of a type stand in an
order, its interfaces before its superclass, so that ways can be compared. A shorter way comes
before a longer one, and of two of the same length the one that takes the earlier link where they
part.

The types that can be reached are surveyed breadth first, each once: all links of the first type
that is waiting are followed, and what is new waits behind the others. **`Hierarchy.mem_visits_iff`
says that the survey comes to a type on the first of all ways to it, and
`Hierarchy.visits_sorted` that it comes to the types in the order of these ways.**

The survey is not the search that answers queries; that one keeps less, and is compared with it in
the module on ancestors. What carries the proof is `Hierarchy.Surveyed`, an invariant with the links
that have been followed for a parameter. It is kept by following one more link
(`Hierarchy.Surveyed.note`), provided that all links followed before make earlier ways, and the
links of one type stand in order, so it is kept by a visit (`Hierarchy.Surveyed.visit`). In the end
all links of all visited types have been followed, which is all there is to follow.
-/

set_option autoImplicit false

namespace LayeredConfig

inductive LinkKind
  | interface
  | superclass
  deriving DecidableEq

/-- A declared link, and at which turn of its type it is taken. -/
structure Hop where
  turn : Nat
  kind : LinkKind
  step : Step

namespace Hop

def target (hop : Hop) : TypeKey := hop.step.target

/-- The place of a way among all ways. -/
def place (way : List Hop) : Nat ×ₗ List Nat := toLex (way.length, way.map turn)

end Hop

/-- The links of a declaration in the order in which they are followed. -/
def Declaration.links (d : Declaration) : List (LinkKind × Step) :=
  d.interfaceSteps.map (LinkKind.interface, ·) ++
    d.superclassStep?.toList.map (LinkKind.superclass, ·)

/-- A type that a search has come to, and the way on which it came. -/
structure Visit where
  way : List Hop
  type : TypeKey

def Visit.next (v : Visit) (hop : Hop) : Visit := ⟨v.way ++ [hop], hop.target⟩

namespace Hierarchy

def hops (h : Hierarchy) (type : TypeKey) : List Hop :=
  ((h.find? type).elim [] Declaration.links).mapIdx fun turn link => ⟨turn, link.1, link.2⟩

/-- The ways from a type, each with the type that it leads to. -/
inductive Leads (h : Hierarchy) (start : TypeKey) : List Hop → TypeKey → Prop
  | here : Leads h start [] start
  | on {way : List Hop} {type : TypeKey} {hop : Hop} :
      Leads h start way type → hop ∈ h.hops type → Leads h start (way ++ [hop]) hop.target

/-- A way that comes before all others that lead to the same type. -/
def First (h : Hierarchy) (start type : TypeKey) (way : List Hop) : Prop :=
  h.Leads start way type ∧ ∀ other, h.Leads start other type → Hop.place way ≤ Hop.place other

/-- Follows one link of a visited type. What it leads to waits, unless it is known. -/
def note (done : List Visit) (v : Visit) (waiting : List Visit) (hop : Hop) : List Visit :=
  if hop.target ∈ (done ++ waiting).map Visit.type then waiting
  else waiting ++ [v.next hop]

/-- Visits what is waiting, and what is found in doing so, for at most `fuel` types. -/
def survey (h : Hierarchy) : Nat → List Visit → List Visit → List Visit
  | 0, done, waiting => done ++ waiting
  | _ + 1, done, [] => done
  | fuel + 1, done, v :: waiting =>
    h.survey fuel (done ++ [v]) ((h.hops v.type).foldl (note (done ++ [v]) v) waiting)

/-- The types that can be reached from a type, in the order in which they are found. -/
def visits (h : Hierarchy) (start : TypeKey) : List Visit :=
  h.survey (h.linkCount + 1) [] [⟨[], start⟩]

end Hierarchy

/-! ## The order of the ways -/

namespace Hop

variable {a b : List Hop} {x y : Hop}

theorem snoc_lt_snoc : ∀ {as bs : List Nat} (m n : Nat), as.length = bs.length → as < bs →
    as ++ [m] < bs ++ [n]
  | [], [], _, _, _, lt => absurd lt (lt_irrefl _)
  | a :: as, b :: bs, m, n, len, lt => by
    rw [List.cons_append, List.cons_append, List.cons_lt_cons_iff]
    rcases List.cons_lt_cons_iff.mp lt with head | ⟨rfl, tail⟩
    · exact .inl head
    · exact .inr ⟨rfl, snoc_lt_snoc m n (Nat.succ.inj len) tail⟩

/-- The shorter way is earlier, and of two as long the one whose turns are. -/
theorem place_lt_iff :
    place a < place b ↔ a.length < b.length ∨
      a.length = b.length ∧ a.map turn < b.map turn :=
  Prod.Lex.toLex_lt_toLex

theorem place_nil_lt (way : List Hop) (hop : Hop) : place [] < place (way ++ [hop]) := by
  rw [place_lt_iff]
  exact .inl (by simp)

/-- The order of two ways stays if each of them goes on. -/
theorem place_snoc_lt (lt : place a < place b) : place (a ++ [x]) < place (b ++ [y]) := by
  rw [place_lt_iff] at lt ⊢
  simp only [List.length_append, List.length_singleton, List.map_append, List.map_cons,
    List.map_nil]
  rcases lt with shorter | ⟨same, earlier⟩
  · exact .inl (Nat.add_lt_add_right shorter 1)
  · exact .inr ⟨congrArg (· + 1) same, snoc_lt_snoc _ _ (by simpa using same) earlier⟩

/-- From the same type the earlier link is the earlier way on. -/
theorem place_snoc_lt_of_turn (way : List Hop) (lt : x.turn < y.turn) :
    place (way ++ [x]) < place (way ++ [y]) := by
  rw [place_lt_iff]
  refine .inr ⟨by simp, ?_⟩
  rw [List.map_append, List.map_append]
  exact List.Lex.append_left _ (List.Lex.rel lt) _

theorem turns_eq_of_place_eq (eq : place a = place b) : a.map turn = b.map turn :=
  congrArg (fun p => (ofLex p).2) eq

theorem length_le_of_place_le (le : place a ≤ place b) : a.length ≤ b.length := by
  rcases le.lt_or_eq with lt | eq
  · rcases place_lt_iff.mp lt with shorter | ⟨same, -⟩
    · exact shorter.le
    · exact same.le
  · simpa using (congrArg List.length (turns_eq_of_place_eq eq)).le

theorem place_snoc_le (le : place a ≤ place b) : place (a ++ [x]) ≤ place (b ++ [x]) := by
  rcases le.lt_or_eq with lt | eq
  · exact (place_snoc_lt lt).le
  · have turns := turns_eq_of_place_eq eq
    have length : a.length = b.length := by simpa using congrArg List.length turns
    have same : place (a ++ [x]) = place (b ++ [x]) := by
      simp only [place, List.map_append, List.length_append, turns, length]
    exact same.le

end Hop

namespace Hierarchy

variable {h : Hierarchy} {start type : TypeKey} {way : List Hop} {hop : Hop}
  {done waiting : List Visit} {v : Visit}

/-! ## The links of a type -/

theorem mem_hops_iff :
    hop ∈ h.hops type ↔ ∃ d, h.find? type = some d ∧ ∃ turn, ∃ lt : turn < d.links.length,
      hop = ⟨turn, d.links[turn].1, d.links[turn].2⟩ := by
  unfold hops
  cases h.find? type with
  | none => simp
  | some d => simp [List.mem_mapIdx, eq_comm]

theorem hops_sorted (h : Hierarchy) (type : TypeKey) :
    (h.hops type).Pairwise fun a b => a.turn < b.turn := by
  rw [hops, List.pairwise_iff_getElem]
  intro i j hi hj lt
  simpa using lt

/-- The last link of a way starts from a type to which the rest of the way leads. -/
theorem Leads.last (leads : h.Leads start (way ++ [hop]) type) :
    ∃ source, h.Leads start way source ∧ hop ∈ h.hops source ∧ hop.target = type := by
  -- The way is known to end with a link, so it is not the way of no links.
  generalize whole : way ++ [hop] = all at leads
  cases leads with
  | here => exact absurd whole (by simp)
  | on before has =>
    obtain ⟨rfl, same⟩ := List.append_inj' whole rfl
    obtain rfl := List.singleton_inj.mp same
    exact ⟨_, before, has, rfl⟩

theorem eq_of_turn_eq {hop' : Hop} (a : hop ∈ h.hops type) (b : hop' ∈ h.hops type)
    (same : hop.turn = hop'.turn) : hop = hop' := by
  obtain ⟨d, found, turn, lt, rfl⟩ := mem_hops_iff.mp a
  obtain ⟨d', found', turn', lt', rfl⟩ := mem_hops_iff.mp b
  obtain rfl := Option.some.inj (found.symm.trans found')
  cases same
  rfl

/-- The turns determine the way and where it leads to. -/
theorem Leads.unique {way' : List Hop} {type' : TypeKey} (a : h.Leads start way type)
    (b : h.Leads start way' type') (same : way.map Hop.turn = way'.map Hop.turn) :
    way = way' ∧ type = type' := by
  induction a generalizing way' type' with
  | here =>
    cases b with
    | here => exact ⟨rfl, rfl⟩
    | on _ _ => exact absurd (congrArg List.length same) (by simp)
  | on _ has ih =>
    cases b with
    | here => exact absurd (congrArg List.length same) (by simp)
    | on before has' =>
      rw [List.map_append, List.map_append] at same
      -- The ways up to the last link are the same, so the last links start from one type.
      obtain ⟨init, last⟩ := List.append_inj' same rfl
      obtain ⟨rfl, rfl⟩ := ih before init
      obtain rfl := eq_of_turn_eq has has' (List.singleton_inj.mp last)
      exact ⟨rfl, rfl⟩

/-! ## How many types there are -/

theorem linkCount_eq (h : Hierarchy) :
    h.linkCount = (h.declarations.flatMap Declaration.links).length := by
  have each : ∀ d : Declaration, d.linkCount = d.links.length := by
    intro d
    rcases d with ⟨type, superclass, interfaces⟩
    cases superclass <;>
      simp [Declaration.linkCount, Declaration.links, Declaration.interfaceSteps,
        Declaration.superclassStep?]
  rw [linkCount]
  induction h.declarations with
  | nil => rfl
  | cons d ds ih => rw [List.foldr_cons, ih, each, List.flatMap_cons, List.length_append]

/-- A type to which a way leads is the start or the target of a declared link. -/
theorem Leads.mem_targets (a : h.Leads start way type) :
    type ∈ start :: (h.declarations.flatMap Declaration.links).map fun link => link.2.target := by
  cases a with
  | here => exact List.mem_cons_self
  | on _ has =>
    obtain ⟨d, found, turn, lt, rfl⟩ := mem_hops_iff.mp has
    refine List.mem_cons_of_mem _ (List.mem_map.mpr ⟨d.links[turn], ?_, rfl⟩)
    exact List.mem_flatMap.mpr ⟨d, List.mem_of_find?_eq_some found, List.getElem_mem lt⟩

/-! ## The survey

What has been followed is told by a relation between visits and links. -/

/-- The types that are known during a survey: they stand in the order of their ways, each is new,
    and whatever has been followed leads to one of them that has no later way. -/
structure Surveyed (h : Hierarchy) (start : TypeKey) (done waiting : List Visit)
    (followed : Visit → Hop → Prop) : Prop where
  leads : ∀ v ∈ done ++ waiting, h.Leads start v.way v.type
  root : ⟨[], start⟩ ∈ done ++ waiting
  sorted : (done ++ waiting).Pairwise fun a b => Hop.place a.way < Hop.place b.way
  distinct : ((done ++ waiting).map Visit.type).Nodup
  parents : ∀ v ∈ done ++ waiting, v.way = [] ∨ ∃ p hop, followed p hop ∧ v.way = p.way ++ [hop]
  closed : ∀ p hop, followed p hop →
    ∃ v ∈ done ++ waiting, v.type = hop.target ∧ Hop.place v.way ≤ Hop.place (p.way ++ [hop])

namespace Surveyed

variable {followed : Visit → Hop → Prop}

theorem begun (h : Hierarchy) (start : TypeKey) :
    h.Surveyed start [] [⟨[], start⟩] fun p hop => p ∈ [] ∧ hop ∈ h.hops p.type where
  leads v mem := by
    obtain rfl := List.mem_singleton.mp mem
    exact .here
  root := List.mem_cons_self
  sorted := List.pairwise_singleton _ _
  distinct := List.nodup_singleton _
  parents v mem := by
    obtain rfl := List.mem_singleton.mp mem
    exact .inl rfl
  closed p _ mem := absurd mem.1 List.not_mem_nil

/-- One link of a visited type, after all links that make earlier ways. -/
theorem note (s : h.Surveyed start done waiting followed) (mem : v ∈ done ++ waiting)
    (has : hop ∈ h.hops v.type)
    (later : ∀ p hop', followed p hop' →
      Hop.place (p.way ++ [hop']) < Hop.place (v.way ++ [hop])) :
    h.Surveyed start done (note done v waiting hop)
      fun p hop' => followed p hop' ∨ p = v ∧ hop' = hop := by
  -- Every known type was come to by a link that was followed before, or is the start.
  have earlier : ∀ u ∈ done ++ waiting, Hop.place u.way < Hop.place (v.way ++ [hop]) := by
    intro u hu
    rcases s.parents u hu with root | ⟨p, hop', before, way⟩
    · exact root ▸ Hop.place_nil_lt v.way hop
    · exact way ▸ later p hop' before
  have parents : ∀ u ∈ done ++ waiting, u.way = [] ∨
      ∃ p hop', (followed p hop' ∨ p = v ∧ hop' = hop) ∧ u.way = p.way ++ [hop'] := fun u hu =>
    (s.parents u hu).imp_right fun ⟨p, hop', before, way⟩ => ⟨p, hop', .inl before, way⟩
  unfold Hierarchy.note
  by_cases known : hop.target ∈ (done ++ waiting).map Visit.type
  · -- The type keeps the way on which it was found, which is an earlier one.
    rw [if_pos known]
    refine ⟨s.leads, s.root, s.sorted, s.distinct, parents, ?_⟩
    rintro p hop' (before | ⟨rfl, rfl⟩)
    · exact s.closed p hop' before
    · obtain ⟨u, hu, same⟩ := List.mem_map.mp known
      exact ⟨u, hu, same, (earlier u hu).le⟩
  · rw [if_neg known]
    refine ⟨?leads, ?root, ?sorted, ?distinct, ?parents, ?closed⟩ <;> rw [← List.append_assoc]
    case leads =>
      refine List.forall_mem_append.mpr ⟨s.leads, List.forall_mem_singleton.mpr ?_⟩
      exact .on (s.leads v mem) has
    case root => exact List.mem_append_left _ s.root
    case sorted =>
      refine List.pairwise_append.mpr ⟨s.sorted, List.pairwise_singleton _ _, fun u hu => ?_⟩
      exact List.forall_mem_singleton.mpr (earlier u hu)
    case distinct =>
      rw [List.map_append, List.map_singleton, ← List.concat_eq_append]
      exact s.distinct.concat known
    case parents =>
      refine List.forall_mem_append.mpr ⟨parents, List.forall_mem_singleton.mpr ?_⟩
      exact .inr ⟨v, hop, .inr ⟨rfl, rfl⟩, rfl⟩
    case closed =>
      rintro p hop' (before | ⟨rfl, rfl⟩)
      · obtain ⟨u, hu, same, le⟩ := s.closed p hop' before
        exact ⟨u, List.mem_append_left _ hu, same, le⟩
      · exact ⟨_, List.mem_append_right _ List.mem_cons_self, rfl, le_refl _⟩

theorem congr {followed' : Visit → Hop → Prop} (s : h.Surveyed start done waiting followed)
    (same : ∀ p hop, followed p hop ↔ followed' p hop) :
    h.Surveyed start done waiting followed' := by
  obtain rfl : followed = followed' := funext fun p => funext fun hop => propext (same p hop)
  exact s

theorem mem_note (done : List Visit) (v : Visit) (hop : Hop) {u : Visit}
    (mem : u ∈ done ++ waiting) : u ∈ done ++ Hierarchy.note done v waiting hop := by
  unfold Hierarchy.note
  split
  · exact mem
  · rw [← List.append_assoc]
    exact List.mem_append_left _ mem

theorem foldl_note {hops : List Hop} (s : h.Surveyed start done waiting followed)
    (mem : v ∈ done ++ waiting) (has : ∀ hop ∈ hops, hop ∈ h.hops v.type)
    (sorted : hops.Pairwise fun a b => a.turn < b.turn)
    (later : ∀ hop ∈ hops, ∀ p hop', followed p hop' →
      Hop.place (p.way ++ [hop']) < Hop.place (v.way ++ [hop])) :
    h.Surveyed start done (hops.foldl (Hierarchy.note done v) waiting)
      fun p hop => followed p hop ∨ p = v ∧ hop ∈ hops := by
  induction hops generalizing waiting followed with
  | nil => exact s.congr fun p hop => by simp
  | cons hop rest ih =>
    obtain ⟨first, sorted⟩ := List.pairwise_cons.mp sorted
    have noted := s.note mem (has hop List.mem_cons_self) (later hop List.mem_cons_self)
    have all := ih noted (mem_note done v hop mem)
      (fun next hn => has next (List.mem_cons_of_mem _ hn)) sorted (by
        rintro next hn p hop' (before | ⟨rfl, rfl⟩)
        · exact later next (List.mem_cons_of_mem _ hn) p hop' before
        · exact Hop.place_snoc_lt_of_turn p.way (first next hn))
    exact all.congr fun p hop' => by simp only [List.mem_cons, and_or_left, or_assoc]

/-- One visit: all links of the type are followed. What was visited before has an earlier way, and
    so has what its links lead to. -/
theorem visit (s : h.Surveyed start done (v :: waiting) fun p hop => p ∈ done ∧ hop ∈ h.hops p.type) :
    h.Surveyed start (done ++ [v]) ((h.hops v.type).foldl (Hierarchy.note (done ++ [v]) v) waiting)
      fun p hop => p ∈ done ++ [v] ∧ hop ∈ h.hops p.type := by
  have split : done ++ v :: waiting = done ++ [v] ++ waiting := by simp
  have shifted : h.Surveyed start (done ++ [v]) waiting
      fun p hop => p ∈ done ∧ hop ∈ h.hops p.type :=
    ⟨split ▸ s.leads, split ▸ s.root, split ▸ s.sorted, split ▸ s.distinct, split ▸ s.parents,
      split ▸ s.closed⟩
  -- The visit is the next in the order, so the links of all earlier ones come before its own.
  have before : ∀ p ∈ done, Hop.place p.way < Hop.place v.way := fun p hp =>
    (List.pairwise_append.mp s.sorted).2.2 p hp v List.mem_cons_self
  have all := shifted.foldl_note (by simp) (fun hop (has : hop ∈ h.hops v.type) => has)
    (h.hops_sorted v.type) fun _ _ p _ followed => Hop.place_snoc_lt (before p followed.1)
  refine all.congr fun p hop => ?_
  rw [List.mem_append, List.mem_singleton, or_and_right]
  refine or_congr Iff.rfl ⟨?_, ?_⟩
  · rintro ⟨rfl, mem⟩
    exact ⟨rfl, mem⟩
  · rintro ⟨rfl, mem⟩
    exact ⟨rfl, mem⟩

theorem length_le (s : h.Surveyed start done waiting followed) :
    done.length + waiting.length ≤ h.linkCount + 1 := by
  -- Every type that is known is the start or the target of a declared link.
  have known : (done ++ waiting).map Visit.type ⊆
      start :: (h.declarations.flatMap Declaration.links).map fun link => link.2.target := by
    intro t ht
    obtain ⟨v, hv, rfl⟩ := List.mem_map.mp ht
    exact (s.leads v hv).mem_targets
  have count := (s.distinct.subperm known).length_le
  simpa [linkCount_eq] using count

/-- With fuel for every type nothing is left waiting. -/
theorem survey {fuel : Nat}
    (s : h.Surveyed start done waiting fun p hop => p ∈ done ∧ hop ∈ h.hops p.type)
    (enough : fuel + done.length = h.linkCount + 1) :
    h.Surveyed start (h.survey fuel done waiting) []
      fun p hop => p ∈ h.survey fuel done waiting ∧ hop ∈ h.hops p.type := by
  induction fuel generalizing done waiting with
  | zero =>
    -- As many types are done as there can be.
    have count := s.length_le
    obtain rfl : waiting = [] := List.eq_nil_of_length_eq_zero (by omega)
    rw [Hierarchy.survey, List.append_nil]
    exact s
  | succ fuel ih =>
    cases waiting with
    | nil => exact s
    | cons v waiting =>
      rw [Hierarchy.survey]
      refine ih s.visit ?_
      rw [List.length_append, List.length_singleton]
      omega

/-- Every way leads to a visited type, and to none that was visited on a later one. -/
theorem exists_le (s : h.Surveyed start done [] fun p hop => p ∈ done ∧ hop ∈ h.hops p.type)
    (a : h.Leads start way type) :
    ∃ v ∈ done, v.type = type ∧ Hop.place v.way ≤ Hop.place way := by
  induction a with
  | here => exact ⟨_, by simpa using s.root, rfl, le_refl _⟩
  | on _ has ih =>
    obtain ⟨p, hp, rfl, le⟩ := ih
    obtain ⟨v, hv, same, le'⟩ := s.closed p _ ⟨hp, has⟩
    exact ⟨v, by simpa using hv, same, le'.trans (Hop.place_snoc_le le)⟩

end Surveyed

theorem visits_surveyed (h : Hierarchy) (start : TypeKey) :
    h.Surveyed start (h.visits start) [] fun p hop => p ∈ h.visits start ∧ hop ∈ h.hops p.type :=
  (Surveyed.begun h start).survey rfl

theorem visits_distinct (h : Hierarchy) (start : TypeKey) :
    ((h.visits start).map Visit.type).Nodup := by
  simpa using (h.visits_surveyed start).distinct

/-- **The types are found in the order of the ways to them.** -/
theorem visits_sorted (h : Hierarchy) (start : TypeKey) :
    (h.visits start).Pairwise fun a b => Hop.place a.way < Hop.place b.way := by
  simpa using (h.visits_surveyed start).sorted

theorem First.unique {way' : List Hop} (a : h.First start type way)
    (b : h.First start type way') : way = way' :=
  (a.1.unique b.1 (Hop.turns_eq_of_place_eq (le_antisymm (a.2 _ b.1) (b.2 _ a.1)))).1

/-- **A type is found on the first of all ways to it.** -/
theorem mem_visits_iff : v ∈ h.visits start ↔ h.First start v.type v.way := by
  have s := h.visits_surveyed start
  have first : ∀ u ∈ h.visits start, h.First start u.type u.way := by
    intro u hu
    refine ⟨s.leads u (List.mem_append_left _ hu), fun other leads => ?_⟩
    obtain ⟨w, hw, same, le⟩ := s.exists_le leads
    obtain rfl := List.inj_on_of_nodup_map (h.visits_distinct start) hw hu same
    exact le
  refine ⟨first v, fun a => ?_⟩
  -- Some visit has come to the type, and on the first way, so it is this one.
  obtain ⟨u, hu, same, -⟩ := s.exists_le a.1
  have way : u.way = v.way := First.unique (same ▸ first u hu) a
  obtain rfl : u = v := by
    cases u
    cases v
    cases same
    cases way
    rfl
  exact hu

/-- There is a first way to every type that can be reached. -/
theorem Leads.exists_first (a : h.Leads start way type) : ∃ first, h.First start type first := by
  obtain ⟨v, hv, rfl, -⟩ := (h.visits_surveyed start).exists_le a
  exact ⟨v.way, mem_visits_iff.mp hv⟩

end Hierarchy

end LayeredConfig
