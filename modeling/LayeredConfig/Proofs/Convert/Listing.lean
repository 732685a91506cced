import LayeredConfig.Convert.Registry
import LayeredConfig.Proofs.Convert.Ancestors
import LayeredConfig.Proofs.Ranking

/-!
# The list of converters for a type

The list has two parts: what the type has of its own, registered converters or a factory method, and
what it inherits. An inherited converter is a registration for another type with the place that the
type has among its ancestors, and there is at most one such place. **So no id can come up twice, and
the list is what `Registry.listing` says, without a search for repetitions**
(`Registry.compute_eq_listing`).

What is worked out is a list of handles with a number beside each; here it is a list of
registrations with an ancestor beside each (`Registry.inherited`), from which the handles follow.
The parts of it are plain filters and one stable sort, so that what stands in them and in which
order can be read off their definitions.
-/

set_option autoImplicit false

namespace LayeredConfig

namespace AncestorKind

def number : AncestorKind → Nat
  | superclass depth => depth
  | interface rank => rank

def isSuperclass : AncestorKind → Bool
  | superclass _ => true
  | interface _ => false

def origin (declaredFor : TypeKey) : AncestorKind → ConverterOrigin
  | superclass depth => .superclass declaredFor depth
  | interface rank => .interface declaredFor rank

variable {kind : AncestorKind} {n : Nat}

theorem eq_superclass_iff : kind = superclass n ↔ kind.isSuperclass = true ∧ kind.number = n := by
  cases kind <;> simp [isSuperclass, number]

theorem eq_interface_iff : kind = interface n ↔ kind.isSuperclass = false ∧ kind.number = n := by
  cases kind <;> simp [isSuperclass, number]

end AncestorKind

def Registration.inherit (e : Registration) (a : Ancestor) : ConverterHandle :=
  e.handle.derive (a.kind.origin e.target) a.path a.key

namespace Registry

/-- The place of a type among the ancestors of the type that something is registered for. -/
def Inherits (r : Registry) (target : TypeKey) (e : Registration) (a : Ancestor) : Prop :=
  e ∈ r.registrations ∧ a ∈ r.hierarchy.ancestors e.target ∧ a.key = target

def inherited (r : Registry) (target : TypeKey) : List (Registration × Ancestor) :=
  r.registrations.filterMap fun e => (r.ancestor? e.target target).map (e, ·)

def overSuperclass (r : Registry) (target : TypeKey) : List (Registration × Ancestor) :=
  (r.inherited target).filter fun p => p.2.kind.isSuperclass

/-- What a type inherits along superclass chains from nearest by. -/
def near (r : Registry) (target : TypeKey) : List (Registration × Ancestor) :=
  (r.overSuperclass target).filter fun p =>
    (r.overSuperclass target).all fun q => p.2.kind.number ≤ q.2.kind.number

def overInterface (r : Registry) (target : TypeKey) : List (Registration × Ancestor) :=
  (r.inherited target).filter fun p => !p.2.kind.isSuperclass

/-- What a type inherits as an interface, by rank. -/
def ranked (r : Registry) (target : TypeKey) : List (Registration × Ancestor) :=
  Ranking.ascending (fun p => (p.2.kind.number : Int)) (r.overInterface target)

/-- What a type has of its own, if a factory method had the given id. -/
def own (r : Registry) (id : Nat) (target : TypeKey) : List ConverterHandle :=
  r.directFor target ++ ((r.factoryFor? target).map (ConverterHandle.ofFactory id)).toList

def listing (r : Registry) (id : Nat) (target : TypeKey) : List ConverterHandle :=
  r.own id target ++ (r.near target).map (fun p => p.1.inherit p.2) ++
    (r.ranked target).map fun p => p.1.inherit p.2

variable {r : Registry} {id : Nat} {target type : TypeKey} {e : Registration} {a : Ancestor}

/-! ## What is inherited -/

theorem ancestor?_eq_some_iff :
    r.ancestor? type target = some a ↔ a ∈ r.hierarchy.ancestors type ∧ a.key = target := by
  obtain ⟨own, distinct⟩ := List.nodup_cons.mp (r.hierarchy.ancestors_distinct type)
  unfold ancestor?
  by_cases same : type = target
  · rw [if_pos same]
    -- A type is not its own ancestor, so nothing is missed where it is not looked for.
    refine ⟨fun none => (nomatch none), fun ⟨mem, key⟩ => ?_⟩
    exact absurd (List.mem_map.mpr ⟨a, mem, key.trans same.symm⟩) own
  · rw [if_neg same]
    constructor
    · intro found
      exact ⟨List.mem_of_find?_eq_some found, by simpa using List.find?_some found⟩
    · rintro ⟨mem, rfl⟩
      cases found : (r.hierarchy.ancestors type).find? fun b => b.key == a.key with
      | none => exact absurd (List.find?_eq_none.mp found a mem) (by simp)
      | some b =>
        have key : b.key = a.key := by simpa using List.find?_some found
        exact congrArg some
          (List.inj_on_of_nodup_map distinct (List.mem_of_find?_eq_some found) mem key)

theorem mem_inherited_iff : (e, a) ∈ r.inherited target ↔ r.Inherits target e a := by
  rw [inherited, List.mem_filterMap]
  constructor
  · rintro ⟨e', mem, found⟩
    obtain ⟨a', found, same⟩ := Option.map_eq_some_iff.mp found
    cases same
    exact ⟨mem, ancestor?_eq_some_iff.mp found⟩
  · rintro ⟨mem, found⟩
    exact ⟨e, mem, by rw [ancestor?_eq_some_iff.mpr found, Option.map_some]⟩

theorem mem_overSuperclass_iff :
    (e, a) ∈ r.overSuperclass target ↔
      r.Inherits target e a ∧ ∃ depth, a.kind = .superclass depth := by
  rw [overSuperclass, List.mem_filter, mem_inherited_iff]
  refine and_congr Iff.rfl ⟨fun kind => ⟨_, AncestorKind.eq_superclass_iff.mpr ⟨kind, rfl⟩⟩, ?_⟩
  rintro ⟨depth, kind⟩
  exact (AncestorKind.eq_superclass_iff.mp kind).1

theorem mem_ranked_iff :
    (e, a) ∈ r.ranked target ↔ r.Inherits target e a ∧ ∃ rank, a.kind = .interface rank := by
  rw [ranked, (Ranking.ascending_perm _ _).mem_iff, overInterface, List.mem_filter,
    mem_inherited_iff]
  refine and_congr Iff.rfl ⟨fun kind => ?_, ?_⟩
  · exact ⟨_, AncestorKind.eq_interface_iff.mpr ⟨by simpa using kind, rfl⟩⟩
  · rintro ⟨rank, kind⟩
    rw [(AncestorKind.eq_interface_iff.mp kind).1]
    rfl

/-- A type inherits each registration once at most. -/
theorem inherited_sublist (r : Registry) (target : TypeKey) :
    ((r.inherited target).map Prod.fst).Sublist r.registrations := by
  unfold inherited
  -- By the registrations: each one adds one pair at most, and they keep their order.
  induction r.registrations with
  | nil => exact .slnil
  | cons e rest ih =>
    cases found : r.ancestor? e.target target with
    | none =>
      rw [List.filterMap_cons_none (by rw [found]; rfl)]
      exact ih.cons e
    | some a =>
      rw [List.filterMap_cons_some (by rw [found]; rfl)]
      exact ih.cons_cons e

theorem viaSuperclass_eq (r : Registry) (target : TypeKey) :
    r.viaSuperclass target =
      (r.overSuperclass target).map fun p => (p.2.kind.number, p.1.inherit p.2) := by
  rw [overSuperclass, inherited, List.filter_filterMap, List.map_filterMap]
  refine List.filterMap_congr fun e _ => ?_
  cases found : r.ancestor? e.target target with
  | none => rfl
  | some a =>
    obtain ⟨key, kind, path⟩ := a
    obtain ⟨-, rfl⟩ := ancestor?_eq_some_iff.mp found
    cases kind <;> rfl

theorem viaInterface_eq (r : Registry) (target : TypeKey) :
    r.viaInterface target =
      (r.overInterface target).map fun p => (p.2.kind.number, p.1.inherit p.2) := by
  rw [overInterface, inherited, List.filter_filterMap, List.map_filterMap]
  refine List.filterMap_congr fun e _ => ?_
  cases found : r.ancestor? e.target target with
  | none => rfl
  | some a =>
    obtain ⟨key, kind, path⟩ := a
    obtain ⟨-, rfl⟩ := ancestor?_eq_some_iff.mp found
    cases kind <;> rfl

theorem nearest_eq (r : Registry) (target : TypeKey) :
    nearest (r.viaSuperclass target) = (r.near target).map fun p => p.1.inherit p.2 := by
  rw [viaSuperclass_eq, nearest, List.filter_map, List.map_map]
  simp only [List.all_map]
  rfl

theorem ascending_viaInterface_eq (r : Registry) (target : TypeKey) :
    (Ranking.ascending (fun h => (h.1 : Int)) (r.viaInterface target)).map (·.2) =
      (r.ranked target).map fun p => p.1.inherit p.2 := by
  rw [viaInterface_eq, Ranking.ascending_map, List.map_map]
  rfl

/-! ## Every id once -/

def Numbered (r : Registry) : Prop := (r.registrations.map Registration.id).Nodup

/-- Where no id comes up twice, nothing is left out. -/
theorem fresh_eq_self : ∀ {ids : List Nat} {handles : List ConverterHandle},
    (ids ++ handles.map ConverterHandle.id).Nodup → fresh ids handles = handles
  | _, [], _ => rfl
  | ids, h :: hs, nodup => by
    have new : h.id ∉ ids := fun mem =>
      (List.nodup_append.mp nodup).2.2 _ mem _ List.mem_cons_self rfl
    rw [fresh, if_neg (by simpa using new)]
    refine congrArg (h :: ·) (fresh_eq_self ?_)
    exact (List.perm_middle.nodup_iff).mp nodup

theorem ids_map_inherit (ps : List (Registration × Ancestor)) :
    (ps.map fun p => p.1.inherit p.2).map ConverterHandle.id =
      (ps.map Prod.fst).map Registration.id := by
  rw [List.map_map, List.map_map]
  rfl

theorem ne_of_mem_inherited (mem : (e, a) ∈ r.inherited target) : e.target ≠ target := by
  rintro rfl
  obtain ⟨-, listed, key⟩ := mem_inherited_iff.mp mem
  refine (List.nodup_cons.mp (r.hierarchy.ancestors_distinct e.target)).1 ?_
  exact List.mem_map.mpr ⟨a, listed, key⟩

/-- What is inherited stands in one of the two parts, once. -/
theorem near_append_ranked_subperm (r : Registry) (target : TypeKey) :
    List.Subperm (r.near target ++ r.ranked target) (r.inherited target) := by
  have parts := List.filter_append_perm (fun p => p.2.kind.isSuperclass) (r.inherited target)
  have nearer : List.Sublist (r.near target) (r.overSuperclass target) := List.filter_sublist
  have both : List.Subperm (r.near target ++ r.ranked target)
      (r.overSuperclass target ++ r.overInterface target) :=
    nearer.subperm.append (Ranking.ascending_perm _ _).subperm
  exact both.trans parts.subperm

theorem mem_own_iff {handle : ConverterHandle} :
    handle ∈ r.own id target ↔
      (∃ e ∈ r.registrations, e.target = target ∧ e.handle = handle) ∨
        ∃ m, r.factoryFor? target = some m ∧ ConverterHandle.ofFactory id m = handle := by
  rw [own, List.mem_append, directFor, List.mem_map, Option.mem_toList, Option.map_eq_some_iff]
  simp only [List.mem_filter, beq_iff_eq, and_assoc]

theorem own_ids_nodup (numbered : r.Numbered) (id : Nat) (target : TypeKey) :
    ((r.own id target).map ConverterHandle.id).Nodup := by
  unfold own factoryFor?
  cases direct : r.directFor target with
  | nil => cases FactoryMethod.lookup r.catalogue.factories target <;> simp
  | cons h hs =>
    rw [List.isEmpty_cons, if_neg Bool.false_ne_true, Option.map_none, Option.toList_none,
      List.append_nil, ← direct, directFor, List.map_map]
    exact numbered.sublist (List.filter_sublist.map Registration.id)

theorem listing_ids_nodup (numbered : r.Numbered)
    (unused : ∀ e ∈ r.registrations, e.id ≠ id) (target : TypeKey) :
    ((r.listing id target).map ConverterHandle.id).Nodup := by
  have within := r.near_append_ranked_subperm target
  rw [listing, List.append_assoc, ← List.map_append, List.map_append, ids_map_inherit]
  refine List.nodup_append.mpr ⟨own_ids_nodup numbered id target, ?_, ?_⟩
  -- Inherited: one handle for each registration at most, and registrations have ids of their own.
  · obtain ⟨ps, same, part⟩ := within
    refine ((same.map Prod.fst).map Registration.id).nodup_iff.mp ?_
    exact numbered.sublist (((part.map _).trans (r.inherited_sublist target)).map _)
  -- Own and inherited: a registration is not inherited by the type that it is made for, and a
  -- factory method has an id that no registration has.
  · rintro i own j inherits rfl
    obtain ⟨h, mem, same⟩ := List.mem_map.mp own
    obtain ⟨e, first, rfl⟩ := List.mem_map.mp inherits
    obtain ⟨p, among, rfl⟩ := List.mem_map.mp first
    have inherited : (p.1, p.2) ∈ r.inherited target := within.subset among
    have registered := (mem_inherited_iff.mp inherited).1
    rcases mem_own_iff.mp mem with ⟨e', registered', direct, rfl⟩ | ⟨m, -, rfl⟩
    · have equal := List.inj_on_of_nodup_map numbered registered' registered same
      exact ne_of_mem_inherited inherited (equal ▸ direct)
    · exact unused p.1 registered same.symm

/-- The search for repetitions finds none. -/
theorem compute_eq_listing (numbered : r.Numbered)
    (unused : ∀ e ∈ r.registrations, e.id ≠ r.nextId) (target : TypeKey) :
    r.compute target = r.listing r.nextId target := by
  have nodup := listing_ids_nodup numbered unused target
  unfold compute
  dsimp only
  rw [nearest_eq, ascending_viaInterface_eq, fresh_eq_self]
  · rfl
  · rwa [listing, List.map_append] at nodup

end Registry

end LayeredConfig
