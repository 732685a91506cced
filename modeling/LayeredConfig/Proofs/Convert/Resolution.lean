import LayeredConfig.Proofs.Convert.Calls

/-!
# In which order converters are tried

What is listed for a type is told here from the registrations and the declarations alone
(`Registry.Resolution`): first what is registered for the type itself, or else its preferred factory
method; then what is registered for the types that have it nearest on their superclass chain; then
what is registered for the types that have it as an interface, by rank. Registrations that are on a
par stand in the order in which they were made. **`Registry.converters_resolution` says that every
registry answers that, whatever it has been asked before.**

The three groups are given with what they are made of, registrations and the ancestors over which
they are inherited, and not as handles. So it can be said of them which registrations are in them
(`near_iff`, `far_iff`), that none is missing (`near_all`), and in which order they stand.
-/

set_option autoImplicit false

namespace LayeredConfig

/-! ## The preferred factory method -/

namespace FactoryMethod

variable {methods : List FactoryMethod} {target : TypeKey} {m : FactoryMethod}

/-- A method that no other one of its type is preferred to. -/
def Preferred (methods : List FactoryMethod) (target : TypeKey) (m : FactoryMethod) : Prop :=
  m ∈ methods ∧ m.target = target ∧
    ∀ other ∈ methods, other.target = target → m.name.place ≤ other.name.place

theorem preferred_eq_or (a b : FactoryMethod) : preferred a b = a ∨ preferred a b = b := by
  unfold preferred
  split
  · exact .inr rfl
  · exact .inl rfl

theorem preferred_place_le (a b : FactoryMethod) :
    (preferred a b).name.place ≤ a.name.place ∧ (preferred a b).name.place ≤ b.name.place := by
  unfold preferred
  split
  case isTrue lt => exact ⟨Nat.le_of_lt lt, Nat.le_refl _⟩
  case isFalse le => exact ⟨Nat.le_refl _, Nat.le_of_not_lt le⟩

theorem foldl_preferred (m : FactoryMethod) (ms : List FactoryMethod) :
    ms.foldl preferred m ∈ m :: ms ∧
    ∀ other ∈ m :: ms, (ms.foldl preferred m).name.place ≤ other.name.place := by
  induction ms generalizing m with
  | nil => exact ⟨List.mem_cons_self, by simp⟩
  | cons a ms ih =>
    obtain ⟨mem, least⟩ := ih (preferred m a)
    obtain ⟨lem, lea⟩ := preferred_place_le m a
    have leFirst := least _ List.mem_cons_self
    refine ⟨?_, ?_⟩
    · rw [List.foldl_cons]
      -- The chosen one is what the first two left, or one of the others.
      rcases List.mem_cons.mp mem with first | later
      · rw [first]
        rcases preferred_eq_or m a with same | same <;> simp [same]
      · exact List.mem_cons_of_mem _ (List.mem_cons_of_mem _ later)
    · intro other among
      rcases List.mem_cons.mp among with rfl | among
      · exact leFirst.trans lem
      · rcases List.mem_cons.mp among with rfl | among
        · exact leFirst.trans lea
        · exact least other (List.mem_cons_of_mem _ among)

theorem lookup_eq_none (none : lookup methods target = none) : ∀ m ∈ methods, m.target ≠ target := by
  unfold lookup at none
  split at none
  case h_1 empty => simpa using empty
  case h_2 => exact nomatch none

theorem lookup_eq_some (found : lookup methods target = some m) : Preferred methods target m := by
  unfold lookup at found
  split at found
  case h_1 => exact nomatch found
  case h_2 m' ms heads =>
    obtain rfl := Option.some.inj found
    obtain ⟨mem, least⟩ := foldl_preferred m' ms
    rw [← heads] at mem least
    obtain ⟨declared, same⟩ := List.mem_filter.mp mem
    refine ⟨declared, by simpa using same, fun other among same => least other ?_⟩
    exact List.mem_filter.mpr ⟨among, by simpa using same⟩

end FactoryMethod

namespace Registry

/-! ## The specification -/

/-- The depth at which a type stands on the superclass chain of the registered types next to it. -/
def NearestDepth (r : Registry) (target : TypeKey) (depth : Nat) : Prop :=
  (∃ e ∈ r.registrations, r.hierarchy.Above e.target target depth) ∧
  ∀ e ∈ r.registrations, ∀ other, r.hierarchy.Above e.target target other → depth ≤ other

/-- What a type has of its own and what it inherits, from near and from far, in the order in which
    it is tried. -/
structure Resolution (r : Registry) (target : TypeKey) (own : List ConverterHandle)
    (near far : List (Registration × Ancestor)) : Prop where
  registered : (∃ e ∈ r.registrations, e.target = target) →
    own = (r.registrations.filter fun e => e.target == target).map Registration.handle
  factory : (∀ e ∈ r.registrations, e.target ≠ target) →
    (own = [] ∧ ∀ m ∈ r.catalogue.factories, m.target ≠ target) ∨
    ∃ id m, own = [ConverterHandle.ofFactory id m] ∧
      FactoryMethod.Preferred r.catalogue.factories target m
  near_iff : ∀ e a, (e, a) ∈ near ↔ r.Inherits target e a ∧
    ∃ depth, a.kind = .superclass depth ∧ r.NearestDepth target depth
  near_all : ∀ e ∈ r.registrations, ∀ depth, r.NearestDepth target depth →
    r.hierarchy.Above e.target target depth → ∃ a, (e, a) ∈ near
  near_order : (near.map Prod.fst).Sublist r.registrations
  far_iff : ∀ e a, (e, a) ∈ far ↔ r.Inherits target e a ∧ ∃ rank, a.kind = .interface rank
  far_ranks : far.Pairwise fun p q => p.2.kind.number ≤ q.2.kind.number
  far_order : ∀ rank,
    ((far.filter fun p => p.2.kind = .interface rank).map Prod.fst).Sublist r.registrations

variable {r : Registry} {id depth rank : Nat} {target : TypeKey} {e : Registration} {a : Ancestor}

/-! ## Each of the groups -/

theorem own_of_registered (mem : e ∈ r.registrations) (same : e.target = target) (id : Nat) :
    r.own id target =
      (r.registrations.filter fun e => e.target == target).map Registration.handle := by
  have some : (r.directFor target).isEmpty = false := by
    rw [List.isEmpty_eq_false_iff_exists_mem]
    refine ⟨e.handle, List.mem_map_of_mem (List.mem_filter.mpr ⟨mem, ?_⟩)⟩
    rw [same, beq_self_eq_true]
  rw [own, factoryFor?, some, if_neg Bool.false_ne_true, Option.map_none, Option.toList_none,
    List.append_nil]
  rfl

theorem own_of_unregistered (other : ∀ e ∈ r.registrations, e.target ≠ target) (id : Nat) :
    r.own id target = ((FactoryMethod.lookup r.catalogue.factories target).map
      (ConverterHandle.ofFactory id)).toList := by
  have none : r.directFor target = [] := by
    rw [directFor, List.map_eq_nil_iff, List.filter_eq_nil_iff]
    exact fun e mem same => other e mem (by simpa using same)
  rw [own, factoryFor?, none, List.isEmpty_nil, if_pos rfl, List.nil_append]

namespace Inherits

theorem above (h : r.Inherits target e a) (kind : a.kind = .superclass depth) :
    r.hierarchy.Above e.target target depth := by
  obtain ⟨-, mem, rfl⟩ := h
  exact Hierarchy.mem_ancestors_superclass_iff.mp ⟨a.path, kind ▸ mem⟩

theorem of_above (mem : e ∈ r.registrations) (above : r.hierarchy.Above e.target target depth) :
    ∃ a, r.Inherits target e a ∧ a.kind = .superclass depth := by
  obtain ⟨path, listed⟩ := Hierarchy.mem_ancestors_superclass_iff.mpr above
  exact ⟨_, ⟨mem, listed, rfl⟩, rfl⟩

end Inherits

theorem mem_near_iff :
    (e, a) ∈ r.near target ↔ r.Inherits target e a ∧
      ∃ depth, a.kind = .superclass depth ∧ r.NearestDepth target depth := by
  rw [near, List.mem_filter, mem_overSuperclass_iff, and_assoc]
  refine and_congr_right fun inherits => ?_
  rw [List.all_eq_true]
  -- On the left a depth is compared with those of the ancestors that are listed, and on the right
  -- with those of all registered types.
  constructor
  · rintro ⟨⟨depth, kind⟩, least⟩
    refine ⟨depth, kind, ⟨e, inherits.1, inherits.above kind⟩, fun e' mem other above => ?_⟩
    obtain ⟨a', inherits', kind'⟩ := Inherits.of_above mem above
    have le := least (e', a') (mem_overSuperclass_iff.mpr ⟨inherits', other, kind'⟩)
    simpa [kind, kind', AncestorKind.number] using le
  · rintro ⟨depth, kind, -, least⟩
    refine ⟨⟨depth, kind⟩, ?_⟩
    rintro ⟨e', a'⟩ mem
    obtain ⟨inherits', other, kind'⟩ := mem_overSuperclass_iff.mp mem
    have le := least e' inherits'.1 other (inherits'.above kind')
    simpa [kind, kind', AncestorKind.number] using le

/-- Of one rank the registrations stand as they were made. -/
theorem ranked_order (r : Registry) (target : TypeKey) (rank : Nat) :
    (((r.ranked target).filter fun p => p.2.kind = .interface rank).map Prod.fst).Sublist
      r.registrations := by
  have byNumber : (r.ranked target).filter (fun p => p.2.kind = .interface rank) =
      (r.ranked target).filter fun p => (p.2.kind.number : Int) = rank := by
    refine List.filter_congr fun p mem => ?_
    obtain ⟨-, rank', kind⟩ := mem_ranked_iff.mp mem
    simp only [kind, AncestorKind.number, AncestorKind.interface.injEq, decide_eq_decide]
    exact Int.ofNat_inj.symm
  -- Sorting by rank is stable, so those of one rank stand as they stood before.
  rw [byNumber, ranked, Ranking.filter_ascending]
  exact ((List.filter_sublist.trans List.filter_sublist).map _).trans (r.inherited_sublist target)

theorem listing_resolution (r : Registry) (id : Nat) (target : TypeKey) :
    r.Resolution target (r.own id target) (r.near target) (r.ranked target) where
  registered := fun ⟨_, mem, same⟩ => own_of_registered mem same id
  factory other := by
    rw [own_of_unregistered other]
    cases found : FactoryMethod.lookup r.catalogue.factories target with
    | none => exact .inl ⟨rfl, FactoryMethod.lookup_eq_none found⟩
    | some m => exact .inr ⟨id, m, rfl, FactoryMethod.lookup_eq_some found⟩
  near_iff _ _ := mem_near_iff
  near_all e mem depth nearest above := by
    obtain ⟨a, inherits, kind⟩ := Inherits.of_above mem above
    exact ⟨a, mem_near_iff.mpr ⟨inherits, depth, kind, nearest⟩⟩
  near_order := (((List.filter_sublist.trans List.filter_sublist).map _).trans
    (r.inherited_sublist target))
  far_iff _ _ := mem_ranked_iff
  far_ranks :=
    (Ranking.ascending_sorted (fun p => (p.2.kind.number : Int)) (r.overInterface target)).imp
      Int.ofNat_le.mp
  far_order := r.ranked_order target

/-! ## Every registry -/

/-- **Converters are tried in order.** Take a registry after any calls, and a type. What it answers
    for the type is what the type has of its own, then what it inherits from near by, and then what
    it inherits from far, and no id comes up twice. -/
theorem converters_resolution (catalogue : Catalogue) (calls : List Call) (target : TypeKey) :
    let r := (empty catalogue).after calls
    let answer := (r.converters target).1
    (∃ own near far,
      answer = own ++ near.map (fun p => p.1.inherit p.2) ++ far.map (fun p => p.1.inherit p.2) ∧
      r.Resolution target own near far) ∧
    (answer.map ConverterHandle.id).Nodup := by
  intro r answer
  have sound : Sound r := sound_after catalogue calls
  obtain ⟨id, unused, listed⟩ := sound.answer target
  refine ⟨⟨r.own id target, r.near target, r.ranked target, listed, r.listing_resolution id target⟩,
    ?_⟩
  rw [show answer = r.listing id target from listed]
  exact listing_ids_nodup sound.numbered unused target

end Registry

end LayeredConfig
