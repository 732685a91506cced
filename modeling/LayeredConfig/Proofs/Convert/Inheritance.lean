import LayeredConfig.Proofs.Convert.Calls
import LayeredConfig.Proofs.Convert.Paths
import LayeredConfig.Sample.Traced
import Mathlib.Logic.Relation

/-!
# What is inherited from interfaces

A type that is an interface of another, or of one of its interfaces or superclasses, should inherit
the converters that are registered for it. The search sees to that as long as it comes to the type
over an interface link. But a superclass link marks its target as visited without listing it, and a
type that is marked is not listed later. **`Registry.inherits_iff_first_way` says exactly when a
converter is inherited: the first of all ways to the type has to end with an interface link.** The
two kinds of links compete only for a type that is also the superclass of an interface;
`Registry.interface_of_interface_missed` is the smallest case in which the superclass link wins.
-/

set_option autoImplicit false

namespace LayeredConfig

namespace Hierarchy

variable {h : Hierarchy} {start type other : TypeKey} {way : List Hop} {hop : Hop}

def interfaces (h : Hierarchy) (type : TypeKey) : List TypeKey :=
  ((h.find? type).elim [] Declaration.interfaceSteps).map Step.target

/-- Superclass links as far as one likes, and then interface links, one at least. -/
def ReachedByInterfaces (h : Hierarchy) (start type : TypeKey) : Prop :=
  ∃ n t, h.climb n start = some t ∧ Relation.TransGen (fun a b => b ∈ h.interfaces a) t type

/-! ## Ways made of links -/

theorem Leads.over_superclass (a : h.Leads start way type) (link : h.superclass? type = some other) :
    ∃ hop, h.Leads start (way ++ [hop]) other := by
  obtain ⟨step, declared, rfl⟩ := Option.map_eq_some_iff.mp link
  obtain ⟨hop, has, -, rfl⟩ := (exists_mem_hops_iff .superclass).mpr declared
  exact ⟨hop, a.on has⟩

theorem Leads.over_interface (a : h.Leads start way type) (link : other ∈ h.interfaces type) :
    ∃ hop, h.Leads start (way ++ [hop]) other := by
  obtain ⟨step, declared, rfl⟩ := List.mem_map.mp link
  obtain ⟨hop, has, -, rfl⟩ := (exists_mem_hops_iff .interface).mpr declared
  exact ⟨hop, a.on has⟩

theorem leads_of_climb {n : Nat} (up : h.climb n start = some type) :
    ∃ way, h.Leads start way type := by
  induction n generalizing type with
  | zero =>
    obtain rfl := Option.some.inj up
    exact ⟨[], .here⟩
  | succ n ih =>
    obtain ⟨t, before, link⟩ := Option.bind_eq_some_iff.mp up
    obtain ⟨way, a⟩ := ih before
    obtain ⟨hop, b⟩ := a.over_superclass link
    exact ⟨_, b⟩

theorem ReachedByInterfaces.leads (reached : h.ReachedByInterfaces start type) :
    ∃ way, h.Leads start way type := by
  obtain ⟨n, t, up, links⟩ := reached
  obtain ⟨first, a⟩ := leads_of_climb up
  induction links with
  | single link =>
    obtain ⟨hop, b⟩ := a.over_interface link
    exact ⟨_, b⟩
  | tail _ link ih =>
    obtain ⟨way, b⟩ := ih
    obtain ⟨hop, c⟩ := b.over_interface link
    exact ⟨_, c⟩

theorem superclass?_of_mem_hops (has : hop ∈ h.hops type) (kind : hop.kind = .superclass) :
    h.superclass? type = some hop.target := by
  have declared : h.superclassStep? type = some hop.step :=
    (exists_mem_hops_iff .superclass).mp ⟨hop, has, kind, rfl⟩
  rw [superclass?, declared]
  rfl

/-- A type without a superclass is its whole chain. -/
theorem climb_ne_of_top (top : h.superclass? start = none) (ne : type ≠ start) (n : Nat) :
    h.climb n start ≠ some type := by
  cases n with
  | zero => exact fun same => ne (Option.some.inj same).symm
  | succ n =>
    rw [Nat.add_comm, climb_add, climb_succ (by rfl), top, Option.bind_none]
    exact nofun

/-- A way that leads off the chain has a last link, and a superclass link only from off the
    chain. -/
theorem Leads.last_of_off (a : h.Leads start way type) (off : ∀ n, h.climb n start ≠ some type) :
    ∃ init hop t, way = init ++ [hop] ∧ h.Leads start init t ∧ (hop.kind = .superclass →
      h.superclass? t = some type ∧ ∀ n, h.climb n start ≠ some t) := by
  cases a with
  | here => exact absurd rfl (off 0)
  | on before has =>
    -- If the type before were on the chain, its superclass would be on it too.
    refine ⟨_, _, _, rfl, before, fun kind => ?_⟩
    have link := superclass?_of_mem_hops has kind
    exact ⟨link, fun n up => off (n + 1) ((climb_succ up).trans link)⟩

end Hierarchy

namespace Registry

variable {r : Registry} {target : TypeKey} {e : Registration}

/-- A converter is inherited from an interface exactly if the interface is listed for its type. -/
theorem inherits_iff_listed (s : Sound r) (registered : e ∈ r.registrations) :
    (∃ handle ∈ (r.converters target).1, handle.id = e.id ∧
      ∃ rank, handle.origin = .interface e.target rank) ↔
    ∃ rank path, ⟨target, .interface rank, path⟩ ∈ r.hierarchy.ancestors e.target := by
  obtain ⟨id, -, answer⟩ := s.answer target
  rw [answer, listing]
  constructor
  · rintro ⟨handle, mem, -, rank, origin⟩
    -- Of the three parts of the list only the last has handles with an interface for an origin.
    rcases List.mem_append.mp mem with mem | mem
    · rcases List.mem_append.mp mem with mem | mem
      · rcases mem_own_iff.mp mem with ⟨e', -, -, rfl⟩ | ⟨m, -, rfl⟩
        · cases origin
        · cases origin
      · obtain ⟨⟨e', a⟩, near, rfl⟩ := List.mem_map.mp mem
        obtain ⟨-, depth, kind⟩ := mem_overSuperclass_iff.mp (List.mem_of_mem_filter near)
        have other : a.kind.origin e'.target = .superclass e'.target depth := by rw [kind]; rfl
        cases other.symm.trans origin
    · obtain ⟨⟨e', a⟩, far, rfl⟩ := List.mem_map.mp mem
      obtain ⟨⟨-, listed, rfl⟩, rank', kind⟩ := mem_ranked_iff.mp far
      have same : a.kind.origin e'.target = .interface e'.target rank' := by rw [kind]; rfl
      obtain ⟨type, -⟩ := ConverterOrigin.interface.inj (same.symm.trans origin)
      exact ⟨rank', a.path, kind ▸ type ▸ listed⟩
  · rintro ⟨rank, path, listed⟩
    refine ⟨e.inherit ⟨target, .interface rank, path⟩, ?_, rfl, rank, rfl⟩
    refine List.mem_append_right _ (List.mem_map.mpr ⟨(e, _), ?_, rfl⟩)
    exact mem_ranked_iff.mpr ⟨⟨registered, listed, rfl⟩, rank, rfl⟩

/-- **What is inherited is decided by the first way.** Take a registry after any calls, something
    registered in it, and a type that is not on the superclass chain of the type it is registered
    for, but is reached from there by superclass links and then by interface links, one at least.
    There is a first way to the type, and

    * the type is listed as an interface if and only if the last link of that way is an interface
      link;
    * the converter is inherited if and only if the type is listed;
    * the type is listed if no type that is reached from off the chain has it for its superclass. -/
theorem inherits_iff_first_way (catalogue : Catalogue) (calls : List Call) {e : Registration}
    {type : TypeKey} (registered : e ∈ ((empty catalogue).after calls).registrations)
    (off : ∀ n, ((empty catalogue).after calls).hierarchy.climb n e.target ≠ some type)
    (reached : ((empty catalogue).after calls).hierarchy.ReachedByInterfaces e.target type) :
    let r := (empty catalogue).after calls
    let listed := ∃ rank path, ⟨type, .interface rank, path⟩ ∈ r.hierarchy.ancestors e.target
    (∃ way hop, r.hierarchy.First e.target type (way ++ [hop]) ∧
      (listed ↔ hop.kind = .interface)) ∧
    ((∃ handle ∈ (r.converters type).1, handle.id = e.id ∧
      ∃ rank, handle.origin = .interface e.target rank) ↔ listed) ∧
    ((∀ t way, r.hierarchy.Leads e.target way t → (∀ n, r.hierarchy.climb n e.target ≠ some t) →
      r.hierarchy.superclass? t ≠ some type) → listed) := by
  intro r listed
  obtain ⟨_, leads⟩ := reached.leads
  obtain ⟨_, first⟩ := leads.exists_first
  obtain ⟨way, hop, t, rfl, before, last⟩ := first.1.last_of_off off
  -- There is one first way, so it does not matter which of the two is looked at.
  have decided : listed ↔ hop.kind = .interface := by
    refine Hierarchy.mem_ancestors_interface_iff.trans ⟨?_, ?_⟩
    · rintro ⟨-, way', hop', first', kind⟩
      obtain ⟨-, same⟩ := List.append_inj' (first.unique first') rfl
      exact List.singleton_inj.mp same ▸ kind
    · exact fun kind => ⟨fun ⟨n, up⟩ => off n up, way, hop, first, kind⟩
  refine ⟨⟨way, hop, first, decided⟩, inherits_iff_listed (sound_after catalogue calls) registered,
    fun lone => decided.mpr ?_⟩
  -- The last link of the first way: a superclass link would start from a type off the chain.
  cases kind : hop.kind with
  | interface => rfl
  | superclass =>
    obtain ⟨link, offChain⟩ := last kind
    exact absurd link (lone t way before offChain)

/-! ## Two interfaces, one target -/

/-- `D` is the superclass of `B` and an interface of `C`; `B` and `C`, in the order given, are the
    interfaces of `A`, for which a converter is registered. -/
def rivals (interfaces : List TypeKey) : List Call := [
  .declare (Traced.declaration (.named "A") (interfaces.map (false, ·))),
  .declare (Traced.declaration (.named "B") [(true, .named "D")]),
  .declare (Traced.declaration (.named "C") [(false, .named "D")]),
  .register (.named "A") "a" (Traced.converter (.named "A") "a" [] "" .all)]

def rival : Registration := ⟨0, "a", .named "A", Traced.converter (.named "A") "a" [] "" .all⟩

/-- If `C` is the first interface, `D` is found over an interface link. -/
theorem inherits_iff_first_way_interface_first :
    let r := (empty ⟨[], []⟩).after (rivals [.named "C", .named "B"])
    rival ∈ r.registrations ∧ (∀ n, r.hierarchy.climb n rival.target ≠ some (.named "D")) ∧
      r.hierarchy.ReachedByInterfaces rival.target (.named "D") ∧
      (∃ way hop, r.hierarchy.First rival.target (.named "D") (way ++ [hop]) ∧
        hop.kind = .interface) ∧
      ∃ handle ∈ (r.converters (.named "D")).1, handle.id = rival.id ∧
        ∃ rank, handle.origin = .interface rival.target rank := by
  intro r
  have registered : rival ∈ r.registrations := List.mem_singleton.mpr rfl
  have off : ∀ n, r.hierarchy.climb n rival.target ≠ some (.named "D") :=
    Hierarchy.climb_ne_of_top (by decide +kernel) (by decide)
  have reached : r.hierarchy.ReachedByInterfaces rival.target (.named "D") :=
    ⟨0, rival.target, rfl, .tail (.single (show .named "C" ∈ _ by decide +kernel))
      (by decide +kernel)⟩
  have mem : (.named "D", .interface 2) ∈
      (r.hierarchy.ancestors rival.target).map fun a => (a.key, a.kind) := by decide +kernel
  have listed : ∃ rank path,
      ⟨.named "D", .interface rank, path⟩ ∈ r.hierarchy.ancestors rival.target := by
    obtain ⟨⟨key, kind, path⟩, listed, same⟩ := List.mem_map.mp mem
    cases same
    exact ⟨2, path, listed⟩
  obtain ⟨⟨way, hop, first, decided⟩, inherited, -⟩ :=
    inherits_iff_first_way ⟨[], []⟩ (rivals [.named "C", .named "B"]) registered off reached
  exact ⟨registered, off, reached, ⟨way, hop, first, decided.mp listed⟩, inherited.mpr listed⟩

/-- If `B` is the first interface, `D` is found over a superclass link, and although it is an
    interface of an interface of `A` it is not listed, and no converter for it is known. -/
theorem interface_of_interface_missed :
    let r := (empty ⟨[], []⟩).after (rivals [.named "B", .named "C"])
    rival ∈ r.registrations ∧ (∀ n, r.hierarchy.climb n rival.target ≠ some (.named "D")) ∧
      r.hierarchy.ReachedByInterfaces rival.target (.named "D") ∧
      .named "D" ∉ (r.hierarchy.ancestors rival.target).map Ancestor.key ∧
      (r.converters (.named "D")).1 = [] := by
  intro r
  refine ⟨List.mem_singleton.mpr rfl, Hierarchy.climb_ne_of_top (by decide +kernel) (by decide), ?_,
    by decide +kernel, List.eq_nil_of_length_eq_zero (by decide +kernel)⟩
  exact ⟨0, rival.target, rfl, .tail (.single (show .named "C" ∈ _ by decide +kernel))
    (by decide +kernel)⟩

end Registry

end LayeredConfig
