import LayeredConfig.Convert.Hierarchy
import Mathlib.Data.List.Nodup
import Mathlib.Data.List.Perm.Subperm
import Mathlib.Data.Nat.Find

/-!
# Superclass chains

The chain of a type is worked out link by link, with a list of the types met and with fuel. What it
comes to has nothing to do with either: climb from the type along superclass links, and an ancestor
stands as high as the least number of links that lead to it. **`Hierarchy.mem_chain_iff` says that
the chain has an ancestor at a depth exactly if that is its height.** Declarations may run in
circles; then the same types come again and again, and the first time counts.

The fuel is the number of declarations. It is enough because up to a type that is reached for the
first time each link starts from another declared type (`Hierarchy.Above.le_declarations`). The list
of the types met is the set of all that can be climbed to so far (`Hierarchy.Met`), whatever the
path was.
-/

set_option autoImplicit false

namespace LayeredConfig

namespace Hierarchy

def superclass? (h : Hierarchy) (type : TypeKey) : Option TypeKey :=
  (h.superclassStep? type).map Step.target

/-- The type that is reached from another by so many superclass links. -/
def climb (h : Hierarchy) : Nat → TypeKey → Option TypeKey
  | 0, type => some type
  | n + 1, type => (h.climb n type).bind h.superclass?

/-- A type that is reached by that many superclass links, and not by fewer. -/
def Above (h : Hierarchy) (start type : TypeKey) (height : Nat) : Prop :=
  0 < height ∧ h.climb height start = some type ∧ ∀ n < height, h.climb n start ≠ some type

variable {h : Hierarchy} {start type other : TypeKey} {height height' : Nat}

/-! ## Declarations -/

/-- A declaration replaces an earlier one for the same type. -/
theorem find?_declare (h : Hierarchy) (d : Declaration) (type : TypeKey) :
    (h.declare d).find? type = if d.type = type then some d else h.find? type := by
  unfold declare find?
  by_cases same : d.type = type
  · rw [if_pos same, List.find?_cons_of_pos (by simpa using same)]
  · rw [if_neg same, List.find?_cons_of_neg (by simpa using same), List.find?_filter]
    refine congrArg (h.declarations.find? ·) (funext fun other => ?_)
    by_cases found : other.type = type
    · simp [found, Ne.symm same]
    · simp [found]

/-! ## Climbing -/

theorem climb_succ {n : Nat} (up : h.climb n start = some type) :
    h.climb (n + 1) start = h.superclass? type := by
  rw [climb, up, Option.bind_some]

/-- To climb some links and then some more. -/
theorem climb_add (h : Hierarchy) (m n : Nat) (start : TypeKey) :
    h.climb (m + n) start = (h.climb m start).bind (h.climb n) := by
  induction n with
  | zero => exact (Option.bind_fun_some _).symm
  | succ n ih =>
    rw [← Nat.add_assoc, climb, ih, Option.bind_assoc]
    rfl

theorem climb_of_le {m n : Nat} (le : m ≤ n) (up : h.climb n start = some type) :
    ∃ t, h.climb m start = some t := by
  obtain ⟨k, rfl⟩ := Nat.exists_eq_add_of_le le
  rw [climb_add] at up
  obtain ⟨t, here, -⟩ := Option.bind_eq_some_iff.mp up
  exact ⟨t, here⟩

theorem find?_of_superclass? (link : h.superclass? type = some other) :
    ∃ d, h.find? type = some d ∧ ∃ step, d.superclassStep? = some step ∧ step.target = other := by
  obtain ⟨step, declared, rfl⟩ := Option.map_eq_some_iff.mp link
  obtain ⟨d, found, has⟩ := Option.bind_eq_some_iff.mp declared
  exact ⟨d, found, step, has, rfl⟩

theorem mem_types_of_find? {d : Declaration} (found : h.find? type = some d) :
    type ∈ h.declarations.map Declaration.type :=
  List.mem_map.mpr ⟨d, List.mem_of_find?_eq_some found, by simpa using List.find?_some found⟩

theorem exists_above {n : Nat} (up : h.climb n start = some type) (ne : type ≠ start) :
    ∃ height, h.Above start type height := by
  classical
  have reached : ∃ n, h.climb n start = some type := ⟨n, up⟩
  -- The least number of links; it is not zero, as the type is not the start.
  refine ⟨Nat.find reached, ?_, Nat.find_spec reached, fun m hm => Nat.find_min reached hm⟩
  refine Nat.pos_of_ne_zero fun zero => ne ?_
  have start_eq : h.climb 0 start = some type := zero ▸ Nat.find_spec reached
  exact (Option.some.inj start_eq).symm

namespace Above

theorem unique (a : h.Above start type height) (b : h.Above start type height') :
    height = height' := by
  rcases Nat.lt_trichotomy height height' with lt | rfl | lt
  · exact absurd a.2.1 (b.2.2 height lt)
  · rfl
  · exact absurd b.2.1 (a.2.2 height' lt)

/-- Until a type is reached for the first time, no type is met twice: what follows the second time
    would have followed the first time. -/
theorem climb_ne (a : h.Above start type height) {i j : Nat} (ij : i < j) (le : j ≤ height) :
    h.climb i start ≠ h.climb j start := by
  intro same
  obtain ⟨k, rfl⟩ := Nat.exists_eq_add_of_le le
  refine a.2.2 (i + k) (by omega) ?_
  rw [climb_add, same, ← climb_add]
  exact a.2.1

/-- Each link on the way starts from another declared type. -/
theorem le_declarations (a : h.Above start type height) : height ≤ h.declarations.length := by
  let passed := (List.range height).map fun n => h.climb n start
  have distinct : passed.Nodup := by
    refine List.Nodup.map_on (fun i hi j hj same => ?_) List.nodup_range
    rw [List.mem_range] at hi hj
    rcases Nat.lt_trichotomy i j with lt | eq | lt
    · exact absurd same (a.climb_ne lt (Nat.le_of_lt hj))
    · exact eq
    · exact absurd same.symm (a.climb_ne lt (Nat.le_of_lt hi))
  have declared : passed ⊆ (h.declarations.map Declaration.type).map some := by
    intro passing hp
    obtain ⟨n, hn, rfl⟩ := List.mem_map.mp hp
    obtain ⟨above, next⟩ := climb_of_le (Nat.succ_le_of_lt (List.mem_range.mp hn)) a.2.1
    obtain ⟨here, reached, link⟩ := Option.bind_eq_some_iff.mp next
    obtain ⟨d, found, -⟩ := find?_of_superclass? link
    exact List.mem_map.mpr ⟨here, mem_types_of_find? found, reached.symm⟩
  have count := (distinct.subperm declared).length_le
  simpa [passed] using count

end Above

/-! ## The chain -/

theorem kind_of_mem_chainFrom {fuel depth : Nat} {seen : List TypeKey} {path : Path} {a : Ancestor}
    (mem : a ∈ h.chainFrom fuel seen type path depth) : ∃ d, a.kind = .superclass d := by
  induction fuel generalizing seen type path depth with
  | zero => exact nomatch mem
  | succ fuel ih =>
    unfold chainFrom at mem
    split at mem
    · exact nomatch mem
    · split at mem
      · exact nomatch mem
      · rcases List.mem_cons.mp mem with rfl | later
        · exact ⟨_, rfl⟩
        · exact ih later

/-- The chain has no type twice and none that has been met before. -/
theorem chainFrom_keys (fuel : Nat) (seen : List TypeKey) (type : TypeKey) (path : Path)
    (depth : Nat) :
    ((h.chainFrom fuel seen type path depth).map Ancestor.key).Nodup ∧
    ∀ a ∈ h.chainFrom fuel seen type path depth, a.key ∉ seen := by
  induction fuel generalizing seen type path depth with
  | zero => exact ⟨List.nodup_nil, fun _ mem => nomatch mem⟩
  | succ fuel ih =>
    unfold chainFrom
    split
    · exact ⟨List.nodup_nil, fun _ mem => nomatch mem⟩
    case h_2 step _ =>
      split
      · exact ⟨List.nodup_nil, fun _ mem => nomatch mem⟩
      case isFalse new =>
        obtain ⟨nodup, unseen⟩ := ih (step.target :: seen) step.target (path ++ [step]) (depth + 1)
        refine ⟨List.nodup_cons.mpr ⟨fun again => ?_, nodup⟩, List.forall_mem_cons.mpr ⟨?_, ?_⟩⟩
        · obtain ⟨a, mem, same⟩ := List.mem_map.mp again
          exact unseen a mem (same ▸ List.mem_cons_self)
        · simpa using new
        · exact fun a mem seen => unseen a mem (List.mem_cons_of_mem _ seen)

/-- The types that have been met when the chain stands at some depth. -/
def Met (h : Hierarchy) (start : TypeKey) (depth : Nat) (seen : List TypeKey) : Prop :=
  ∀ t, t ∈ seen ↔ ∃ n ≤ depth, h.climb n start = some t

theorem met_start (h : Hierarchy) (start : TypeKey) : h.Met start 0 [start] := by
  intro t
  rw [List.mem_singleton]
  constructor
  · rintro rfl
    exact ⟨0, Nat.le_refl 0, rfl⟩
  · rintro ⟨n, le, up⟩
    obtain rfl := Nat.le_zero.mp le
    exact (Option.some.inj up).symm

theorem Met.succ {depth : Nat} {seen : List TypeKey} (met : h.Met start depth seen)
    (next : h.climb (depth + 1) start = some type) : h.Met start (depth + 1) (type :: seen) := by
  intro t
  rw [List.mem_cons, met]
  constructor
  · rintro (rfl | ⟨n, le, up⟩)
    · exact ⟨depth + 1, Nat.le_refl _, next⟩
    · exact ⟨n, Nat.le_succ_of_le le, up⟩
  · rintro ⟨n, le, up⟩
    rcases Nat.le_succ_iff.mp le with le | rfl
    · exact .inr ⟨n, le, up⟩
    · exact .inl (Option.some.inj (up.symm.trans next))

/-- What has not been met before stands one link higher than all that has. -/
theorem Met.above {depth : Nat} {seen : List TypeKey} (met : h.Met start depth seen)
    (next : h.climb (depth + 1) start = some type) (new : type ∉ seen) :
    h.Above start type (depth + 1) :=
  ⟨Nat.succ_pos _, next, fun n lt up => new ((met _).mpr ⟨n, Nat.le_of_lt_succ lt, up⟩)⟩

theorem climb_step {depth : Nat} {step : Step} (here : h.climb depth start = some type)
    (declared : h.superclassStep? type = some step) :
    h.climb (depth + 1) start = some step.target := by
  rw [climb_succ here, superclass?, declared, Option.map_some]

/-- From a type on that stands at some depth the chain has what is higher, as far as the fuel
    goes. -/
theorem mem_chainFrom_iff {fuel depth : Nat} {seen : List TypeKey} {path : Path}
    (here : h.climb depth start = some type) (met : h.Met start depth seen) :
    (∃ p, ⟨other, .superclass height, p⟩ ∈ h.chainFrom fuel seen type path depth) ↔
      h.Above start other height ∧ depth < height ∧ height ≤ depth + fuel := by
  induction fuel generalizing seen type path depth with
  | zero =>
    constructor
    · rintro ⟨p, mem⟩
      exact nomatch mem
    · rintro ⟨-, lt, le⟩
      exact absurd lt (Nat.not_lt.mpr le)
  | succ fuel ih =>
    unfold chainFrom
    cases declared : h.superclassStep? type with
    | none =>
      -- Anything higher would be reached over a superclass of this type.
      constructor
      · rintro ⟨p, mem⟩
        exact nomatch mem
      · rintro ⟨above, lt, -⟩
        obtain ⟨t, next⟩ := climb_of_le (Nat.succ_le_of_lt lt) above.2.1
        rw [Nat.succ_eq_add_one, climb_succ here, superclass?, declared] at next
        exact nomatch next
    | some step =>
      have next : h.climb (depth + 1) start = some step.target := climb_step here declared
      by_cases old : step.target ∈ seen
      · -- What comes again is not on the way to anything for the first time.
        simp only [List.contains_iff_mem, old, if_true]
        constructor
        · rintro ⟨p, mem⟩
          exact nomatch mem
        · rintro ⟨above, lt, -⟩
          obtain ⟨n, le, before⟩ := (met step.target).mp old
          exact absurd (before.trans next.symm) (above.climb_ne (Nat.lt_succ_of_le le) lt)
      · simp only [List.contains_iff_mem, old, if_false]
        have higher : (∃ p, ⟨other, .superclass height, p⟩ ∈
            h.chainFrom fuel (step.target :: seen) step.target (path ++ [step]) (depth + 1)) ↔
              h.Above start other height ∧ depth + 1 < height ∧ height ≤ depth + 1 + fuel :=
          ih next (met.succ next)
        -- The next type stands one link higher, and the rest of the chain is what is higher still.
        have first : h.Above start step.target (depth + 1) := met.above next old
        constructor
        · rintro ⟨p, mem⟩
          rcases List.mem_cons.mp mem with same | later
          · obtain rfl : other = step.target := congrArg Ancestor.key same
            obtain rfl := AncestorKind.superclass.inj (congrArg Ancestor.kind same)
            exact ⟨first, by omega, by omega⟩
          · obtain ⟨above, lt, le⟩ := higher.mp ⟨p, later⟩
            exact ⟨above, by omega, by omega⟩
        · rintro ⟨above, lt, le⟩
          rcases Nat.lt_or_eq_of_le (Nat.succ_le_of_lt lt) with lt' | rfl
          · obtain ⟨p, later⟩ := higher.mpr ⟨above, lt', by omega⟩
            exact ⟨p, List.mem_cons_of_mem _ later⟩
          · obtain rfl := Option.some.inj (above.2.1.symm.trans next)
            exact ⟨_, List.mem_cons_self⟩

/-- **The chain has an ancestor at a depth exactly if that is its height.** -/
theorem mem_chain_iff :
    (∃ p, ⟨other, .superclass height, p⟩ ∈ h.chain start) ↔ h.Above start other height := by
  rw [chain, mem_chainFrom_iff (by rfl) (met_start h start), Nat.zero_add]
  exact ⟨fun reached => reached.1, fun above => ⟨above, above.1, above.le_declarations⟩⟩

/-- What is listed before the search for interfaces is what can be climbed to. -/
theorem mem_start_cons_chain_iff :
    other ∈ start :: (h.chain start).map Ancestor.key ↔ ∃ n, h.climb n start = some other := by
  rw [List.mem_cons, List.mem_map]
  constructor
  · rintro (rfl | ⟨a, mem, rfl⟩)
    · exact ⟨0, rfl⟩
    · obtain ⟨d, kind⟩ := kind_of_mem_chainFrom mem
      have above : h.Above start a.key d := mem_chain_iff.mp ⟨a.path, kind ▸ mem⟩
      exact ⟨d, above.2.1⟩
  · rintro ⟨n, up⟩
    by_cases same : other = start
    · exact .inl same
    · obtain ⟨height, above⟩ := exists_above up same
      obtain ⟨p, mem⟩ := mem_chain_iff.mpr above
      exact .inr ⟨_, mem, rfl⟩

end Hierarchy

end LayeredConfig
