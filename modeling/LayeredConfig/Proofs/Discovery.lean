import LayeredConfig.Discovery
import Mathlib.Data.List.Nodup

/-!
# Bundles that are pending

A discovery applies the bundles that are pending, and nothing is pending after it
(`Discovery.pending_of_known`): it adds the names of the bundles that it applies to those that have
been applied, and with them the name of every bundle is there. If the names are different and none
of them has been applied, all bundles are pending (`Discovery.pending_of_new`).

The list of names grows while the bundles are gone through, so that of two new bundles with one name
only the first is pending (`Discovery.find?_pending`). The inductions therefore go by the bundles,
with any names applied before.
-/

set_option autoImplicit false

namespace LayeredConfig.Discovery

variable {α : Type} {name : α → String} {as : List α} {applied : List String}

/-- The names that are added are those of the bundles that are to be applied. -/
theorem pending_snd (name : α → String) (as : List α) (applied : List String) :
    (pending name as applied).2 = applied ++ (pending name as applied).1.map name := by
  induction as generalizing applied with
  | nil => simp [pending]
  | cons a rest ih =>
    rw [pending]
    split
    · exact ih applied
    · simp only [ih (applied ++ [name a]), List.map_cons, List.append_assoc, List.singleton_append]

/-- After a discovery the name of every bundle has been applied, and those from before. -/
theorem mem_pending_snd {n : String} :
    n ∈ (pending name as applied).2 ↔ n ∈ applied ∨ n ∈ as.map name := by
  induction as generalizing applied with
  | nil => simp [pending]
  | cons a rest ih =>
    rw [pending]
    split
    next known =>
      have mem : name a ∈ applied := List.contains_iff_mem.mp known
      rw [ih, List.map_cons, List.mem_cons]
      constructor
      · rintro (old | new)
        · exact .inl old
        · exact .inr (.inr new)
      · rintro (old | rfl | new)
        · exact .inl old
        · exact .inl mem
        · exact .inr new
    next =>
      simp only [ih, List.mem_append, List.map_cons, List.mem_cons, List.not_mem_nil, or_false,
        or_assoc]

theorem nodup_pending_snd (nodup : applied.Nodup) : (pending name as applied).2.Nodup := by
  induction as generalizing applied with
  | nil => exact nodup
  | cons a rest ih =>
    rw [pending]
    split
    · exact ih nodup
    next unknown =>
      have new : name a ∉ applied := fun mem => unknown (List.contains_iff_mem.mpr mem)
      exact ih (List.concat_eq_append ▸ nodup.concat new)

/-- Nothing is pending where every name is known. -/
theorem pending_of_known (known : ∀ a ∈ as, name a ∈ applied) :
    pending name as applied = ([], applied) := by
  induction as with
  | nil => rfl
  | cons a rest ih =>
    rw [pending, if_pos (List.contains_iff_mem.mpr (known a List.mem_cons_self))]
    exact ih fun b mem => known b (List.mem_cons_of_mem a mem)

theorem pending_of_new (different : (as.map name).Nodup) (new : ∀ a ∈ as, name a ∉ applied) :
    (pending name as applied).1 = as := by
  induction as generalizing applied with
  | nil => rfl
  | cons a rest ih =>
    obtain ⟨single, others⟩ := List.nodup_cons.mp different
    have unknown : ¬applied.contains (name a) = true := fun known =>
      new a List.mem_cons_self (List.contains_iff_mem.mp known)
    rw [pending, if_neg unknown]
    refine congrArg (a :: ·) (ih others fun b mem known => ?_)
    rcases List.mem_append.mp known with old | same
    · exact new b (List.mem_cons_of_mem a mem) old
    · exact single (List.mem_singleton.mp same ▸ List.mem_map_of_mem mem)

/-- Of the bundles with one name the first is pending, if the name has not been applied. -/
theorem find?_pending {n : String} (new : n ∉ applied) :
    (pending name as applied).1.find? (fun a => name a == n) = as.find? fun a => name a == n := by
  induction as generalizing applied with
  | nil => rfl
  | cons a rest ih =>
    rw [pending]
    split
    next known =>
      have other : name a ≠ n := fun same => new (same ▸ List.contains_iff_mem.mp known)
      rw [List.find?_cons_of_neg (by simpa using other), ih new]
    next =>
      by_cases same : name a = n
      · rw [List.find?_cons_of_pos (by simpa using same), List.find?_cons_of_pos (by simpa using same)]
      · have later : n ∉ applied ++ [name a] := by simp [new, Ne.symm same]
        rw [List.find?_cons_of_neg (by simpa using same), List.find?_cons_of_neg (by simpa using same),
          ih later]

end LayeredConfig.Discovery
