import LayeredConfig.Lookup.Bulk
import LayeredConfig.Lookup.Typed
import LayeredConfig.Proofs.Ranking
import LayeredConfig.Source.Table

/-!
# Contexts built in several rounds

A context can be taken apart into a builder, changed and built again, and that any number of times.
Every build ranks the sources, so what the next round leaves out or adds is left out of a ranked
list and added at the end of one. **`ContextBuilder.rebuilt_eq_once` says that the rounds are not
seen**: the same context is built at once from the sources as they were first added, with the same
changes made to them.

The rounds are compared with the single build step by step. What is kept is
`ContextBuilder.Matches`: the builders have the same sources of each ordinal in the same order.
Leaving out by name and adding at the end keep that, and so does a ranking, because it is stable.
-/

set_option autoImplicit false

namespace LayeredConfig

variable {σ : Type}

/-- A change to a builder between two builds. -/
inductive Edit (σ : Type)
  | add (sources : List σ)
  | leaveOut (name : String)
  | filter (filters : List Filter)

variable [Source σ]

namespace ContextBuilder

def edit (b : ContextBuilder σ) : Edit σ → ContextBuilder σ
  | .add sources => b.withSources sources
  | .leaveOut name => b.withoutSource name
  | .filter filters => b.withFilters filters

def edited (b : ContextBuilder σ) (edits : List (Edit σ)) : ContextBuilder σ := edits.foldl edit b

end ContextBuilder

/-- The context after several rounds, each of which takes it apart, makes changes and builds it
    again. -/
def Context.rebuilt (c : Context σ) (rounds : List (List (Edit σ))) : Context σ :=
  rounds.foldl (fun c edits => (c.toBuilder.edited edits).build) c

namespace ContextBuilder

/-- Builders that build the same but for the converters. -/
structure Matches (b b' : ContextBuilder σ) : Prop where
  sources : Ranking.SameWithin Source.ordinal b.sources b'.sources
  filters : b.filters = b'.filters
  policy : b.policy = b'.policy

/-! ## One step -/

namespace Matches

variable {b b' : ContextBuilder σ}

theorem refl (b : ContextBuilder σ) : Matches b b := ⟨fun _ => rfl, rfl, rfl⟩

/-- A context that has been built and is taken apart again. -/
theorem toBuilder (b : ContextBuilder σ) (converters : Registry) :
    Matches ({ b.build with converters := converters } : Context σ).toBuilder b :=
  ⟨Ranking.descending_sameWithin b.sources, rfl, rfl⟩

theorem edit (h : Matches b b') (e : Edit σ) : Matches (b.edit e) (b'.edit e) := by
  cases e with
  | add sources => exact ⟨h.sources.append fun _ => rfl, h.filters, h.policy⟩
  | leaveOut name => exact ⟨h.sources.filter _, h.filters, h.policy⟩
  | filter filters => exact ⟨h.sources, congrArg (· ++ filters) h.filters, h.policy⟩

theorem edited (h : Matches b b') (edits : List (Edit σ)) :
    Matches (b.edited edits) (b'.edited edits) := by
  induction edits generalizing b b' with
  | nil => exact h
  | cons e edits ih => exact ih (h.edit e)

theorem build_eq (h : Matches b b') :
    b.build = { b'.build with converters := b.build.converters } := by
  -- Sources that are the same for each ordinal are ranked the same.
  have sources : b.build.sources = b'.build.sources := Ranking.descending_eq_iff.mpr h.sources
  show Context.mk b.build.sources b.filters b.policy b.build.converters = _
  rw [sources, h.filters, h.policy]
  rfl

end Matches

/-! ## Any number of rounds -/

theorem edited_frame (b : ContextBuilder σ) (edits : List (Edit σ)) :
    (b.edited edits).discovers = b.discovers ∧ (b.edited edits).converters = b.converters := by
  induction edits generalizing b with
  | nil => exact ⟨rfl, rfl⟩
  | cons e edits ih =>
    obtain ⟨discovers, converters⟩ := ih (b.edit e)
    cases e <;> exact ⟨discovers, converters⟩

/-- A context's own builder does not discover, so a round leaves the registry as it is. -/
theorem round_converters (c : Context σ) (edits : List (Edit σ)) :
    (c.toBuilder.edited edits).build.converters = c.converters := by
  obtain ⟨discovers, converters⟩ := edited_frame c.toBuilder edits
  simp only [build, discovers, converters]
  rfl

/-- One round after a build is seen no more than the changes it makes. -/
theorem round_eq (b : ContextBuilder σ) (converters : Registry) (edits : List (Edit σ)) :
    (({ b.build with converters := converters } : Context σ).toBuilder.edited edits).build =
      { (b.edited edits).build with converters := converters } := by
  have built := ((Matches.toBuilder b converters).edited edits).build_eq
  rw [round_converters] at built
  exact built

theorem rounds_eq (b : ContextBuilder σ) (converters : Registry) (rounds : List (List (Edit σ))) :
    ({ b.build with converters := converters } : Context σ).rebuilt rounds =
      { (b.edited rounds.flatten).build with converters := converters } := by
  induction rounds generalizing b with
  | nil => rfl
  | cons edits rounds ih =>
    -- All rounds are one list of changes; the first round is taken from its head.
    have changes : b.edited (edits :: rounds).flatten = (b.edited edits).edited rounds.flatten :=
      List.foldl_append
    rw [changes, ← ih (b.edited edits), ← round_eq]
    rfl

/-- A context that is built from any sources, and then changed and built again in any number of
    rounds, is the one that a single build makes of the sources as they were added at first, with
    the same changes made to them: the sources and the filters stand in the same order. The registry
    is handed on as it is found, `converters`, whatever it has taken over since the first build, and
    nothing is discovered again. A round without changes gives the very same context, so that
    nothing can be looked up differently. -/
theorem rebuilt_eq_once (b : ContextBuilder σ) (converters : Registry)
    (rounds : List (List (Edit σ))) :
    let c : Context σ := { b.build with converters := converters }
    let once := (b.edited rounds.flatten).build
    let again := c.toBuilder.build
    ((c.rebuilt rounds).sources = once.sources ∧
      (c.rebuilt rounds).filters = once.filters ∧
      (c.rebuilt rounds).policy = once.policy ∧
      (c.rebuilt rounds).converters = converters) ∧
    again = c ∧
    (∀ key, again.get key = c.get key ∧ again.getValue key = c.getValue key) ∧
    (∀ key target, again.getAs key target = c.getAs key target) ∧
    again.properties = c.properties := by
  intro c once again
  have rebuilt : c.rebuilt rounds = { once with converters := converters } :=
    rounds_eq b converters rounds
  have same : again = c := round_eq b converters []
  refine ⟨?_, same, ?_, ?_, ?_⟩
  · rw [rebuilt]
    exact ⟨rfl, rfl, rfl, rfl⟩
  · intro key
    rw [same]
    exact ⟨rfl, rfl⟩
  · intro key target
    rw [same]
  · rw [same]

example :
    let table (name : String) (ordinal : Int) : Table := ⟨name, ordinal, ∅⟩
    let first := (start ⟨[], []⟩).withSources [table "low" 1, table "a" 5, table "high" 9, table "b" 5]
    (first.build.rebuilt [[.leaveOut "a"], [.add [table "a" 5, table "top" 12]]]).sourceNames =
      ["top", "high", "b", "a", "low"] := by decide +kernel

end ContextBuilder

end LayeredConfig
