import LayeredConfig.Proofs.Source.Attempts
import LayeredConfig.Transaction.View

/-!
# Operations on many sources

What an operation does to a list of sources, said once for each way in which a list is walked.
`Spread.Course` is everything that `Spread.each` can do: it goes through, or it stops at one source
and leaves those below it alone. Whatever is claimed of starting, staging and committing on all
sources is read off it by cases, and the recursion of `Spread.each` is not looked at again.

A property of each source that its operation keeps is kept by the whole list. It is stated for a
function of a source, `f`, that the operation does not change: what `f` says of the list is then
the same before and after, for every outcome.

The operation is any function of one source, and so is the selection. Which sources are asked, and
in which order, is the same for a start, a commit and a staging, so that what is said here serves
for all of them, and a change of one of these operations would leave this module as it is.
-/

set_option autoImplicit false

namespace LayeredConfig

/-- The same for every element is one way to treat the elements by their position. -/
theorem map_eq_mapIdx {α β : Type} (f : α → β) (as : List α) : as.map f = as.mapIdx fun _ => f :=
  List.ext_getElem? fun p => by rw [List.getElem?_map, List.getElem?_mapIdx]

namespace Spread

variable {σ τ : Type} [Source σ]

/-! ## Every selected source

The operation may fail on any source, and then the sources below are not asked. A source that is not
selected is passed over, whatever the operation would do to it.
-/

/-- A source after its part of an operation on all selected sources. -/
def touched (selects : σ → Bool) (op : σ → Attempt SourceError σ) (s : σ) : σ :=
  if selects s then (op s).2 else s

/-- What an operation on every selected source can do to a list: succeed on all of them, or fail on
    one, after it has succeeded on those above and before it has reached those below. -/
inductive Course (selects : σ → Bool) (op : σ → Attempt SourceError σ) :
    List σ → Attempt SourceFailure (List σ) → Prop
  | through {sources : List σ} (oks : ∀ s ∈ sources, selects s = true → (op s).1 = .ok ()) :
    Course selects op sources (.ok (), sources.map (touched selects op))
  | stopped {above : List σ} {s : σ} {below : List σ} {e : SourceError}
    (oks : ∀ u ∈ above, selects u = true → (op u).1 = .ok ()) (selected : selects s = true)
    (failed : (op s).1 = .error e) :
    Course selects op (above ++ s :: below)
      (.error ⟨Source.name s, e⟩, above.map (touched selects op) ++ (op s).2 :: below)

/-- There is no other way to go through a list. -/
theorem each_course (selects : σ → Bool) (op : σ → Attempt SourceError σ) :
    ∀ sources : List σ, Course selects op sources (each selects op sources)
  | [] => .through (by simp)
  | s :: rest => by
    have ih := each_course selects op rest
    generalize hr : each selects op rest = result at ih
    -- What is known of the rest goes on to be so with `s` in front of it.
    have prepend : ∀ s' : σ, (selects s = true → (op s).1 = .ok ()) → s' = touched selects op s →
        Course selects op (s :: rest) (result.1, s' :: result.2) := by
      rintro s' hs rfl
      cases ih with
      | through oks => exact .through (List.forall_mem_cons.mpr ⟨hs, oks⟩)
      | stopped oks selected failed =>
        exact .stopped (List.forall_mem_cons.mpr ⟨hs, oks⟩) selected failed
    rw [each]
    by_cases hsel : selects s = true
    · rw [if_pos hsel]
      cases ho : op s with
      | mk answer after =>
        cases answer with
        | ok _ =>
          simp only [hr]
          exact prepend after (fun _ => by rw [ho]) (by simp [touched, hsel, ho])
        | error e =>
          have hc : Course selects op ([] ++ s :: rest) _ :=
            .stopped (by simp) hsel (show (op s).1 = .error e by rw [ho])
          rw [ho] at hc
          exact hc
    · rw [if_neg hsel]
      simp only [hr]
      exact prepend s (fun h => absurd h hsel) (by simp [touched, hsel])

/-- If no selected source refuses, the operation goes through. -/
theorem each_of_ok {selects : σ → Bool} {op : σ → Attempt SourceError σ} {sources : List σ}
    (oks : ∀ s ∈ sources, selects s = true → (op s).1 = .ok ()) :
    each selects op sources = (.ok (), sources.map (touched selects op)) := by
  have hc := each_course selects op sources
  generalize each selects op sources = result at hc
  cases hc with
  | through _ => rfl
  | stopped _ selected failed =>
    exact absurd (oks _ (by simp) selected) (by rw [failed]; simp)

/-- If it has gone through, no selected source has refused. -/
theorem oks_of_each {selects : σ → Bool} {op : σ → Attempt SourceError σ} {sources after : List σ}
    (granted : each selects op sources = (.ok (), after)) :
    ∀ s ∈ sources, selects s = true → (op s).1 = .ok () := by
  have hc := each_course selects op sources
  rw [granted] at hc
  cases hc with
  | through oks => exact oks

/-- An operation on the selected sources is one on all of them that does nothing to the others. -/
theorem each_eq_on_all (selects : σ → Bool) (op : σ → Attempt SourceError σ) :
    ∀ sources : List σ, each selects op sources =
      each (fun _ => true) (fun s => if selects s then op s else (.ok (), s)) sources
  | [] => rfl
  | s :: rest => by
    rw [each, each, each_eq_on_all selects op rest, if_pos rfl]
    by_cases hs : selects s = true
    · rw [if_pos hs, if_pos hs]
    · rw [if_neg hs, if_neg hs]

/-- What an operation makes of a list is known if it is known of each source. -/
theorem each_eq_map {selects : σ → Bool} {op : σ → Attempt SourceError σ} {next : σ → σ}
    {sources : List σ} (ok : ∀ s ∈ sources, selects s = true → op s = (.ok (), next s))
    (skipped : ∀ s ∈ sources, selects s = false → next s = s) :
    each selects op sources = (.ok (), sources.map next) := by
  rw [each_of_ok fun s hs hsel => by rw [ok s hs hsel]]
  refine congrArg _ (List.map_congr_left ?_)
  intro s hs
  unfold touched
  cases hsel : selects s with
  | true => rw [if_pos rfl, ok s hs hsel]
  | false => rw [if_neg Bool.false_ne_true, skipped s hs hsel]

/-- What one operation keeps of a source is kept of the list, wherever the operation stops. -/
theorem each_keeps {f : σ → τ} {op : σ → Attempt SourceError σ} (h : ∀ s, f (op s).2 = f s)
    (selects : σ → Bool) (sources : List σ) :
    (each selects op sources).2.map f = sources.map f := by
  have one : ∀ s, f (touched selects op s) = f s := by
    intro s
    unfold touched
    split
    · exact h s
    · rfl
  have hc := each_course selects op sources
  generalize each selects op sources = result at hc
  cases hc with
  | through _ => simp [one]
  -- The source that has failed may have changed as well, and has kept it all the same.
  | stopped _ _ _ => simp [one, h]

/-! ## The first selected source -/

/-- The same for an operation on the first selected source. -/
theorem first_keeps {f : σ → τ} {op : σ → Attempt SourceError σ} (h : ∀ s, f (op s).2 = f s)
    (selects : σ → Bool) :
    ∀ sources : List σ, (first selects op sources).2.map f = sources.map f
  | [] => rfl
  | s :: rest => by
    have hs := h s
    rw [first]
    by_cases hsel : selects s = true
    · rw [if_pos hsel]
      split
      case h_1 s' heq =>
        rw [heq] at hs
        simp only [List.map_cons, hs]
      case h_2 e s' heq =>
        rw [heq] at hs
        simp only [List.map_cons, hs]
    · rw [if_neg hsel]
      simp only [List.map_cons, first_keeps h selects rest]

/-- The first selected source is the one at the position above which none is selected. -/
theorem first_of_ok {selects : σ → Bool} {op : σ → Attempt SourceError σ} :
    ∀ {sources : List σ}, (∀ s ∈ sources, selects s = true → (op s).1 = .ok ()) →
      first selects op sources = (.ok (), sources.mapIdx fun p s =>
        if selects s && !(sources.take p).any selects then (op s).2 else s)
  | [], _ => rfl
  | s :: rest, oks => by
    obtain ⟨hs, hrest⟩ := List.forall_mem_cons.mp oks
    rw [first]
    by_cases hsel : selects s = true
    · rw [if_pos hsel]
      have ho := hs hsel
      cases hop : op s with
      | mk answer after =>
        rw [hop] at ho
        cases ho
        -- Below the first one the position only says that it has been passed.
        have below : rest = rest.mapIdx fun _ u => u := by rw [← map_eq_mapIdx, List.map_id']
        simpa [List.mapIdx_cons, hsel, hop] using below
    · rw [if_neg hsel, first_of_ok hrest]
      simp [List.mapIdx_cons, hsel]

end Spread

/-! ## Rolling back -/

variable {σ : Type} [Source σ]

/-- Every writable source is told to roll back, whatever the others answer. -/
theorem Source.rollbackAll_sources (id : TransactionId) :
    ∀ sources : List σ, (rollbackAll id sources).1 =
      sources.map (Spread.touched isMutable (rollback id))
  | [] => rfl
  | s :: rest => by
    have ih := rollbackAll_sources id rest
    rw [rollbackAll, List.map_cons, ← ih]
    by_cases hm : isMutable s = true
    · simp only [hm, if_true, Spread.touched]
      cases rollback id s with
      | mk answer after => cases answer <;> rfl
    · simp [hm, Spread.touched]

end LayeredConfig
