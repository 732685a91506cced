import LayeredConfig.Source.Basic

/-!
# One operation after another

Several writes to one source, and several writes that a policy routes one by one, are a chain of
operations that ends at the first failure. Three things are asked of such a chain: what all its
operations keep is kept by the chain, failure or not; operations that cannot fail make a chain that
does not fail either, and is then a fold; and a chain that fails has gone through up to the first
operation that does (`Attempt.each_failed`).
-/

set_option autoImplicit false

namespace LayeredConfig

namespace Attempt

variable {ε σ α τ : Type}

/-- What each operation keeps, failed or not, the chain keeps as well. -/
theorem each_keeps {f : σ → τ} {step : α → σ → Attempt ε σ} (h : ∀ a s, f (step a s).2 = f s) :
    ∀ (as : List α) (s : σ), f (each step as s).2 = f s
  | [], _ => rfl
  | a :: rest, s => by
    rw [each]
    have ha := h a s
    split
    case h_1 s' heq =>
      rw [heq] at ha
      exact (each_keeps h rest s').trans ha
    case h_2 e s' heq =>
      rw [heq] at ha
      exact ha

theorem each_singleton (step : α → σ → Attempt ε σ) (a : α) (s : σ) :
    each step [a] s = step a s := by
  rw [each]
  split
  case h_1 heq => exact heq.symm
  case h_2 heq => exact heq.symm

theorem each_map {β : Type} (step : β → σ → Attempt ε σ) (f : α → β) :
    ∀ (as : List α) (s : σ), each step (as.map f) s = each (fun a => step (f a)) as s
  | [], _ => rfl
  | a :: rest, s => by
    rw [List.map_cons, each, each]
    split
    · exact each_map step f rest _
    · rfl

/-- Operations that succeed wherever an invariant holds, and keep it, all succeed. -/
theorem each_of_ok {Inv : σ → Prop} {step : α → σ → Attempt ε σ} {next : α → σ → σ} :
    ∀ {as : List α}, (∀ a ∈ as, ∀ s, Inv s → step a s = (.ok (), next a s) ∧ Inv (next a s)) →
      ∀ {s : σ}, Inv s → each step as s = (.ok (), as.foldl (fun s a => next a s) s)
  | [], _, _, _ => rfl
  | a :: rest, h, s, hs => by
    obtain ⟨ha, hn⟩ := h a List.mem_cons_self s hs
    rw [each, ha, List.foldl_cons]
    exact each_of_ok (fun b hb => h b (List.mem_cons_of_mem a hb)) hn

/-- Operations that are skipped where they do not apply are those that apply, if no operation
    changes which these are. -/
theorem each_filter {step : α → σ → Attempt ε σ} {applies : σ → α → Bool}
    (same : ∀ a s, applies (step a s).2 = applies s) :
    ∀ (as : List α) (s : σ),
      each (fun a s => if applies s a then step a s else (.ok (), s)) as s =
        each step (as.filter (applies s)) s
  | [], _ => rfl
  | a :: rest, s => by
    rw [each, List.filter_cons]
    by_cases ha : applies s a = true
    -- The operation may change the thing, but not what applies to it.
    · have kept := same a s
      rw [if_pos ha, if_pos ha, each]
      split
      case h_1 s' heq =>
        rw [heq] at kept
        rw [each_filter same rest s', kept]
      case h_2 => rfl
    · rw [if_neg ha, if_neg ha]
      exact each_filter same rest s

/-- The same chain on a thing and on what is inside of it. -/
theorem each_through {wrap : τ → σ} {step : α → σ → Attempt ε σ} {inner : α → τ → Attempt ε τ}
    (through : ∀ a t, step a (wrap t) = ((inner a t).1, wrap (inner a t).2)) :
    ∀ (as : List α) (t : τ), each step as (wrap t) = ((each inner as t).1, wrap (each inner as t).2)
  | [], _ => rfl
  | a :: rest, t => by
    rw [each, each, through]
    cases inner a t with
    | mk answer t' =>
      cases answer with
      | ok _ => exact each_through through rest t'
      | error e => rfl

/-- A chain that fails has gone through up to the operation that has failed. -/
theorem each_failed {step : α → σ → Attempt ε σ} {e : ε} {s' : σ} :
    ∀ {as : List α} {s : σ}, each step as s = (.error e, s') →
      ∃ done a rest between, as = done ++ a :: rest ∧ each step done s = (.ok (), between) ∧
        step a between = (.error e, s')
  | [], _, h => nomatch h
  | a :: rest, s, h => by
    rw [each] at h
    cases ha : step a s with
    | mk answer next =>
      rw [ha] at h
      cases answer with
      -- The first operation fails, so nothing has been done before it.
      | error e' =>
        obtain ⟨rfl, rfl⟩ : e' = e ∧ next = s' := by simpa using h
        exact ⟨[], a, rest, s, rfl, rfl, ha⟩
      | ok _ =>
        obtain ⟨done, b, rest', between, rfl, through, failed⟩ := each_failed h
        refine ⟨a :: done, b, rest', between, rfl, ?_, failed⟩
        rw [each, ha]
        exact through

end Attempt

end LayeredConfig
