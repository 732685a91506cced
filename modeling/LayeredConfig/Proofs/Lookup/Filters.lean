import LayeredConfig.Lookup.Masking
import LayeredConfig.Sample.Rules

/-!
# Chains of filters

A chain leaves of a value what its filters leave of it one after the other, and a filter that fails
leaves a value as it is (`Filter.pass`). So a failure is the same as an identity, wherever it stands
in a chain, and a filter that always fails can be left out.

A filter may look at all of a value and at the kind of look-up it runs in. `Filter.TextOnly` says of
one that it does not: what it decides and what text it leaves depend on the key and on the text
alone. Masks are of this kind, and so are all rules that apply to both kinds of look-ups.
-/

set_option autoImplicit false

namespace LayeredConfig

namespace Filter

variable {ctx ctx' : FilterContext} {f : Filter} {fs : List Filter} {v w : PropertyValue}
  {e : ConfigError}

/-- What a filter leaves of a value. -/
def pass (f : Filter) (ctx : FilterContext) (v : PropertyValue) : Option PropertyValue :=
  match f.apply v ctx with
  | .ok next => next
  | .error _ => some v

theorem pass_of_error (failed : f.apply v ctx = .error e) : f.pass ctx v = some v := by
  rw [pass, failed]

theorem chain_cons_value (ctx : FilterContext) (f : Filter) (fs : List Filter) (v : PropertyValue) :
    (chain ctx (f :: fs) v).value = (f.pass ctx v).bind fun w => (chain ctx fs w).value := by
  rw [chain, pass]
  cases f.apply v ctx with
  | ok next =>
    cases next with
    | none => rfl
    | some w => rfl
  | error e => rfl

theorem chain_append_value (ctx : FilterContext) (fs gs : List Filter) (v : PropertyValue) :
    (chain ctx (fs ++ gs) v).value = (chain ctx fs v).value.bind fun w => (chain ctx gs w).value := by
  induction fs generalizing v with
  | nil => rfl
  | cons f fs ih =>
    rw [List.cons_append, chain_cons_value, chain_cons_value, Option.bind_assoc]
    simp only [ih]

/-! ## Failures -/

/-- A filter that fails on the value that comes to it makes no difference to the chain. -/
theorem chain_without_failed {before after : List Filter}
    (comes : (chain ctx before v).value = some w) (failed : f.apply w ctx = .error e) :
    (chain ctx (before ++ f :: after) v).value = (chain ctx (before ++ after) v).value := by
  rw [chain_append_value, chain_append_value, comes, Option.bind_some, Option.bind_some,
    chain_cons_value, pass_of_error failed, Option.bind_some]

/-- A filter that fails on every value in every look-up. -/
def AlwaysFails (f : Filter) : Prop := ∀ v ctx, ∃ e, f.apply v ctx = .error e

theorem chain_filter_value {keeps : Filter → Bool}
    (left : ∀ f ∈ fs, keeps f = false → f.AlwaysFails) (ctx : FilterContext) (v : PropertyValue) :
    (chain ctx (fs.filter keeps) v).value = (chain ctx fs v).value := by
  induction fs generalizing v with
  | nil => rfl
  | cons f fs ih =>
    have rest := ih fun g mem => left g (List.mem_cons_of_mem f mem)
    cases kept : keeps f with
    | true =>
      rw [List.filter_cons_of_pos kept, chain_cons_value, chain_cons_value]
      simp only [rest]
    | false =>
      obtain ⟨e, failed⟩ := left f List.mem_cons_self kept v ctx
      rw [List.filter_cons_of_neg (by simp [kept]), rest, chain_cons_value, pass_of_error failed,
        Option.bind_some]

/-! ## Text for text -/

/-- A filter that leaves the same text of two values with the same text, when it is asked for the
    same key. -/
def TextOnly (f : Filter) : Prop :=
  ∀ ⦃v w : PropertyValue⦄ ⦃ctx ctx' : FilterContext⦄, v.value = w.value → ctx.key = ctx'.key →
    (f.pass ctx v).map PropertyValue.value = (f.pass ctx' w).map PropertyValue.value

theorem chain_text (textOnly : ∀ f ∈ fs, f.TextOnly) (text : v.value = w.value)
    (key : ctx.key = ctx'.key) :
    (chain ctx fs v).value.map PropertyValue.value =
      (chain ctx' fs w).value.map PropertyValue.value := by
  induction fs generalizing v w with
  | nil => exact congrArg some text
  | cons f fs ih =>
    have step := textOnly f List.mem_cons_self text key
    have rest {v w : PropertyValue} := @ih v w fun g mem => textOnly g (List.mem_cons_of_mem f mem)
    rw [chain_cons_value, chain_cons_value]
    -- A veto of one value is a veto of the other, and else the texts are still the same.
    cases left : f.pass ctx v with
    | none =>
      rw [left, Option.map_none, eq_comm, Option.map_eq_none_iff] at step
      rw [step]
      rfl
    | some v' =>
      rw [left, Option.map_some, eq_comm, Option.map_eq_some_iff] at step
      obtain ⟨w', left', text'⟩ := step
      rw [left']
      exact rest text'.symm

end Filter

theorem Masking.filter_textOnly (m : Masking) : m.filter.TextOnly := by
  intro v w ctx ctx' text key
  show some (m.cover v ctx).value = some (m.cover w ctx').value
  rw [cover, cover, ← key]
  cases m.isSensitive ctx.key with
  | true => rfl
  | false => exact congrArg some text

namespace FilterRule

variable {r : FilterRule}

theorem pass_of_applies {ctx : FilterContext} (applies : r.applies ctx = true) (v : PropertyValue) :
    r.filter.pass ctx v = match r.act v ctx with
      | .ok next => next
      | .error _ => some v := by
  rw [Filter.pass, filter]
  simp only [applies, if_true]

theorem pass_of_passes {ctx : FilterContext} (passes : r.applies ctx = false) (v : PropertyValue) :
    r.filter.pass ctx v = some v := by
  rw [Filter.pass, filter]
  simp [passes]

/-- No action of a rule looks at more than the text; a rule itself may look at the kind of
    look-up. -/
theorem filter_textOnly (both : r.single = none) : r.filter.TextOnly := by
  intro v w ctx ctx' text key
  have same : r.applies ctx = r.applies ctx' := by
    rw [applies, applies, key, both]
    rfl
  -- A rule applies to both values or to neither.
  cases applies : r.applies ctx' with
  | false =>
    rw [pass_of_passes (same.trans applies), pass_of_passes applies]
    exact congrArg some text
  | true =>
    rw [pass_of_applies (same.trans applies), pass_of_applies applies, act, act]
    cases r.action with
    | veto => rfl
    | vetoText t =>
      rw [text]
      by_cases vetoed : w.value = t
      · simp [vetoed]
      · simp [vetoed, text]
    | fail _ | reject _ => exact congrArg some text
    | note _ => exact congrArg some text
    | rename _ => exact congrArg some text
    | append t => exact congrArg (fun s => some (s ++ t)) text

end FilterRule

end LayeredConfig
