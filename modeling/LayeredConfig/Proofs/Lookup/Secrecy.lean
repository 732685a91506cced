import LayeredConfig.Lookup.Masking
import LayeredConfig.Proofs.Entries
import LayeredConfig.Proofs.Lookup.Readers
import LayeredConfig.Sample.Rules
import LayeredConfig.Source.Any

/-!
# Masked values do not leak

A mask at the head of the filters covers the text of a sensitive key before any other filter sees
it. There are other ways out for a text: values are joined with each other before they are filtered,
the notes on a value answer meta keys, and a text that cannot be converted is repeated in an error.
What can get out at all is told by drawing a veil over the texts of the sensitive keys in every
source (`Reader.veiled`): the veiled sources answer every look-up as the sources themselves do
(`Context.alike_veiled`). Hence **`Context.masked_alike`: contexts that differ in nothing but such
texts cannot be told apart.**

Only texts are covered. The source of a sensitive value and the notes on it are shown, and so is
whether there is a value.

The veil is drawn over sources and not over answers, so that it comes before everything that a
look-up does. What the policy collects from veiled sources looks like what it collects from the
sources themselves (`CombinationPolicy.Blind`), though it need not be the same: a join of empty
texts is not empty. The mask at the head covers what the veil hides, and what comes out of it is the
same.
-/

set_option autoImplicit false

namespace LayeredConfig

namespace PropertyValue

/-- The value, without its text if that is hidden. -/
def veiled (hides : Bool) (v : PropertyValue) : PropertyValue :=
  if hides then v.withText "" else v

/-- The same of a value that need not be there. -/
def veil (hides : Bool) : Option PropertyValue → Option PropertyValue := Option.map (veiled hides)

theorem veiled_veiled (hides : Bool) (v : PropertyValue) :
    (v.veiled hides).veiled hides = v.veiled hides := by
  cases hides with
  | true => rfl
  | false => rfl

theorem plain_veiled (hides : Bool) (key text source : String) :
    plain key (if hides then "" else text) source = (plain key text source).veiled hides := by
  cases hides with
  | true => rfl
  | false => rfl

theorem veil_veil (hides : Bool) (found : Option PropertyValue) :
    veil hides (veil hides found) = veil hides found := by
  cases found with
  | none => rfl
  | some v => exact congrArg some (v.veiled_veiled hides)

end PropertyValue

open PropertyValue (veil)

/-- The table, without the texts of hidden keys. -/
def Entries.veiled (hidden : String → Bool) (entries : Entries) : Entries :=
  entries.map fun key text => if hidden key then "" else text

theorem Entries.veiled_veiled (hidden : String → Bool) (entries : Entries) :
    (entries.veiled hidden).veiled hidden = entries.veiled hidden := by
  refine Std.ExtTreeMap.ext_getElem? fun key => ?_
  cases h : hidden key <;> simp [veiled, h]

namespace Reader

/-- The source as it looks where the texts of hidden keys cannot be seen, but which keys it has, and
    in which look-ups it fails. -/
def veiled (hidden : String → Bool) (r : Reader) : Reader where
  name := r.name
  ordinal := r.ordinal
  scannable := r.scannable
  get key := (r.get key).map (veil (hidden key))
  properties := r.properties.map (Entries.veiled hidden)

theorem veiled_veiled (hidden : String → Bool) (r : Reader) :
    (r.veiled hidden).veiled hidden = r.veiled hidden := by
  unfold veiled
  congr 1
  · funext key
    show ((r.get key).map _).map _ = (r.get key).map _
    cases r.get key with
    | error e => rfl
    | ok found => exact congrArg Except.ok (PropertyValue.veil_veil (hidden key) found)
  · cases r.properties with
    | error e => rfl
    | ok entries => exact congrArg Except.ok (entries.veiled_veiled hidden)

end Reader

namespace Table

def veiled (hidden : String → Bool) (t : Table) : Table :=
  { t with entries := t.entries.veiled hidden }

/-- A table under the veil answers look-ups as a veiled source does. -/
theorem reader_veiled (hidden : String → Bool) (t : Table) :
    t.reader.veiled hidden = (t.veiled hidden).reader := by
  have found (key : String) : veil (hidden key) (t.value? key) = (t.veiled hidden).value? key := by
    rw [value?, value?, veiled, Entries.veiled, Std.ExtTreeMap.getElem?_map]
    cases t.entries[key]? with
    | none => rfl
    | some text =>
      exact congrArg some (PropertyValue.plain_veiled (hidden key) key text t.name).symm
  rw [reader, reader, Reader.veiled]
  congr 1
  exact funext fun key => congrArg Except.ok (found key)

end Table

/-- A mask at the head of a chain hides what the veil hides. -/
theorem Filter.chain_veiled (m : Masking) (rest : List Filter) (ctx : FilterContext)
    (v : PropertyValue) :
    chain ctx (m.filter :: rest) (v.veiled (m.isSensitive ctx.key)) =
      chain ctx (m.filter :: rest) v := by
  have covered : m.cover (v.veiled (m.isSensitive ctx.key)) ctx = m.cover v ctx := by
    rw [Masking.cover, Masking.cover, PropertyValue.veiled]
    cases m.isSensitive ctx.key with
    | true => rfl
    | false => rfl
  exact congrArg (chain ctx rest) covered

/-! ## Policies -/

namespace CombinationPolicy

/-- A policy that makes nothing of a hidden text but a hidden text. -/
def Blind (policy : CombinationPolicy) : Prop :=
  ∀ (hidden : String → Bool) (previous : Option PropertyValue) (key : String) (r : Reader),
    (policy (veil (hidden key) previous) key (r.veiled hidden)).map (veil (hidden key)) =
      (policy previous key r).map (veil (hidden key))

theorem overriding_blind : overriding.Blind := by
  intro hidden previous key r
  cases previous with
  | none => exact congrArg (fun r : Reader => r.get key) (r.veiled_veiled hidden)
  | some v => exact congrArg (fun v => Except.ok (some v)) (v.veiled_veiled (hidden key))

/-- What the first source is noted with does not come from the text. -/
theorem withNote_veiled (hides : Bool) (found : PropertyValue) :
    ((found.veiled hides).withNote sourcesNote (found.veiled hides).source).veiled hides =
      (found.withNote sourcesNote found.source).veiled hides := by
  cases hides with
  | true => rfl
  | false => rfl

theorem join_veiled (separator : String) (hides : Bool) (v found : PropertyValue) :
    (join separator (v.veiled hides) (found.veiled hides)).veiled hides =
      (join separator v found).veiled hides := by
  cases hides with
  | true => rfl
  | false => rfl

theorem appending_blind (separator : String) : (appending separator).Blind := by
  intro hidden previous key r
  have asked : (r.veiled hidden).get key = (r.get key).map (veil (hidden key)) := rfl
  rw [appending, appending, asked]
  cases r.get key with
  | error e => rfl
  | ok found =>
    cases found with
    | none => exact congrArg Except.ok (PropertyValue.veil_veil (hidden key) previous)
    | some found =>
      cases previous with
      | none => exact congrArg (fun v => Except.ok (some v)) (withNote_veiled (hidden key) found)
      | some v =>
        exact congrArg (fun v => Except.ok (some v)) (join_veiled separator (hidden key) v found)

variable {policy : CombinationPolicy} {hidden : String → Bool} {key : String}

/-- What is collected from veiled sources looks as what is collected from the sources themselves, if
    what has been collected before does. -/
theorem Blind.collect_veiled (blind : policy.Blind) (readers : List Reader)
    {current current' : Option PropertyValue}
    (same : veil (hidden key) current = veil (hidden key) current') :
    (policy.collect key (readers.map (Reader.veiled hidden)) current).map (veil (hidden key)) =
      (policy.collect key readers current').map (veil (hidden key)) := by
  induction readers generalizing current current' with
  | nil => exact congrArg Logged.quiet same
  | cons r readers ih =>
    have step : (policy current key (r.veiled hidden)).map (veil (hidden key)) =
        (policy current' key r).map (veil (hidden key)) := by
      -- A veiled source looks the same when it is veiled once more.
      rw [← blind hidden current key (r.veiled hidden), r.veiled_veiled, same, blind]
    rw [List.map_cons, collect, collect]
    cases here : policy current key (r.veiled hidden) with
    | error e =>
      cases there : policy current' key r with
      | error e' =>
        rw [here, there] at step
        obtain rfl : e = e' := Except.error.inj step
        exact congrArg (Logged.after [.lookupFailed key r.name e]) (ih same)
      | ok next' => rw [here, there] at step; exact nomatch step
    | ok next =>
      cases there : policy current' key r with
      | error e' => rw [here, there] at step; exact nomatch step
      | ok next' =>
        rw [here, there] at step
        exact ih (Except.ok.inj step)

end CombinationPolicy

/-! ## Contexts -/

namespace Context

theorem overlay_veiled (hidden : String → Bool) (readers : List Reader) :
    overlay (readers.map (Reader.veiled hidden)) =
      (overlay readers).map fun table => table.map fun key v => v.veiled (hidden key) := by
  induction readers with
  | nil =>
    refine congrArg Logged.quiet (Std.ExtTreeMap.ext_getElem? fun key => ?_)
    simp [overlay, Logged.quiet]
  | cons r readers ih =>
    rw [List.map_cons, overlay, overlay, ih]
    have listed : (r.veiled hidden).properties = r.properties.map (Entries.veiled hidden) := rfl
    rw [listed]
    cases r.properties with
    | error e => rfl
    | ok entries =>
      simp only [Except.map, Entries.veiled, Logged.map, Logged.mk.injEq, and_true]
      refine Std.ExtTreeMap.ext_getElem? fun key => ?_
      rw [Std.ExtTreeMap.getElem?_map, Entries.getElem?_foldl_insert, Entries.getElem?_foldl_insert,
        Std.ExtTreeMap.getElem?_map, Std.ExtTreeMap.getElem?_map]
      cases entries[key]? with
      | none => rfl
      | some text => exact congrArg some (PropertyValue.plain_veiled (hidden key) key text r.name)

variable {σ τ : Type} {c : Context σ} {c' : Context τ} {m : Masking} {rest : List Filter}

theorem filterSingle_veiled (masked : c.filters = m.filter :: rest) (key : String)
    (v : PropertyValue) :
    c.filterSingle key (v.veiled (m.isSensitive key)) = c.filterSingle key v := by
  rw [filterSingle, filterSingle, masked]
  exact Filter.chain_veiled m rest ⟨key, true⟩ v

theorem filterListed_veiled (masked : c.filters = m.filter :: rest) (key : String)
    (v : PropertyValue) :
    c.filterListed key (v.veiled (m.isSensitive key)) = c.filterListed key v := by
  rw [filterListed, filterListed, masked]
  exact Filter.chain_veiled m rest ⟨key, false⟩ v

variable [Source σ] [Source τ]

/-- The context over its sources as they look where hidden texts cannot be seen. -/
def veiled (c : Context σ) (hidden : String → Bool) : Context Reader :=
  ⟨c.readers.map (Reader.veiled hidden), c.filters, c.policy, c.converters⟩

theorem readers_veiled (c : Context σ) (hidden : String → Bool) :
    (c.veiled hidden).readers = c.readers.map (Reader.veiled hidden) :=
  List.map_id _

/-- What the sources have for a key comes out of the filters as if it had been veiled. -/
theorem direct_veiled (blind : c.policy.Blind) (masked : c.filters = m.filter :: rest)
    (key : String) : (c.veiled m.isSensitive).direct key = c.direct key := by
  have collected : ((c.veiled m.isSensitive).collect key).map (veil (m.isSensitive key)) =
      (c.collect key).map (veil (m.isSensitive key)) := by
    rw [collect, collect, readers_veiled]
    exact blind.collect_veiled c.readers rfl
  -- Under the veil the same is collected, and the same is logged; the mask does the rest.
  obtain ⟨same, warnings⟩ := Logged.mk.inj collected
  rw [direct, direct, warnings]
  cases found : (c.collect key).value with
  | none =>
    rw [found] at same
    rw [Option.map_eq_none_iff.mp same]
  | some v =>
    rw [found] at same
    obtain ⟨w, there, looks⟩ := Option.map_eq_some_iff.mp same
    rw [there]
    have filtered : (c.veiled m.isSensitive).filterSingle key w = c.filterSingle key v := by
      show c.filterSingle key w = c.filterSingle key v
      -- Both values look the same under the veil, and the filters see no more than that.
      rw [← filterSingle_veiled masked key w, looks, filterSingle_veiled masked]
    simp only [filtered]

theorem properties_veiled (masked : c.filters = m.filter :: rest) :
    (c.veiled m.isSensitive).properties = c.properties := by
  have filtered (key : String) (v : PropertyValue) :
      (c.veiled m.isSensitive).filterListed key (v.veiled (m.isSensitive key)) =
        c.filterListed key v := filterListed_veiled masked key v
  rw [properties, properties, readers_veiled, overlay_veiled]
  congr 1
  -- The listing itself, and then what is logged while it is filtered.
  · refine Std.ExtTreeMap.ext_getElem? fun key => ?_
    simp only [Logged.map, Std.ExtTreeMap.getElem?_filterMap', Std.ExtTreeMap.getElem?_map,
      Option.bind_map, Function.comp_def, filtered]
  · simp only [Logged.map, Std.ExtTreeMap.toList_map, List.flatMap_map, filtered]

/-- A context with a mask at the head of its filters needs nothing that the mask hides. -/
theorem alike_veiled (blind : c.policy.Blind) (masked : c.filters = m.filter :: rest) :
    Alike (c.veiled m.isSensitive) c := by
  have value : ∀ key, (c.veiled m.isSensitive).getValue key = c.getValue key :=
    getValue_congr_of_direct (direct_veiled blind masked) (filterSingle_congr rfl)
  have names : (c.veiled m.isSensitive).sourceNames = c.sourceNames := by
    rw [sourceNames, veiled, readers, List.map_map, List.map_map]
    rfl
  refine ⟨value, ?_, properties_veiled masked⟩
  intro key target
  have found : (c.veiled m.isSensitive).get key = c.get key := congrArg (Logged.map _) (value key)
  exact getAs_congr_of_get found (Eq.refl c.converters) names target

/-- **Masked values do not leak.** Take two contexts with the same filters, a mask at their head,
    the same converters, and the same policy, be it the overriding or an appending one. Let their
    sources differ in nothing but the texts of keys that are sensitive to the mask. Then every
    look-up, typed or not and for whatever key, answers the same and logs the same, and so does the
    listing. -/
theorem masked_alike (filters : c.filters = m.filter :: rest)
    (policy : c.policy = .overriding ∨ ∃ separator, c.policy = .appending separator)
    (sameFilters : c'.filters = c.filters) (samePolicy : c'.policy = c.policy)
    (sameConverters : c'.converters = c.converters)
    (sameSources : c'.readers.map (Reader.veiled m.isSensitive) =
      c.readers.map (Reader.veiled m.isSensitive)) :
    (∀ key, c'.get key = c.get key) ∧ Alike c' c := by
  have blind : c.policy.Blind := by
    rcases policy with overriding | ⟨separator, appending⟩
    · exact overriding ▸ CombinationPolicy.overriding_blind
    · exact appending ▸ CombinationPolicy.appending_blind separator
  -- Under the veil there is only one context.
  have same : c'.veiled m.isSensitive = c.veiled m.isSensitive := by
    rw [veiled, veiled, sameFilters, samePolicy, sameConverters, sameSources]
  have there : Alike (c'.veiled m.isSensitive) c' :=
    alike_veiled (samePolicy ▸ blind) (sameFilters.trans filters)
  have alike : Alike c' c := there.symm.trans (same ▸ alike_veiled blind filters)
  exact ⟨fun key => congrArg (Logged.map _) (alike.value key), alike⟩

/-- A password is in the tables of two sources, with one between them that fails, and another secret
    is the value of a meta key. The names of the sources are notes on the joined password. -/
theorem masked_alike_joined_password :
    let down := AnySource.scripted ⟨"down", 3, .ofPairs [("db.user", "root")], true, [], true⟩
    let high (password : String) :=
      AnySource.table ⟨"high", 5, .ofPairs [("DB.Password", password), ("db.user", "app")]⟩
    let low (password secret : String) :=
      AnySource.table ⟨"low", 1, .ofPairs [("DB.Password", password), ("_db.user.secret", secret)]⟩
    let mark : FilterRule := ⟨"mark", "db.", none, .append "!"⟩
    let c (first second third : String) : Context AnySource := ⟨[high first, down, low second third],
      [Masking.standard.filter, mark.filter], .appending ",", .empty ⟨[], []⟩⟩
    let ours := c "sesame" "hunter2" "42"
    let theirs := c "letmein" "" "81"
    theirs.readers.map (Reader.veiled Masking.standard.isSensitive) =
        ours.readers.map (Reader.veiled Masking.standard.isSensitive) ∧
      (theirs.collect "DB.Password").value ≠ (ours.collect "DB.Password").value ∧
      theirs.getValue "DB.Password" = ours.getValue "DB.Password" ∧
      theirs.get "__DB.Password.sources.source" = ours.get "__DB.Password.sources.source" ∧
      theirs.get "_db.user.secret" = ours.get "_db.user.secret" ∧
      (theirs.getAs "DB.Password" (.whole .u16)).map (·.1) =
        (ours.getAs "DB.Password" (.whole .u16)).map (·.1) ∧
      (ours.get "DB.Password").value = some "*****" ∧
      theirs.properties = ours.properties := by
  intro down high low mark c ours theirs
  let hidden := Masking.standard.isSensitive
  have tables {t u : Table} (same : t.veiled hidden = u.veiled hidden) :
      (Source.reader (AnySource.table t)).veiled hidden =
        (Source.reader (AnySource.table u)).veiled hidden := by
    show t.reader.veiled hidden = u.reader.veiled hidden
    rw [Table.reader_veiled, Table.reader_veiled, same]
  have highs : (Source.reader (high "letmein")).veiled hidden =
      (Source.reader (high "sesame")).veiled hidden := tables (by decide +kernel)
  have lows : (Source.reader (low "" "81")).veiled hidden =
      (Source.reader (low "hunter2" "42")).veiled hidden := tables (by decide +kernel)
  have sources : theirs.readers.map (Reader.veiled hidden) =
      ours.readers.map (Reader.veiled hidden) := by
    have same := congr (congrArg (fun r s => [r, (Source.reader down).veiled hidden, s]) highs) lows
    exact same
  have same : (∀ key, theirs.get key = ours.get key) ∧ Alike theirs ours :=
    masked_alike rfl (.inr ⟨",", rfl⟩) rfl rfl rfl sources
  obtain ⟨texts, alike⟩ := same
  exact ⟨sources, by decide +kernel, alike.value _, texts _, texts _, alike.typed _ _,
    by decide +kernel, alike.properties⟩

end Context

end LayeredConfig
