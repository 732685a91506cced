import LayeredConfig.Proofs.Lookup.Readers
import LayeredConfig.Sample.Rules
import LayeredConfig.Sample.Traced
import LayeredConfig.Source.Any

/-!
# The value of a key as one of a type

The converters of a type are tried on the text of a key, one after the other, and each of them can
make a value, make nothing or fail. It does not matter which of the last two it does: **by
`Context.getAs_first_made` the first value that is made is the answer, whatever was tried before
it.** If none is made, a text is its own value, and for any other type the error names the formats
that the converters have announced. They are noted one by one as the converters are tried, by those
that fail as well, and each is noted once, where it has been announced for the first time.
-/

set_option autoImplicit false

namespace LayeredConfig

/-! ## Formats -/

namespace ConversionContext

theorem announce_append (ctx : ConversionContext) (first second : List String) :
    ctx.announce (first ++ second) = (ctx.announce first).announce second :=
  List.foldl_append

/-- What has been noted stays, and of what is announced each new format is added once. -/
theorem formats_announce (ctx : ConversionContext) (formats : List String) :
    (ctx.announce formats).formats =
      ctx.formats ++ (formats.removeAll ctx.formats).eraseDups := by
  induction formats generalizing ctx with
  | nil => simp [announce]
  | cons format rest ih =>
    have step : ctx.announce (format :: rest) = (ctx.note format).announce rest := rfl
    rw [step, ih]
    -- A format that has been noted before is announced in vain.
    by_cases known : format ∈ ctx.formats
    · have same : ctx.note format = ctx := by simp [note, known]
      rw [same, List.removeAll, List.removeAll, List.filter_cons_of_neg (by simpa using known)]
    · have added : (ctx.note format).formats = ctx.formats ++ [format] := by simp [note, known]
      rw [added, List.removeAll, List.removeAll, List.filter_cons_of_pos (by simpa using known),
        List.eraseDups_cons, List.filter_filter, List.append_assoc, List.singleton_append]
      congr 4
      funext other
      simp [Bool.and_comm, Bool.beq_eq_decide_eq]

theorem formats_announce_start (key : String) (target : TypeKey) (sources formats : List String) :
    ((start key target sources).announce formats).formats = formats.eraseDups := by
  have new : formats.removeAll [] = formats := List.filter_eq_self.mpr fun _ _ => rfl
  rw [formats_announce]
  simp only [start, new, List.nil_append]

end ConversionContext

/-! ## Attempts -/

namespace ConverterHandle

/-- What several converters announce for a text, each with the formats noted before it. -/
def announcements (text : String) : List ConverterHandle → ConversionContext → List String
  | [], _ => []
  | h :: hs, ctx =>
    let announced := (h.run text ctx).announced
    announced ++ announcements text hs (ctx.announce announced)

/-- The value that an attempt has made, if it has made one. -/
def made? {target : TypeKey} : Except ConvertError (Option (Typed target)) → Option (Typed target)
  | .ok value => value
  | .error _ => none

theorem convertEach_cons (target : TypeKey) (text : String) (h : ConverterHandle)
    (hs : List ConverterHandle) (ctx : ConversionContext) :
    (convertEach target text (h :: hs) ctx).1 =
      (h.convert target text ctx).1 :: (convertEach target text hs (h.convert target text ctx).2).1 :=
  rfl

/-- Only a value ends the search. -/
theorem firstOf_cons (target : TypeKey) (text : String) (h : ConverterHandle)
    (hs : List ConverterHandle) (ctx : ConversionContext) :
    firstOf target text (h :: hs) ctx =
      match made? (h.convert target text ctx).1 with
      | some v => (some v, (h.convert target text ctx).2)
      | none => firstOf target text hs (h.convert target text ctx).2 := by
  rw [firstOf]
  rcases h.convert target text ctx with ⟨_ | _ | v, noted⟩ <;> rfl

/-- What is found is the first value among all attempts, as if none had been left out. -/
theorem firstOf_fst (target : TypeKey) (text : String) (hs : List ConverterHandle)
    (ctx : ConversionContext) :
    (firstOf target text hs ctx).1 = (convertEach target text hs ctx).1.findSome? made? := by
  induction hs generalizing ctx with
  | nil => rfl
  | cons h hs ih =>
    rw [firstOf_cons, convertEach_cons, List.findSome?_cons]
    cases made? (h.convert target text ctx).1 with
    | some v => rfl
    | none => exact ih _

/-- A search that finds nothing has noted everything, of failures as well. -/
theorem firstOf_snd {target : TypeKey} {text : String} {hs : List ConverterHandle}
    {ctx : ConversionContext}
    (missed : ∀ attempt ∈ (convertEach target text hs ctx).1, made? attempt = none) :
    (firstOf target text hs ctx).2 = ctx.announce (announcements text hs ctx) := by
  induction hs generalizing ctx with
  | nil => rfl
  | cons h hs ih =>
    rw [convertEach_cons] at missed
    obtain ⟨first, others⟩ := List.forall_mem_cons.mp missed
    rw [firstOf_cons, first, announcements, ConversionContext.announce_append]
    exact ih others

end ConverterHandle

/-! ## Answers -/

namespace Context

open ConverterHandle

variable {σ : Type} [Source σ]

/-- What the converters for a type make of a text for a key, one after the other. -/
def attempts (c : Context σ) (key text : String) (target : TypeKey) :
    List (Except ConvertError (Option (Typed target))) :=
  (convertEach target text (c.converters.converters target).1 (.start key target c.sourceNames)).1

/-- What they announce, one after the other and with repetitions. -/
def announced (c : Context σ) (key text : String) (target : TypeKey) : List String :=
  announcements text (c.converters.converters target).1 (.start key target c.sourceNames)

variable {c : Context σ} {key text : String} {target : TypeKey}

theorem convert_of_made {v : Typed target}
    (made : (c.attempts key text target).findSome? made? = some v) :
    (c.convert key text target).1 = .ok v := by
  have found : (firstOf target text (c.converters.converters target).1
      (.start key target c.sourceNames)).1 = some v := (firstOf_fst ..).trans made
  simp only [convert, found, Option.some_or]

/-- If nothing is made, only a text is a value already. -/
theorem convert_of_missed
    (missed : ∀ attempt ∈ c.attempts key text target, made? attempt = none) :
    (c.convert key text target).1 =
      match Value.as? target (.text text) with
      | some v => .ok v
      | none =>
        .error (.conversion key text target.name (c.announced key text target).eraseDups) := by
  have nothing : (firstOf target text (c.converters.converters target).1
      (.start key target c.sourceNames)).1 = none :=
    (firstOf_fst ..).trans (List.findSome?_eq_none_iff.mpr missed)
  -- The search went to the end, so every format announced has been noted.
  have noted : (firstOf target text (c.converters.converters target).1
      (.start key target c.sourceNames)).2.formats = (c.announced key text target).eraseDups := by
    rw [firstOf_snd missed, ConversionContext.formats_announce_start, announced]
  unfold convert
  cases Value.as? target (.text text) with
  | some v => simp only [nothing, Option.none_or]
  | none => simp only [nothing, noted, Option.none_or]

/-- A text can be had from any text. -/
theorem convert_text (c : Context σ) (key text : String) :
    ∃ v, (c.convert key text .text).1 = .ok v := by
  cases found : (c.attempts key text .text).findSome? made? with
  | some v => exact ⟨v, convert_of_made found⟩
  | none =>
    have missed := List.findSome?_eq_none_iff.mp found
    exact ⟨(Value.text text).typed, convert_of_missed missed⟩

theorem getAs_answer (c : Context σ) (key : String) (target : TypeKey) :
    (c.getAs key target).value.1 =
      match (c.get key).value with
      | none => .ok none
      | some text => (c.convert key text target).1.map some :=
  congrArg Logged.value (c.getAs_value key target)

theorem getAs_of_text (found : (c.get key).value = some text) :
    (c.getAs key target).value.1 = (c.convert key text target).1.map some := by
  rw [getAs_answer, found]

theorem getAs_eq_none_iff :
    (c.getAs key target).value.1 = .ok none ↔ (c.get key).value = none := by
  cases found : (c.get key).value with
  | none => simp [getAs_answer, found]
  | some text =>
    rw [getAs_of_text found]
    cases (c.convert key text target).1 <;> simp [Except.map]

theorem getAs_text_ne_error (c : Context σ) (key : String) (e : ConfigError) :
    (c.getAs key .text).value.1 ≠ .error e := by
  rw [getAs_answer]
  cases (c.get key).value with
  | none => simp
  | some text =>
    obtain ⟨v, converted⟩ := c.convert_text key text
    simp [converted, Except.map]

/-- **The first value that is made is the answer.** A typed look-up answers nothing for the keys
    that have no text. For any other key the converters of the type are tried on the text, and
    nothing that one of them answers keeps the next from being tried, except a value, which is the
    answer. If they make none, a text is its own value, and for any other type the error has the
    key, the text, the type and every format announced, once. So a look-up of a text never fails. -/
theorem getAs_first_made (c : Context σ) (key : String) (target : TypeKey) :
    let answer := (c.getAs key target).value.1
    (answer = .ok none ↔ (c.get key).value = none) ∧
    (∀ text, (c.get key).value = some text →
      (∀ before v after, c.attempts key text target = before ++ .ok (some v) :: after →
        (∀ attempt ∈ before, made? attempt = none) → answer = .ok (some v)) ∧
      ((∀ attempt ∈ c.attempts key text target, made? attempt = none) →
        (target = .text → ∃ v, v.val = .text text ∧ answer = .ok (some v)) ∧
        (target ≠ .text → answer = .error (.conversion key text target.name
          (c.announced key text target).eraseDups)))) ∧
    (target = .text → ∀ e, answer ≠ .error e) := by
  refine ⟨getAs_eq_none_iff, fun text found => ⟨?first, ?missed⟩, ?text⟩
  case first =>
    intro before v after tried nothing
    have first : (c.attempts key text target).findSome? made? = some v :=
      List.findSome?_eq_some_iff.mpr ⟨before, .ok (some v), after, tried, rfl, nothing⟩
    rw [getAs_of_text found, convert_of_made first]
    rfl
  case missed =>
    intro missed
    have answer := (getAs_of_text found).trans (congrArg (Except.map some) (convert_of_missed missed))
    constructor
    · rintro rfl
      exact ⟨(Value.text text).typed, rfl, answer⟩
    · intro other
      have unfit : Value.as? target (.text text) = none := dif_neg (Ne.symm other)
      rw [unfit] at answer
      exact answer
  case text =>
    rintro rfl e
    exact c.getAs_text_ne_error key e

/-- A text that a filter has changed. One converter is for other texts, one fails and one reports a
    mismatch; the last two have a name and a format in common. With two more converters registered,
    the first of these makes the value. -/
theorem getAs_first_made_after_failures :
    let port : TypeKey := .named "net::Port"
    let strict := (((Registry.empty ⟨[], []⟩).register port "hex"
        (Traced.converter port "hex" ["0x<hex>"] "0x" .all)).register port "range"
        (Traced.converter port "range" ["<digits>", "0x<hex>"] "" (.fail "too large"))).register
        port "range" (Traced.converter port "range" ["<words>", "<digits>"] "" .mismatch)
    let lenient := (strict.register port "any" (Traced.converter port "any" ["<any>"] "" .all)).register
        port "late" (Traced.converter port "late" [] "" .all)
    let plus : FilterRule := ⟨"plus", "po", none, .append "+"⟩
    let c (converters : Registry) : Context AnySource :=
      ⟨[.table ⟨"app", 1, .ofPairs [("port", "99999")]⟩], [plus.filter], .overriding, converters⟩
    ((c strict).getAs "port" port).value.1 = .error (.conversion "port" "99999+" "net::Port"
        ["0x<hex> (hex)", "<digits> (range)", "0x<hex> (range)", "<words> (range)"]) ∧
      ((c lenient).getAs "port" port).value.1 = .ok (some (Traced.make port "any" "99999+")) ∧
      (∃ v, v.val = .text "99999+" ∧ ((c strict).getAs "port" .text).value.1 = .ok (some v)) ∧
      ((c strict).getAs "host" port).value.1 = .ok none := by
  intro port strict lenient plus c
  have found : ((c strict).get "port").value = some "99999+" := by decide +kernel
  have found' : ((c lenient).get "port").value = some "99999+" := by decide +kernel
  have unknown : ((c strict).get "host").value = none := by decide +kernel
  have missed : ∀ attempt ∈ (c strict).attempts "port" "99999+" port, made? attempt = none := by
    decide +kernel
  have untouched : ∀ attempt ∈ (c strict).attempts "port" "99999+" .text, made? attempt = none := by
    decide +kernel
  have formats : ((c strict).announced "port" "99999+" port).eraseDups =
      ["0x<hex> (hex)", "<digits> (range)", "0x<hex> (range)", "<words> (range)"] := by
    decide +kernel
  have failed := (((getAs_first_made (c strict) "port" port).2.1 _ found).2 missed).2 (by decide)
  have made := ((getAs_first_made (c lenient) "port" port).2.1 _ found').1
    ((c strict).attempts "port" "99999+" port) (Traced.make port "any" "99999+")
    [.ok (some (Traced.make port "late" "99999+"))] rfl missed
  have text := (((getAs_first_made (c strict) "port" .text).2.1 _ found).2 untouched).1 rfl
  exact ⟨formats ▸ failed, made, text, (getAs_first_made (c strict) "host" port).1.mpr unknown⟩

end Context

end LayeredConfig
