import LayeredConfig.Lookup.Single

/-!
# Typed look-ups

The filtered text of a key is given to the converters of the type asked for, one after the other,
and the first value counts; what went before it, whether nothing or an error, does not matter. A
text is its own value, so asking for one never fails. For any other type the failure names all
formats that would have worked.
-/

set_option autoImplicit false

namespace LayeredConfig

/-- Tries converters in order up to the first value, and notes the formats of those tried. -/
def ConverterHandle.firstOf (target : TypeKey) (text : String) :
    List ConverterHandle → ConversionContext → Option (Typed target) × ConversionContext
  | [], ctx => (none, ctx)
  | h :: hs, ctx =>
    match h.convert target text ctx with
    | (.ok (some v), ctx) => (some v, ctx)
    | (_, ctx) => firstOf target text hs ctx

namespace Context

variable {σ : Type} [Source σ]

/-- A text converted for a key, and the context with what its registry has remembered. -/
def convert (c : Context σ) (key text : String) (target : TypeKey) :
    Except ConfigError (Typed target) × Context σ :=
  let (handles, converters) := c.converters.converters target
  let (found, ctx) :=
    ConverterHandle.firstOf target text handles (.start key target c.sourceNames)
  let answer :=
    match found.or (Value.as? target (.text text)) with
    | some v => .ok v
    | none => .error (.conversion key text target.name ctx.formats)
  (answer, { c with converters := converters })

/-- The value of a key as one of the given type. -/
def getAs (c : Context σ) (key : String) (target : TypeKey) :
    Logged (Except ConfigError (Option (Typed target)) × Context σ) :=
  (c.get key).map fun text =>
    match text with
    | none => (.ok none, c)
    | some text =>
      let (answer, c) := c.convert key text target
      (answer.map some, c)

/-- The value of a key as one of the given type, or the given one if the key has none. -/
def getAsOrDefault (c : Context σ) (key : String) (target : TypeKey) (default : Typed target) :
    Logged (Except ConfigError (Typed target) × Context σ) :=
  (c.getAs key target).map fun answer => (answer.1.map fun v => v.getD default, answer.2)

end Context

end LayeredConfig
