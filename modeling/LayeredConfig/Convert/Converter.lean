import LayeredConfig.Convert.Value
import LayeredConfig.Text.Blank

/-!
# Converters

A converter reads a text as a value of its type. It has three answers: a value, nothing when the
text is not in one of its formats, and an error when the text was meant for it but is no good.
Whatever it answers, it announces the formats it understands, so that a conversion that fails can
say what would have worked.

A converter is told what the conversion is about, and the formats it announces are all that it can
add to that. It is not handed the record to write in: a converter that names another key or another
type, or takes back a format that has been announced before, cannot be written down here. A program
might hand out a record that can be changed and trust its converters not to abuse it; what is proved
of listings and look-ups holds of converters that deserve the trust.
-/

set_option autoImplicit false

namespace LayeredConfig

/-- Why a converter failed. -/
inductive ConvertError
  | failed (converter reason : String)
  | typeMismatch (converter : String) (expected : TypeKey)
  deriving DecidableEq

def ConvertError.message : ConvertError → String
  | failed converter reason => s!"converter `{converter}` failed: {reason}"
  | typeMismatch converter expected =>
    "converter `" ++ converter ++ "` did not produce a `" ++ expected.name ++ "`"

/-- What a conversion is about: the key, the type asked for, the names of the sources from the
    first to the last, and the formats announced so far. -/
structure ConversionContext where
  key : String
  target : TypeKey
  sources : List String
  formats : List String
  deriving DecidableEq

namespace ConversionContext

def start (key : String) (target : TypeKey) (sources : List String) : ConversionContext :=
  ⟨key, target, sources, []⟩

/-- Notes a format unless it is noted already. -/
def note (ctx : ConversionContext) (format : String) : ConversionContext :=
  if ctx.formats.contains format then ctx
  else { ctx with formats := ctx.formats ++ [format] }

/-- Notes the formats announced by a converter, each at its first announcement. -/
def announce (ctx : ConversionContext) (formats : List String) : ConversionContext :=
  formats.foldl note ctx

end ConversionContext

/-- The outcome of a conversion, with the formats announced on the way. -/
structure Conversion (α : Type) where
  announced : List String
  outcome : Except ConvertError (Option α)

namespace Conversion

/-- Formats as they are announced: with the name of the converter that understands them. -/
def tagged (converter : String) (formats : List String) : List String :=
  formats.map fun format => format ++ " (" ++ converter ++ ")"

/-- A conversion that answers a value or nothing. -/
def pure {α : Type} (converter : String) (formats : List String) (answer : Option α) :
    Conversion α :=
  ⟨tagged converter formats, .ok answer⟩

/-- The conversion with its value replaced by what a step makes of it; a step that makes nothing of
    it is an error. -/
def andThen {α β : Type} (c : Conversion α) (error : ConvertError) (step : α → Option β) :
    Conversion β where
  announced := c.announced
  outcome :=
    match c.outcome with
    | .error e => .error e
    | .ok none => .ok none
    | .ok (some a) =>
      match step a with
      | some b => .ok (some b)
      | none => .error error

def map {α β : Type} (f : α → β) (c : Conversion α) : Conversion β :=
  ⟨c.announced, c.outcome.map (Option.map f)⟩

end Conversion

/-- A way to read a text as a value of a type. It sees what the conversion is about. -/
def Converter (t : TypeKey) : Type := String → ConversionContext → Conversion (Typed t)

namespace Converter

/-- A converter for a table of names: the first name that the text is, apart from the blanks
    around the text and the case of ASCII letters. Its formats are the names, under the short name
    of the type asked for. -/
def ofNames {t : TypeKey} (names : List (String × Typed t)) : Converter t := fun text ctx =>
  .pure ctx.target.shortName (names.map (·.1))
    ((names.find? fun entry => Text.sameLetters entry.1.toList (Text.trimmed text.toList)).map (·.2))

end Converter

end LayeredConfig
