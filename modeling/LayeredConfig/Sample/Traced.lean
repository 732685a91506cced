import LayeredConfig.Convert.Registry

/-!
# Traced values

Sample types whose values remember how they were made: a trail that starts with the converter and
grows by one entry at every lift to a supertype, and the text they were made from. With them one
can see which converter a registry has chosen and on which path it has lifted the value.
-/

set_option autoImplicit false

namespace LayeredConfig.Traced

/-- The first entry of a trail: a converter at a type. -/
def origin (t : TypeKey) (converter : String) : String := converter ++ "@" ++ t.shortName

/-- The value that a converter makes of a text. A named type keeps the trail; of the plain types a
    text names the converter, a number counts the characters, and a truth value says that there
    are none. -/
def make (t : TypeKey) (converter text : String) : Typed t :=
  match t with
  | .bool => (Value.bool text.isEmpty).typed
  | .whole kind => (Value.whole kind text.length).typed
  | .float kind => (Value.float kind text.length).typed
  | .char => (Value.char (text.toList.headD ' ')).typed
  | .text => (Value.text (converter ++ ":" ++ text)).typed
  | .path => (Value.path text).typed
  | .named name => (Value.object name [origin (.named name) converter] text).typed

def trace : Value → List String × String
  | .object _ trail payload => (trail, payload)
  | _ => ([], "")

/-- The value lifted to a supertype. -/
def lift (source target : TypeKey) (v : Typed source) : Typed target :=
  match target with
  | .named name =>
    let (trail, payload) := trace v.val
    (Value.object name (trail ++ ["->" ++ (TypeKey.named name).shortName]) payload).typed
  | target => make target "lift" (trace v.val).2

def link (source target : TypeKey) : Link source := ⟨target, lift source target⟩

/-- The value that stands for a missing one. -/
def fallback (t : TypeKey) : Typed t :=
  match t with
  | .bool => (Value.bool false).typed
  | .whole kind => (Value.whole kind 7).typed
  | .float kind => (Value.float kind (kind.nearest 3 2)).typed
  | .char => (Value.char 'd').typed
  | .text => (Value.text "dflt").typed
  | .path => (Value.path "dflt").typed
  | .named name => make (.named name) "default" "dflt"

/-- What a converter does with a text that starts as it should. -/
inductive Rule
  | all
  | none
  | fail (reason : String)
  | mismatch
  | context
  deriving DecidableEq

/-- A converter that announces its formats and then follows its rule. A text that does not start
    with `start` is not in its format. -/
def converter (t : TypeKey) (name : String) (formats : List String) (start : String) (rule : Rule) :
    Converter t := fun text ctx =>
  let outcome : Except ConvertError (Option (Typed t)) :=
    match Text.afterPrefix? start text with
    | Option.none => .ok Option.none
    | some rest =>
      match rule with
      | .all => .ok (some (make t name rest))
      | .none => .ok Option.none
      | .fail reason => .error (.failed name reason)
      | .mismatch => .error (.typeMismatch name ctx.target)
      | .context =>
        .ok (some (make t name (String.intercalate "|"
          [rest, ctx.key, ctx.target.shortName, String.intercalate "," ctx.sources])))
  ⟨Conversion.tagged name formats, outcome⟩

/-- A table of names, each with a value that tells the name and its place. -/
def names (t : TypeKey) (variants : List String) : List (String × Typed t) :=
  variants.zipIdx.map fun (variant, place) =>
    (variant, make t "enum" (variant ++ "#" ++ toString place))

/-- A declaration with links added one after the other, each to a superclass or to an interface. -/
def declaration (t : TypeKey) (links : List (Bool × TypeKey)) : Declaration :=
  links.foldl (fun d entry =>
    if entry.1 then d.withSuperclass (link d.type entry.2) else d.withInterface (link d.type entry.2))
    (.ofType t)

end LayeredConfig.Traced
