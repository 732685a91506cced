import LayeredConfig.Numeral.Binary
import LayeredConfig.Numeral.Whole

/-!
# Target types and values

A property is a text; what a program asks for is a value of a type. Types are identified by a key,
and a value knows its type, so that a value whose type was forgotten can be asked for it again:
`Value.as?` is the only way back from `Value` to `Typed`, and it answers exactly when the type is
the one asked for.

Besides the types that every configuration knows there are named ones. A value of a named type is
an object, described by a text and by the steps through which it came to be.
-/

set_option autoImplicit false

namespace LayeredConfig

/-- The identity of a type that properties can be converted to. -/
inductive TypeKey
  | bool
  | whole (kind : Numeral.WholeKind)
  | float (kind : Numeral.FloatKind)
  | char
  | text
  | path
  | named (name : String)
  deriving DecidableEq, Repr

namespace TypeKey

/-- The full name of a type, as messages show it. -/
def name : TypeKey → String
  | bool => "bool"
  | whole kind => kind.name
  | float kind => kind.name
  | char => "char"
  | text => "alloc::string::String"
  | path => "std::path::PathBuf"
  | named name => name

/-- What follows the last pair of colons, if there is one. -/
def afterColons? : List Char → Option (List Char)
  | [] => none
  | c :: cs =>
    match afterColons? cs with
    | some rest => some rest
    | none =>
      match c, cs with
      | ':', ':' :: rest => some rest
      | _, _ => none

/-- The name without parameters and without the path that leads to it. -/
def shortName (t : TypeKey) : String :=
  let base := t.name.toList.takeWhile (· != '<')
  String.ofList ((afterColons? base).getD base)

end TypeKey

/-- A value that a text was converted to. -/
inductive Value
  | bool (b : Bool)
  | whole (kind : Numeral.WholeKind) (n : Int)
  | float (kind : Numeral.FloatKind) (pattern : Nat)
  | char (c : Char)
  | text (s : String)
  | path (s : String)
  | object (typeName : String) (trail : List String) (payload : String)
  deriving DecidableEq, Repr

namespace Value

def type : Value → TypeKey
  | bool _ => .bool
  | whole kind _ => .whole kind
  | float kind _ => .float kind
  | char _ => .char
  | text _ => .text
  | path _ => .path
  | object typeName _ _ => .named typeName

end Value

def Typed (t : TypeKey) : Type := { v : Value // v.type = t }

def Value.typed (v : Value) : Typed v.type := ⟨v, rfl⟩

/-- The value as one of the given type, if it is one. -/
def Value.as? (t : TypeKey) (v : Value) : Option (Typed t) :=
  if h : v.type = t then some ⟨v, h⟩ else none

/-- A typed value is found again at its type. -/
theorem Value.as?_val {t : TypeKey} (v : Typed t) : Value.as? t v.val = some v := by
  obtain ⟨v, rfl⟩ := v
  simp [Value.as?]

end LayeredConfig
