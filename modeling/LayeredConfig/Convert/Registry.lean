import LayeredConfig.Convert.Converter
import LayeredConfig.Convert.Hierarchy
import LayeredConfig.Discovery
import LayeredConfig.Entries
import LayeredConfig.Ranking
import LayeredConfig.Text.Quoted

/-!
# The converter registry

A registry holds converters by the type they make and answers, for a type, all converters that can
make it, in the order in which they are tried:

1. those registered for the type, in the order of registration;
2. if there are none, the factory method of the type;
3. those registered for subtypes whose superclass chain reaches the type, of the nearest depth;
4. those registered for subtypes that have the type as an interface, by rank.

Inherited converters keep the id of their registration, and no id is listed twice. An answer is
kept until the next registration or declaration; a factory method gets a new id whenever an answer
with it is worked out.

What a registry can discover (factory methods, and bundles of registrations to be applied once) is
the catalogue it was made with.

A method and a registered converter hand on values whose type is not known. A registered converter
has been made for its type; a method only says what it makes, and `FactoryMethod.MakesTarget` says
that it keeps its word.
-/

set_option autoImplicit false

namespace LayeredConfig

/-- The names under which a factory method is looked for, in the order of preference. -/
inductive FactoryName
  | of
  | valueOf
  | parse
  | instanceOf
  deriving DecidableEq, Repr

namespace FactoryName

def text : FactoryName → String
  | of => "of"
  | valueOf => "valueOf"
  | parse => "parse"
  | instanceOf => "instance"

def described : FactoryName → String
  | of => "Of"
  | valueOf => "ValueOf"
  | parse => "Parse"
  | instanceOf => "Instance"

/-- The place in the order of preference. -/
def place : FactoryName → Nat
  | of => 0
  | valueOf => 1
  | parse => 2
  | instanceOf => 3

end FactoryName

/-- A method that makes a value from one text, or says why it cannot. It is declared for its target,
    but what it makes is handed on as it comes: nothing compares the two when it is declared. -/
structure FactoryMethod where
  name : FactoryName
  target : TypeKey
  invoke : String → Except String Value

namespace FactoryMethod

/-- What a method promises by its target: that whatever it makes is a value of that type. -/
def MakesTarget (m : FactoryMethod) : Prop :=
  ∀ text v, m.invoke text = .ok v → v.type = m.target

/-- The method that is declared by naming a function: the target is the type of its values. This is
    the way to declare a method that cannot break its promise. -/
def ofTyped (name : FactoryName) (target : TypeKey)
    (produce : String → Except String (Typed target)) : FactoryMethod :=
  ⟨name, target, fun text => (produce text).map Subtype.val⟩

theorem ofTyped_makesTarget (name : FactoryName) {target : TypeKey}
    (produce : String → Except String (Typed target)) : (ofTyped name target produce).MakesTarget := by
  intro text v made
  cases produced : produce text with
  | error reason => simp [ofTyped, produced, Except.map] at made
  | ok w =>
    obtain rfl : w.val = v := by simpa [ofTyped, produced, Except.map] using made
    exact w.property

/-- The preferred one of two methods; the first if neither is preferred. -/
def preferred (a b : FactoryMethod) : FactoryMethod :=
  if b.name.place < a.name.place then b else a

/-- The method of a type that has the most preferred name. -/
def lookup (methods : List FactoryMethod) (target : TypeKey) : Option FactoryMethod :=
  match methods.filter fun m => m.target == target with
  | [] => none
  | m :: ms => some (ms.foldl preferred m)

end FactoryMethod

/-- Something to be entered into a registry. -/
inductive RegistryEntry
  | converter (target : TypeKey) (name : String) (convert : Converter target)
  | declaration (d : Declaration)

/-- A named bundle of entries that a registry takes over at most once. -/
structure ConverterPlugin where
  name : String
  entries : List RegistryEntry

/-- What registries discover. -/
structure Catalogue where
  factories : List FactoryMethod
  plugins : List ConverterPlugin

/-- How a converter came to be listed for a type. -/
inductive ConverterOrigin
  | direct
  | factory (method : FactoryName)
  | superclass (declaredFor : TypeKey) (depth : Nat)
  | interface (declaredFor : TypeKey) (rank : Nat)
  deriving DecidableEq

/-- A converter as it is listed for a type. What it makes is not known to be of that type. -/
structure ConverterHandle where
  id : Nat
  name : String
  origin : ConverterOrigin
  run : String → ConversionContext → Conversion Value

namespace ConverterHandle

/-- Runs a converter for a type and notes the formats it announces. A value of another type is an
    error. -/
def convert (h : ConverterHandle) (target : TypeKey) (text : String) (ctx : ConversionContext) :
    Except ConvertError (Option (Typed target)) × ConversionContext :=
  let conversion := h.run text ctx
  ((conversion.andThen (.typeMismatch h.name target) (Value.as? target)).outcome,
    ctx.announce conversion.announced)

/-- What each of several converters makes of a text, each with the formats noted before it. -/
def convertEach (target : TypeKey) (text : String) :
    List ConverterHandle → ConversionContext →
      List (Except ConvertError (Option (Typed target))) × ConversionContext
  | [], ctx => ([], ctx)
  | h :: hs, ctx =>
    let (answer, ctx) := h.convert target text ctx
    let (answers, ctx) := convertEach target text hs ctx
    (answer :: answers, ctx)

/-- A converter whose values are lifted along a path. -/
def derive (h : ConverterHandle) (origin : ConverterOrigin) (path : Path) (target : TypeKey) :
    ConverterHandle :=
  { h with
    origin := origin
    run := fun text ctx => (h.run text ctx).andThen (.typeMismatch h.name target) path.lift? }

/-- The handle of a factory method. A text that the method refuses is not in its format. What the
    method makes is passed on unchecked, as what any converter makes is: `convert` checks it. -/
def ofFactory (id : Nat) (m : FactoryMethod) : ConverterHandle where
  id := id
  name := m.target.shortName ++ "::" ++ m.name.text
  origin := .factory m.name
  run text _ :=
    .pure (m.target.shortName ++ "::" ++ m.name.text) [m.name.text ++ "(String)"]
      (match m.invoke text with
        | .ok v => some v
        | .error _ => none)

/-- The description of a handle in diagnostics; of its origin only what needs no type is shown. -/
def describe (h : ConverterHandle) : String :=
  let origin :=
    match h.origin with
    | .direct => "Direct"
    | .factory method => "FactoryMethod(" ++ method.described ++ ")"
    | .superclass _ _ => "Superclass"
    | .interface _ _ => "Interface"
  "ConverterHandle \x7b id: ConverterId(" ++ toString h.id ++ "), name: " ++ Text.quoted h.name ++
    ", origin: " ++ origin ++ " \x7d"

end ConverterHandle

/-- A converter as it was registered. -/
structure Registration where
  id : Nat
  name : String
  target : TypeKey
  convert : Converter target

def Registration.handle (r : Registration) : ConverterHandle where
  id := r.id
  name := r.name
  origin := .direct
  run text ctx := (r.convert text ctx).map Subtype.val

structure Registry where
  catalogue : Catalogue
  registrations : List Registration
  hierarchy : Hierarchy
  applied : List String
  cache : List (TypeKey × List ConverterHandle)
  nextId : Nat

namespace Registry

def empty (catalogue : Catalogue) : Registry := ⟨catalogue, [], .empty, [], [], 0⟩

/-! ## Entries -/

/-- Registers a converter under the next id. -/
def register (r : Registry) (target : TypeKey) (name : String) (convert : Converter target) :
    Registry :=
  { r with
    registrations := r.registrations ++ [⟨r.nextId, name, target, convert⟩]
    cache := []
    nextId := r.nextId + 1 }

def declare (r : Registry) (d : Declaration) : Registry :=
  { r with hierarchy := r.hierarchy.declare d, cache := [] }

def enter (r : Registry) : RegistryEntry → Registry
  | .converter target name convert => r.register target name convert
  | .declaration d => r.declare d

def clearCache (r : Registry) : Registry := { r with cache := [] }

/-- Applies every plugin of the catalogue that has not been applied, and counts them. -/
def discover (r : Registry) : Nat × Registry :=
  let (plugins, applied) := Discovery.pending ConverterPlugin.name r.catalogue.plugins r.applied
  (plugins.length,
    plugins.foldl (fun r p => p.entries.foldl enter r) { r with applied := applied })

/-- A registry with everything that can be discovered. -/
def discovered (catalogue : Catalogue) : Registry := (empty catalogue).discover.2

/-! ## Answers -/

def directFor (r : Registry) (target : TypeKey) : List ConverterHandle :=
  (r.registrations.filter fun entry => entry.target == target).map Registration.handle

/-- The factory method that is listed for a type, as there is no converter registered for it. -/
def factoryFor? (r : Registry) (target : TypeKey) : Option FactoryMethod :=
  if (r.directFor target).isEmpty then FactoryMethod.lookup r.catalogue.factories target else none

/-- The place that a type has among the ancestors of another. -/
def ancestor? (r : Registry) (type target : TypeKey) : Option Ancestor :=
  if type = target then none
  else (r.hierarchy.ancestors type).find? fun a => a.key == target

/-- The converters that are inherited along superclass chains, with the depth of each. -/
def viaSuperclass (r : Registry) (target : TypeKey) : List (Nat × ConverterHandle) :=
  r.registrations.filterMap fun entry =>
    match r.ancestor? entry.target target with
    | some ⟨_, .superclass depth, path⟩ =>
      some (depth, entry.handle.derive (.superclass entry.target depth) path target)
    | _ => none

/-- The converters that are inherited from interfaces, with the rank of each. -/
def viaInterface (r : Registry) (target : TypeKey) : List (Nat × ConverterHandle) :=
  r.registrations.filterMap fun entry =>
    match r.ancestor? entry.target target with
    | some ⟨_, .interface rank, path⟩ =>
      some (rank, entry.handle.derive (.interface entry.target rank) path target)
    | _ => none

/-- The handles whose number is the least of all. -/
def nearest (handles : List (Nat × ConverterHandle)) : List ConverterHandle :=
  (handles.filter fun h => handles.all fun other => h.1 ≤ other.1).map (·.2)

/-- The handles without those whose id has come up before. -/
def fresh : List Nat → List ConverterHandle → List ConverterHandle
  | _, [] => []
  | ids, h :: hs => if ids.contains h.id then fresh ids hs else h :: fresh (h.id :: ids) hs

/-- The converters for a type, worked out anew. A factory method takes the next id. -/
def compute (r : Registry) (target : TypeKey) : List ConverterHandle :=
  let own := r.directFor target ++
    ((r.factoryFor? target).map (ConverterHandle.ofFactory r.nextId)).toList
  let near := own ++ nearest (r.viaSuperclass target)
  let ranked := (Ranking.ascending (fun h => (h.1 : Int)) (r.viaInterface target)).map (·.2)
  near ++ fresh (near.map ConverterHandle.id) ranked

/-- The converters for a type in the order in which they are tried, and the registry that remembers
    them. -/
def converters (r : Registry) (target : TypeKey) : List ConverterHandle × Registry :=
  match r.cache.find? fun entry => entry.1 == target with
  | some entry => (entry.2, r)
  | none =>
    let handles := r.compute target
    (handles,
      { r with
        cache := (target, handles) :: r.cache
        nextId := if (r.factoryFor? target).isSome then r.nextId + 1 else r.nextId })

def supports (r : Registry) (target : TypeKey) : Bool × Registry :=
  let (handles, r) := r.converters target
  (!handles.isEmpty, r)

def describe (r : Registry) : String :=
  "ConverterRegistry \x7b registered: " ++
    Text.quotedList (r.registrations.map fun entry => entry.target.shortName ++ ": " ++ entry.name) ++
    ", plugins: " ++ Text.quotedList (Keys.ofKeys r.applied).toList ++ ", .. \x7d"

end Registry

end LayeredConfig
