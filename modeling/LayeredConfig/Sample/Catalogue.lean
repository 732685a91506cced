import LayeredConfig.Convert.Builtin
import LayeredConfig.Sample.Traced

/-!
# A sample catalogue

Four sample types with factory methods under every name that is looked for, and a bundle that
declares a chain of three classes with two interfaces and registers a converter at its lower end.
The names of the types start with the path of the module that they are said to live in.
-/

set_option autoImplicit false

namespace LayeredConfig.Sample

def type (space label : String) : TypeKey := .named (space ++ label)

def factories (space : String) : List FactoryMethod := [
  .ofTyped .of (type space "Token") fun text =>
    if text.isEmpty then .error "empty token" else .ok (Traced.make _ "of" text),
  .ofTyped .instanceOf (type space "Level") fun _ => .ok (Traced.make _ "instance" "0"),
  .ofTyped .parse (type space "Level") fun text =>
    match Numeral.WholeKind.u8.ofDecimal? (Text.trimmed text.toList) with
    | some n => .ok (Traced.make _ "parse" (toString n))
    | none => .error ("not a level: " ++ text),
  .ofTyped .instanceOf (type space "Valued") fun text => .ok (Traced.make _ "instance" text),
  .ofTyped .parse (type space "Valued") fun text => .ok (Traced.make _ "parse" text),
  .ofTyped .valueOf (type space "Valued") fun text =>
    if Text.startsWith "!" text then .error "bang"
    else .ok (Traced.make _ "valueOf" (Text.upper text)),
  .ofTyped .instanceOf (type space "Inst") fun text => .ok (Traced.make _ "instance" text)]

theorem makesTarget_of_mem_factories {space : String} {m : FactoryMethod}
    (mem : m ∈ factories space) : m.MakesTarget := by
  simp only [factories, List.mem_cons, List.not_mem_nil, or_false] at mem
  rcases mem with rfl | rfl | rfl | rfl | rfl | rfl | rfl <;>
    exact FactoryMethod.ofTyped_makesTarget _ _

/-- The bundle of a small class hierarchy. -/
def hierarchyPlugin (name space : String) : ConverterPlugin :=
  ⟨name, [
    .declaration (Traced.declaration (type space "PlugC")
      [(true, type space "PlugB"), (false, type space "PlugI"), (false, type space "PlugJ")]),
    .declaration (Traced.declaration (type space "PlugB") [(true, type space "PlugA")]),
    .converter (type space "PlugC") "plug-c"
      (Traced.converter (type space "PlugC") "plug-c" [] "" .all)]⟩

/-- The sample types with their methods and bundles, after the plain types. -/
def catalogue (pluginName space : String) : Catalogue :=
  ⟨factories space, [Builtin.plugin, hierarchyPlugin pluginName space]⟩

end LayeredConfig.Sample
