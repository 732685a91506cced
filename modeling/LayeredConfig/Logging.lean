import LayeredConfig.Lookup.Typed

/-!
# Logging settings

How a program logs: the filter directive for what is logged, whether the origin of a line is shown,
and whether lines are coloured. The settings can be given one by one, read from a configuration, or
from JSON; what is not given keeps its default.
-/

set_option autoImplicit false

namespace LayeredConfig

structure LoggingConfig where
  level : String
  target : Bool
  ansi : Bool
  deriving DecidableEq, Repr

namespace LoggingConfig

/-- The settings of a program that says nothing about logging. -/
def standard : LoggingConfig := ⟨"info", false, true⟩

def levelKey : String := "strata.log.level"

def targetKey : String := "strata.log.target"

def ansiKey : String := "strata.log.ansi"

/-- The truth value that a typed one is. -/
def flag (v : Typed .bool) : Bool :=
  match v.val with
  | .bool b => b
  | _ => false

/-- The settings that a configuration holds. A flag that is no truth value is an error. -/
def ofContext {σ : Type} [Source σ] (c : Context σ) :
    Logged (Except ConfigError LoggingConfig × Context σ) :=
  (c.getOrDefault levelKey standard.level).andThen fun level =>
    (c.getAsOrDefault targetKey .bool (Value.bool standard.target).typed).andThen fun (target, c) =>
      match target with
      | .error e => .quiet (.error e, c)
      | .ok target =>
        (c.getAsOrDefault ansiKey .bool (Value.bool standard.ansi).typed).map fun (ansi, c) =>
          (ansi.map fun ansi => ⟨level, flag target, flag ansi⟩, c)

def toJson (l : LoggingConfig) : Json :=
  Json.record [("level", Json.text l.level), ("target", .bool l.target), ("ansi", .bool l.ansi)]

def ofJson? (json : Json) : Option LoggingConfig := do
  match ← json.record? ["level", "target", "ansi"] with
  | [level, target, ansi] =>
    let level ← Json.optional? standard.level Json.text? level
    let target ← Json.optional? standard.target Json.bool? target
    let ansi ← Json.optional? standard.ansi Json.bool? ansi
    some ⟨level, target, ansi⟩
  | _ => none

/-! ## Filter directives -/

/-- The names of the levels; their places in this list are names for them too. -/
def levelNames : List String := ["off", "error", "warn", "info", "debug", "trace"]

/-- Whether a text names a level, in letters of either case or by its number. No name is the level
    of errors. -/
def isLevel (cs : List Char) : Bool :=
  cs.isEmpty || levelNames.any (fun name => Text.sameLetters cs name.toList) ||
    (Numeral.WholeKind.usize.ofDecimal? cs).any fun n => n < (levelNames.length : Int)

/-- The parts of a text between the occurrences of a mark. -/
def parts (mark : Char) : List Char → List (List Char)
  | [] => [[]]
  | c :: cs =>
    match parts mark cs with
    | [] => [[c]]
    | p :: ps => if c = mark then [] :: p :: ps else (c :: p) :: ps

/-- Whether one directive is a level or a target, or a target with its level. -/
def isDirective (cs : List Char) : Bool :=
  match parts '=' cs with
  | [_] => true
  | [_, level] => isLevel level
  | _ => false

/-- Whether a level setting is a list of directives. -/
def isValidLevel (level : String) : Bool :=
  (parts ',' level.toList).all isDirective

/-- Why a log with these settings cannot be installed where one is installed already. -/
def installError (l : LoggingConfig) : String :=
  if isValidLevel l.level then
    "a global tracing subscriber is already installed: " ++
      "a global default trace dispatcher has already been set"
  else "invalid log level `" ++ l.level ++ "`"

end LoggingConfig

end LayeredConfig
