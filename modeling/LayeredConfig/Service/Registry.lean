import LayeredConfig.Lookup.Context
import LayeredConfig.Source.Table

/-!
# Services

A program registers implementations of capabilities (sources, filters, combination policies, and
whatever else it names) and asks for them back: all of one capability, by descending priority and
in the order of registration where priorities are equal, or the one that is to be used. Two
implementations at the highest priority are an error, since neither is the one.

Answers are kept until the next registration for the same capability. A bundle of registrations is
applied at most once.

The kept answers are part of the state and are looked at before anything is worked out, so an answer
that outlived its registrations would show. That none does is proved in `Proofs/Service/Calls`.
-/

set_option autoImplicit false

namespace LayeredConfig

/-- An implementation of a capability. -/
inductive Service (σ : Type)
  | source (s : σ)
  | filter (f : Filter)
  | policy (p : CombinationPolicy)
  | other (capability : TypeKey)

def sourceCapability : TypeKey := .named "dyn strata_primitives::source::PropertySource"

def filterCapability : TypeKey := .named "dyn strata_core::filter::PropertyFilter"

def policyCapability : TypeKey := .named "dyn strata_core::combination::ValueCombinationPolicy"

variable {σ : Type}

namespace Service

/-- The capability that a service implements. -/
def capability : Service σ → TypeKey
  | source _ => sourceCapability
  | filter _ => filterCapability
  | policy _ => policyCapability
  | other capability => capability

def source? : Service σ → Option σ
  | source s => some s
  | _ => none

def filter? : Service σ → Option Filter
  | filter f => some f
  | _ => none

def policy? : Service σ → Option CombinationPolicy
  | policy p => some p
  | _ => none

end Service

/-- A service as it was registered. -/
structure ServiceEntry (σ : Type) where
  name : String
  priority : Int
  service : Service σ

namespace ServiceEntry

def capability (e : ServiceEntry σ) : TypeKey := e.service.capability

/-- The name that a service goes by: its own if it has one, or else that of its entry. -/
def label [Source σ] (e : ServiceEntry σ) : String :=
  match e.service with
  | .source s => Source.name s
  | .filter f => f.name
  | _ => e.name

end ServiceEntry

/-- A named bundle of services that is registered at most once. -/
structure ServicePlugin (σ : Type) where
  name : String
  entries : List (ServiceEntry σ)

/-- The registered services, with the answers that are kept. -/
structure ServiceContext (σ : Type) where
  entries : List (ServiceEntry σ)
  ranked : List (TypeKey × List (ServiceEntry σ))
  singletons : List (TypeKey × ServiceEntry σ)
  applied : List String

namespace ServiceContext

def empty : ServiceContext σ := ⟨[], [], [], []⟩

/-- The priority of a service that is registered without one. -/
def defaultPriority : Int := 1

def register (c : ServiceContext σ) (e : ServiceEntry σ) : ServiceContext σ :=
  { c with
    entries := c.entries ++ [e]
    ranked := c.ranked.filter fun kept => kept.1 != e.capability
    singletons := c.singletons.filter fun kept => kept.1 != e.capability }

/-- The entries of a capability by descending priority, worked out anew. -/
def rank (c : ServiceContext σ) (capability : TypeKey) : List (ServiceEntry σ) :=
  Ranking.descending ServiceEntry.priority
    (c.entries.filter fun e => e.capability == capability)

def services (c : ServiceContext σ) (capability : TypeKey) :
    List (ServiceEntry σ) × ServiceContext σ :=
  match c.ranked.find? fun kept => kept.1 == capability with
  | some kept => (kept.2, c)
  | none =>
    let found := c.rank capability
    (found, { c with ranked := (capability, found) :: c.ranked })

/-- The service of a capability that is to be used, worked out anew. -/
def choose (c : ServiceContext σ) (capability : TypeKey) :
    Except ConfigError (Option (ServiceEntry σ)) :=
  match c.rank capability with
  | [] => .ok none
  | top :: rest =>
    match rest.filter fun e => e.priority == top.priority with
    | [] => .ok (some top)
    | tied =>
      .error (.ambiguousService capability.name top.priority
        ((top :: tied).map ServiceEntry.name))

/-- The service of a capability that is to be used. Only a success is kept. -/
def service (c : ServiceContext σ) (capability : TypeKey) :
    Except ConfigError (Option (ServiceEntry σ)) × ServiceContext σ :=
  match c.singletons.find? fun kept => kept.1 == capability with
  | some kept => (.ok (some kept.2), c)
  | none =>
    match c.choose capability with
    | .ok (some e) =>
      (.ok (some e), { c with singletons := (capability, e) :: c.singletons })
    | answer => (answer, c)

/-- Registers the bundles that have not been registered, and counts them. -/
def bootstrap (c : ServiceContext σ) (plugins : List (ServicePlugin σ)) : Nat × ServiceContext σ :=
  let (plugins, applied) := Discovery.pending ServicePlugin.name plugins c.applied
  (plugins.length,
    plugins.foldl (fun c p => p.entries.foldl register c) { c with applied := applied })

/-- The capabilities in the order of their first registration. -/
def capabilities (c : ServiceContext σ) : List TypeKey :=
  c.entries.foldl (fun known e =>
    if known.contains e.capability then known else known ++ [e.capability]) []

/-- The description of the services in diagnostics: how many each capability has. -/
def describe (c : ServiceContext σ) : String :=
  let registered := c.capabilities.map fun capability =>
    capability.shortName ++ ": " ++
      toString (c.entries.filter fun e => e.capability == capability).length
  "ServiceContext \x7b registered: " ++ Text.quotedList registered ++ ", .. \x7d"

end ServiceContext

/-- The bundle that registers the environment of the process as a source. -/
def environmentPlugin (wrap : Table → σ) (vars : List (String × String)) : ServicePlugin σ :=
  ⟨"strata.environment", [{
    name := Table.environmentName
    priority := ServiceContext.defaultPriority
    service := .source (wrap (Table.environment vars)) }]⟩

end LayeredConfig
