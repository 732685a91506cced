import LayeredConfig.Service.Registry

/-!
# The default configuration

A provider answers the configuration of a program. It is the context that was set last; as long as
none was set, it is a default built from the registered services on the first call that succeeds,
and from then on the same one, whatever is registered later. A failure to build it is not
remembered.

Each context that the provider takes up gets the next edition number, so one can tell whether two
calls have answered the same one.
-/

set_option autoImplicit false

namespace LayeredConfig

/-- The services, what registries discover, and the current context. -/
structure Provider (σ : Type) where
  services : ServiceContext σ
  catalogue : Catalogue
  current : Option (Context σ)
  edition : Nat

namespace Provider

variable {σ : Type} [Source σ]

/-- A provider that has not built anything yet. -/
def ofServices (services : ServiceContext σ) (catalogue : Catalogue) : Provider σ :=
  ⟨services, catalogue, none, 0⟩

def setContext (p : Provider σ) (context : Context σ) : Provider σ :=
  { p with current := some context, edition := p.edition + 1 }

/-- Keeps what the registry of the current context has remembered, as part of the same edition. -/
def keep (p : Provider σ) (context : Context σ) : Provider σ :=
  { p with current := some context }

/-- The default context: all registered sources and filters by their priority, the combination
    policy that is to be used, and a registry with everything that can be discovered. -/
def buildDefault (p : Provider σ) : Except ConfigError (Context σ) × Provider σ :=
  let (policy, services) := p.services.service policyCapability
  match policy with
  | .error e => (.error e, { p with services := services })
  | .ok entry =>
    let (sources, services) := services.services sourceCapability
    let (filters, services) := services.services filterCapability
    let builder : ContextBuilder σ :=
      (((ContextBuilder.start p.catalogue).withSources
          (sources.filterMap fun e => e.service.source?)).withFilters
          (filters.filterMap fun e => e.service.filter?)).withPolicy
        ((entry.bind fun e => e.service.policy?).getD .overriding)
    (.ok builder.build, { p with services := services })

/-- The context of the current configuration; the default one is built if there is none. -/
def context (p : Provider σ) : Except ConfigError (Context σ) × Provider σ :=
  match p.current with
  | some context => (.ok context, p)
  | none =>
    let (built, p) := p.buildDefault
    match built with
    | .ok context => (.ok context, p.setContext context)
    | .error e => (.error e, p)

end Provider

end LayeredConfig
