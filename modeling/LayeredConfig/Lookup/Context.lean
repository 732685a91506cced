import LayeredConfig.Convert.Registry
import LayeredConfig.Lookup.Combination
import LayeredConfig.Lookup.Filter

/-!
# Configuration contexts

A context holds everything that a configuration resolves through: the sources, ranked from the
highest ordinal to the lowest and by the order of their addition where ordinals are equal, the
filters, the combination policy and the converters.

Contexts do not change. A builder collects the parts, ranks the sources when it is done, and lets
the registry discover converters unless it is told not to. The builder of an existing context
starts with that context's parts and does not discover again.
-/

set_option autoImplicit false

namespace LayeredConfig

/-- What a configuration resolves through. -/
structure Context (σ : Type) where
  sources : List σ
  filters : List Filter
  policy : CombinationPolicy
  converters : Registry

/-- The parts of a context to be. -/
structure ContextBuilder (σ : Type) where
  sources : List σ
  filters : List Filter
  policy : CombinationPolicy
  converters : Registry
  discovers : Bool

variable {σ : Type}

namespace ContextBuilder

/-- A builder without sources and filters, with a new registry that is to discover converters. -/
def start (catalogue : Catalogue) : ContextBuilder σ :=
  ⟨[], [], .overriding, .empty catalogue, true⟩

/-- Adds sources after those that are there. -/
def withSources (b : ContextBuilder σ) (sources : List σ) : ContextBuilder σ :=
  { b with sources := b.sources ++ sources }

/-- Leaves out every source of the given name. -/
def withoutSource [Source σ] (b : ContextBuilder σ) (name : String) : ContextBuilder σ :=
  { b with sources := b.sources.filter fun s => Source.name s != name }

/-- Adds filters after those that are there. -/
def withFilters (b : ContextBuilder σ) (filters : List Filter) : ContextBuilder σ :=
  { b with filters := b.filters ++ filters }

def withPolicy (b : ContextBuilder σ) (policy : CombinationPolicy) : ContextBuilder σ :=
  { b with policy := policy }

def withConverters (b : ContextBuilder σ) (converters : Registry) : ContextBuilder σ :=
  { b with converters := converters }

def withDiscovery (b : ContextBuilder σ) (discovers : Bool) : ContextBuilder σ :=
  { b with discovers := discovers }

def build [Source σ] (b : ContextBuilder σ) : Context σ where
  sources := Ranking.descending Source.ordinal b.sources
  filters := b.filters
  policy := b.policy
  converters := if b.discovers then b.converters.discover.2 else b.converters

end ContextBuilder

namespace Context

def toBuilder (c : Context σ) : ContextBuilder σ :=
  ⟨c.sources, c.filters, c.policy, c.converters, false⟩

variable [Source σ]

/-- The sources as they answer look-ups, from the highest to the lowest. -/
def readers (c : Context σ) : List Reader := c.sources.map Source.reader

def sourceNames (c : Context σ) : List String := c.sources.map Source.name

/-- The highest source of the given name. -/
def source? (c : Context σ) (name : String) : Option σ :=
  c.sources.find? fun s => Source.name s == name

def filterNames (c : Context σ) : List String := c.filters.map Filter.name

/-- Lets the registry discover converters, and counts the bundles it has applied. -/
def discover (c : Context σ) : Nat × Context σ :=
  let (count, converters) := c.converters.discover
  (count, { c with converters := converters })

def enter (c : Context σ) (entry : RegistryEntry) : Context σ :=
  { c with converters := c.converters.enter entry }

def describe (c : Context σ) : String :=
  "ConfigurationContext \x7b sources: " ++
    Text.quotedList (c.sources.map fun s =>
      Source.name s ++ " (" ++ toString (Source.ordinal s) ++ ")") ++
    ", filters: " ++ Text.quotedList c.filterNames ++ ", .. \x7d"

def describeConfiguration (c : Context σ) : String :=
  "Configuration \x7b context: " ++ c.describe ++ " \x7d"

end Context

end LayeredConfig
