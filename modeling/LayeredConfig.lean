import LayeredConfig.Logging
import LayeredConfig.Lookup.Bulk
import LayeredConfig.Lookup.Masking
import LayeredConfig.Proofs.Convert.Caching
import LayeredConfig.Proofs.Convert.Characters
import LayeredConfig.Proofs.Convert.Inheritance
import LayeredConfig.Proofs.Convert.Lifting
import LayeredConfig.Proofs.Convert.Resolution
import LayeredConfig.Proofs.Convert.Search
import LayeredConfig.Proofs.Convert.WholeNumbers
import LayeredConfig.Proofs.Exclusion
import LayeredConfig.Proofs.Lookup.Agreement
import LayeredConfig.Proofs.Lookup.Conversion
import LayeredConfig.Proofs.Lookup.Failures
import LayeredConfig.Proofs.Lookup.Nesting
import LayeredConfig.Proofs.Lookup.Precedence
import LayeredConfig.Proofs.Lookup.Secrecy
import LayeredConfig.Proofs.Lookup.Sharing
import LayeredConfig.Proofs.Service.Default
import LayeredConfig.Proofs.Source.Prefixes
import LayeredConfig.Proofs.Transaction.Abandonment
import LayeredConfig.Proofs.Transaction.Atomicity
import LayeredConfig.Proofs.Transaction.Batching
import LayeredConfig.Proofs.Transaction.Discipline
import LayeredConfig.Proofs.Transaction.Gathering
import LayeredConfig.Proofs.Transaction.Naming
import LayeredConfig.Proofs.Transaction.ReadBack
import LayeredConfig.Proofs.Transaction.Refusals
import LayeredConfig.Proofs.Transaction.Routing
import LayeredConfig.Proofs.Transaction.Serializability
import LayeredConfig.Sample.Catalogue
import LayeredConfig.Sample.Rules
import LayeredConfig.Source.Any
import LayeredConfig.Source.Tagged
import LayeredConfig.Transaction.Pending
import LayeredConfig.Transaction.Query
