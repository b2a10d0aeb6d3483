import SenderPolicy.Startup
import SenderPolicy.Number.Shortest
import SenderPolicy.Proofs.Action
import SenderPolicy.Proofs.Number.Rounding
import SenderPolicy.Proofs.Cache.Effects
import SenderPolicy.Proofs.Cache.Time
import SenderPolicy.Proofs.Cache.Operations
import SenderPolicy.Proofs.Run
import SenderPolicy.Proofs.Resolution
import SenderPolicy.Proofs.Address.Written
import SenderPolicy.Proofs.Dns.Presentation
import SenderPolicy.Proofs.Dns.Texts
import SenderPolicy.Proofs.MacroString.Grammar
import SenderPolicy.Proofs.MacroString.Scanning
import SenderPolicy.Proofs.ValidatedName.Names
import SenderPolicy.Proofs.ValidatedName.Choice
import SenderPolicy.Proofs.ValidatedName.Freshness
import SenderPolicy.Proofs.ValidatedName.Confirmation
import SenderPolicy.Proofs.Expansion.Failures
import SenderPolicy.Proofs.Expansion.Concatenation
import SenderPolicy.Proofs.Expansion.Rejection
import SenderPolicy.Proofs.Address.Compressed
import SenderPolicy.Proofs.ValidatedName.CacheKey
import SenderPolicy.Proofs.ValidatedName.Lookups
import SenderPolicy.Proofs.Expansion.Effects
import SenderPolicy.Proofs.Expansion.DomainSpec
import SenderPolicy.Proofs.MacroString.Transformation
import SenderPolicy.Proofs.MacroString.Viability
import SenderPolicy.Proofs.MacroString.Continuation
import SenderPolicy.Proofs.MacroString.Restriction
import SenderPolicy.Proofs.ValidatedName.Entries
import SenderPolicy.Proofs.Expansion.Repetition
import SenderPolicy.Proofs.Expansion.PointerName
import SenderPolicy.Proofs.MacroString.Labels
import SenderPolicy.Proofs.Text.PercentEncoded
import SenderPolicy.Proofs.MacroString.Encoding
import SenderPolicy.Proofs.Expansion.Bindings
import SenderPolicy.Proofs.Expansion.FixedPoint
import SenderPolicy.Proofs.Session
import SenderPolicy.Proofs.Reporting
import SenderPolicy.Proofs.Expansion.Reports
import SenderPolicy.Proofs.Cache.Isolation
import SenderPolicy.Proofs.Cache.Interchange
import SenderPolicy.Proofs.Expansion.Backends
import SenderPolicy.Proofs.Expansion.Faults
import SenderPolicy.Proofs.Expansion.ReceivingHost
import SenderPolicy.Proofs.Startup
