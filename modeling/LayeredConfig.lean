import LayeredConfig.Main
import LayeredConfig.Proofs.Alike
import LayeredConfig.Proofs.Properties.RoundTrip
import LayeredConfig.Proofs.Store.Reads
import LayeredConfig.Proofs.Store.Reload
import LayeredConfig.Proofs.Configuration.Reload
import LayeredConfig.Proofs.Role.Inspection
import LayeredConfig.Proofs.Role.Reload
import LayeredConfig.Proofs.Configuration.Presence
import LayeredConfig.Proofs.Role.Verdict
import LayeredConfig.Proofs.Loader
import LayeredConfig.Proofs.Role.Validated
import LayeredConfig.Proofs.Configuration.Observers
import LayeredConfig.Proofs.Configuration.Accessors
import LayeredConfig.Proofs.Configuration.Defaults
import LayeredConfig.Proofs.Role.Defaults
import LayeredConfig.Proofs.Configuration.Metrics
import LayeredConfig.Proofs.Configuration.Offers
import LayeredConfig.Proofs.Role.Lines
import LayeredConfig.Proofs.Known
import LayeredConfig.Proofs.Observer.Form
import LayeredConfig.Proofs.Configuration.Failures
import LayeredConfig.Proofs.Command.Outcome
import LayeredConfig.Proofs.Store.TypedReads
import LayeredConfig.Proofs.Observer.Grammar
import LayeredConfig.Proofs.Configuration.Rewriting
import LayeredConfig.Proofs.Store.Cycles
import LayeredConfig.Proofs.Store.Dependence
import LayeredConfig.Proofs.Properties.Joining
import LayeredConfig.Proofs.Properties.Spacing
import LayeredConfig.Proofs.Properties.Scanning
import LayeredConfig.Proofs.Store.Interleaving
import LayeredConfig.Proofs.Configuration.Client
import LayeredConfig.Proofs.Configuration.Nesting
import LayeredConfig.Proofs.Configuration.Fallbacks
import LayeredConfig.Proofs.Configuration.Listing
import LayeredConfig.Proofs.Document
import LayeredConfig.Proofs.Configuration.Address
import LayeredConfig.Proofs.Log.Extras
