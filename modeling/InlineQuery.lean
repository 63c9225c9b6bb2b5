import InlineQuery.Lens
import InlineQuery.Data.Json.Reader
import InlineQuery.Data.Json.Writer
import InlineQuery.Data.Yaml.Document
import InlineQuery.Config.EnvFile
import InlineQuery.Config.Environment
import InlineQuery.Execution.Event
import InlineQuery.Glob
import InlineQuery.Text.Charset
import InlineQuery.Text.Truncate
import InlineQuery.Url
import InlineQuery.Workspace
import InlineQuery.CommandLine.Check
import InlineQuery.CommandLine.Execute
import InlineQuery.CommandLine.Lenses
import InlineQuery.CommandLine.Log
import InlineQuery.CommandLine.Options
import InlineQuery.CommandLine.Program
import InlineQuery.Execution.Iteration
import InlineQuery.Main
import InlineQuery.Proofs.Execution.Ending
import InlineQuery.Proofs.Lens.Lookup
import InlineQuery.Proofs.Subscription.Conversation
import InlineQuery.Proofs.Template.Seam
import InlineQuery.Proofs.Session.Freshness
import InlineQuery.Proofs.Config.Reading
import InlineQuery.Proofs.Definitions.Boundaries
import InlineQuery.Proofs.Definitions.Seam
import InlineQuery.Proofs.Operation.Joining
import InlineQuery.Proofs.Resolver.Memory
import InlineQuery.Proofs.Resolver.Run
import InlineQuery.Proofs.Subscription.Noise
import InlineQuery.Proofs.Session.Views
import InlineQuery.Proofs.Template.Designation
import InlineQuery.Proofs.CommandLine.Endpoints
import InlineQuery.Proofs.Template.Stability
import InlineQuery.Proofs.Template.Enclosing
import InlineQuery.Proofs.Template.CarriageReturn
import InlineQuery.Proofs.Definitions.Partition
import InlineQuery.Proofs.Template.Tagging
import InlineQuery.Proofs.Operation.Siblings
import InlineQuery.Proofs.Operation.Places
import InlineQuery.Proofs.Execution.Answering
import InlineQuery.Proofs.Resolver.Invalidation
import InlineQuery.Proofs.Config.Settling
import InlineQuery.Proofs.Execution.Breakdown
import InlineQuery.Proofs.Config.Portable
import InlineQuery.Proofs.Execution.Viewing
import InlineQuery.Proofs.Config.Expansion
import InlineQuery.Proofs.Path.Thinning
import InlineQuery.Proofs.CommandLine.Naming
import InlineQuery.Proofs.Lens.Offsets
import InlineQuery.Proofs.Lens.Cache
import InlineQuery.Proofs.CommandLine.Values
import InlineQuery.Proofs.Execution.Headers
import InlineQuery.Proofs.Path.Documents
import InlineQuery.Proofs.Resolver.Owner
import InlineQuery.Proofs.Url.Parts
import InlineQuery.Proofs.Text.Positions
import InlineQuery.Proofs.Definitions.BlockStrings
import InlineQuery.Proofs.Template.Regex
