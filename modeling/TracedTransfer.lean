import TracedTransfer.Json.Reader
import TracedTransfer.Main
import TracedTransfer.Operation.Program
import TracedTransfer.Operation.Threads
import TracedTransfer.Resource.Memory
import TracedTransfer.Proofs.Operation.Nesting
import TracedTransfer.Proofs.Resource.Transparency
import TracedTransfer.Proofs.Resource.FileFetch
import TracedTransfer.Proofs.Storage.AllOrNothing
import TracedTransfer.Proofs.Operation.Course
import TracedTransfer.Proofs.Operation.Remaining
import TracedTransfer.Proofs.Operation.Interleaving
import TracedTransfer.Proofs.Operation.Alone
import TracedTransfer.Proofs.Http.Wire
import TracedTransfer.Proofs.Http.Chain
import TracedTransfer.Proofs.Resource.WebOutcome
import TracedTransfer.Proofs.Resource.WebHeaders
import TracedTransfer.Proofs.Storage.Creatable
import TracedTransfer.Proofs.Resource.ReadVariants
import TracedTransfer.Proofs.Operation.StartPanic
import TracedTransfer.Proofs.Operation.FinishPanic
import TracedTransfer.Proofs.Operation.TraceLog
import TracedTransfer.Proofs.Resource.PutGet
import TracedTransfer.Proofs.Resource.Filename
import TracedTransfer.Proofs.Url.Address
import TracedTransfer.Proofs.Url.Percent
import TracedTransfer.Proofs.Url.Scheme
import TracedTransfer.Proofs.Resource.Resolve
import TracedTransfer.Proofs.Toml.Quoted
import TracedTransfer.Proofs.Text.Letter
import TracedTransfer.Proofs.Toml.Printer
import TracedTransfer.Proofs.Toml.Whole
import TracedTransfer.Proofs.Config.Document
import TracedTransfer.Proofs.Config.RoundTrip
import TracedTransfer.Proofs.Url.Punycode
import TracedTransfer.Proofs.Unicode.Lower
import TracedTransfer.Proofs.Text.Separator
import TracedTransfer.Proofs.Url.Domain
import TracedTransfer.Proofs.Url.Host
import TracedTransfer.Proofs.Url.Path
import TracedTransfer.Proofs.Url.Authority
import TracedTransfer.Proofs.Url.Settled
import TracedTransfer.Proofs.Url.RoundTrip
import TracedTransfer.Proofs.Resource.DisplayName
import TracedTransfer.Proofs.Resource.Transport
import TracedTransfer.Proofs.Resource.LocalPath
import TracedTransfer.Proofs.Resource.Subpath
import TracedTransfer.Proofs.Effect
import TracedTransfer.Proofs.Resource.Likeness
import TracedTransfer.Proofs.Http.Anonymity
import TracedTransfer.Proofs.Resource.WebUsers
import TracedTransfer.Proofs.Command.Progress
import TracedTransfer.Proofs.Io.Pieces
import TracedTransfer.Proofs.Digest.Standard
import TracedTransfer.Proofs.Digest.Blocks
import TracedTransfer.Proofs.Digest.Conformance
import TracedTransfer.Proofs.Digest.Streaming
import TracedTransfer.Proofs.Command.Disclosure
import TracedTransfer.Proofs.FileSystem.Inside
import TracedTransfer.Proofs.Storage.Vacant
import TracedTransfer.Proofs.Resource.Opening
import TracedTransfer.Proofs.Command.Download
import TracedTransfer.Proofs.Io.Client
import TracedTransfer.Proofs.Resource.ByteCount
import TracedTransfer.Proofs.Resource.Checksum
import TracedTransfer.Proofs.Resource.Absence
import TracedTransfer.Proofs.Operation.Body
import TracedTransfer.Proofs.Plugin.History
import TracedTransfer.Proofs.Resource.HeaderFields
import TracedTransfer.Proofs.Config.Loading
import TracedTransfer.Proofs.Command.Lines
