import AssemblyDigest.Main
import AssemblyDigest.Proofs.Block.Balance
import AssemblyDigest.Proofs.Block.Continuation
import AssemblyDigest.Proofs.Block.Depth
import AssemblyDigest.Proofs.Block.Division
import AssemblyDigest.Proofs.Block.Lockstep
import AssemblyDigest.Proofs.Block.Opening
import AssemblyDigest.Proofs.Block.Registers
import AssemblyDigest.Proofs.Block.SourceText
import AssemblyDigest.Proofs.Block.Stability
import AssemblyDigest.Proofs.Command.Choices
import AssemblyDigest.Proofs.Command.Ending
import AssemblyDigest.Proofs.Command.Layers
import AssemblyDigest.Proofs.Command.Rerun
import AssemblyDigest.Proofs.Config.Acceptance
import AssemblyDigest.Proofs.Config.Precedence
import AssemblyDigest.Proofs.Config.RoundTrip
import AssemblyDigest.Proofs.Json.Exactness
import AssemblyDigest.Proofs.Json.Grammar
import AssemblyDigest.Proofs.Json.Pretty
import AssemblyDigest.Proofs.Json.Reader
import AssemblyDigest.Proofs.Path.BaseName
import AssemblyDigest.Proofs.Path.Below
import AssemblyDigest.Proofs.Report.ListedNames
import AssemblyDigest.Proofs.Report.Pushes
import AssemblyDigest.Proofs.Report.ReadJson
import AssemblyDigest.Proofs.Report.ReadMarkdown
import AssemblyDigest.Proofs.Scan.Decoding
import AssemblyDigest.Proofs.Scan.Faults
import AssemblyDigest.Proofs.Scan.Receiver
import AssemblyDigest.Proofs.Scan.Reported
import AssemblyDigest.Proofs.Scan.ScopeFile
import AssemblyDigest.Proofs.Scan.Unread
import AssemblyDigest.Proofs.Scan.Workspace
import AssemblyDigest.Proofs.Scope.Declared
import AssemblyDigest.Proofs.Scope.Listing
import AssemblyDigest.Proofs.Scope.Resolution
import AssemblyDigest.Proofs.Scope.Search
import AssemblyDigest.Proofs.Scope.Sources
import AssemblyDigest.Proofs.Text.Layout
import AssemblyDigest.Proofs.Text.Lines
import AssemblyDigest.Proofs.Text.Pieces
import AssemblyDigest.Proofs.Text.Trim
import AssemblyDigest.Proofs.Toml.Lines
import AssemblyDigest.Proofs.Toml.Names
import AssemblyDigest.Proofs.Toml.Spelling
import AssemblyDigest.Proofs.Utf8.Decode
import AssemblyDigest.Proofs.Utf8.Encode
import AssemblyDigest.Proofs.Utf8.Locality
import AssemblyDigest.Proofs.Volume.Alike
import AssemblyDigest.Proofs.Volume.Changes
import AssemblyDigest.Proofs.Volume.Enumeration
import AssemblyDigest.Proofs.Volume.LinkFree
import AssemblyDigest.Proofs.Volume.NameOrder
import AssemblyDigest.Proofs.Volume.OwnName
import AssemblyDigest.Proofs.Volume.Reach
import AssemblyDigest.Proofs.Volume.Reading
import AssemblyDigest.Proofs.Volume.WalkStart
import AssemblyDigest.Proofs.Volume.Way
import AssemblyDigest.Proofs.Volume.WellFormed
import AssemblyDigest.Proofs.Volume.Written
