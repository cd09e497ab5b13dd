import WebBundle.Text.Identifier
import WebBundle.Text.Quoted
import WebBundle.Text.FileName
import WebBundle.Text.Digit
import WebBundle.Filename.Worklet
import WebBundle.Decimal.Text
import WebBundle.Digest
import WebBundle.Path
import WebBundle.Files.Tree
import WebBundle.Resolver.Basic
import WebBundle.Module.Kind
import WebBundle.Module.Id
import WebBundle.Diagnostics
import WebBundle.Graph.Loader
import WebBundle.Output.Asset
import WebBundle.Plugin.Basic
import WebBundle.Bundler
import WebBundle.Text.Printable
import WebBundle.Json.Document
import WebBundle.Json.Record
import WebBundle.Options
import WebBundle.Worklet.Compilation
import WebBundle.Syntax.Token
import WebBundle.Syntax.Lexer
import WebBundle.Syntax.Grammar.Name
import WebBundle.Scan.Findings
import WebBundle.Syntax.Writing.Module
import WebBundle.Worklet.AddModule
import WebBundle.Proofs.Worklet.Distinct
import WebBundle.Proofs.Build.Transparency
import WebBundle.Proofs.Path.Names
import WebBundle.Proofs.Search.Graph
import WebBundle.Proofs.Search.Termination
import WebBundle.Proofs.Syntax.Expression
import WebBundle.Proofs.Worklet.ModuleCode
import WebBundle.Proofs.Search.Reached
import WebBundle.Proofs.Output.Order
import WebBundle.Proofs.Worklet.Exact
import WebBundle.Proofs.Syntax.Names
import WebBundle.Proofs.Worklet.Conservative
import WebBundle.Proofs.Edits.Apart
import WebBundle.Proofs.Output.Keys
import WebBundle.Proofs.Build.Scanned
import WebBundle.Proofs.Search.Later
import WebBundle.Proofs.Files.Written
import WebBundle.Proofs.Output.Hashed
import WebBundle.Proofs.Worklet.Locality
import WebBundle.Proofs.Cancellation.Calls
import WebBundle.Proofs.Json.Parts
import WebBundle.Proofs.Worklet.Codec
import WebBundle.Proofs.Search.Distance
import WebBundle.Proofs.Search.Queue
import WebBundle.Proofs.Search.Unloaded
import WebBundle.Proofs.Worklet.Failures
import WebBundle.Proofs.Output.Imports
import WebBundle.Proofs.Worklet.Delivery
import WebBundle.Proofs.Filename.Worklet
import WebBundle.Proofs.Worklet.Lookup
import WebBundle.Proofs.Scan.Requests
import WebBundle.Proofs.Build.Rounds
import WebBundle.Proofs.Worklet.Filenames
import WebBundle.Proofs.Worklet.Relocated
import WebBundle.Proofs.Output.Spliced
import WebBundle.Proofs.Output.Once
import WebBundle.Proofs.Output.Usage
import WebBundle.Proofs.Output.Literals
import WebBundle.Proofs.Diagnostics.Shared
import WebBundle.Proofs.Build.Sharing
import WebBundle.Proofs.Output.PublicPath
import WebBundle.Proofs.Scan.Documents
