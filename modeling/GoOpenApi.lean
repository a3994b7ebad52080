import GoOpenApi.Json.Reader
import GoOpenApi.Main
import GoOpenApi.Proofs.Schema.Supply
import GoOpenApi.Proofs.Schema.Registration
import GoOpenApi.Proofs.Action
import GoOpenApi.Proofs.Schema.References
import GoOpenApi.Proofs.Document.References
import GoOpenApi.Proofs.Schema.Building
import GoOpenApi.Proofs.Schema.Termination
import GoOpenApi.Proofs.Schema.Depth
import GoOpenApi.Proofs.Files.Path
import GoOpenApi.Proofs.Module.Search
import GoOpenApi.Proofs.Resolve.Budget
import GoOpenApi.Proofs.Resolve.Determinism
import GoOpenApi.Proofs.Resolve.Order
import GoOpenApi.Proofs.Go.Signature
import GoOpenApi.Proofs.Service.Loading
import GoOpenApi.Proofs.Schema.Containers
import GoOpenApi.Proofs.Document.Containers
import GoOpenApi.Proofs.Files.Order
import GoOpenApi.Proofs.Module.History
import GoOpenApi.Proofs.Schema.Order
import GoOpenApi.Proofs.Document.Arguments
import GoOpenApi.Proofs.Document.Results
import GoOpenApi.Proofs.Service.Embedding
import GoOpenApi.Proofs.Resolve.Names
import GoOpenApi.Proofs.Resolve.Failure
import GoOpenApi.Proofs.Text.Case
import GoOpenApi.Proofs.Service.Route
import GoOpenApi.Proofs.Document.Calls
import GoOpenApi.Proofs.Schema.Required
import GoOpenApi.Proofs.Document.Schemas
import GoOpenApi.Proofs.Document.Required
import GoOpenApi.Proofs.Relation
import GoOpenApi.Proofs.Resolve.Related
import GoOpenApi.Proofs.Resolve.Repeating
import GoOpenApi.Proofs.Schema.Repeating
import GoOpenApi.Proofs.Resolve.Finding
import GoOpenApi.Proofs.Resolve.Lockstep
import GoOpenApi.Proofs.Service.Related
import GoOpenApi.Proofs.Service.Filtering
import GoOpenApi.Proofs.Files.Names
import GoOpenApi.Proofs.Files.Writing
import GoOpenApi.Proofs.Files.Reading
import GoOpenApi.Proofs.Files.Saving
import GoOpenApi.Proofs.Module.Unchanged
import GoOpenApi.Proofs.Document.Lockstep
import GoOpenApi.Proofs.Generation.Failure
import GoOpenApi.Proofs.Generation.Repeating
import GoOpenApi.Proofs.Text.Split
import GoOpenApi.Proofs.Text.Number
import GoOpenApi.Proofs.Json.Parts
import GoOpenApi.Proofs.Json.Reading
import GoOpenApi.Proofs.Json.Texts
import GoOpenApi.Proofs.Go.Codec
import GoOpenApi.Proofs.Schema.Codec
import GoOpenApi.Proofs.Document.Codec
import GoOpenApi.Proofs.Yaml.Scalar
import GoOpenApi.Proofs.Yaml.Literal
import GoOpenApi.Proofs.Yaml.Lead
import GoOpenApi.Proofs.Yaml.Injective
import GoOpenApi.Proofs.Document.Distinct
import GoOpenApi.Proofs.Go.Lexeme
import GoOpenApi.Proofs.Go.Layout
import GoOpenApi.Proofs.Go.Tag
import GoOpenApi.Proofs.Go.Words
import GoOpenApi.Proofs.Go.Reads
import GoOpenApi.Proofs.Go.TypeReading
import GoOpenApi.Proofs.Go.MemberReading
import GoOpenApi.Proofs.Go.FileReading
import GoOpenApi.Proofs.Schema.Ids
import GoOpenApi.Proofs.Schema.Histories
import GoOpenApi.Proofs.Document.Slots
import GoOpenApi.Proofs.Document.Success
import GoOpenApi.Proofs.Document.Renaming
import GoOpenApi.Proofs.Document.Agreement
import GoOpenApi.Proofs.Document.Unsupported
import GoOpenApi.Proofs.Resolve.Following
import GoOpenApi.Proofs.Schema.Promotion
import GoOpenApi.Proofs.Schema.Shadowing
import GoOpenApi.Proofs.Schema.Members
import GoOpenApi.Proofs.Resolve.Termination
import GoOpenApi.Proofs.Service.Qualifying
import GoOpenApi.Proofs.Service.Histories
import GoOpenApi.Proofs.Service.Fields
import GoOpenApi.Proofs.Schema.Scalars
import GoOpenApi.Proofs.Service.Segments
import GoOpenApi.Proofs.Service.Binding
import GoOpenApi.Proofs.Document.PathParameters
import GoOpenApi.Proofs.Directive
import GoOpenApi.Proofs.Document.Responses
import GoOpenApi.Proofs.Document.Bodies
import GoOpenApi.Proofs.Go.Imports
import GoOpenApi.Proofs.Go.Advancing
import GoOpenApi.Proofs.Go.Comments
import GoOpenApi.Proofs.Go.Supply
import GoOpenApi.Proofs.Go.Documenting
import GoOpenApi.Proofs.Module.Mapping
import GoOpenApi.Proofs.Module.ImportPath
import GoOpenApi.Proofs.CommandLine.Paths
import GoOpenApi.Proofs.Module.GoMod
import GoOpenApi.Proofs.Dict
import GoOpenApi.Proofs.Text.Blank
import GoOpenApi.Proofs.Directive.Block
import GoOpenApi.Proofs.Directive.Writing
import GoOpenApi.Proofs.Document.Overrides
import GoOpenApi.Proofs.Module.Escaping
import GoOpenApi.Proofs.Document.Servers
import GoOpenApi.Proofs.Text.LowerCamel
