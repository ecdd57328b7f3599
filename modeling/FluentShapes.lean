import FluentShapes.Bundler
import FluentShapes.Command.Basic
import FluentShapes.Command.Compile
import FluentShapes.Command.Infer
import FluentShapes.Command.Init
import FluentShapes.Command.Line
import FluentShapes.Command.Run
import FluentShapes.Command.Session
import FluentShapes.Compilation
import FluentShapes.Config
import FluentShapes.Declaration.Buffer
import FluentShapes.Declaration.Module
import FluentShapes.Declaration.Type
import FluentShapes.Diagnostic.Basic
import FluentShapes.Diagnostic.Report
import FluentShapes.Distinct
import FluentShapes.File.Path
import FluentShapes.File.Tree
import FluentShapes.Index.Basic
import FluentShapes.Index.Json
import FluentShapes.Json.Basic
import FluentShapes.Json.Reader
import FluentShapes.Locale
import FluentShapes.Main
import FluentShapes.Numeral.Basic
import FluentShapes.Numeral.Binary64
import FluentShapes.Numeral.Shortest
import FluentShapes.Proofs.Address
import FluentShapes.Proofs.Bundler
import FluentShapes.Proofs.Compilation
import FluentShapes.Proofs.CompileRun
import FluentShapes.Proofs.Configuration
import FluentShapes.Proofs.Decimal
import FluentShapes.Proofs.Declaration
import FluentShapes.Proofs.FileRequest
import FluentShapes.Proofs.FileTree
import FluentShapes.Proofs.Header
import FluentShapes.Proofs.Index
import FluentShapes.Proofs.IndexJson
import FluentShapes.Proofs.Inference
import FluentShapes.Proofs.Insertion
import FluentShapes.Proofs.Json
import FluentShapes.Proofs.JsonGrammar
import FluentShapes.Proofs.Junk
import FluentShapes.Proofs.Keys
import FluentShapes.Proofs.Lines
import FluentShapes.Proofs.Literal
import FluentShapes.Proofs.Loading
import FluentShapes.Proofs.Locale
import FluentShapes.Proofs.LocaleLine
import FluentShapes.Proofs.Location
import FluentShapes.Proofs.Merge
import FluentShapes.Proofs.Module
import FluentShapes.Proofs.NormalForm
import FluentShapes.Proofs.Numeral
import FluentShapes.Proofs.OutputPath
import FluentShapes.Proofs.Path
import FluentShapes.Proofs.Policy
import FluentShapes.Proofs.Preorder
import FluentShapes.Proofs.Project
import FluentShapes.Proofs.Readability
import FluentShapes.Proofs.Representable
import FluentShapes.Proofs.Request
import FluentShapes.Proofs.Rounding
import FluentShapes.Proofs.Scope
import FluentShapes.Proofs.Shortest
import FluentShapes.Proofs.Store
import FluentShapes.Request
import FluentShapes.Resource.Basic
import FluentShapes.Resource.Blank
import FluentShapes.Resource.Chunk
import FluentShapes.Resource.Entries
import FluentShapes.Resource.Fault
import FluentShapes.Resource.Grammar
import FluentShapes.Resource.Reading
import FluentShapes.Resource.Token
import FluentShapes.Shape.Basic
import FluentShapes.Shape.Inference
import FluentShapes.Shape.Scope
import FluentShapes.Table
import FluentShapes.Text.Classes
import FluentShapes.Text.Position
import FluentShapes.Text.Rest
