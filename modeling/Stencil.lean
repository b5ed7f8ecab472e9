import Stencil.Error
import Stencil.Files.Change
import Stencil.Files.Scan
import Stencil.Files.Tree
import Stencil.Files.Walk
import Stencil.Json.Printer
import Stencil.Json.Reader
import Stencil.Json.Value
import Stencil.Json.Writer
import Stencil.Module.Text
import Stencil.Number.Binary64
import Stencil.Number.Decimal
import Stencil.Options.Compile
import Stencil.Options.Plugin
import Stencil.Options.Shape
import Stencil.Options.Toml
import Stencil.Page.Data
import Stencil.Page.Engine
import Stencil.Page.ReadyMade
import Stencil.Page.Renderer
import Stencil.Partials.Cache
import Stencil.Partials.Checked
import Stencil.Partials.Naming
import Stencil.Partials.Provider
import Stencil.Partials.Registry
import Stencil.Path.Basic
import Stencil.Path.Below
import Stencil.Path.Lexical
import Stencil.Path.Storage
import Stencil.Plugin.Basic
import Stencil.Plugin.Watcher
import Stencil.Proofs.Files.Depth
import Stencil.Proofs.Files.LinkFree
import Stencil.Proofs.Files.Listing
import Stencil.Proofs.Files.Resolution
import Stencil.Proofs.Files.Scan
import Stencil.Proofs.Files.Walk
import Stencil.Proofs.Files.WellFormed
import Stencil.Proofs.Json.Literal
import Stencil.Proofs.Json.Object
import Stencil.Proofs.Json.WellFormed
import Stencil.Proofs.Module.Prototype
import Stencil.Proofs.Module.Reading
import Stencil.Proofs.Module.Runtime
import Stencil.Proofs.Options.Alike
import Stencil.Proofs.Options.Documented
import Stencil.Proofs.Options.Literal
import Stencil.Proofs.Options.Reading
import Stencil.Proofs.Options.Shape
import Stencil.Proofs.Options.Toml
import Stencil.Proofs.Page.Calls
import Stencil.Proofs.Page.Environment
import Stencil.Proofs.Page.FirstRegistration
import Stencil.Proofs.Page.Helpers
import Stencil.Proofs.Page.Leftovers
import Stencil.Proofs.Page.Options
import Stencil.Proofs.Page.Outcome
import Stencil.Proofs.Page.Partials
import Stencil.Proofs.Page.Rendering
import Stencil.Proofs.Page.Validation
import Stencil.Proofs.Partials.Accepted
import Stencil.Proofs.Partials.Directory
import Stencil.Proofs.Partials.Failure
import Stencil.Proofs.Partials.Load
import Stencil.Proofs.Partials.Location
import Stencil.Proofs.Partials.Memo
import Stencil.Proofs.Partials.Names
import Stencil.Proofs.Partials.Naming
import Stencil.Proofs.Partials.Origin
import Stencil.Proofs.Partials.Work
import Stencil.Proofs.Path.Below
import Stencil.Proofs.Path.Containment
import Stencil.Proofs.Path.NormalForm
import Stencil.Proofs.Path.Order
import Stencil.Proofs.Path.Routes
import Stencil.Proofs.Plugin.Accounting
import Stencil.Proofs.Plugin.Freshness
import Stencil.Proofs.Plugin.Location
import Stencil.Proofs.Plugin.Pages
import Stencil.Proofs.Plugin.Reaction
import Stencil.Proofs.Plugin.Spelling
import Stencil.Proofs.Render.Calls
import Stencil.Proofs.Sorted
import Stencil.Proofs.Template.Grammar
import Stencil.Proofs.Template.Line
import Stencil.Proofs.Template.Rejected
import Stencil.Proofs.Toml.Distinct
import Stencil.Proofs.Toml.Lines
import Stencil.Proofs.Toml.Quoted
import Stencil.Proofs.Toml.Table
import Stencil.Render.Builtin
import Stencil.Render.Element
import Stencil.Render.Evaluate
import Stencil.Render.Failure
import Stencil.Render.Scope
import Stencil.Render.Text
import Stencil.Render.Value
import Stencil.Sorted
import Stencil.Template.Check
import Stencil.Template.Cursor
import Stencil.Template.Expression
import Stencil.Template.Grammar
import Stencil.Template.Layout
import Stencil.Template.Lexeme
import Stencil.Template.Peg
import Stencil.Template.Piece
import Stencil.Template.Rejection
import Stencil.Text.CodePoints
import Stencil.Text.Lines
import Stencil.Text.Quoted
import Stencil.Text.Upper
import Stencil.Toml.Quoted
import Stencil.Toml.Reader
import Stencil.Toml.Scalar
import Stencil.Toml.Table
import Stencil.Toml.Value
import Stencil.Toml.Writer
