import DocComment.CommandLine.Arguments
import DocComment.CommandLine.Run
import DocComment.CommandLine.TagValue
import DocComment.Comment.Entry
import DocComment.Comment.Extraction
import DocComment.Comment.Normal
import DocComment.Comment.Section
import DocComment.Configuration.Environment
import DocComment.Configuration.Layers
import DocComment.Digest.Sha256
import DocComment.Document
import DocComment.Error
import DocComment.Fault
import DocComment.Files.Glob
import DocComment.Files.Interface
import DocComment.Files.Package
import DocComment.Files.Path
import DocComment.Files.Tree
import DocComment.Interpretation
import DocComment.Json.Basic
import DocComment.Json.Reader
import DocComment.Json.Token
import DocComment.Json.Writer
import DocComment.Keyed
import DocComment.Literal
import DocComment.Main
import DocComment.Markdown.Html
import DocComment.Markdown.Inline
import DocComment.NamespaceIndex
import DocComment.Number.Basic
import DocComment.Number.Shortest
import DocComment.Order
import DocComment.Pattern.Basic
import DocComment.Pattern.Reader
import DocComment.Person
import DocComment.Proofs.Comment.Draft
import DocComment.Proofs.Comment.Entries
import DocComment.Proofs.Comment.Extraction
import DocComment.Proofs.Comment.Marker
import DocComment.Proofs.Comment.Mention
import DocComment.Proofs.Comment.Normal
import DocComment.Proofs.Comment.Sections
import DocComment.Proofs.Document
import DocComment.Proofs.Interpretation.FirstWriter
import DocComment.Proofs.Interpretation.Isolation
import DocComment.Proofs.Interpretation.Run
import DocComment.Proofs.Keyed
import DocComment.Proofs.Order
import DocComment.Proofs.TagFilter
import DocComment.Proofs.Text.Lines
import DocComment.Proofs.Text.Escape
import DocComment.Proofs.Text.Trim
import DocComment.Rendering
import DocComment.Settings
import DocComment.Slug
import DocComment.Tag.Builtin
import DocComment.Tag.Interface
import DocComment.Tag.Interpreter
import DocComment.Tag.Listing
import DocComment.Tag.Plain
import DocComment.Tag.Prose
import DocComment.Tag.Typed
import DocComment.TagFilter
import DocComment.Text.Alphanumeric
import DocComment.Text.Blank
import DocComment.Text.Column
import DocComment.Text.Cut
import DocComment.Text.Lowercase
import DocComment.Text.Uppercase
import DocComment.Text.Punctuation
import DocComment.Toml.Reader
import DocComment.Toml.Token
import DocComment.TypeExpr
import DocComment.Value
import DocComment.Proofs.Interpretation.Keys
import DocComment.Proofs.Slug
import DocComment.Proofs.Interpretation.Identifier
import DocComment.Proofs.NamespaceIndex
import DocComment.Proofs.Comment.Indentation
import DocComment.Proofs.Comment.Renormal
import DocComment.Proofs.Interpretation.TagOrder
import DocComment.Proofs.Interpretation.Rendering
import DocComment.Proofs.Configuration
import DocComment.Proofs.Document.Refusal
import DocComment.Proofs.Document.Session
import DocComment.Proofs.Comment.NormalComment
import DocComment.Proofs.Document.Projection
import DocComment.Proofs.CommandLine.Sources
import DocComment.Proofs.CommandLine.Strict
import DocComment.Proofs.Comment.Regions
import DocComment.Proofs.Interpretation.Package
import DocComment.Proofs.Files.Location
import DocComment.Proofs.NamespaceIndex.Identity
import DocComment.Proofs.Order.Stability
import DocComment.Proofs.Document.DefaultOrder
import DocComment.Proofs.Slug.Grammar
import DocComment.Proofs.Text.Cut
import DocComment.Proofs.TypeExpr.Brackets
import DocComment.Proofs.TypeExpr.Reading
import DocComment.Proofs.TypeExpr.Printing
import DocComment.Proofs.Rendering
import DocComment.Proofs.Tag.Parameter
import DocComment.Proofs.TagFilter.Rules
import DocComment.Proofs.Person
import DocComment.Proofs.Tag.Example
import DocComment.Proofs.Tag.Alias
import DocComment.Proofs.Value
import DocComment.Proofs.Json.Token
import DocComment.Proofs.Json.Reader
import DocComment.Proofs.Literal
import DocComment.Proofs.Tag.Interface
import DocComment.Proofs.Configuration.Layers
import DocComment.Proofs.CommandLine.FilterTags
import DocComment.Proofs.Tag.Column
import DocComment.Proofs.Interpretation.Context
import DocComment.Proofs.NamespaceIndex.Skipped
import DocComment.Proofs.Toml.Reader
import DocComment.Proofs.Configuration.Environment
import DocComment.Proofs.Configuration.Overlay
import DocComment.Proofs.Configuration.Reading
import DocComment.Proofs.Configuration.Precedence
