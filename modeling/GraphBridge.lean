import GraphBridge.Command.Display
import GraphBridge.Command.Failure
import GraphBridge.Command.File
import GraphBridge.Command.Request
import GraphBridge.Command.Run
import GraphBridge.Command.Words
import GraphBridge.Compile.Argument
import GraphBridge.Compile.Compiler
import GraphBridge.Compile.MutationName
import GraphBridge.Compile.Projection
import GraphBridge.Compile.Read
import GraphBridge.Compile.Selection
import GraphBridge.Compile.Write
import GraphBridge.Config
import GraphBridge.Decimal.Basic
import GraphBridge.Decimal.Shortest
import GraphBridge.Error
import GraphBridge.Grammar.Basic
import GraphBridge.Grammar.Quoted
import GraphBridge.Grammar.Value
import GraphBridge.Graph
import GraphBridge.Json.Basic
import GraphBridge.Json.Number
import GraphBridge.Json.Printer
import GraphBridge.Json.Reader
import GraphBridge.Main
import GraphBridge.Operation.Document
import GraphBridge.Operation.Reader
import GraphBridge.Operation.Source
import GraphBridge.Query.Fragment
import GraphBridge.Query.Literal
import GraphBridge.Query.Placeholder
import GraphBridge.Query.Token
import GraphBridge.Resolve
import GraphBridge.Response.Reshape
import GraphBridge.Response.Typed
import GraphBridge.Schema.Definition
import GraphBridge.Schema.Descriptor
import GraphBridge.Schema.Document
import GraphBridge.Schema.Index
import GraphBridge.Schema.Reader
import GraphBridge.Statement.Builder
import GraphBridge.Statement.Clause
import GraphBridge.Statement.Text
import GraphBridge.Table
import GraphBridge.Text.Alphabetic
import GraphBridge.Text.Ascii
import GraphBridge.Text.Blank
import GraphBridge.Text.Casing
import GraphBridge.Text.Columns
import GraphBridge.Text.Distance
import GraphBridge.Text.Grid
import GraphBridge.Text.Identifier
import GraphBridge.Text.Ligature
import GraphBridge.Text.Numeric
import GraphBridge.Text.Picture
import GraphBridge.Text.Ranges
import GraphBridge.Text.Width
import GraphBridge.Text.Word
import GraphBridge.Proofs.Tables
import GraphBridge.Proofs.Emission
import GraphBridge.Proofs.Builder
import GraphBridge.Proofs.Renaming
import GraphBridge.Proofs.Scope
import GraphBridge.Proofs.Plain
import GraphBridge.Proofs.Rendering
import GraphBridge.Proofs.Naming
import GraphBridge.Proofs.Spelling
import GraphBridge.Proofs.Wording
import GraphBridge.Proofs.Parameters
import GraphBridge.Proofs.Reading
import GraphBridge.Proofs.Provenance
import GraphBridge.Proofs.References
import GraphBridge.Proofs.Collecting
import GraphBridge.Proofs.Grounding
import GraphBridge.Proofs.Planning
import GraphBridge.Proofs.Repetition
import GraphBridge.Proofs.Expansion
import GraphBridge.Proofs.Masking
import GraphBridge.Proofs.Opacity
import GraphBridge.Proofs.Identity
import GraphBridge.Proofs.ArgumentOrder
import GraphBridge.Proofs.Anchoring
import GraphBridge.Proofs.Written
import GraphBridge.Proofs.Keywords
import GraphBridge.Proofs.Lexing
import GraphBridge.Proofs.Layout
import GraphBridge.Proofs.Cutting
import GraphBridge.Proofs.Trivia
import GraphBridge.Proofs.Uncommented
import GraphBridge.Proofs.Respelling
import GraphBridge.Proofs.Parts
import GraphBridge.Proofs.Alike
import GraphBridge.Proofs.Outcome
import GraphBridge.Proofs.Overrides
import GraphBridge.Proofs.Comments
import GraphBridge.Proofs.Modes
import GraphBridge.Proofs.Depth
import GraphBridge.Proofs.DefinitionOrder
import GraphBridge.Proofs.Inlining
import GraphBridge.Proofs.Reshaping
import GraphBridge.Proofs.ElementProperties
import GraphBridge.Proofs.Malformed
import GraphBridge.Proofs.Storing
import GraphBridge.Proofs.MutationNames
import GraphBridge.Proofs.Literals
import GraphBridge.Proofs.PropertyKeys
import GraphBridge.Proofs.ReturnTails
import GraphBridge.Proofs.Extensions
import GraphBridge.Proofs.RootFields
import GraphBridge.Proofs.TypeLookup
import GraphBridge.Proofs.Disambiguation
import GraphBridge.Proofs.Equality
import GraphBridge.Proofs.NearestName
import GraphBridge.Proofs.Lossless
import GraphBridge.Proofs.Placeholders
