import ObjcSwift.CommandLine
import ObjcSwift.Decl.Graph
import ObjcSwift.Decl.Graph.Codec
import ObjcSwift.Decl.Graph.Edit
import ObjcSwift.Decl.InitializerName
import ObjcSwift.Decl.Payload
import ObjcSwift.Decl.Payload.Codec
import ObjcSwift.Decl.Signature
import ObjcSwift.Emit.Declaration
import ObjcSwift.Emit.Layout
import ObjcSwift.Emit.Output
import ObjcSwift.Emit.Statement
import ObjcSwift.Emit.Writer
import ObjcSwift.Json.Reader
import ObjcSwift.Json.Record
import ObjcSwift.Json.Value
import ObjcSwift.Json.Writer
import ObjcSwift.Lowering.FileGraph
import ObjcSwift.Lowering.Signature
import ObjcSwift.Main
import ObjcSwift.Number.Binary64
import ObjcSwift.Number.Shortest
import ObjcSwift.Objc.Diagnostic
import ObjcSwift.Objc.Node
import ObjcSwift.Objc.Node.Codec
import ObjcSwift.Objc.ObjcType
import ObjcSwift.Objc.ObjcType.Codec
import ObjcSwift.Objc.Tree
import ObjcSwift.Pass.AccessorMerge
import ObjcSwift.Pass.Idiom
import ObjcSwift.Pass.Nullability
import ObjcSwift.Pass.Pipeline
import ObjcSwift.Pass.TypeMerge
import ObjcSwift.Proofs.Graph.Lists
import ObjcSwift.Proofs.Graph.Outcome
import ObjcSwift.Proofs.Graph.Outline
import ObjcSwift.Run.Conversion
import ObjcSwift.Run.Directory
import ObjcSwift.Run.Program
import ObjcSwift.Settings
import ObjcSwift.Swift.Constant
import ObjcSwift.Swift.Expr
import ObjcSwift.Swift.Expr.Codec
import ObjcSwift.Swift.Expr.SameShape
import ObjcSwift.Swift.Expr.Text
import ObjcSwift.Swift.Expr.Walk
import ObjcSwift.Swift.Operator
import ObjcSwift.Swift.Pattern
import ObjcSwift.Swift.Span
import ObjcSwift.Swift.SuffixChain
import ObjcSwift.Swift.SwiftType
import ObjcSwift.Swift.SwiftType.Codec
import ObjcSwift.Swift.SwiftType.Text
import ObjcSwift.Text.Blank
import ObjcSwift.Text.LetterCase
import ObjcSwift.Text.Lines
import ObjcSwift.Text.Numeral
import ObjcSwift.Text.Path
import ObjcSwift.Toml.Reader
import ObjcSwift.Toml.Value
import ObjcSwift.Typing.Annotate
import ObjcSwift.Typing.Bodies
import ObjcSwift.Typing.Builtin
import ObjcSwift.Typing.Catalog
import ObjcSwift.Typing.Catalog.Codec
import ObjcSwift.Typing.Lookup
import ObjcSwift.Typing.Mapping
import ObjcSwift.Typing.Rule
import ObjcSwift.Typing.Scope
import ObjcSwift.Typing.Snapshot
import ObjcSwift.Proofs.Graph.Atomicity
import ObjcSwift.Proofs.Graph.Editing
import ObjcSwift.Proofs.Graph.Merging
import ObjcSwift.Proofs.Graph.WellFormed
import ObjcSwift.Proofs.Graph.Scripts
import ObjcSwift.Proofs.Loading
import ObjcSwift.Proofs.Pass.Steps
import ObjcSwift.Proofs.Pass.Rewriting
import ObjcSwift.Proofs.Pass.Accessors
import ObjcSwift.Proofs.Pass.Types
import ObjcSwift.Proofs.Writing
import ObjcSwift.Proofs.Printing
import ObjcSwift.Proofs.Conversion
import ObjcSwift.Proofs.Typing.Coverage
import ObjcSwift.Proofs.Typing.Tally
import ObjcSwift.Proofs.Typing.Graphs
import ObjcSwift.Proofs.Typing.Passes
import ObjcSwift.Proofs.Selector.Naming
import ObjcSwift.Proofs.Selector.Sends
import ObjcSwift.Proofs.Lowering.Visits
import ObjcSwift.Proofs.Lowering.Account
import ObjcSwift.Proofs.Typing.Faces
import ObjcSwift.Proofs.Typing.Sharpening
import ObjcSwift.Proofs.Pass.Freshness
import ObjcSwift.Proofs.Graph.MergeLaws
import ObjcSwift.Proofs.Json.Records
import ObjcSwift.Proofs.Json.Types
import ObjcSwift.Proofs.Json.Trees
import ObjcSwift.Proofs.Json.Declarations
import ObjcSwift.Proofs.Json.RoundTrip
import ObjcSwift.Proofs.Graph.Resigning
import ObjcSwift.Proofs.Typing.Erasure
import ObjcSwift.Proofs.Pass.Signatures
import ObjcSwift.Proofs.Pass.Requirements
import ObjcSwift.Proofs.Pass.Commutation
import ObjcSwift.Proofs.Syntax.Settling
import ObjcSwift.Proofs.Pass.Folding
import ObjcSwift.Proofs.Pass.Refinement
import ObjcSwift.Proofs.Graph.Reducing
import ObjcSwift.Proofs.Pass.Takings
import ObjcSwift.Proofs.Pass.Accounting
import ObjcSwift.Proofs.Graph.Rows
import ObjcSwift.Proofs.Pass.Unifying
import ObjcSwift.Proofs.Pass.Merging
import ObjcSwift.Proofs.Pass.Grouping
import ObjcSwift.Proofs.Pass.Reuniting
import ObjcSwift.Proofs.Typing.Reannotating
import ObjcSwift.Proofs.Typing.Chains
import ObjcSwift.Proofs.Typing.Stack
import ObjcSwift.Proofs.Typing.Owners
import ObjcSwift.Proofs.Typing.Regions
import ObjcSwift.Proofs.Lowering.Storage
import ObjcSwift.Proofs.Pass.PropertyLists
import ObjcSwift.Proofs.Pass.HandingOver
import ObjcSwift.Proofs.Pass.Absorbing
import ObjcSwift.Proofs.Typing.Initializers
import ObjcSwift.Proofs.Typing.Qualifiers
import ObjcSwift.Proofs.Syntax.TypeParts
import ObjcSwift.Proofs.Typing.Representable
import ObjcSwift.Proofs.Reading.Basic
import ObjcSwift.Proofs.Reading.Types
import ObjcSwift.Proofs.Reading.Formulas
import ObjcSwift.Proofs.Reading.Expressions
import ObjcSwift.Proofs.Syntax.Shapes
import ObjcSwift.Proofs.Syntax.Inversion
import ObjcSwift.Proofs.Syntax.NilConditions
import ObjcSwift.Proofs.Lowering.Nesting
import ObjcSwift.Proofs.Lowering.Shelving
import ObjcSwift.Proofs.Lowering.Members
import ObjcSwift.Proofs.Graph.Verify
import ObjcSwift.Proofs.Typing.Hierarchy
import ObjcSwift.Proofs.Typing.Entries
import ObjcSwift.Proofs.Comments
import ObjcSwift.Proofs.Graph.Ancestry
import ObjcSwift.Proofs.Graph.Framing
import ObjcSwift.Proofs.Typing.OptionalLayers
import ObjcSwift.Proofs.Reading.StringLiterals
