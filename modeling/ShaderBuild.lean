import ShaderBuild.Error
import ShaderBuild.Journal
import ShaderBuild.Path
import ShaderBuild.Stage
import ShaderBuild.Text.Hex
import ShaderBuild.Text.Basic
import ShaderBuild.Text.Quoted
import ShaderBuild.Layout.MemberType
import ShaderBuild.Layout.Size
import ShaderBuild.Metadata.Registry
import ShaderBuild.Code.File
import ShaderBuild.Code.Query
import ShaderBuild.Code.Reserved
import ShaderBuild.Metadata.DataStruct
import ShaderBuild.Metadata.Files
import ShaderBuild.Code.Cpp
import ShaderBuild.Code.Language
import ShaderBuild.Bytecode.Binary
import ShaderBuild.Compile.Config
import ShaderBuild.Compile.Descriptor
import ShaderBuild.Compile.Dxc
import ShaderBuild.Compile.Includes
import ShaderBuild.Command.Arguments
import ShaderBuild.Text.Utf8
import ShaderBuild.Spirv.Instruction
import ShaderBuild.Spirv.Vocabulary
import ShaderBuild.Spirv.Annotations
import ShaderBuild.Reflection.Sidecar
import ShaderBuild.Spirv.DataType
import ShaderBuild.Spirv.Descriptor
import ShaderBuild.Spirv.Globals
import ShaderBuild.Spirv.Module
import ShaderBuild.Reflection.Discovery
import ShaderBuild.Decimal.Binary
import ShaderBuild.Decimal.Shortest
import ShaderBuild.Yaml.Source
import ShaderBuild.Yaml.Scalar
import ShaderBuild.Yaml.Token
import ShaderBuild.Yaml.Lexer
import ShaderBuild.Yaml.Node
import ShaderBuild.Yaml.Document
import ShaderBuild.Decimal.Double
import ShaderBuild.Yaml.CoreSchema
import ShaderBuild.Yaml.Style
import ShaderBuild.Yaml.Printer
import ShaderBuild.Yaml.Reading
import ShaderBuild.Yaml.Value
import ShaderBuild.Builtin.Declaration
import ShaderBuild.Builtin.Manifest
import ShaderBuild.Builtin.Job
import ShaderBuild.Builtin.Embedding
import ShaderBuild.FileTree.Fault
import ShaderBuild.FileTree.Basic
import ShaderBuild.Workspace
import ShaderBuild.Output
import ShaderBuild.Builtin.Discovery
import ShaderBuild.Shell.Word
import ShaderBuild.Shell.Script
import ShaderBuild.Shell.State
import ShaderBuild.Shell.Pattern
import ShaderBuild.Shell.Arithmetic
import ShaderBuild.Shell.Format
import ShaderBuild.Shell.Expansion
import ShaderBuild.Shell.Test
import ShaderBuild.Shell.Utility
import ShaderBuild.Signal
import ShaderBuild.Shell.Intrinsic
import ShaderBuild.Shell.Program
import ShaderBuild.Shell.Run
import ShaderBuild.Shell.System
import ShaderBuild.Launch
import ShaderBuild.Compile.Compilation
import ShaderBuild.Builtin.Batch
import ShaderBuild.Command.Run
import ShaderBuild.FileTree.Listing
import ShaderBuild.Main
import ShaderBuild.Proofs.Outcome
import ShaderBuild.Proofs.Breakdown
import ShaderBuild.Proofs.Compile.Launch
import ShaderBuild.Proofs.Compile.Compilation
import ShaderBuild.Proofs.Code.StructSize
import ShaderBuild.Proofs.Code.FieldBytes
import ShaderBuild.Proofs.Metadata.Faithful
import ShaderBuild.Proofs.Metadata.Placing
import ShaderBuild.Proofs.Metadata.Generated
import ShaderBuild.Proofs.Metadata.GeneratedLayouts
import ShaderBuild.Proofs.Code.CLayout
import ShaderBuild.Proofs.Code.Alignment
import ShaderBuild.Proofs.Metadata.CompilerPadding
import ShaderBuild.Proofs.Metadata.FirstSeen
import ShaderBuild.Proofs.Metadata.RegistryRun
import ShaderBuild.Proofs.Code.Lookup
import ShaderBuild.Proofs.Metadata.Lookups
import ShaderBuild.Proofs.Layout.Bytes
import ShaderBuild.Proofs.Reflection.Validity
import ShaderBuild.Proofs.Metadata.Acceptance
import ShaderBuild.Proofs.Builtin.Binaries
import ShaderBuild.Proofs.Builtin.External
import ShaderBuild.Proofs.Builtin.Pool
import ShaderBuild.Proofs.Spirv.Buffers
import ShaderBuild.Proofs.Reflection.DeclaredLayout
import ShaderBuild.Proofs.Code.Nesting
import ShaderBuild.Proofs.Metadata.DeclarationOrder
import ShaderBuild.Proofs.Metadata.GlobalNames
import ShaderBuild.Proofs.Code.Dispatch
import ShaderBuild.Proofs.Builtin.Embedded
import ShaderBuild.Proofs.FileTree.Changes
import ShaderBuild.Proofs.FileTree.Walk
import ShaderBuild.Proofs.FileTree.Extensions
import ShaderBuild.Proofs.Steady
import ShaderBuild.Proofs.Output
import ShaderBuild.Proofs.Builtin.Preparing
import ShaderBuild.Proofs.Builtin.GeneratedNames
import ShaderBuild.Proofs.Builtin.Rediscovery
import ShaderBuild.Proofs.Builtin.Publishing
import ShaderBuild.Proofs.Builtin.Transaction
import ShaderBuild.Proofs.Metadata.Runs
import ShaderBuild.Proofs.Metadata.Merging
import ShaderBuild.Proofs.Metadata.ShaderOrder
import ShaderBuild.Proofs.Reflection.Listing
import ShaderBuild.Proofs.Reflection.ListingOrder
import ShaderBuild.Proofs.Yaml.Nesting
import ShaderBuild.Proofs.Yaml.ReadBack
import ShaderBuild.Proofs.Reflection.Sidecar
import ShaderBuild.Proofs.Text.Identifiers
import ShaderBuild.Proofs.Metadata.Origin
import ShaderBuild.Proofs.Metadata.FieldNames
import ShaderBuild.Proofs.Metadata.PlainLayouts
import ShaderBuild.Proofs.Metadata.Independence
import ShaderBuild.Proofs.Metadata.Transposed
import ShaderBuild.Proofs.Metadata.Relabelled
import ShaderBuild.Proofs.Text.Lines
import ShaderBuild.Proofs.Code.CppTokens
import ShaderBuild.Proofs.Code.CppDeclarations
import ShaderBuild.Proofs.Code.CppLines
import ShaderBuild.Proofs.Code.CppItems
import ShaderBuild.Proofs.Code.HeaderSource
import ShaderBuild.Proofs.Builtin.ShaderEnum
import ShaderBuild.Proofs.Code.Escaping
import ShaderBuild.Proofs.Code.WrittenNames
import ShaderBuild.Proofs.Code.FieldText
import ShaderBuild.Proofs.Layout.Overflow
import ShaderBuild.Proofs.Bytecode.Words
import ShaderBuild.Proofs.Code.StringLiterals
import ShaderBuild.Proofs.Text.Growth
import ShaderBuild.Proofs.Code.ItemLines
import ShaderBuild.Proofs.Code.EmbeddedBytes
import ShaderBuild.Proofs.Command.Grammar
import ShaderBuild.Proofs.Reflection.SourceScan
import ShaderBuild.Proofs.Metadata.PlacedSizes
import ShaderBuild.Proofs.Command.Deadline
import ShaderBuild.Proofs.Text.Spacing
import ShaderBuild.Proofs.Code.LineTexts
import ShaderBuild.Proofs.Code.CppSpacing
import ShaderBuild.Proofs.Code.RustSpacing
import ShaderBuild.Proofs.Code.Spacing
