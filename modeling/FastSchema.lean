import FastSchema.Text.Quoted
import FastSchema.Text.Bytes
import FastSchema.Xml.Tree
import FastSchema.Schema.OfXml
import FastSchema.Literal.Integer
import FastSchema.Literal.Decimal
import FastSchema.Literal.ByteVector
import FastSchema.Walk.Trace
import FastSchema.Walk.Context
import FastSchema.Registry
import FastSchema.Instruction.Derive
import FastSchema.Cpp.Writer
import FastSchema.Cpp.StringLiteral
import FastSchema.Cpp.ScopeStack
import FastSchema.Cpp.SymbolPath
import FastSchema.Cpp.FrameStack
import FastSchema.Accessors.Builder
import FastSchema.Tables.Builder
import FastSchema.Metadata.Basic
import FastSchema.Metadata.Sha256
import FastSchema.Compiler
import FastSchema.Disk.FileSystem
import FastSchema.CommandLine.Program
import FastSchema.Main
import FastSchema.Proofs.Fallible
import FastSchema.Proofs.Registry
import FastSchema.Proofs.Text.Utf8
import FastSchema.Proofs.Literal.Digits
import FastSchema.Proofs.Literal.Integer
import FastSchema.Proofs.Literal.Decimal
import FastSchema.Proofs.Literal.DecimalText
import FastSchema.Proofs.Literal.ByteVector
import FastSchema.Proofs.Literal.Shortest
import FastSchema.Proofs.Schema.RoundTrip
import FastSchema.Proofs.Schema.References
import FastSchema.Proofs.Schema.Noise
import FastSchema.Proofs.Json.Grammar
import FastSchema.Proofs.Json.Injective
import FastSchema.Proofs.Metadata.Injective
import FastSchema.Proofs.Instruction.Recursion
import FastSchema.Proofs.Instruction.Faults
import FastSchema.Proofs.Instruction.References
import FastSchema.Proofs.Instruction.Targets
import FastSchema.Proofs.Instruction.Dependence
import FastSchema.Proofs.Cpp.FrameStack
import FastSchema.Proofs.Cpp.FrameMatching
import FastSchema.Proofs.Cpp.FrameHistory
import FastSchema.Proofs.Cpp.ScopeStack
import FastSchema.Proofs.Cpp.SymbolPath
import FastSchema.Proofs.Cpp.Writer
import FastSchema.Proofs.Cpp.Blocks
import FastSchema.Proofs.Cpp.StringLiteral
import FastSchema.Proofs.Cpp.IntegerConstant
import FastSchema.Proofs.Walk.Preservation
import FastSchema.Proofs.Walk.Monitor
import FastSchema.Proofs.Walk.Lookups
import FastSchema.Proofs.Walk.Passages
import FastSchema.Proofs.Walk.Stops
import FastSchema.Proofs.Walk.Events
import FastSchema.Proofs.Walk.Trace
import FastSchema.Proofs.Walk.FailFast
import FastSchema.Proofs.Tables.Statements
import FastSchema.Proofs.Tables.Refinement
import FastSchema.Proofs.Tables.Knowledge
import FastSchema.Proofs.Tables.Lookups
import FastSchema.Proofs.Tables.Leaves
import FastSchema.Proofs.Tables.Lines
import FastSchema.Proofs.Tables.Arrays
import FastSchema.Proofs.Tables.Declarations
import FastSchema.Proofs.Tables.Labels
import FastSchema.Proofs.Tables.Naming
import FastSchema.Proofs.Tables.Distinct
import FastSchema.Proofs.Tables.Balance
import FastSchema.Proofs.Tables.Storage
import FastSchema.Proofs.Tables.Constants
import FastSchema.Proofs.Tables.Flattening
import FastSchema.Proofs.Accessors.Records
import FastSchema.Proofs.Accessors.Parts
import FastSchema.Proofs.Accessors.Refinement
import FastSchema.Proofs.Accessors.Balance
import FastSchema.Proofs.Accessors.Agreement
import FastSchema.Proofs.Accessors.Paths
import FastSchema.Proofs.Accessors.Distinct
import FastSchema.Proofs.Compiler.Refinement
import FastSchema.Proofs.Compiler.Isolation
import FastSchema.Proofs.Compiler.History
import FastSchema.Proofs.Compiler.Report
import FastSchema.Proofs.Compiler.Lossless
import FastSchema.Proofs.Compiler.Order
import FastSchema.Proofs.Compiler.Tables
import FastSchema.Proofs.Compiler.Symbols
import FastSchema.Proofs.Compiler.Linking
import FastSchema.Proofs.Compiler.TypeNames
import FastSchema.Proofs.Compiler.Balance
import FastSchema.Proofs.Compiler.Constants
import FastSchema.Proofs.Compiler.Noise
import FastSchema.Proofs.Compiler.Accessors
import FastSchema.Proofs.Disk.Growth
import FastSchema.Proofs.Disk.Names
import FastSchema.Proofs.CommandLine.Session
import FastSchema.Proofs.CommandLine.Effects
import FastSchema.Proofs.CommandLine.Runs
import FastSchema.Proofs.CommandLine.Exit
import FastSchema.Proofs.CommandLine.Options
import FastSchema.Proofs.CommandLine.Account
import FastSchema.Proofs.CommandLine.Check
