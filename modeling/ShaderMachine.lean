import ShaderMachine.Assembly.Encoder
import ShaderMachine.Assembly.Ids
import ShaderMachine.Assembly.Statement
import ShaderMachine.Assembly.Token
import ShaderMachine.Binary.Cursor
import ShaderMachine.Binary.CursorOperation
import ShaderMachine.Binary.Error
import ShaderMachine.Binary.LiteralString
import ShaderMachine.Binary.Module
import ShaderMachine.Binary.Trap
import ShaderMachine.Binary.Word
import ShaderMachine.Binary.WordCursor
import ShaderMachine.CommandLine.Action
import ShaderMachine.CommandLine.Arguments
import ShaderMachine.CommandLine.FileTree
import ShaderMachine.CommandLine.Report
import ShaderMachine.Decimal.FloatFormat
import ShaderMachine.Decimal.Notation
import ShaderMachine.Decimal.Shortest
import ShaderMachine.Grammar.Enumerant
import ShaderMachine.Grammar.GlslInstruction
import ShaderMachine.Grammar.Opcode
import ShaderMachine.Grammar.Operand
import ShaderMachine.Grammar.Scalar
import ShaderMachine.Listing.Decoded
import ShaderMachine.Listing.Page
import ShaderMachine.Listing.Spelling
import ShaderMachine.Machine.Call
import ShaderMachine.Machine.Computation
import ShaderMachine.Machine.DataType
import ShaderMachine.Machine.Dispatch
import ShaderMachine.Machine.Error
import ShaderMachine.Machine.Execution
import ShaderMachine.Machine.Lane
import ShaderMachine.Machine.OperandReader
import ShaderMachine.Machine.Record
import ShaderMachine.Machine.Setup
import ShaderMachine.Machine.Slots
import ShaderMachine.Machine.Table
import ShaderMachine.Main
import ShaderMachine.Proofs.Aggregates
import ShaderMachine.Proofs.ArrayLengths
import ShaderMachine.Proofs.AssembledModules
import ShaderMachine.Proofs.BodyWalk
import ShaderMachine.Proofs.ByteOrders
import ShaderMachine.Proofs.CallBody
import ShaderMachine.Proofs.CallFrame
import ShaderMachine.Proofs.CallOutputs
import ShaderMachine.Proofs.Clauses
import ShaderMachine.Proofs.CompositeSteps
import ShaderMachine.Proofs.Composites
import ShaderMachine.Proofs.ComputedValues
import ShaderMachine.Proofs.Correspondence
import ShaderMachine.Proofs.CorrespondingRuns
import ShaderMachine.Proofs.CountedDeclarations
import ShaderMachine.Proofs.CountedReads
import ShaderMachine.Proofs.CursorOperations
import ShaderMachine.Proofs.DecimalText
import ShaderMachine.Proofs.Declarations
import ShaderMachine.Proofs.DeclaredIntegers
import ShaderMachine.Proofs.DecodedWords
import ShaderMachine.Proofs.EncodedInstructions
import ShaderMachine.Proofs.EntryPoints
import ShaderMachine.Proofs.ExecutionSteps
import ShaderMachine.Proofs.FailedHandlers
import ShaderMachine.Proofs.Fallible
import ShaderMachine.Proofs.FirstAppearances
import ShaderMachine.Proofs.FloatCode
import ShaderMachine.Proofs.FloatExpansions
import ShaderMachine.Proofs.FloatSteps
import ShaderMachine.Proofs.FollowedReads
import ShaderMachine.Proofs.ForgottenCalls
import ShaderMachine.Proofs.Framing
import ShaderMachine.Proofs.FunctionBodies
import ShaderMachine.Proofs.InstructionRoundTrip
import ShaderMachine.Proofs.IntegerConstants
import ShaderMachine.Proofs.IntegerLiterals
import ShaderMachine.Proofs.JoinedTexts
import ShaderMachine.Proofs.KindsSetOnce
import ShaderMachine.Proofs.LaneCode
import ShaderMachine.Proofs.LaneRoundTrip
import ShaderMachine.Proofs.LaneShapes
import ShaderMachine.Proofs.LanewiseMaps
import ShaderMachine.Proofs.LaterTables
import ShaderMachine.Proofs.Layout
import ShaderMachine.Proofs.LexemeContext
import ShaderMachine.Proofs.Lexing
import ShaderMachine.Proofs.LineRoundTrip
import ShaderMachine.Proofs.ListedLines
import ShaderMachine.Proofs.ListingRoundTrip
import ShaderMachine.Proofs.Loading
import ShaderMachine.Proofs.Loads
import ShaderMachine.Proofs.MachineFrame
import ShaderMachine.Proofs.Meets
import ShaderMachine.Proofs.NamedFloat
import ShaderMachine.Proofs.NamesAndDecorations
import ShaderMachine.Proofs.NestedCursors
import ShaderMachine.Proofs.NumberedNames
import ShaderMachine.Proofs.NumericIds
import ShaderMachine.Proofs.OperandCounts
import ShaderMachine.Proofs.OperandLoops
import ShaderMachine.Proofs.Outcomes
import ShaderMachine.Proofs.PackedText
import ShaderMachine.Proofs.Plans
import ShaderMachine.Proofs.Reachable
import ShaderMachine.Proofs.ReachableLayout
import ShaderMachine.Proofs.ReadConstants
import ShaderMachine.Proofs.ReadOperands
import ShaderMachine.Proofs.ReadStrings
import ShaderMachine.Proofs.References
import ShaderMachine.Proofs.RelaxedLimits
import ShaderMachine.Proofs.RenamedStatements
import ShaderMachine.Proofs.RepeatedCalls
import ShaderMachine.Proofs.RespacedLines
import ShaderMachine.Proofs.Rounding
import ShaderMachine.Proofs.SameReadings
import ShaderMachine.Proofs.SameSteps
import ShaderMachine.Proofs.ScannedTexts
import ShaderMachine.Proofs.Sessions
import ShaderMachine.Proofs.SetupResults
import ShaderMachine.Proofs.SetupSteps
import ShaderMachine.Proofs.SharedEffects
import ShaderMachine.Proofs.SharedReads
import ShaderMachine.Proofs.SpelledOperand
import ShaderMachine.Proofs.StatementFraming
import ShaderMachine.Proofs.TableLaws
import ShaderMachine.Proofs.TablesAlike
import ShaderMachine.Proofs.TokenPatterns
import ShaderMachine.Proofs.UnknownInstructions
import ShaderMachine.Proofs.WordCursors
import ShaderMachine.Proofs.WrittenStatements
import ShaderMachine.Text.Basic
import ShaderMachine.Text.Escaped
import ShaderMachine.Text.Quoted
