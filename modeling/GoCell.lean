import GoCell.Main
import GoCell.Proofs.Outcome
import GoCell.Proofs.Text.Line
import GoCell.Proofs.Text.Search
import GoCell.Proofs.Number.Digits
import GoCell.Proofs.Number.FixedPoint
import GoCell.Proofs.Go.StringReader
import GoCell.Proofs.Go.Token
import GoCell.Proofs.Go.LiteralReader
import GoCell.Proofs.Go.LiteralText
import GoCell.Proofs.Go.Declaration
import GoCell.Proofs.Go.StrictDeclaration
import GoCell.Proofs.Go.ClauseScan
import GoCell.Proofs.Go.EntryPoint
import GoCell.Proofs.Go.OneLine
import GoCell.Proofs.Go.ClauseText
import GoCell.Proofs.Program.Assembly
import GoCell.Proofs.Program.Regeneration
import GoCell.Proofs.Table.TakenHeader
import GoCell.Proofs.Program.BodyText
import GoCell.Proofs.Go.DeclarationReader
import GoCell.Proofs.Program.DeclarationLines
import GoCell.Proofs.Go.LooseTyping
import GoCell.Proofs.Number.NearestIndex
import GoCell.Proofs.Number.ShortestDecimal
import GoCell.Proofs.Number.NumberText
import GoCell.Proofs.Number.NumeralGrammar
import GoCell.Proofs.Number.NumeralReader
import GoCell.Proofs.Text.Words
import GoCell.Proofs.Decoding.Scalar
import GoCell.Proofs.Json.TokenText
import GoCell.Proofs.Json.Container
import GoCell.Proofs.Json.RoundTrip
import GoCell.Proofs.Value.JsonRoundTrip
import GoCell.Proofs.Decoding.Rows
import GoCell.Proofs.Go.DeclaredName
import GoCell.Proofs.Program.Failure
import GoCell.Proofs.Program.Strictness
import GoCell.Proofs.Table.AccessorText
import GoCell.Proofs.Table.Alignment
import GoCell.Proofs.Program.Independence
import GoCell.Proofs.Go.ClauseComment
import GoCell.Proofs.Cell.FieldReader
import GoCell.Proofs.Cell.MemberReading
import GoCell.Proofs.Program.MainInCode
import GoCell.Proofs.Go.QuotedText
import GoCell.Proofs.Cell.FiniteValues
import GoCell.Proofs.Files.Path
import GoCell.Proofs.Files.Tree
import GoCell.Proofs.CommandLine.FileGeneration
import GoCell.Proofs.CommandLine.DirectoryGeneration
import GoCell.Proofs.Toolchain.Schedule
import GoCell.Proofs.Toolchain.Supervision
import GoCell.Proofs.Go.SingleTyping
import GoCell.Proofs.Number.BinaryFormat
import GoCell.Proofs.Table.HeaderTaking
import GoCell.Proofs.Table.HeaderRounds
import GoCell.Proofs.Number.NearestDouble
import GoCell.Proofs.Go.FloatRule
import GoCell.Proofs.Go.SinglePrecision
import GoCell.Proofs.Number.DecimalRounding
import GoCell.Proofs.Decoding.ScalarGrammar
import GoCell.Proofs.Decoding.BlankLines
import GoCell.Proofs.Go.MainPattern
import GoCell.Proofs.Program.MainLines
import GoCell.Proofs.Go.ImportBlock
import GoCell.Proofs.Table.AccessorReader
import GoCell.Proofs.Program.DeclaredNames
import GoCell.Proofs.Go.LiteralOutcome
import GoCell.Proofs.Json.Respelling
import GoCell.Proofs.Json.AcceptedText
import GoCell.Proofs.Value.ObjectSymbol
import GoCell.Proofs.Table.AccessorCount
import GoCell.Proofs.Go.ClauseLine
import GoCell.Proofs.Program.SummaryCounts
