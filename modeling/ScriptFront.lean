import ScriptFront.Main
import ScriptFront.Parser
import ScriptFront.CommandLine.FileTree
import ScriptFront.Proofs.EarliestError
import ScriptFront.Proofs.LexicalGrammar
import ScriptFront.Proofs.Phrase
import ScriptFront.Proofs.CanonicalText
import ScriptFront.Proofs.IllegalLexeme
import ScriptFront.Proofs.Draining
import ScriptFront.Proofs.NormalText
import ScriptFront.Proofs.SourceLines
import ScriptFront.Proofs.ErrorLine
import ScriptFront.Proofs.CallStack
import ScriptFront.Proofs.Balance
import ScriptFront.Proofs.LineCounter
import ScriptFront.Proofs.NestingLimit
import ScriptFront.Proofs.IntegerBound
import ScriptFront.Proofs.StartLine
import ScriptFront.Proofs.ByteCursor
import ScriptFront.Proofs.ReportColumns
import ScriptFront.Proofs.EndOfInput
import ScriptFront.Proofs.FloatSpelling
import ScriptFront.Proofs.StartTokens
import ScriptFront.Proofs.ReportLines
