import SceneScript.Cursor.Step
import SceneScript.Disk.FileTree
import SceneScript.EditDistance.Script
import SceneScript.Grammar
import SceneScript.Main
import SceneScript.Program.Depth
import SceneScript.Program.Normal
import SceneScript.Program.WellFormed
import SceneScript.Proofs.Cursor.Ahead
import SceneScript.Proofs.Parser.Lockstep
import SceneScript.Proofs.Parser.Yields
import SceneScript.Proofs.Parser.ExpressionSound
import SceneScript.Proofs.Parser.StatementSound
import SceneScript.Proofs.Parser.Farthest
import SceneScript.Proofs.Parser.Together
import SceneScript.Proofs.Parser.Path
import SceneScript.Proofs.Parser.Remembered
import SceneScript.Proofs.Parser.Dispatch
import SceneScript.Proofs.Parser.Blocks
import SceneScript.Proofs.Parser.RememberedStatement
import SceneScript.Proofs.Parser.RememberedChoice
import SceneScript.Proofs.Memory
import SceneScript.Proofs.Parser.ExpressionParses
import SceneScript.Proofs.Parser.ExpressionComplete
import SceneScript.Proofs.Parser.StatementParses
import SceneScript.Proofs.Parser.StatementComplete
import SceneScript.Proofs.Language
import SceneScript.Proofs.Parser.ExpressionExact
import SceneScript.Proofs.Parser.StatementExact
import SceneScript.Proofs.Source.Spells
import SceneScript.Proofs.RoundTrip
import SceneScript.Proofs.NestingLimit
import SceneScript.Proofs.Grammar.Languages
import SceneScript.Proofs.Cursor.Errors
import SceneScript.Proofs.Parser.Steady
import SceneScript.Proofs.Parser.Tandem
import SceneScript.Proofs.Parser.TokenTandem
import SceneScript.Proofs.Parser.ExpressionTandem
import SceneScript.Proofs.Parser.StatementTandem
import SceneScript.Proofs.Source.Spellable
import SceneScript.Proofs.Parser.Reached
import SceneScript.Proofs.LexicalErrors
import SceneScript.Proofs.Parser.Alongside
import SceneScript.Proofs.Layout
import SceneScript.Proofs.Parser.Horizon
import SceneScript.Proofs.OffendingToken
import SceneScript.Proofs.Grammar.StatementEnd
import SceneScript.Proofs.Cursor.Append
import SceneScript.Proofs.Cursor.Shift
import SceneScript.Proofs.Parser.Delimited
import SceneScript.Proofs.Parser.Appended
import SceneScript.Proofs.Composition
import SceneScript.Proofs.Parser.Limit
import SceneScript.Proofs.Source.Grouped
import SceneScript.Proofs.HandBuilt
import SceneScript.Proofs.Parser.Honest
import SceneScript.Proofs.ExpectedItems
import SceneScript.Proofs.Cursor.Cut
import SceneScript.Proofs.Grammar.OpenBlocks
import SceneScript.Proofs.Parser.Severed
import SceneScript.Proofs.Parser.ReadByBoth
import SceneScript.Proofs.Parser.Unclosed
import SceneScript.Proofs.UnclosedBlocks
import SceneScript.Proofs.EditDistance
import SceneScript.Proofs.Suggestion
import SceneScript.Proofs.Text.ByteOrder
import SceneScript.Proofs.Cursor.Places
import SceneScript.Proofs.ErrorReport
import SceneScript.Proofs.TokenText
import SceneScript.Proofs.Text.Lines
import SceneScript.Proofs.Location
import SceneScript.Proofs.Parser.Lenient
import SceneScript.Proofs.Parser.Justified
import SceneScript.Proofs.ReservedWords
import SceneScript.Proofs.SignedNumber
import SceneScript.Proofs.Scanner.Runs
import SceneScript.Proofs.Settings
import SceneScript.Proofs.Checking
import SceneScript.Proofs.ProgramJson
import SceneScript.Proofs.Description
import SceneScript.Proofs.DiagnosticLines
import SceneScript.Proofs.Caret
import SceneScript.Proofs.SceneSearch
import SceneScript.Proofs.TreeHeight
import SceneScript.Proofs.Parser.Plain
import SceneScript.Proofs.Parser.Assembly
import SceneScript.Proofs.Parser.Answers
import SceneScript.Proofs.Parser.Outcome
import SceneScript.Proofs.CursorDiscipline
