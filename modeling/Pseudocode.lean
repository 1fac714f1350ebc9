import Pseudocode.Doc.Write
import Pseudocode.Expr.Walk
import Pseudocode.Main
import Pseudocode.Proofs.CommandAgreement
import Pseudocode.Proofs.Composition
import Pseudocode.Proofs.DisplayedValues
import Pseudocode.Proofs.DroppedEntry
import Pseudocode.Proofs.DurationText
import Pseudocode.Proofs.ExactIntegers
import Pseudocode.Proofs.FirstFailure
import Pseudocode.Proofs.NumericLiterals
import Pseudocode.Proofs.ParserCursor
import Pseudocode.Proofs.ScanErrors
import Pseudocode.Proofs.ScannerProgress
import Pseudocode.Proofs.SettingsDocuments
import Pseudocode.Proofs.SettingsLayers
import Pseudocode.Proofs.SpelledTokens
import Pseudocode.Proofs.TokenTables
import Pseudocode.Proofs.TreeDumps
import Pseudocode.Proofs.WalkedTrees
