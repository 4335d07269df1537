import Tabletop.Main
import Tabletop.Proofs.Action.Places
import Tabletop.Proofs.Action.TargetOrder
import Tabletop.Proofs.Console.Effect
import Tabletop.Proofs.Console.Token
import Tabletop.Proofs.Console.Unchanged
import Tabletop.Proofs.Describe.Dangling
import Tabletop.Proofs.Document.Lossless
import Tabletop.Proofs.Document.Respelled
import Tabletop.Proofs.Document.RowOrder
import Tabletop.Proofs.Document.Stable
import Tabletop.Proofs.Library.Alike
import Tabletop.Proofs.Library.Failure
import Tabletop.Proofs.Library.FileNames
import Tabletop.Proofs.Library.Listing
import Tabletop.Proofs.RuleSet.Comparable
import Tabletop.Proofs.RuleSet.Direct
import Tabletop.Proofs.RuleSet.Disjoint
import Tabletop.Proofs.RuleSet.KindCorrect
import Tabletop.Proofs.RuleSet.Progress
import Tabletop.Proofs.RuleSet.Redefine
import Tabletop.Proofs.RuleSet.Reload
import Tabletop.Proofs.RuleSet.Replay
import Tabletop.Proofs.RuleSet.Run
import Tabletop.Proofs.RuleSet.Stale
import Tabletop.Proofs.RuleSet.TurnCount
import Tabletop.Proofs.RuleSet.Unique
import Tabletop.Proofs.Files.Extension
import Tabletop.Proofs.Table.Dictionary
