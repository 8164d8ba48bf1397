import RosNames.Entry.Session
import RosNames.Main
import RosNames.Proofs.ByteClass
import RosNames.Proofs.TokenStart
import RosNames.Proofs.RuleOrder
import RosNames.Proofs.Path
import RosNames.Proofs.TopicFault
import RosNames.Proofs.NamespaceLayers
import RosNames.Proofs.SessionRun
import RosNames.Proofs.Utf8RoundTrip
import RosNames.Proofs.ArgumentForms
import RosNames.Proofs.Settling
import RosNames.Proofs.ItemSteps
import RosNames.Proofs.CommandLine
import RosNames.Proofs.Decision
import RosNames.Proofs.Joining
import RosNames.Proofs.PlainText
import RosNames.Proofs.Views
import RosNames.Proofs.NodeFault
import RosNames.Proofs.TokenPieces
import RosNames.Proofs.ZeroByte
import RosNames.Proofs.JsonTokens
import RosNames.Proofs.JsonReading
import RosNames.Proofs.JsonLines
import RosNames.Proofs.Limit
import RosNames.Proofs.Extension
import RosNames.Proofs.WordArithmetic
import RosNames.Proofs.SafeCut
import RosNames.Proofs.Independence
import RosNames.Proofs.ClassVerdict
import RosNames.Proofs.Lines
import RosNames.Proofs.TextBlock
import RosNames.Proofs.TextOutput
import RosNames.Proofs.Caret
import RosNames.Proofs.Interruption
import RosNames.Proofs.TwoScans
import RosNames.Proofs.ToldApart
