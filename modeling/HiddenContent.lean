import HiddenContent.Main
import HiddenContent.Node.Json
import HiddenContent.Proofs.Assignments
import HiddenContent.Proofs.BalancedLines
import HiddenContent.Proofs.LeftmostSpans
import HiddenContent.Proofs.Lexemes
import HiddenContent.Proofs.Markup
import HiddenContent.Proofs.Rendering
import HiddenContent.Proofs.ScanAccount
import HiddenContent.Proofs.ScanStates
import HiddenContent.Proofs.TokenReading
import HiddenContent.Proofs.CompleteHiding
import HiddenContent.Proofs.CompletedTokens
import HiddenContent.Proofs.Grammar
import HiddenContent.Proofs.KeptLines
import HiddenContent.Proofs.MatchedRegions
import HiddenContent.Proofs.NestedUnits
import HiddenContent.Proofs.Opacity
import HiddenContent.Proofs.Payload
import HiddenContent.Proofs.SearchedText
import HiddenContent.Proofs.SegmentScan
import HiddenContent.Proofs.UnitBlocks
import HiddenContent.Proofs.VisibleText
import HiddenContent.Render
import HiddenContent.Report.Resolve
import HiddenContent.Proofs.StoredNode
import HiddenContent.Proofs.NoteOutputs
import HiddenContent.Proofs.OpenerSpans
import HiddenContent.Proofs.JsonNodes
import HiddenContent.Proofs.RestoredNodes
import HiddenContent.Proofs.RemovedMarkers
import HiddenContent.Proofs.SplitPlaces
import HiddenContent.Proofs.TextBlocks
import HiddenContent.Proofs.UntouchedNodes
import HiddenContent.Proofs.BoundedResolution
import HiddenContent.Proofs.SharedBounds
import HiddenContent.Proofs.Decorators
import HiddenContent.Proofs.JoinedAttributes
