import FlowCanvas.Main
import FlowCanvas.Viewport.HitMap
import FlowCanvas.Proofs.Script.Grammar
import FlowCanvas.Proofs.Script.Excerpt
import FlowCanvas.Proofs.Script.Rounds
import FlowCanvas.Proofs.Diagram.Relabelled
import FlowCanvas.Proofs.Diagram.Quoted
import FlowCanvas.Proofs.Diagram.Header
import FlowCanvas.Proofs.Viewport.ScaleLimits
import FlowCanvas.Proofs.Text.Reflow
import FlowCanvas.Proofs.Viewport.Pinned
import FlowCanvas.Proofs.Text.BreakTag
import FlowCanvas.Proofs.Text.Joined
import FlowCanvas.Proofs.Text.Budget
import FlowCanvas.Proofs.Text.KeptTags
import FlowCanvas.Proofs.Text.Greedy
import FlowCanvas.Proofs.Text.Widening
import FlowCanvas.Proofs.Text.Fewest
import FlowCanvas.Proofs.Json.Lexeme
import FlowCanvas.Proofs.Json.Kept
import FlowCanvas.Proofs.Json.RoundTrip
import FlowCanvas.Proofs.Json.Record
import FlowCanvas.Proofs.Graph.RoundTrip
import FlowCanvas.Proofs.Graph.Lookup
import FlowCanvas.Proofs.Viewport.Alike
import FlowCanvas.Proofs.Viewport.Extended
import FlowCanvas.Proofs.Viewport.Repainted
import FlowCanvas.Proofs.Viewport.Recovery
import FlowCanvas.Proofs.Viewport.Interleaved
import FlowCanvas.Proofs.Viewport.Held
import FlowCanvas.Proofs.Viewport.Repeated
import FlowCanvas.Proofs.Viewport.Fitted
import FlowCanvas.Proofs.Command.Flag
import FlowCanvas.Proofs.Command.Agreement
