import PaneRelay.Hub.Session
import PaneRelay.Main
import PaneRelay.Metrics.Snapshot
import PaneRelay.Proofs.Batcher.Chunks
import PaneRelay.Proofs.Batcher.Run
import PaneRelay.Proofs.Batcher.Lossless
import PaneRelay.Proofs.Batcher.Latency
import PaneRelay.Proofs.Batcher.Picks
import PaneRelay.Proofs.Batcher.Failing
import PaneRelay.Proofs.Batcher.AtMostOnce
import PaneRelay.Proofs.Batcher.Wakeup
import PaneRelay.Proofs.Batcher.Threshold
import PaneRelay.Proofs.Batcher.Spacing
import PaneRelay.Proofs.Batcher.Closing
import PaneRelay.Proofs.Batcher.Retention
import PaneRelay.Proofs.Hub.Gating
import PaneRelay.Proofs.Hub.Payback
import PaneRelay.Proofs.Hub.Order
import PaneRelay.Proofs.Hub.Lagging
import PaneRelay.Proofs.Hub.Routing
import PaneRelay.Proofs.Hub.Racing
import PaneRelay.Proofs.Hub.Farewell
import PaneRelay.Proofs.Hub.Control
import PaneRelay.Proofs.Hub.Lifetime
import PaneRelay.Proofs.Hub.Binding
import PaneRelay.Proofs.Hub.Moments
import PaneRelay.Proofs.Hub.Journal
import PaneRelay.Proofs.Hub.Sole
import PaneRelay.Proofs.Hub.Silence
import PaneRelay.Proofs.Frame.Truncation
import PaneRelay.Proofs.Json.Grammar
import PaneRelay.Proofs.Supervisor.Schedule
import PaneRelay.Proofs.Supervisor.Cancellation
import PaneRelay.Proofs.Panes.Steps
import PaneRelay.Proofs.Panes.History
import PaneRelay.Proofs.Panes.Shutdown
import PaneRelay.Proofs.Panes.Abandoned
import PaneRelay.Proofs.Json.Tokens
import PaneRelay.Proofs.Json.Skipping
import PaneRelay.Proofs.Json.Meaning
import PaneRelay.Proofs.Json.Reading
import PaneRelay.Proofs.Control
import PaneRelay.Proofs.Json.Quoting
import PaneRelay.Proofs.Notice
import PaneRelay.Proofs.Json.Printing
import PaneRelay.Proofs.Config.Text
import PaneRelay.Proofs.Config.Precedence
import PaneRelay.Proofs.Terminal.Splitting
import PaneRelay.Proofs.Terminal.Completing
import PaneRelay.Proofs.Terminal.Closing
import PaneRelay.Proofs.Terminal.Copying
import PaneRelay.Proofs.Terminal.Draining
import PaneRelay.Proofs.Terminal.Guards
import PaneRelay.Proofs.Supervisor.Counting
import PaneRelay.Proofs.Batcher.Widths
import PaneRelay.Proofs.Limits
