import Fusecraft.Library.Transition
import Fusecraft.Library.Linearization
import Fusecraft.Library.Counting
import Fusecraft.Library.Fifo
import Fusecraft.Library.Decimal
import Fusecraft.Library.Lines
import Fusecraft.Library.Paging
import Fusecraft.Library.BitMixing
import Fusecraft.Library.Serde
import Fusecraft.Library.Documents
import Fusecraft.Library.Blame
import Fusecraft.Library.TokenBucket
import Fusecraft.Library.Rounding
import Fusecraft.Library.Draining
import Fusecraft.Library.Charging
import Fusecraft.Library.Json
import Fusecraft.Library.BufWriter
import Fusecraft.Core.Op
import Fusecraft.Core.Float
import Fusecraft.Core.Word
import Fusecraft.Core.Config
import Fusecraft.Core.ConfigSerde
import Fusecraft.Core.ConfigRoundTrip
import Fusecraft.Core.ConfigDocuments
import Fusecraft.Core.ConfigErrors
import Fusecraft.Limiter.Concurrency
import Fusecraft.Limiter.Schedules
import Fusecraft.Limiter.Safety
import Fusecraft.Limiter.Refusals
import Fusecraft.Limiter.Leaks
import Fusecraft.Limiter.Overtaking
import Fusecraft.Limiter.Starvation
import Fusecraft.Limiter.Bandwidth
import Fusecraft.Limiter.BandwidthRuns
import Fusecraft.Limiter.BandwidthDelay
import Fusecraft.Sampler.Key
import Fusecraft.Sampler.Samples
import Fusecraft.Sampler.Faults
import Fusecraft.Sampler.Latency
import Fusecraft.Telemetry.Metrics
import Fusecraft.Telemetry.EventLog
import Fusecraft.Telemetry.Tally
import Fusecraft.Namespace.Flat
import Fusecraft.Namespace.Views
import Fusecraft.Content.Deterministic
import Fusecraft.Content.Aliasing
import Fusecraft.Adapter.Readdir
import Fusecraft.Adapter.Read
import Fusecraft.Adapter.ReadNarrow
import Fusecraft.Engine.RunOp
import Fusecraft.Engine.Moves
import Fusecraft.Engine.Phases
import Fusecraft.Engine.Books
import Fusecraft.Engine.Draws
import Fusecraft.Engine.Ledger
import Fusecraft.Engine.Completion
import Fusecraft.Engine.Sequential
import Fusecraft.Engine.Bookkeeping
import Fusecraft.Engine.Replay
import Fusecraft.Engine.Delay
import Fusecraft.Engine.Tiers
import Fusecraft.Engine.Timing
import Fusecraft.Engine.Halting
import Fusecraft.Engine.Answers
import Fusecraft.Engine.Throughput
import Fusecraft.Engine.Metering
import Fusecraft.Engine.Isolation
import Fusecraft.Engine.Logging
import Fusecraft.Engine.Summary
import Fusecraft.Engine.Tuning
import Fusecraft.Engine.Linearization
import Fusecraft.Adapter.Filesystem
