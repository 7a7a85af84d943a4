import FrigateXdna.Runtime.Pairing
import FrigateXdna.System.Serving
import FrigateXdna.System.Switching
import FrigateXdna.System.Inhibition
import FrigateXdna.System.Requests
import FrigateXdna.System.Children
import FrigateXdna.System.Exclusion
import FrigateXdna.Transport.Liveness
import FrigateXdna.Process.LiveJobs
import FrigateXdna.Process.CacheHits
import FrigateXdna.Process.Budget
import FrigateXdna.Process.Committed
import FrigateXdna.Process.Content
import FrigateXdna.Supervisor.Durability
import FrigateXdna.Cache.PruneFrame
import FrigateXdna.Native.Framing
import FrigateXdna.Native.Readable
import FrigateXdna.Native.ReplyReadable
import FrigateXdna.Models.Servable
import FrigateXdna.Models.ResultFrame
import FrigateXdna.Models.Tensors
import FrigateXdna.Process.Isolation
import FrigateXdna.StabilityLatch
import FrigateXdna.Status
import FrigateXdna.Plus.Download
import FrigateXdna.Transport.Consistency
import FrigateXdna.Transport.Deadlines
import FrigateXdna.Runtime.Journal
import FrigateXdna.Observability.Timeline
import FrigateXdna.Cache.KeyIdentity
import FrigateXdna.Compiler.Launcher
import FrigateXdna.Compiler.Checks
import FrigateXdna.Compiler.Published
import FrigateXdna.Plus.Labels
import FrigateXdna.Cache.Recovered
import FrigateXdna.Process.Retryable
import FrigateXdna.Process.FailedPrepare
import FrigateXdna.Recipes.InputChains
import FrigateXdna.Python.Path
import FrigateXdna.Packaging.SafeJoin
import FrigateXdna.StabilityInput
import FrigateXdna.Plus.Retry
import FrigateXdna.Supervisor.WholeFrames
import FrigateXdna.Observability.Sanitized
