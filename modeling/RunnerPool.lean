import RunnerPool.Main
import RunnerPool.Supervisor.Schedule
import RunnerPool.Proofs.Json.Members
import RunnerPool.Proofs.Json.MergePatch
import RunnerPool.Proofs.Json.MinimalPatch
import RunnerPool.Proofs.Course
import RunnerPool.Proofs.Listener
import RunnerPool.Proofs.SequencerTrace
import RunnerPool.Proofs.Pipeline
import RunnerPool.Proofs.Event.Stream
import RunnerPool.Proofs.Event.Tolerance
import RunnerPool.Proofs.PoolPatch
import RunnerPool.Proofs.PoolRequests
import RunnerPool.Proofs.Scope.Cause
import RunnerPool.Proofs.Supervisor.Scopes
import RunnerPool.Proofs.Supervisor.ListenerFailure
import RunnerPool.Proofs.Supervisor.Schedule
import RunnerPool.Proofs.Daemon
import RunnerPool.Proofs.Coalescing
import RunnerPool.Proofs.Resource.LivePatch
import RunnerPool.Proofs.Resource.Payload
import RunnerPool.Proofs.PoolAnswers
import RunnerPool.Proofs.Event.Lines
import RunnerPool.Proofs.Settings.Overrides
import RunnerPool.Proofs.Settings.Shielding
import RunnerPool.Proofs.Settings.Bounds
import RunnerPool.Proofs.Metrics.Exposition
import RunnerPool.Proofs.Telemetry
import RunnerPool.Proofs.RunnerAddress
