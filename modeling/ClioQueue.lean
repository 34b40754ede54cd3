import ClioQueue.BrowserAttachmentLifecycle
import ClioQueue.QueueIntegrity
import ClioQueue.ConsoleStreamRuns
import ClioQueue.EventLogRuns
import ClioQueue.IdempotencyResolution
import ClioQueue.IngestAttemptRuns
import ClioQueue.LogPages
import ClioQueue.OwnedQueuePages
import ClioQueue.Redaction
import ClioQueue.JobListingRuns
import ClioQueue.SchedulerCancelReadback
import ClioQueue.StorageHighWater
import ClioQueue.Bootstrap.AdvanceAgreement
import ClioQueue.Bootstrap.JournalRuns
import ClioQueue.Jarvis.BridgeSampling
import ClioQueue.Jarvis.RuntimeRuns
import ClioQueue.McpTasks.TaskRuns
import ClioQueue.McpRunner.ToolListings
import ClioQueue.Remote.ConnectionRuns
import ClioQueue.Recovery.LostAnswer
import ClioQueue.JobRun.JobIsRun
import ClioQueue.Monitor.RuleIndependence
import ClioQueue.OwnerSessionMirror
import ClioQueue.ContiguousSequence
import ClioQueue.FilesystemKeys
import ClioQueue.GcTrash
import ClioQueue.FairLock
import ClioQueue.ImmutableFiles
