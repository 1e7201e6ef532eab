import SwarmExporter.Basic
import SwarmExporter.Cli
import SwarmExporter.Collector.Constraints
import SwarmExporter.Collector.ContainerSeries
import SwarmExporter.Collector.Containers
import SwarmExporter.Collector.Desired
import SwarmExporter.Collector.FinishedJobs
import SwarmExporter.Collector.Health
import SwarmExporter.Collector.LabelPipeline
import SwarmExporter.Collector.ListOrder
import SwarmExporter.Collector.Published
import SwarmExporter.Collector.ReplicasState
import SwarmExporter.Collector.ServiceUpdate
import SwarmExporter.Collector.Subnets
import SwarmExporter.Collector.TaskCounts
import SwarmExporter.Collector.TaskReference
import SwarmExporter.Collector.Types
import SwarmExporter.Docker.Query
import SwarmExporter.Docker.Types
import SwarmExporter.Exporter.Accounts
import SwarmExporter.Exporter.ContainerPolls
import SwarmExporter.Exporter.Poller
import SwarmExporter.Exporter.Progress
import SwarmExporter.Exporter.Provenance
import SwarmExporter.Exporter.Scrape
import SwarmExporter.Exporter.Serving
import SwarmExporter.Exporter.Shutdown
import SwarmExporter.Exporter.Steps
import SwarmExporter.Exposition
import SwarmExporter.Healthcheck
import SwarmExporter.HighCardinality
import SwarmExporter.HostPort
import SwarmExporter.Labels
import SwarmExporter.Lib.Backoff
import SwarmExporter.Lib.Bits
import SwarmExporter.Lib.Champion
import SwarmExporter.Lib.Deadlines
import SwarmExporter.Lib.Decimal
import SwarmExporter.Lib.Failing
import SwarmExporter.Lib.Fifo
import SwarmExporter.Lib.FinMap
import SwarmExporter.Lib.Resume
import SwarmExporter.Lib.Runs
import SwarmExporter.Lib.Sorting
import SwarmExporter.Lib.Text
import SwarmExporter.Lib.Utf8
import SwarmExporter.Metrics
import SwarmExporter.Reconciler.Acceptance
import SwarmExporter.Reconciler.Apply
import SwarmExporter.Reconciler.Counters
import SwarmExporter.Reconciler.Cycles
import SwarmExporter.Reconciler.DirtySet
import SwarmExporter.Reconciler.Fairness
import SwarmExporter.Reconciler.Generations
import SwarmExporter.Reconciler.Identities
import SwarmExporter.Reconciler.Judging
import SwarmExporter.Reconciler.Listener
import SwarmExporter.Reconciler.Memory
import SwarmExporter.Reconciler.Neighbours
import SwarmExporter.Reconciler.NoGap
import SwarmExporter.Reconciler.NoLostUpdate
import SwarmExporter.Reconciler.NoPanic
import SwarmExporter.Reconciler.NodeCounts
import SwarmExporter.Reconciler.Omissions
import SwarmExporter.Reconciler.Ops
import SwarmExporter.Reconciler.Outstanding
import SwarmExporter.Reconciler.Passes
import SwarmExporter.Reconciler.Pending
import SwarmExporter.Reconciler.Poll
import SwarmExporter.Reconciler.Polls
import SwarmExporter.Reconciler.Postponement
import SwarmExporter.Reconciler.RateLimit
import SwarmExporter.Reconciler.Reconnects
import SwarmExporter.Reconciler.Recount
import SwarmExporter.Reconciler.Resync
import SwarmExporter.Reconciler.Retries
import SwarmExporter.Reconciler.Schedule
import SwarmExporter.Reconciler.Series
import SwarmExporter.Reconciler.ServiceIdentity
import SwarmExporter.Reconciler.Staleness
import SwarmExporter.Reconciler.State
import SwarmExporter.Reconciler.Steps
import SwarmExporter.Reconciler.Timing
import SwarmExporter.Reconciler.Totals
import SwarmExporter.Reconciler.WakeUp
import SwarmExporter.Reconciler.World
import SwarmExporter.Reconciler.Writes
import SwarmExporter.Runes
import SwarmExporter.Server
