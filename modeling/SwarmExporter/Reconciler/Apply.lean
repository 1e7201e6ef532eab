import SwarmExporter.Collector.Health
import SwarmExporter.Reconciler.State

/-!
# The reconciler and its writes

The reconciler owns the metadata cache, the node cache and the per-service families, and makes every
write to them: a service's spec (`applyService`), its removal (`removeService`), a node list
(`applyNodes`), and a resync, which is all of them in a row (`resyncCalls`). A write that panics stops
halfway and keeps what it wrote, so the writes live in `EStateM`.
-/

namespace SwarmExporter

open Lib
open Docker (CallError Event Node Service)

/-- `swarm_cluster_nodes_by_state`: the node count per role, availability and status. -/
structure NodesByState where
  desc : Desc
  current : Option (Map String BuiltFamily)
  deriving DecidableEq

namespace NodesByState

def new : NodesByState :=
  { desc := ⟨"swarm_cluster_nodes_by_state",
      "Number of Swarm nodes grouped by role, availability, and status.",
      ["role", "availability", "status"]⟩
    current := none }

/-- The node count per role, availability and status, as the node reports them. -/
def build (family : NodesByState) (nodes : List Node) : SnapshotBuilder :=
  let counts : Map (List String) Nat := nodes.foldl
    (fun counts node =>
      let key := [node.spec.role, node.spec.availability, node.status.state]
      counts.insert key (counts.getD key 0 + 1))
    ∅
  counts.toList.foldl
    (fun builder entry =>
      builder.set family.desc (["role", "availability", "status"].zip entry.1) entry.2)
    {}

/-- Publishes the counts of `nodes`; a failed build keeps the previous set. -/
def updateFromSlice (family : NodesByState) (nodes : List Node) : NodesByState :=
  match (family.build nodes).build with
  | .ok built => { family with current := some built }
  | .error _ => family

end NodesByState

/-- The self-observability counters the reconciler and its handles write, and the success times. -/
structure ExporterMetrics where
  eventsDropped : Nat := 0
  pollRejections : Nat := 0
  resyncSuccesses : Nat := 0
  resyncFailures : Nat := 0
  timestamps : Timestamps := {}
  deriving DecidableEq, Repr

structure Reconciler where
  /-- What the event side shares with it, under the lock. -/
  state : State
  /-- True once the first resync completed. -/
  ready : Bool := false
  customLabels : CustomLabels
  replicaGauges : ReplicaGauges
  serviceUpdate : ServiceUpdateMetrics
  nodesByState : NodesByState
  replicasState : ReplicasState
  metrics : ExporterMetrics := {}
  retryDelays : List Duration
  backoffInitial : Duration
  backoffMax : Duration
  resyncInterval : Duration
  metadata : Map String ServiceMetadata := ∅
  nodes : List Node := []
  -- Scheduling: none is Go's zero time, due at once.
  resyncNotBefore : Option Instant := none
  resyncBackoff : Duration
  nextPeriodicResync : Option Instant := none
  nodesNotBefore : Option Instant := none
  nodesBackoff : Duration
  -- What the last poll published per service, and how many polls in a row each was rejected.
  lastPublished : ServiceCounter := ∅
  pollRejections : Map String Nat := ∅
  deriving DecidableEq

/-- A write of the reconciler: it returns, or it panics and keeps what it wrote. -/
abbrev Write := EStateM Panic Reconciler Unit

namespace Reconciler

/-- A reconciler writing the families of `custom`, with its first resync already requested. -/
def withPolicy (custom : CustomLabels) (policy : ReconcilerPolicy) (now : Timestamp) : Reconciler :=
  { state := .new policy.pendingCap now
    customLabels := custom
    replicaGauges := .new custom
    serviceUpdate := .new custom
    nodesByState := .new
    replicasState := .new custom
    retryDelays := policy.retryDelays
    backoffInitial := policy.backoffInitial
    backoffMax := policy.backoffMax
    resyncInterval := policy.resyncInterval
    resyncBackoff := policy.backoffInitial
    nodesBackoff := policy.backoffInitial }

/-- Applies `f` to the state under the lock. -/
def modifyState (r : Reconciler) (f : State → State) : Reconciler := { r with state := f r.state }

/-! ## Writing one service -/

/-- Panics on a label set that does not fit its family. -/
def must (write : ReplicaGauges → Except LabelsMismatch ReplicaGauges) : Write := fun r =>
  match write r.replicaGauges with
  | .ok replicaGauges => .ok () { r with replicaGauges }
  | .error mismatch => .error (.labels mismatch) r

/-- `must` of the update families, which keep what was written before the mismatch. -/
def mustUpdate (service : Service) (metadata : ServiceMetadata) : Write := fun r =>
  match ServiceUpdateMetrics.updateForService service metadata r.serviceUpdate with
  | .ok _ serviceUpdate => .ok () { r with serviceUpdate }
  | .error mismatch serviceUpdate => .error (.labels mismatch) { r with serviceUpdate }

/-- Deletes every per-service series written under `metadata`'s label identity. -/
def deleteServiceSeries (r : Reconciler) (metadata : ServiceMetadata) : Reconciler :=
  let labels := labelsForMetadata metadata
  { r with
    replicaGauges :=
      { desired := (r.replicaGauges.desired.deleteWith labels).2
        schedulable := (r.replicaGauges.schedulable.deleteWith labels).2 }
    serviceUpdate := r.serviceUpdate.clear metadata }

/-- The series under the identity `serviceId` is cached with, deleted when `metadata` has another. -/
def deleteOldIdentity (r : Reconciler) (serviceId : String) (metadata : ServiceMetadata) :
    Reconciler :=
  match r.metadata[serviceId]? with
  | some previous =>
    if labelsForMetadata previous ≠ labelsForMetadata metadata then r.deleteServiceSeries previous
    else r
  | none => r

/-- Publishes the two replica families of a service. -/
def setReplicas (metadata : ServiceMetadata) (counts : Gauge × Gauge) : Write := do
  must (·.setDesired metadata counts.1)
  must (·.setSchedulable metadata counts.2)

/-- The metadata of `service`, or the panic of `buildMetadata`. -/
def buildOrPanic (service : Service) : EStateM Panic Reconciler ServiceMetadata := fun r =>
  match buildMetadata service r.customLabels with
  | .ok metadata => .ok metadata r
  | .error panic => .error panic r

/-- Stores the metadata of `service` and publishes its per-service families, with counts computed
from `nodes`. When the label identity changed, the series under the old identity are deleted
first. -/
def applyService [HostText] (service : Service) (nodes : List Node) : Write := do
  let metadata ← buildOrPanic service
  modify (·.deleteOldIdentity service.id metadata)
  let counts := replicaCounts metadata nodes
  let metadata := { metadata with desiredReplicas := counts.1 }
  modify fun r => { r with metadata := r.metadata.insert service.id metadata }
  setReplicas metadata counts
  mustUpdate service metadata
  modify (·.modifyState (·.bumpServiceGeneration service.id (some true)))

/-- Deletes the series and the cache entry of a service Docker no longer has. -/
def removeService (r : Reconciler) (serviceId : String) : Reconciler :=
  let r :=
    match r.metadata[serviceId]? with
    | some metadata =>
      { r.deleteServiceSeries metadata with metadata := r.metadata.erase serviceId }
    | none => r
  r.modifyState (·.forgetService serviceId)

/-! ## Writing a node list -/

/-- The counts of one cached service, recomputed from `nodes`. -/
def recountService [HostText] (nodes : List Node) (all : Map String ServiceMetadata)
    (serviceId : String) : Write :=
  match all[serviceId]? with
  | none => pure ()
  | some metadata => do
    let counts := replicaCounts metadata nodes
    modify fun r =>
      { r with metadata := r.metadata.modify serviceId ({ · with desiredReplicas := counts.1 }) }
    setReplicas metadata counts

/-- Replaces the node snapshot, recomputes every cached service's counts from it, in the order
`visit`, and bumps the node generation. -/
def applyNodes [HostText] (nodes : List Node) (visit : List String) : Write := do
  modify fun r => { r with nodes, nodesByState := r.nodesByState.updateFromSlice nodes }
  let all := (← get).metadata
  forM visit (recountService nodes all)
  modify (·.modifyState fun state => { state with nodeGeneration := state.nodeGeneration + 1 })

/-! ## Writing a resync -/

/-- The calls a resync makes once both lists arrived, in order: the nodes, every listed service, the
removal of every cached service not listed, and the pruning of the generations. `visit` is the order
of the node pass, and `ids` that of the cached ids read after the services. -/
def resyncCalls [HostText] (services : List Service) (nodes : List Node) (visit ids : List String) :
    List Write :=
  applyNodes nodes visit :: services.map (applyService · nodes) ++
    (ids.filter fun id => id ∉ services.map (·.id)).map (fun id => modify (·.removeService id)) ++
    [modify (·.modifyState (·.pruneServiceGenerations))]

/-- The calls of a resync, one after the other, up to a panic of one of them; `fault` is the number
of calls after which the pass panics for a reason of its own. -/
def applyLists [HostText] (services : List Service) (nodes : List Node) (visit ids : List String)
    (fault : Option Nat) : Write :=
  match fault with
  | none => forM (resyncCalls services nodes visit ids) id
  | some calls => do
    forM ((resyncCalls services nodes visit ids).take calls) id
    throw .other

/-! ## Scheduling -/

def growBackoff (r : Reconciler) (backoff : Duration) : Duration :=
  min (backoff.saturatingMul backoffMultiplier) r.backoffMax

/-- Delays the next resync by the current backoff and grows it. -/
def scheduleResyncRetry (r : Reconciler) (now : Instant) : Reconciler :=
  { r with
    resyncNotBefore := some (now + r.resyncBackoff)
    resyncBackoff := r.growBackoff r.resyncBackoff }

/-- Requests a resync and schedules it after the resync backoff, like a failed one. -/
def requestResyncAfterPanic (r : Reconciler) (now : Instant) (timestamp : Timestamp) : Reconciler :=
  (r.modifyState (·.requestResync timestamp)).scheduleResyncRetry now

/-- A failed node refresh: the flag stays set, and the next attempt waits for a growing backoff. -/
def nodesFailed (r : Reconciler) (now : Instant) : Reconciler :=
  { r with
    state := { r.state with nodesDirty := true }
    nodesNotBefore := some (now + r.nodesBackoff)
    nodesBackoff := r.growBackoff r.nodesBackoff }

/-- A failed resync only schedules the next attempt. -/
def resyncFailed (r : Reconciler) (now : Instant) : Reconciler :=
  { r with metrics := { r.metrics with resyncFailures := r.metrics.resyncFailures + 1 } }
    |>.scheduleResyncRetry now

/-- Records that every request up to `target` is served, and counts the resync as a success at the
time it completed. -/
def completeResync (r : Reconciler) (target : Nat) (passStart : Timestamp) (now : Instant)
    (timestamp : Timestamp) : Reconciler :=
  { r with
    metrics := { r.metrics with
      resyncSuccesses := r.metrics.resyncSuccesses + 1
      timestamps := r.metrics.timestamps.markResyncOk timestamp }
    state := r.state.completeResync target passStart
    resyncBackoff := r.backoffInitial
    resyncNotBefore := none
    nextPeriodicResync := some (now + r.resyncInterval)
    ready := true }

/-! ## The steps of a cycle, once Docker answered -/

/-- `reconcile_nodes` after its node list. -/
def nodesListed [HostText] (listed : Except CallError (List Node)) (visit : List String)
    (now : Instant) : Write :=
  match listed with
  | .ok nodes => do
    applyNodes nodes visit
    modify fun r => { r with nodesBackoff := r.backoffInitial }
  | .error _ => modify (·.nodesFailed now)

/-- `resync` after its two lists; `listed` is the second of them, since a failed first one ends the
step. -/
def resyncListed [HostText] (services : List Service) (listed : Except CallError (List Node))
    (visit ids : List String) (fault : Option Nat) (target : Nat) (passStart : Timestamp)
    (now : Instant) (timestamp : Timestamp) : Write :=
  match listed with
  | .ok nodes => do
    applyLists services nodes visit ids fault
    modify (·.completeResync target passStart now timestamp)
  | .error _ => modify (·.resyncFailed now)

/-- `reconcile_service` after its inspect: the new spec, the removal when Docker no longer has the
service, or a delayed retry on any other failure. -/
def serviceInspected [HostText] (key : DueKey) (inspected : Except CallError Service) (now : Instant)
    (timestamp : Timestamp) : Write :=
  match inspected with
  | .ok service => do
    let nodes := (← get).nodes
    applyService service nodes
  | .error error =>
    if error.source.isNotFound then modify (·.removeService key.serviceId)
    else modify fun r => r.modifyState (·.retryService r.retryDelays key now timestamp)

/-- `after_step` of a step that panicked: it may have stopped halfway, so a resync is requested, after
the resync backoff. A resync cut short by a panic neither completed nor went through its failure
path, so it is counted here. -/
def afterPanic (r : Reconciler) (resyncStep : Bool) (now : Instant) (timestamp : Timestamp) :
    Reconciler :=
  let r :=
    if resyncStep then
      { r with metrics := { r.metrics with resyncFailures := r.metrics.resyncFailures + 1 } }
    else r
  r.requestResyncAfterPanic now timestamp

/-- A step with its panic recovered. -/
def recovered (write : Write) (resyncStep : Bool) (now : Instant) (timestamp : Timestamp)
    (r : Reconciler) : Reconciler :=
  match write r with
  | .ok _ r => r
  | .error _ r => r.afterPanic resyncStep now timestamp

/-! ## What is due -/

def nodesDue (r : Reconciler) (now : Instant) : Bool :=
  decide (0 < r.state.resyncCompleted) && r.state.nodesDirty &&
    r.nodesNotBefore.all fun time => decide (time ≤ now)

def resyncDue (r : Reconciler) (now : Instant) : Bool :=
  decide (r.state.resyncCompleted < r.state.resyncRequested) &&
    r.resyncNotBefore.all fun time => decide (time ≤ now)

def periodicResyncDue (r : Reconciler) (now : Instant) : Bool :=
  decide (0 < r.state.resyncCompleted) &&
    decide (r.state.resyncRequested = r.state.resyncCompleted) &&
    r.nextPeriodicResync.all fun time => decide (time ≤ now)

/-- `request_resync` of a periodic resync that is due. -/
def requestPeriodic (r : Reconciler) (now : Instant) (timestamp : Timestamp) : Reconciler :=
  if r.periodicResyncDue now then r.modifyState (·.requestResync timestamp) else r

/-- `enqueue_event`; an event without an actor ID is only counted. -/
def enqueueEvent (r : Reconciler) (event : Event) (now : Instant) (timestamp : Timestamp) :
    Reconciler :=
  if event.actor.id.isEmpty then
    { r with metrics := { r.metrics with eventsDropped := r.metrics.eventsDropped + 1 } }
  else r.modifyState (·.enqueueEvent event now timestamp)

/-- The resync counters the health check reads. -/
def resyncState (r : Reconciler) : ResyncState :=
  ⟨r.state.resyncRequested, r.state.resyncCompleted, r.state.resyncOutstandingSince⟩

end Reconciler

end SwarmExporter
