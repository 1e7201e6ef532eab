import SwarmExporter.Collector.Desired

/-!
# The tasks of each service, counted by state

`swarm_task_replicas_state`, `swarm_service_running_replicas` and `swarm_service_at_desired`, from one
task list per poll. Only the current task of a key is counted: one per (service, slot) for replicated
services and replicated jobs, one per (service, node) for global services and global jobs; it is the
one Swarm still wants, preferring a running one, then the newest (`preferredTask`). Counts are whole
numbers of tasks, far below the point where an `f64` stops counting by ones.

Two loops iterate a `HashMap`: the one over the chosen tasks and the one over the counters when the
families are built. Both take the order they visit the keys in.
-/

namespace SwarmExporter

open Lib
open Docker (CallError Node Placement Task)

/-! ## What a poll counts tasks against -/

/-- One service of a snapshot, at the reconciler's generation of it. -/
structure PollService where
  generation : Nat
  metadata : ServiceMetadata
  /-- Its label identity. -/
  labels : Labels
  deriving DecidableEq

/-- The service at `generation` with `metadata`, and the labels it implies. -/
def PollService.new (generation : Nat) (metadata : ServiceMetadata) : PollService :=
  ⟨generation, metadata, labelsForMetadata metadata⟩

/-- A polling snapshot: the services and nodes of one moment. -/
structure PollSnapshot where
  services : Map String PollService
  nodes : List Node
  nodeGeneration : Nat
  epoch : Nat
  deriving DecidableEq

/-- The service IDs, sorted. -/
def PollSnapshot.serviceIds (snapshot : PollSnapshot) : List String := snapshot.services.keys

/-! ## Counters -/

/-- The task counts of one service. -/
structure TaskCounter where
  /-- The count per task state; a state never seen is absent. -/
  states : Map String Nat := ∅
  labels : Labels
  /-- The counted tasks Swarm still wants. -/
  wanted : Nat := 0
  /-- Those of them that are complete. -/
  wantedComplete : Nat := 0
  /-- Global jobs only: every node eligible now has a wanted, completed task. -/
  eligibleNodesCovered : Bool := false
  desired : Gauge := 0
  desiredKnown : Bool := false
  deriving DecidableEq

namespace TaskCounter

/-- An empty counter with the label identity and desired replicas of `service`. -/
def forService (service : PollService) : TaskCounter :=
  { labels := service.labels, desired := service.metadata.desiredReplicas, desiredKnown := true }

/-- Counts one task in `state`. -/
def inc (counter : TaskCounter) (state : String) : TaskCounter :=
  { counter with states := counter.states.insert state (counter.states.getD state 0 + 1) }

/-- The count of `state`, 0 when never seen. -/
def state (counter : TaskCounter) (state : String) : Nat := counter.states.getD state 0

def mode (counter : TaskCounter) : String := counter.labels.getD labelServiceMode ""

end TaskCounter

/-- The counters of a poll, by service ID. -/
abbrev ServiceCounter := Map String TaskCounter

def taskStateRunning : String := "running"
def taskStateComplete : String := "complete"

/-- Every Swarm task state, emitted for each service with 0 where absent. -/
def knownTaskStates : List String :=
  ["new", "allocated", "pending", "assigned", "accepted", "preparing", "ready", "starting",
    "running", "complete", "shutdown", "failed", "rejected", "remove", "orphaned"]

/-- The desired states of a task Swarm no longer wants running. -/
def retiredDesiredStates : List String := ["shutdown", "failed", "rejected", "remove", "orphaned"]

/-- The reported states of a task that stopped, or never runs again. -/
def stoppedTaskStates : List String :=
  ["complete", "shutdown", "failed", "rejected", "remove", "orphaned"]

/-! ## Choosing the task of a key -/

/-- Whether Swarm no longer wants `task` running; an empty desired state is wanted. -/
def retiredTask (task : Task) : Bool := retiredDesiredStates.contains task.desiredState

/-- Whether Swarm retired `task` but it has not reported stopping. -/
def retiredNotStopped (task : Task) : Bool :=
  retiredTask task && !stoppedTaskStates.contains task.status.state

/-- Whether `candidate` is strictly newer than `current`: by creation time, then by status timestamp
when both have one, then by version index. -/
def newerThan (candidate current : Task) : Bool :=
  if candidate.createdAt ≠ current.createdAt then
    current.createdAt.timestamp < candidate.createdAt.timestamp
  else if !candidate.status.timestamp.isZero && !current.status.timestamp.isZero then
    current.status.timestamp.timestamp < candidate.status.timestamp.timestamp
  else current.version.index < candidate.version.index

/-- Whether `candidate` replaces `current` as the counted task of a key: a task Swarm still wants
beats a retired one, a running task beats one that is not, then the newer task wins. -/
def preferredTask (candidate current : Task) : Bool :=
  if retiredTask candidate ≠ retiredTask current then !retiredTask candidate
  else if (candidate.status.state == taskStateRunning) ≠ (current.status.state == taskStateRunning) then
    candidate.status.state == taskStateRunning
  else newerThan candidate current

/-- A deduplication group: (service, slot) for replicated modes, (service, node) for global ones. -/
structure LatestKey where
  serviceId : String
  slot : Int
  nodeId : String
  deriving DecidableEq, Repr

namespace LatestKey

instance : Ord LatestKey where
  compare := compareLex (compareOn (·.serviceId)) (compareLex (compareOn (·.slot)) (compareOn (·.nodeId)))

instance : Std.TransOrd LatestKey :=
  inferInstanceAs (Std.TransCmp (compareLex (compareOn LatestKey.serviceId)
    (compareLex (compareOn LatestKey.slot) (compareOn LatestKey.nodeId))))

instance : Std.LawfulEqOrd LatestKey where
  eq_of_compare := by
    rintro ⟨service, slot, node⟩ ⟨service', slot', node'⟩ h
    simp only [compare, compareLex, compareOn, Ordering.then_eq_eq] at h
    obtain ⟨hservice, hslot, hnode⟩ := h
    simp only [LatestKey.mk.injEq]
    exact ⟨Std.LawfulEqOrd.eq_of_compare hservice, Std.LawfulEqOrd.eq_of_compare hslot,
      Std.LawfulEqOrd.eq_of_compare hnode⟩

end LatestKey

/-- The key `task` is counted under, or none when it belongs to an earlier run of a job. -/
def dedupeKeyForTask (task : Task) (metadata : ServiceMetadata) : Option LatestKey :=
  if isJobMode metadata.serviceMode.asStr &&
      (task.jobIteration.all fun iteration => iteration.index ≠ metadata.jobIteration) then
    none
  else
    match metadata.serviceMode with
    | .replicated | .replicatedJob => some ⟨task.serviceId, task.slot, ""⟩
    | .global | .globalJob => some ⟨task.serviceId, 0, task.nodeId⟩

/-- The key `task` is counted under in `snapshot`; none for a task that is not counted. -/
def countedKey (snapshot : PollSnapshot) (task : Task) : Option LatestKey :=
  match snapshot.services[task.serviceId]? with
  | none => none
  | some service =>
    if retiredNotStopped task then none else dedupeKeyForTask task service.metadata

/-- One task of the list: it becomes the task of its key when the key has none, or when it is
preferred to the one the key has. -/
def chooseTask (snapshot : PollSnapshot) (latest : Map LatestKey Task) (task : Task) :
    Map LatestKey Task :=
  match countedKey snapshot task with
  | none => latest
  | some key =>
    if latest[key]?.all fun previous => preferredTask task previous then latest.insert key task
    else latest

/-- The current task per dedupe key. -/
def latestTasks (snapshot : PollSnapshot) (tasks : List Task) : Map LatestKey Task :=
  tasks.foldl (chooseTask snapshot) ∅

/-! ## Counting the chosen tasks -/

/-- The counters, and per service the nodes with a wanted completed task of a global job. -/
structure Counts where
  counters : ServiceCounter := ∅
  completedNodes : Map String (List String) := ∅

/-- Adds `task` to the wanted counts of `counter` when Swarm still wants it. -/
def countWanted (counter : TaskCounter) (task : Task) : TaskCounter :=
  if retiredTask task then counter
  else if task.status.state ≠ taskStateComplete then { counter with wanted := counter.wanted + 1 }
  else { counter with wanted := counter.wanted + 1, wantedComplete := counter.wantedComplete + 1 }

/-- Whether `countWanted` records the node of `task`: a wanted completed global-job task. -/
def completesNode (counter : TaskCounter) (task : Task) : Bool :=
  !retiredTask task && task.status.state == taskStateComplete &&
    counter.mode == Mode.globalJob.asStr

/-- One chosen task: counted by state, and by whether Swarm still wants it. -/
def countTask (snapshot : PollSnapshot) (latest : Map LatestKey Task) (counts : Counts)
    (key : LatestKey) : Counts :=
  match latest[key]?, snapshot.services[key.serviceId]? with
  | some task, some service =>
    let counter := counts.counters.getD key.serviceId (.forService service)
    let counter := counter.inc task.status.state
    { counters := counts.counters.insert key.serviceId (countWanted counter task)
      completedNodes :=
        if completesNode counter task then
          counts.completedNodes.insert task.serviceId
            (counts.completedNodes.getD task.serviceId [] ++ [task.nodeId])
        else counts.completedNodes }
  | _, _ => counts

section Covered

variable [HostText]

/-- Whether every node of `nodes` eligible for `placement` is in `completedNodes`. No nodes at all
is false. -/
def eligibleNodesCovered (nodes : List Node) (placement : Option Placement)
    (completedNodes : List String) : Bool :=
  !nodes.isEmpty &&
    (nodes.filter fun node => nodeEligible (some node) placement).all fun node =>
      completedNodes.contains node.id

/-- Sets `eligibleNodesCovered` on every global-job counter. -/
def markEligibleNodesCovered (counts : Counts) (snapshot : PollSnapshot) : ServiceCounter :=
  counts.counters.map fun serviceId counter =>
    if counter.mode ≠ Mode.globalJob.asStr then counter
    else
      let placement := (snapshot.services[serviceId]?).bind fun service =>
        placementFromMetadata service.metadata
      { counter with
        eligibleNodesCovered := eligibleNodesCovered snapshot.nodes placement
          (counts.completedNodes.getD serviceId []) }

end Covered

/-- Gives every queried service without tasks an empty counter. -/
def addServicesWithoutTasks (counters : ServiceCounter) (queriedServiceIds : List String)
    (snapshot : PollSnapshot) : ServiceCounter :=
  queriedServiceIds.foldl
    (fun counters serviceId =>
      if serviceId ∈ counters then counters
      else
        match snapshot.services[serviceId]? with
        | some service => counters.insert serviceId (.forService service)
        | none => counters)
    counters

/-- The counters of `snapshot`'s services from the cluster's task list, the chosen tasks visited in
the order `visit`. An empty snapshot has nothing to count: the task list is not even asked for. -/
def pollReplicasState [HostText] (snapshot : PollSnapshot) (listed : Except CallError (List Task))
    (visit : List LatestKey) : Except CallError ServiceCounter :=
  if snapshot.serviceIds.isEmpty then .ok ∅
  else
    match listed with
    | .error error => .error error
    | .ok tasks =>
      let counts := visit.foldl (countTask snapshot (latestTasks snapshot tasks)) {}
      .ok (addServicesWithoutTasks (markEligibleNodesCovered counts snapshot) snapshot.serviceIds
        snapshot)

/-! ## The three families -/

/-- Whether a job finished, from the tasks of its current iteration. -/
def jobAtDesired (mode : String) (counter : TaskCounter) (desired : Gauge) : Bool :=
  let allWantedComplete := counter.wantedComplete == counter.wanted
  if mode == Mode.replicatedJob.asStr then
    allWantedComplete && decide (desired ≤ counter.wantedComplete)
  else decide (0 < counter.wanted) && allWantedComplete && counter.eligibleNodesCovered

/-- The at-desired value of one service. -/
def atDesired (base : Labels) (counter : TaskCounter) : Gauge :=
  if !counter.desiredKnown then 0
  else
    let mode := base.getD labelServiceMode ""
    let reached :=
      if isJobMode mode then jobAtDesired mode counter counter.desired
      else decide ((counter.state taskStateRunning : Int) = counter.desired)
    if reached then 1 else 0

/-- The three families, published as one snapshot. -/
structure ReplicasState where
  stateDesc : Desc
  runningDesc : Desc
  atDesiredDesc : Desc
  /-- The published set; nothing before the first publish. -/
  current : Option (Map String BuiltFamily)
  deriving DecidableEq

namespace ReplicasState

def replicasStateHelp : String :=
  "Number of tasks per Swarm service segmented by task state (current task per slot for replicated " ++
    "services and replicated jobs or node for global services and global jobs; jobs count only their " ++
    "current iteration)."

def runningReplicasHelp : String :=
  "Current number of running tasks per Swarm service (current task per slot for replicated services " ++
    "and replicated jobs or node for global services and global jobs; jobs count only their current " ++
    "iteration)."

def atDesiredHelp : String :=
  "Service is at desired replicas (1) or not (0). Jobs are at desired once finished: every task of " ++
    "the current iteration completed."

/-- The families, with the custom labels after the base labels (after `state` on the state family),
with nothing published. -/
def new (custom : CustomLabels) : ReplicasState :=
  let names (withState : Bool) : List String :=
    sanitizeLabelNames
      (baseLabelNames ++ (if withState then [labelState] else []) ++ custom.sanitizedNames)
  { stateDesc := ⟨"swarm_task_replicas_state", replicasStateHelp, names true⟩
    runningDesc := ⟨"swarm_service_running_replicas", runningReplicasHelp, names false⟩
    atDesiredDesc := ⟨"swarm_service_at_desired", atDesiredHelp, names false⟩
    current := none }

/-- The series of one counter, for all three families: every known state, 0 where absent. -/
def buildCounter (families : ReplicasState) (builder : SnapshotBuilder) (counter : TaskCounter) :
    SnapshotBuilder :=
  let base := sanitizeMetricLabels counter.labels
  let builder := knownTaskStates.foldl
    (fun builder state =>
      builder.set families.stateDesc (base.insert labelState state).toList (counter.state state))
    builder
  let builder := builder.set families.runningDesc base.toList (counter.state taskStateRunning)
  builder.set families.atDesiredDesc base.toList (atDesired base counter)

/-- The series of every service of `counters`, visited in the order `visit`, without publishing
them. -/
def build (families : ReplicasState) (counters : ServiceCounter) (visit : List String) :
    SnapshotBuilder :=
  visit.foldl
    (fun builder serviceId =>
      match counters[serviceId]? with
      | some counter => families.buildCounter builder counter
      | none => builder)
    {}

/-- Publishes `counters` as the three families, built whole first and swapped in at once. -/
def update (families : ReplicasState) (counters : ServiceCounter) (visit : List String) :
    Except String ReplicasState :=
  match (families.build counters visit).build with
  | .ok built => .ok { families with current := some built }
  | .error error =>
    .error ("build replicas state snapshot; keeping previous: " ++ error.display)

end ReplicasState

end SwarmExporter
