import SwarmExporter.Reconciler.Apply

/-!
# The poll protocol

The poller asks for an immutable polling snapshot (`buildPollSnapshot`), lists and counts tasks
against it without touching the caches, and submits the counts. The reconciler publishes a service's
counts only if nothing about the service changed in between (`PollVerdict.accepts`); a rejected
service keeps its previously published series for a bounded number of polls (`applyPollCounts`).
-/

namespace SwarmExporter

open Lib
open Docker (CallError)

/-- How many polls in a row a rejected service keeps its previously published series. -/
def maxCarriedPolls : Nat := 2

/-- Why a poll was not fully published. -/
inductive PollError where
  /-- The poller's cancellation fired during the step named. -/
  | canceled (step : String)
  /-- The reconciler was shutting down when it took the request. -/
  | stopping
  /-- The task list failed. -/
  | poll (error : CallError)
  /-- The replicas-state build failed; the previous set stays. -/
  | publish (message : String)
  /-- Published without these services, sorted. -/
  | partiallyRejected (omitted : List String)
  deriving DecidableEq, Repr

/-- The state a poll is judged against, read under the lock in one go. -/
structure PollVerdict where
  generations : Map String Nat
  dirty : Map String Bool
  nodeGeneration : Nat
  nodesDirty : Bool
  epoch : Nat
  deriving DecidableEq

/-- Whether the counts of `service` can be published: nothing about it changed since the snapshot,
and no change is waiting to be applied. -/
def PollVerdict.accepts (verdict : PollVerdict) (snapshot : PollSnapshot) (serviceId : String)
    (service : PollService) : Bool :=
  let generation := verdict.generations.getD serviceId 0
  if verdict.epoch ≠ snapshot.epoch ∨ generation ≠ service.generation ∨
      verdict.dirty.getD serviceId false then
    false
  else
    !service.metadata.serviceMode.nodeDependent ||
      (decide (verdict.nodeGeneration = snapshot.nodeGeneration) && !verdict.nodesDirty)

namespace State

/-- The generation of a service, 0 when it has none. -/
def generationOf (state : State) (serviceId : String) : Nat :=
  match state.serviceGeneration[serviceId]? with
  | some generation => generation.value
  | none => 0

/-- The verdict on the services of `snapshot`. -/
def currentPollVerdict (state : State) (snapshot : PollSnapshot) : PollVerdict :=
  { generations := snapshot.services.map fun serviceId _ => state.generationOf serviceId
    dirty := snapshot.services.filterMap fun serviceId _ =>
      if serviceId ∈ state.pendingSet then some true else none
    nodeGeneration := state.nodeGeneration
    nodesDirty := state.nodesDirty
    epoch := state.epoch }

end State

namespace Reconciler

/-- Copies what a poll needs from the caches, with the generations and the epoch they correspond
to. -/
def buildPollSnapshot (r : Reconciler) : PollSnapshot :=
  { services := r.metadata.map fun serviceId metadata =>
      .new (r.state.generationOf serviceId) metadata
    nodes := r.nodes
    nodeGeneration := r.state.nodeGeneration
    epoch := r.state.epoch }

/-- What the loop of `applyPollCounts` builds: the counters to publish, the rejections in a row, and
the services omitted. -/
structure Judging where
  reconciler : Reconciler
  published : ServiceCounter := ∅
  rejections : Map String Nat := ∅
  omitted : List String := []

/-- Judges one service of a poll. A service no longer cached is dropped and marked dirty; an accepted
one is published; a rejected one, or one the poll has no counts for, keeps its previously published
series if its label identity did not change, and is omitted past `maxCarriedPolls`. -/
def judgeService (verdict : PollVerdict) (snapshot : PollSnapshot) (counters : ServiceCounter)
    (now : Instant) (timestamp : Timestamp) (judging : Judging) (serviceId : String) : Judging :=
  let r := judging.reconciler
  match snapshot.services[serviceId]?, r.metadata[serviceId]? with
  | none, _ => judging
  | some _, none =>
    { judging with
      reconciler := r.modifyState (·.markServiceDirty serviceId now timestamp) }
  | some service, some metadata =>
    match counters[serviceId]?, verdict.accepts snapshot serviceId service with
    | some counter, true =>
      { judging with published := judging.published.insert serviceId counter }
    | _, _ =>
      let rejected := r.pollRejections.getD serviceId 0 + 1
      let r := { r with
        metrics := { r.metrics with pollRejections := r.metrics.pollRejections + 1 } }
      let judging := { judging with
        reconciler := r, rejections := judging.rejections.insert serviceId rejected }
      if maxCarriedPolls < rejected then
        { judging with omitted := judging.omitted ++ [serviceId] }
      else
        match r.lastPublished[serviceId]? with
        | some previous =>
          if previous.labels = labelsForMetadata metadata then
            { judging with published := judging.published.insert serviceId previous }
          else judging
        | none => judging

/-- Judges every service of `snapshot`, in the order of their ids. -/
def judgeServices (r : Reconciler) (snapshot : PollSnapshot) (counters : ServiceCounter)
    (now : Instant) (timestamp : Timestamp) : Judging :=
  let verdict := r.state.currentPollVerdict snapshot
  snapshot.serviceIds.foldl (judgeService verdict snapshot counters now timestamp)
    { reconciler := r }

/-- Judges each service of a poll and publishes the result, building the families in the order
`visit`. -/
def applyPollCounts (r : Reconciler) (snapshot : PollSnapshot) (counters : ServiceCounter)
    (now : Instant) (timestamp : Timestamp) (visit : List String) :
    Reconciler × Except PollError Unit :=
  let judging := r.judgeServices snapshot counters now timestamp
  let r := judging.reconciler
  match r.replicasState.update judging.published visit with
  | .error message => (r, .error (.publish message))
  | .ok replicasState =>
    let r := { r with
      replicasState, lastPublished := judging.published, pollRejections := judging.rejections }
    if judging.omitted = [] then (r, .ok ())
    else (r, .error (.partiallyRejected (judging.omitted.mergeSort (· ≤ ·))))

end Reconciler

end SwarmExporter
