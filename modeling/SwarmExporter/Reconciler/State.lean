import SwarmExporter.Collector.ReplicasState
import SwarmExporter.Collector.ServiceUpdate

/-!
# The state the event side shares with the reconciler

The dirty set, the generations and the resync counters live under one lock. The operations here are
the ones that run under it: marking a key dirty, flagging the nodes, asking for a resync, taking the
keys that are due. A counter of the crate is a `u64` that is never near its limit; here it is a `Nat`.
-/

namespace SwarmExporter

open Lib
open Docker (Event)

/-- The dirty service keys kept at most. -/
def pendingKeyCap : Nat := 4096

/-- The service inspects of one cycle at most. -/
def serviceKeysPerCycle : Nat := 32

/-- The waits before retrying a service whose inspect failed with an error other than not-found. -/
def serviceRetryDelays : List Duration :=
  [Duration.fromMillis 500, Duration.fromSecs 1, Duration.fromSecs 2]

/-- The backoff's growth per failure. -/
def backoffMultiplier : Nat := 2

/-- The reconciler's timing policy. -/
structure ReconcilerPolicy where
  pendingCap : Nat := pendingKeyCap
  retryDelays : List Duration := serviceRetryDelays
  backoffInitial : Duration := Duration.fromMillis 500
  backoffMax : Duration := Duration.fromSecs 30
  resyncInterval : Duration := Duration.fromSecs 300
  deriving DecidableEq, Repr

/-- The generation of one service: a fresh value on every change. `cached` mirrors whether the
metadata cache holds the service. -/
structure Generation where
  value : Nat
  cached : Bool
  deriving DecidableEq, Repr

/-- The retry state of one dirty service key. -/
structure PendingKey where
  attempts : Nat
  notBefore : Instant
  deriving DecidableEq, Repr

/-- A dirty service key taken for reconciling, with the failures it already had. -/
structure DueKey where
  serviceId : String
  attempts : Nat
  deriving DecidableEq, Repr

structure State where
  pendingCap : Nat
  /-- Hands out generation values, so a service removed and seen again never reuses one. -/
  generationCounter : Nat
  serviceGeneration : Map String Generation
  nodeGeneration : Nat
  epoch : Nat
  resyncRequested : Nat
  resyncCompleted : Nat
  resyncOutstandingSince : Option Timestamp
  /-- The same keys as `pendingOrder`. -/
  pendingSet : Map String PendingKey
  pendingOrder : List String
  nodesDirty : Bool
  deriving DecidableEq

namespace State

/-- The state of a new reconciler: its first resync is already requested. -/
def new (pendingCap : Nat) (now : Timestamp) : State :=
  { pendingCap
    generationCounter := 0
    serviceGeneration := ∅
    nodeGeneration := 0
    epoch := 0
    resyncRequested := 1
    resyncCompleted := 0
    resyncOutstandingSince := some now
    pendingSet := ∅
    pendingOrder := []
    nodesDirty := false }

def bumpServiceGeneration (state : State) (serviceId : String) (cached : Option Bool) : State :=
  let value := state.generationCounter + 1
  let entry := state.serviceGeneration.getD serviceId ⟨value, false⟩
  { state with
    generationCounter := value
    serviceGeneration :=
      state.serviceGeneration.insert serviceId ⟨value, cached.getD entry.cached⟩ }

/-- Drops the generation of every service that is neither cached nor queued. -/
def pruneServiceGenerations (state : State) : State :=
  { state with
    serviceGeneration := state.serviceGeneration.filter fun serviceId generation =>
      generation.cached || decide (serviceId ∈ state.pendingSet) }

/-- Bumps the epoch, so a poll computed before the request is not published, and records when the
resync started being outstanding. -/
def requestResync (state : State) (now : Timestamp) : State :=
  { state with
    resyncOutstandingSince :=
      if state.resyncRequested = state.resyncCompleted then some now
      else state.resyncOutstandingSince
    resyncRequested := state.resyncRequested + 1
    epoch := state.epoch + 1 }

/-- Drops queued keys and uncached generations before invalidating in-flight polls. -/
def overflow (state : State) (now : Timestamp) : State :=
  let emptied := { state with pendingSet := ∅, pendingOrder := [] }
  emptied.pruneServiceGenerations.requestResync now

/-- Flags the nodes for a refresh and invalidates the node generation. -/
def markNodesDirty (state : State) : State :=
  { state with nodeGeneration := state.nodeGeneration + 1, nodesDirty := true }

/-- Appends `serviceId`, which is not queued, to the dirty set with `pending`; with the set at its
cap, drops the whole set for a resync instead. -/
def queueKey (state : State) (serviceId : String) (pending : PendingKey) (timestamp : Timestamp) :
    State :=
  if state.pendingCap ≤ state.pendingSet.size then state.overflow timestamp
  else
    { state with
      pendingSet := state.pendingSet.insert serviceId pending
      pendingOrder := state.pendingOrder ++ [serviceId] }

/-- Invalidates `serviceId`'s generation and queues it, due at `now`. A queued key keeps its place in
the FIFO and has its retry state reset. -/
def markServiceDirty (state : State) (serviceId : String) (now : Instant) (timestamp : Timestamp) :
    State :=
  let state := state.bumpServiceGeneration serviceId none
  if serviceId ∈ state.pendingSet then
    { state with pendingSet := state.pendingSet.insert serviceId ⟨0, now⟩ }
  else state.queueKey serviceId ⟨0, now⟩ timestamp

def eventTypeNode : String := "node"
def eventTypeService : String := "service"

/-- Marks what `event` changed dirty. An event without an actor ID is dropped; only node and service
events are acted on. -/
def enqueueEvent (state : State) (event : Event) (now : Instant) (timestamp : Timestamp) : State :=
  if event.actor.id.isEmpty then state
  else if event.kind = eventTypeNode then state.markNodesDirty
  else if event.kind = eventTypeService then state.markServiceDirty event.actor.id now timestamp
  else state

/-- What `takeDueKeys` has taken, and what it keeps queued. -/
structure Taking where
  taken : List DueKey := []
  remaining : List String := []
  pendingSet : Map String PendingKey

/-- One key of the FIFO: taken when its time has come and the cycle has room for it. -/
def takeKey (now : Instant) (taking : Taking) (serviceId : String) : Taking :=
  match taking.pendingSet[serviceId]? with
  | some pending =>
    if taking.taken.length < serviceKeysPerCycle ∧ pending.notBefore ≤ now then
      { taking with
        taken := taking.taken ++ [⟨serviceId, pending.attempts⟩]
        pendingSet := taking.pendingSet.erase serviceId }
    else { taking with remaining := taking.remaining ++ [serviceId] }
  | none => { taking with remaining := taking.remaining ++ [serviceId] }

/-- Removes and returns, in FIFO order, up to `serviceKeysPerCycle` keys whose time has come. Keys
wait until the first resync completed. -/
def takeDueKeys (state : State) (now : Instant) : List DueKey × State :=
  if state.resyncCompleted = 0 ∨ state.pendingOrder = [] then ([], state)
  else
    let taking := state.pendingOrder.foldl (takeKey now) { pendingSet := state.pendingSet }
    (taking.taken,
      { state with pendingOrder := taking.remaining, pendingSet := taking.pendingSet })

/-- Requeues a key whose inspect failed, with the next retry delay, or drops it and requests a resync
once the delays are used up. A fresh event queued meanwhile wins. -/
def retryService (state : State) (retryDelays : List Duration) (key : DueKey) (now : Instant)
    (timestamp : Timestamp) : State :=
  if key.serviceId ∈ state.pendingSet then state
  else
    match retryDelays[key.attempts]? with
    | none => state.requestResync timestamp
    | some delay => state.queueKey key.serviceId ⟨key.attempts + 1, now + delay⟩ timestamp

/-- The part of `remove_service` under the lock: an event that arrived meanwhile keeps the
generation its key needs. -/
def forgetService (state : State) (serviceId : String) : State :=
  if serviceId ∈ state.pendingSet then
    { state with
      serviceGeneration := state.serviceGeneration.modify serviceId ({ · with cached := false }) }
  else { state with serviceGeneration := state.serviceGeneration.erase serviceId }

/-- The part of `complete_resync` under the lock: every request up to `target` is served. A request
raised during the pass is no earlier than its start. -/
def completeResync (state : State) (target : Nat) (passStart : Timestamp) : State :=
  let completed := max state.resyncCompleted target
  { state with
    resyncCompleted := completed
    resyncOutstandingSince :=
      if state.resyncRequested = completed then none else some passStart }

end State

end SwarmExporter
