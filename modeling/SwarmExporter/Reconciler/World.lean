import SwarmExporter.Lib.Runs
import SwarmExporter.Reconciler.Poll

/-!
# The reconciler among the tasks it runs with

One step of the world is one stretch of code between two awaits: of the event side, which marks keys
and asks for resyncs; of the pollers, which take snapshots, submit counts and record successes; and of
the reconciler, whose place in its cycle is the `Phase`. Docker answers an outstanding call with
anything, at any time, and a step of the reconciler may panic wherever it stands.

* The wall clock and the monotonic clock only move forward. A wall-clock reading may be older than the
  lock it is used under, and so may the instant an event is marked with.
* The order in which a `HashMap` is iterated is part of the action that iterates it.
* A poll request is served between two cycles, so at `Phase.idle`. A snapshot handed out stays with its
  poller for as long as it likes.
-/

namespace SwarmExporter

open Lib
open Docker (CallError Event Node Service)

/-- What the exporter is started with: the `--label` names, which were accepted, the policy, and the
clocks. -/
structure Config where
  rawKeys : List String
  labels : List CustomLabel
  accepted : validateCustomLabels rawKeys = .ok labels
  policy : ReconcilerPolicy
  clock : Timestamp
  instant : Instant

def Config.custom (config : Config) : CustomLabels := ⟨config.labels⟩

/-- What a resync read before it asked for its lists: the instant of its cycle, the time the pass
started, and the requests raised by then. -/
structure Pass where
  now : Instant
  passStart : Timestamp
  target : Nat
  deriving DecidableEq, Repr

/-- Where the reconciler stands in its cycle; `now` is the instant the cycle checks against. -/
inductive Phase where
  | idle
  | nodesCheck (now : Instant)
  | nodesListing (now : Instant)
  | resyncCheck (now : Instant)
  | servicesListing (pass : Pass)
  | resyncNodesListing (pass : Pass) (services : List Service)
  | keysCheck (now : Instant)
  /-- Between two keys of the batch. -/
  | batch (keys : List DueKey)
  | inspecting (key : DueKey) (keys : List DueKey)
  deriving DecidableEq

structure World where
  reconciler : Reconciler
  phase : Phase
  /-- When the reconciler was created: no clock reading is older. -/
  start : Timestamp
  clock : Timestamp
  instant : Instant
  /-- The snapshots handed out to pollers. -/
  snapshots : List PollSnapshot
  /-- The polls that were answered with Ok and not yet recorded as successful. -/
  unmarked : List PollSnapshot
  cancelled : Bool
  deriving DecidableEq

inductive Action where
  | tick (clock : Timestamp) (instant : Instant)
  | cancel
  -- The event side.
  | enqueueEvent (event : Event) (now : Instant) (timestamp : Timestamp)
  | requestResync (timestamp : Timestamp)
  -- The pollers.
  | buildPollSnapshot
  | applyPollCounts (snapshot : PollSnapshot) (counters : ServiceCounter) (timestamp : Timestamp)
    (visit : List String)
  | markPollOk (snapshot : PollSnapshot) (timestamp : Timestamp)
  -- The reconciler's cycle.
  | beginCycle (timestamp : Timestamp)
  | checkNodes
  | nodesListed (listed : Except CallError (List Node)) (visit : List String) (timestamp : Timestamp)
  | checkResync (passStart : Timestamp)
  | servicesListed (listed : Except CallError (List Service))
  | resyncNodesListed (listed : Except CallError (List Node)) (visit ids : List String)
    (fault : Option Nat) (timestamp : Timestamp)
  | takeDueKeys
  | startInspect
  | inspected (result : Except CallError Service) (timestamp : Timestamp)
  | endCycle
  /-- The step in progress panics while it waits for Docker. -/
  | stepPanics (timestamp : Timestamp)
  /-- The step in progress sees the cancellation. -/
  | stepCancelled

namespace World

/-- The exporter as it starts. -/
def init (config : Config) : World :=
  { reconciler := .withPolicy config.custom config.policy config.clock
    phase := .idle
    start := config.clock
    clock := config.clock
    instant := config.instant
    snapshots := []
    unmarked := []
    cancelled := false }

/-- `timestamp` is a reading of the clock, not necessarily the latest. -/
def Reads (w : World) (timestamp : Timestamp) : Prop := w.start ≤ timestamp ∧ timestamp ≤ w.clock

instance (w : World) (timestamp : Timestamp) : Decidable (w.Reads timestamp) :=
  inferInstanceAs (Decidable (_ ∧ _))

/-- The families' iteration of `applyPollCounts` follows `visit`. -/
def Publishes (w : World) (snapshot : PollSnapshot) (counters : ServiceCounter)
    (timestamp : Timestamp) (visit : List String) : Prop :=
  Enumerates visit (w.reconciler.judgeServices snapshot counters w.instant timestamp).published

instance (w : World) (snapshot : PollSnapshot) (counters : ServiceCounter) (timestamp : Timestamp)
    (visit : List String) : Decidable (w.Publishes snapshot counters timestamp visit) :=
  inferInstanceAs (Decidable (Enumerates _ _))

/-- The answer to a poll. -/
def pollAnswer (w : World) (snapshot : PollSnapshot) (counters : ServiceCounter)
    (timestamp : Timestamp) (visit : List String) : Reconciler × Except PollError Unit :=
  w.reconciler.applyPollCounts snapshot counters w.instant timestamp visit

/-- The cached ids a resync reads once it applied the services: those of the cache and the listed
ones. A pass that panics before then reads none. -/
def ReadsIds (w : World) (services : List Service) (ids : List String) : Prop :=
  ids.Nodup ∧ ∀ id, id ∈ ids ↔ id ∈ w.reconciler.metadata ∨ id ∈ services.map (·.id)

instance (w : World) (services : List Service) (ids : List String) :
    Decidable (w.ReadsIds services ids) :=
  decidable_of_iff (ids.Nodup ∧
      (∀ id ∈ ids, id ∈ w.reconciler.metadata ∨ id ∈ services.map Service.id) ∧
      (∀ id ∈ w.reconciler.metadata.keys, id ∈ ids) ∧ ∀ id ∈ services.map Service.id, id ∈ ids) <| by
    simp only [ReadsIds, Std.ExtTreeMap.mem_keys]
    constructor
    · rintro ⟨hnodup, hread, hcached, hlisted⟩
      exact ⟨hnodup, fun id => ⟨hread id, fun h => h.elim (hcached id) (hlisted id)⟩⟩
    · rintro ⟨hnodup, hiff⟩
      exact ⟨hnodup, fun id => (hiff id).1, fun id h => (hiff id).2 (.inl h),
        fun id h => (hiff id).2 (.inr h)⟩

/-- The world after the step in progress panicked while waiting, at `timestamp`: the panic is recovered
and the cycle goes on. -/
def panicked (w : World) (resyncStep : Bool) (phase : Phase) (timestamp : Timestamp) : World :=
  { w with reconciler := w.reconciler.afterPanic resyncStep w.instant timestamp, phase }

section Step

variable [HostText]

/-- The steps of the reconciler's cycle. -/
def cycleStep (w : World) : Action → Option World
  | .beginCycle timestamp =>
    match w.phase with
    | .idle =>
      if w.cancelled = false ∧ w.Reads timestamp then
        some { w with
          reconciler := w.reconciler.requestPeriodic w.instant timestamp
          phase := .nodesCheck w.instant }
      else none
    | _ => none
  | .checkNodes =>
    match w.phase with
    | .nodesCheck now =>
      -- The flag is cleared before the call: a node event that arrives during it sets it again.
      if w.reconciler.nodesDue now then
        some { w with
          reconciler := w.reconciler.modifyState ({ · with nodesDirty := false })
          phase := .nodesListing now }
      else some { w with phase := .resyncCheck now }
    | _ => none
  | .nodesListed listed visit timestamp =>
    match w.phase with
    | .nodesListing now =>
      if Enumerates visit w.reconciler.metadata ∧ w.Reads timestamp then
        some { w with
          reconciler := w.reconciler.recovered (Reconciler.nodesListed listed visit w.instant) false
            w.instant timestamp
          phase := .resyncCheck now }
      else none
    | _ => none
  | .checkResync passStart =>
    match w.phase with
    | .resyncCheck now =>
      if w.Reads passStart then
        if w.reconciler.resyncDue now then
          some { w with
            phase := .servicesListing ⟨now, passStart, w.reconciler.state.resyncRequested⟩ }
        else some { w with phase := .keysCheck now }
      else none
    | _ => none
  | .servicesListed listed =>
    match w.phase with
    | .servicesListing pass =>
      match listed with
      | .ok services => some { w with phase := .resyncNodesListing pass services }
      | .error _ =>
        some { w with
          reconciler := w.reconciler.resyncFailed w.instant, phase := .keysCheck pass.now }
    | _ => none
  | .resyncNodesListed listed visit ids fault timestamp =>
    match w.phase with
    | .resyncNodesListing pass services =>
      if Enumerates visit w.reconciler.metadata ∧ w.ReadsIds services ids ∧ w.Reads timestamp then
        some { w with
          reconciler := w.reconciler.recovered
            (Reconciler.resyncListed services listed visit ids fault pass.target pass.passStart
              w.instant timestamp) true w.instant timestamp
          phase := .keysCheck pass.now }
      else none
    | _ => none
  | .takeDueKeys =>
    match w.phase with
    | .keysCheck now =>
      some { w with
        reconciler := w.reconciler.modifyState fun state => (state.takeDueKeys now).2
        phase := .batch (w.reconciler.state.takeDueKeys now).1 }
    | _ => none
  | .startInspect =>
    match w.phase with
    | .batch (key :: keys) =>
      if w.cancelled = false then some { w with phase := .inspecting key keys } else none
    | _ => none
  | .inspected result timestamp =>
    match w.phase with
    | .inspecting key keys =>
      if w.Reads timestamp then
        some { w with
          reconciler := w.reconciler.recovered
            (Reconciler.serviceInspected key result w.instant timestamp) false w.instant timestamp
          phase := .batch keys }
      else none
    | _ => none
  | .endCycle =>
    match w.phase with
    | .batch keys => if keys = [] ∨ w.cancelled then some { w with phase := .idle } else none
    | _ => none
  | .stepPanics timestamp =>
    if w.Reads timestamp then
      match w.phase with
      | .nodesListing now => some (w.panicked false (.resyncCheck now) timestamp)
      | .servicesListing pass => some (w.panicked true (.keysCheck pass.now) timestamp)
      | .resyncNodesListing pass _ => some (w.panicked true (.keysCheck pass.now) timestamp)
      | .inspecting _ keys => some (w.panicked false (.batch keys) timestamp)
      | _ => none
    else none
  | .stepCancelled =>
    if w.cancelled then
      match w.phase with
      | .nodesListing now => some { w with phase := .resyncCheck now }
      | .servicesListing pass => some { w with phase := .keysCheck pass.now }
      | .resyncNodesListing pass _ => some { w with phase := .keysCheck pass.now }
      | .inspecting _ keys => some { w with phase := .batch keys }
      | _ => none
    else none
  | _ => none

/-- The world after `action`, or none where it cannot happen. -/
def step (w : World) (action : Action) : Option World :=
  match action with
  | .tick clock instant =>
    if w.clock ≤ clock ∧ w.instant ≤ instant then some { w with clock, instant } else none
  | .cancel => some { w with cancelled := true }
  | .enqueueEvent event now timestamp =>
    if now ≤ w.instant ∧ w.Reads timestamp then
      some { w with reconciler := w.reconciler.enqueueEvent event now timestamp }
    else none
  | .requestResync timestamp =>
    if w.Reads timestamp then
      some { w with reconciler := w.reconciler.modifyState (·.requestResync timestamp) }
    else none
  | .buildPollSnapshot =>
    if w.phase = .idle ∧ w.cancelled = false then
      some { w with snapshots := w.reconciler.buildPollSnapshot :: w.snapshots }
    else none
  | .applyPollCounts snapshot counters timestamp visit =>
    if w.phase = .idle ∧ w.cancelled = false ∧ snapshot ∈ w.snapshots ∧ w.Reads timestamp ∧
        w.Publishes snapshot counters timestamp visit then
      let answer := w.pollAnswer snapshot counters timestamp visit
      some { w with
        reconciler := answer.1
        unmarked := if answer.2.isOk then snapshot :: w.unmarked else w.unmarked }
    else none
  | .markPollOk snapshot timestamp =>
    if snapshot ∈ w.unmarked ∧ w.Reads timestamp then
      some { w with
        reconciler := { w.reconciler with
          metrics := { w.reconciler.metrics with
            timestamps := w.reconciler.metrics.timestamps.markPollOk timestamp } }
        unmarked := w.unmarked.erase snapshot }
    else none
  | action => w.cycleStep action

/-- A run of the exporter. -/
abbrev Runs (config : Config) (trace : List (Step World Action)) (w : World) : Prop :=
  Run step (init config) trace w

/-- The worlds a run of the exporter comes through. -/
def Reachable (config : Config) (w : World) : Prop := ∃ trace, Runs config trace w

end Step

end World

/-! ## A small cluster -/

namespace Sample

/-- One custom label and the default policy. -/
def config : Config where
  rawKeys := ["team"]
  labels := [⟨"team", "team"⟩]
  accepted := by decide +kernel
  policy := {}
  clock := 1000
  instant := 0

def node : Node :=
  { id := "node"
    spec := { role := "manager", availability := "active" }
    status := { state := "ready" } }

/-- A replicated service. -/
def replicated (id name : String) (replicas : Nat) : Service :=
  { id, spec := { name, mode := { replicated := some ⟨some replicas⟩ } } }

/-- A global service. -/
def everywhere (id name : String) : Service :=
  { id, spec := { name, mode := { global := some {} } } }

/-- A cycle whose resync lists `services` and the one node; `cached` are the ids cached before it. -/
def resyncCycle (services : List Service) (cached ids : List String) : List Action :=
  [.beginCycle 1000, .checkNodes, .checkResync 1000, .servicesListed (.ok services),
    .resyncNodesListed (.ok [node]) cached ids none 1000, .takeDueKeys, .endCycle]

/-- The snapshot a poll gets after `acts`. -/
def snapshotAfter (acts : List Action) : PollSnapshot :=
  match replay World.step (World.init config) acts with
  | some (_, w) => w.reconciler.buildPollSnapshot
  | none => ⟨∅, [], 0, 0⟩

/-- The counters of a poll that finds no tasks. -/
def noTasks (snapshot : PollSnapshot) : ServiceCounter :=
  addServicesWithoutTasks ∅ snapshot.serviceIds snapshot

end Sample

end SwarmExporter
