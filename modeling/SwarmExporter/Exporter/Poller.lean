import SwarmExporter.Cli
import SwarmExporter.Collector.Containers
import SwarmExporter.Reconciler.Listener

/-!
# The poller, and the exporter with all of its workers

The poller waits for the first resync, polls at once and then at every tick. A poll asks the reconciler
for a snapshot, lists and counts the tasks, submits the counts and waits for the verdict; then it polls
the containers, if these are enabled. A request and its reply go through channels that hold one, and a
reply stays there until the poller takes it, so between the two the poller's place is that of the request.

A step is one stretch of the poller between two awaits, or the reconciler serving its request, which is an
action of the world. `Exporter` runs the poller with the reconciler and the listener: of the actions of the
world, those of the pollers are made by this poller only.
-/

namespace SwarmExporter

open Lib
open Docker (CallError ContainerSummary Task)

/-- Where the poller stands. -/
inductive PollerPhase where
  /-- The first resync has not completed. -/
  | unready
  /-- Between two polls. -/
  | waiting
  | requesting
  | granted (snapshot : PollSnapshot)
  | listing (snapshot : PollSnapshot)
  | submitting (snapshot : PollSnapshot) (counters : ServiceCounter)
  | judged (snapshot : PollSnapshot) (failure : Option PollError)
  /-- The reconciler answered that it is stopping, to the submission or to the request. -/
  | refused (submitted : Bool)
  | containers
  | stopped
  deriving DecidableEq

structure Poller where
  delay : Duration
  /-- The container metrics, when enabled. -/
  containers : Option ContainersState
  phase : PollerPhase := .unready
  /-- When the interval ticks next. -/
  nextTick : Instant := 0
  polls : Nat := 0
  pollErrors : Nat := 0
  deriving DecidableEq

inductive PollerAction where
  /-- The loop sees the cancellation. -/
  | stop
  | ready
  | tick
  /-- The reconciler serves the request for a snapshot. -/
  | serveSnapshot
  /-- The reconciler serves a request when it is shutting down. -/
  | serveStopping
  | received
  | tasksListed (listed : Except CallError (List Task)) (visit : List LatestKey)
  /-- The reconciler judges the counts. -/
  | serveCounts (timestamp : Timestamp) (visit : List String)
  | verdict (timestamp : Timestamp)
  | containersPolled (listed : Except Docker.Error (List ContainerSummary)) (outside : Surroundings)
  /-- The await in progress sees the cancellation. -/
  | giveUp

namespace Poller

/-- The tick after one that was due at `timeout` and came at `now`: the missed ones are skipped, up to
the next multiple of the delay. -/
def skipMissed (delay : Duration) (timeout now : Instant) : Instant :=
  now + delay - (now - timeout) % delay

/-- The end of a poll: it is counted, whatever the outcome, and the containers come next. -/
def finish (poller : Poller) (cancelled : Bool) (failure : Option PollError) : Poller :=
  { poller with
    polls := poller.polls + 1
    pollErrors := if failure.isSome then poller.pollErrors + 1 else poller.pollErrors
    phase := if poller.containers.isSome && !cancelled then .containers else .waiting }

/-- The poll ends because of the cancellation, during `step`. -/
def canceled (poller : Poller) (step : String) : Poller := poller.finish true (some (.canceled step))

/-- The start of a poll: nothing is sent once cancelled. -/
def pollOnce (poller : Poller) (cancelled : Bool) : Poller :=
  if cancelled then poller.canceled "request polling snapshot"
  else { poller with phase := .requesting }

/-- The loop over the tasks of `listed` follows `visit`. -/
def Counts (snapshot : PollSnapshot) (listed : Except CallError (List Task)) (visit : List LatestKey) :
    Prop :=
  match listed with
  | .ok tasks => Enumerates visit (latestTasks snapshot tasks)
  | .error _ => True

instance (snapshot : PollSnapshot) (listed : Except CallError (List Task)) (visit : List LatestKey) :
    Decidable (Counts snapshot listed visit) :=
  match listed with
  | .ok tasks => inferInstanceAs (Decidable (Enumerates visit (latestTasks snapshot tasks)))
  | .error _ => isTrue trivial

variable [HostText]

/-- The poller after `action`, and what it or the reconciler did in the world, in order. -/
def step (poller : Poller) (w : World) : PollerAction → Option (Poller × List Action)
  | .stop =>
    if w.cancelled = true ∧ (poller.phase = .unready ∨ poller.phase = .waiting) then
      some ({ poller with phase := .stopped }, [])
    else none
  | .ready =>
    if poller.phase = .unready ∧ w.reconciler.ready = true then
      -- The interval starts now, and its first tick is immediate.
      some (({ poller with nextTick := w.instant + poller.delay } : Poller).pollOnce w.cancelled, [])
    else none
  | .tick =>
    if poller.phase = .waiting ∧ poller.nextTick ≤ w.instant then
      let nextTick := skipMissed poller.delay poller.nextTick w.instant
      some (({ poller with nextTick } : Poller).pollOnce w.cancelled, [])
    else none
  | .serveSnapshot =>
    match poller.phase with
    | .requesting =>
      some ({ poller with phase := .granted w.reconciler.buildPollSnapshot }, [.buildPollSnapshot])
    | _ => none
  | .serveStopping =>
    if w.cancelled = true ∧ w.phase = .idle then
      match poller.phase with
      | .requesting => some ({ poller with phase := .refused false }, [])
      | .submitting _ _ => some ({ poller with phase := .refused true }, [])
      | _ => none
    else none
  | .received =>
    match poller.phase with
    | .granted snapshot =>
      if w.cancelled then some (poller.canceled "task list", [])
      else some ({ poller with phase := .listing snapshot }, [])
    | .refused _ => some (poller.finish w.cancelled (some .stopping), [])
    | _ => none
  | .tasksListed listed visit =>
    match poller.phase with
    | .listing snapshot =>
      if Counts snapshot listed visit then
        match pollReplicasState snapshot listed visit with
        | .error error => some (poller.finish w.cancelled (some (.poll error)), [])
        | .ok counters =>
          if w.cancelled then some (poller.canceled "submit poll counts", [])
          else some ({ poller with phase := .submitting snapshot counters }, [])
      else none
    | _ => none
  | .serveCounts timestamp visit =>
    match poller.phase with
    | .submitting snapshot counters =>
      let failure :=
        match (w.pollAnswer snapshot counters timestamp visit).2 with
        | .ok _ => none
        | .error error => some error
      some ({ poller with phase := .judged snapshot failure },
        [.applyPollCounts snapshot counters timestamp visit])
    | _ => none
  | .verdict timestamp =>
    match poller.phase with
    | .judged snapshot none =>
      some (poller.finish w.cancelled none, [.markPollOk snapshot timestamp])
    | .judged _ (some error) => some (poller.finish w.cancelled (some error), [])
    | _ => none
  | .containersPolled listed outside =>
    match poller.phase, poller.containers with
    | .containers, some containers =>
      match containers.config.poll listed outside with
      | .ok rows =>
        some ({ poller with containers := some (containers.update rows), phase := .waiting }, [])
      | .error _ => some ({ poller with phase := .waiting }, [])
    | _, _ => none
  | .giveUp =>
    if w.cancelled then
      match poller.phase with
      | .requesting => some (poller.canceled "wait for polling snapshot", [])
      | .granted _ => some (poller.canceled "wait for polling snapshot", [])
      | .refused false => some (poller.canceled "wait for polling snapshot", [])
      | .listing _ => some (poller.canceled "task list", [])
      | .submitting _ _ => some (poller.canceled "wait for poll verdict", [])
      | .judged _ _ => some (poller.canceled "wait for poll verdict", [])
      | .refused true => some (poller.canceled "wait for poll verdict", [])
      | .containers => some ({ poller with phase := .waiting }, [])
      | _ => none
    else none

end Poller

/-! ## The exporter -/

/-- What the exporter is started with, once its checks passed. -/
structure Settings where
  config : Config
  /-- The time the event stream resumes from. -/
  anchor : Timestamp
  pollDelay : Duration
  checked : Cli.checkPollDelay pollDelay = .ok ()
  containers : ContainersConfig

structure Exporter where
  system : System
  poller : Poller
  deriving DecidableEq

inductive ExporterAction where
  | system (action : SystemAction)
  | poller (action : PollerAction)

/-- The actions of the world that are a poller's. -/
def Action.isPoll : Action → Bool
  | .buildPollSnapshot => true
  | .applyPollCounts .. => true
  | .markPollOk .. => true
  | _ => false

def SystemAction.isPoll : SystemAction → Bool
  | .world action => action.isPoll
  | .listener _ => false

namespace Exporter

/-- The exporter as its workers start; the container family exists only when enabled. -/
def init (settings : Settings) : Exporter :=
  { system := .init settings.config settings.anchor
    poller :=
      { delay := settings.pollDelay
        containers :=
          if settings.containers.enabled then some (.new settings.containers) else none } }

variable [HostText]

def step (e : Exporter) : ExporterAction → Option Exporter
  | .system action =>
    if action.isPoll then none else (e.system.step action).map fun system => { e with system }
  | .poller action =>
    match e.poller.step e.system.world action with
    | none => none
    | some (poller, calls) =>
      (calls.foldlM World.step e.system.world).map fun world =>
        { system := { e.system with world }, poller }

/-- A run of the exporter with all of its workers. -/
abbrev Runs (settings : Settings) (trace : List (Step Exporter ExporterAction)) (e : Exporter) : Prop :=
  Run step (init settings) trace e

end Exporter

/-! ## A small run -/

namespace Sample

/-- A poll every 15 seconds, without the container metrics. -/
def settings : Settings where
  config := config
  anchor := 10000000000
  pollDelay := Duration.fromSecs 15
  checked := by decide
  containers := { enabled := false, includeSwarm := false }

/-- The first resync, of one service. -/
def firstResync : List ExporterAction :=
  (resyncCycle [replicated "web" "web" 2] [] ["web"]).map fun action => .system (.world action)

/-- A poll that finds no task, from its start to its verdict. -/
def emptyPoll : List ExporterAction :=
  [.poller .serveSnapshot, .poller .received, .poller (.tasksListed (.ok []) []),
    .poller (.serveCounts 1000 ["web"]), .poller (.verdict 1000)]

end Sample

end SwarmExporter
