import SwarmExporter.Lib.Resume
import SwarmExporter.Reconciler.World

/-!
# The event listener

The listener follows the event stream for service and node changes and hands every event to the
reconciler. A step is one stretch of it between two awaits: the answer to a connect, one message of
the stream, the end of a backoff. What it calls on the reconciler's handle are actions of the world,
and `System` runs the two together, with the daemon's side of the stream beside them.
-/

namespace SwarmExporter

open Lib
open Docker (Event StreamError)

namespace Timestamp

/-- The earliest time, `-9999-01-02T01:59:59Z`. -/
def min : Timestamp := -377705023201 * 1000000000

/-- The latest time, `9999-12-30T22:00:00.999999999Z`. -/
def max : Timestamp := 253402207200 * 1000000000 + 999999999

/-- The time of `nanos`, if it is in a timestamp's range. -/
def fromNanosecond (nanos : Int) : Option Timestamp :=
  if min ≤ nanos ∧ nanos ≤ max then some nanos else none

end Timestamp

/-- How far before the anchor, or the last event seen, a stream starts. -/
def eventsSinceMargin : Duration := Duration.fromMillis 500

/-- The first backoff of the listener. -/
def backoffInitialDelay : Duration := Duration.fromMillis 500

/-- The cap of the exponential backoff. -/
def backoffMaxDelay : Duration := Duration.fromSecs 30

/-- The event filter: service and node events only. -/
def eventFilters : List String := [State.eventTypeService, State.eventTypeNode]

/-- `timestamp` minus the margin. -/
def withMargin (timestamp : Timestamp) : Timestamp :=
  (Timestamp.fromNanosecond (timestamp - eventsSinceMargin)).getD Timestamp.min

/-- The backoff that follows `delay`: doubled, up to the cap. -/
def nextBackoff (delay : Duration) : Duration :=
  Nat.min (delay.saturatingMul backoffMultiplier) backoffMaxDelay

/-- The time Docker stamped `event` with: `timeNano` when set, else `time`, in seconds; none when
neither is, or when the value is out of a timestamp's range. -/
def eventTime (event : Event) : Option Timestamp :=
  if 0 < event.timeNano then Timestamp.fromNanosecond event.timeNano
  else if 0 < event.time then Timestamp.fromNanosecond (event.time * 1000000000)
  else none

/-- Why the listener returned. -/
inductive ListenerStopped where
  /-- Cancelled while a stream was open or being opened, or between two of them. -/
  | stopping
  | duringBackoff (backoff : Duration)
  deriving DecidableEq, Repr

/-- How one stream connection ended. -/
inductive StreamEnd where
  | canceled
  | connect (error : Docker.Error)
  | failed (error : StreamError)
  | closed (error : StreamError)
  deriving DecidableEq, Repr

/-- What one connection left behind. -/
structure StreamOutcome where
  connected : Bool
  lastSeen : Option Timestamp
  ending : StreamEnd
  deriving DecidableEq, Repr

inductive ListenerPhase where
  /-- A connection attempt is on its way. -/
  | connecting
  | streaming (lastSeen : Option Timestamp)
  | backingOff
  | stopped (reason : ListenerStopped)
  deriving DecidableEq, Repr

structure Listener where
  backoff : Duration := backoffInitialDelay
  since : Timestamp
  /-- False for the first attempt only. -/
  reconnect : Bool := false
  /-- The reconnects counted. -/
  reconnects : Nat := 0
  phase : ListenerPhase := .connecting
  deriving DecidableEq, Repr

/-- An event as the daemon sends it; two events with one content have two numbers. -/
structure Delivery where
  number : Nat
  event : Event
  deriving DecidableEq, Repr

/-- The time of an event that has one. -/
def Delivery.stamp (delivery : Delivery) : Timestamp := (eventTime delivery.event).getD 0

inductive ListenerAction where
  | connected (timestamp : Timestamp)
  | connectFailed (error : Docker.Error)
  | received (delivery : Delivery) (now : Instant) (timestamp : Timestamp)
  | streamFailed (error : StreamError)
  | streamCancelled
  | slept
  | sleepCancelled
  deriving DecidableEq, Repr

/-- An attempt that was answered, either way. -/
def ListenerAction.isAttempt : ListenerAction → Bool
  | .connected _ => true
  | .connectFailed _ => true
  | _ => false

namespace Listener

/-- The top of the loop. -/
def attempt (listener : Listener) (cancelled : Bool) : Listener :=
  { listener with phase := if cancelled then .stopped .stopping else .connecting }

/-- `listen_swarm_events` as it starts. -/
def start (anchor : Timestamp) (cancelled : Bool) : Listener :=
  attempt { since := withMargin anchor } cancelled

/-- The loop after a connection: a stream that connected resets the backoff, and an event that had a
time moves the point to resume from. -/
def followed (listener : Listener) (cancelled : Bool) (outcome : StreamOutcome) : Listener :=
  let listener := { listener with
    reconnect := true
    backoff := if outcome.connected then backoffInitialDelay else listener.backoff
    since := outcome.lastSeen.elim listener.since withMargin }
  if cancelled then { listener with phase := .stopped .stopping }
  else { listener with reconnects := listener.reconnects + 1, phase := .backingOff }

/-- The listener after `action`, and what it called on the reconciler's handle, in order. -/
def step (listener : Listener) (cancelled : Bool) :
    ListenerAction → Option (Listener × List Action)
  | .connected timestamp =>
    match listener.phase with
    | .connecting =>
      -- On a reconnect a resync is requested once the stream is open.
      some ({ listener with phase := .streaming none },
        if listener.reconnect then [.requestResync timestamp] else [])
    | _ => none
  | .connectFailed error =>
    match listener.phase with
    | .connecting =>
      let ending := if error.kind = .cancelled ∨ cancelled then .canceled else .connect error
      some (listener.followed cancelled ⟨false, none, ending⟩, [])
    | _ => none
  | .received delivery now timestamp =>
    match listener.phase with
    | .streaming lastSeen =>
      some ({ listener with phase := .streaming ((eventTime delivery.event).or lastSeen) },
        [.enqueueEvent delivery.event now timestamp])
    | _ => none
  | .streamFailed error =>
    match listener.phase with
    | .streaming lastSeen =>
      let ending :=
        if cancelled then .canceled
        else if error.kind = .closed then .closed error
        else .failed error
      some (listener.followed cancelled ⟨true, lastSeen, ending⟩, [])
    | _ => none
  | .streamCancelled =>
    match listener.phase with
    | .streaming lastSeen =>
      if cancelled then some (listener.followed cancelled ⟨true, lastSeen, .canceled⟩, []) else none
    | _ => none
  | .slept =>
    match listener.phase with
    | .backingOff =>
      some (attempt { listener with backoff := nextBackoff listener.backoff } cancelled, [])
    | _ => none
  | .sleepCancelled =>
    match listener.phase with
    | .backingOff =>
      if cancelled then
        some ({ listener with phase := .stopped (.duringBackoff listener.backoff) }, [])
      else none
    | _ => none

end Listener

/-! ## The listener and the world -/

/-- The exporter with its listener, and what the daemon sent it. -/
structure System where
  world : World
  listener : Listener
  /-- What the last stream sent so far, in order. -/
  sent : List Delivery
  /-- What the streams before it sent. -/
  earlier : List Delivery
  deriving DecidableEq

inductive SystemAction where
  | world (action : Action)
  | listener (action : ListenerAction)

namespace System

/-- Everything a stream delivered. -/
def delivered (s : System) : List Delivery := s.earlier ++ s.sent

/-- The daemon's side of the stream after `action` of the listener. -/
def record (s : System) : ListenerAction → System
  | .connected _ => { s with sent := [], earlier := s.delivered }
  | .received delivery _ _ => { s with sent := s.sent ++ [delivery] }
  | _ => s

/-- The exporter as its workers start; the anchor is read before the first resync lists anything. -/
def init (config : Config) (anchor : Timestamp) : System :=
  { world := .init config
    listener := .start anchor false
    sent := []
    earlier := [] }

variable [HostText]

def step (s : System) : SystemAction → Option System
  | .world action => (s.world.step action).map fun world => { s with world }
  | .listener action =>
    match s.listener.step s.world.cancelled action with
    | none => none
    | some (listener, calls) =>
      (calls.foldlM World.step s.world).map fun world => { s.record action with world, listener }

/-- A run of the exporter with its listener. -/
abbrev Runs (config : Config) (anchor : Timestamp) (trace : List (Step System SystemAction))
    (s : System) : Prop :=
  Run step (init config anchor) trace s

end System

end SwarmExporter
