import SwarmExporter.Basic

/-!
# Exporter health

The success timestamps, and the check `/healthz` and `swarm_exporter_health` share, evaluated when
asked. `Health.snapshot` reads the reconciler's resync counters and the time of the latest successful
poll.
-/

namespace SwarmExporter

/-- Unix nanoseconds of `timestamp` as an `i64`, saturating outside its range. -/
def unixNanos (timestamp : Timestamp) : Int :=
  max (-2 ^ 63) (min timestamp (2 ^ 63 - 1))

theorem unixNanos_of_range {timestamp : Timestamp} (hlow : -2 ^ 63 ≤ timestamp)
    (hhigh : timestamp < 2 ^ 63) : unixNanos timestamp = timestamp := by
  unfold unixNanos
  rw [Int.min_eq_left (Int.le_sub_one_of_lt hhigh), Int.max_eq_right hlow]

/-- The success times, in unix nanoseconds; 0 means never. -/
structure Timestamps where
  pollSuccess : Int := 0
  resyncSuccess : Int := 0
  deriving DecidableEq, Repr

namespace Timestamps

def markPollOk (timestamps : Timestamps) (now : Timestamp) : Timestamps :=
  { timestamps with pollSuccess := unixNanos now }

def markResyncOk (timestamps : Timestamps) (now : Timestamp) : Timestamps :=
  { timestamps with resyncSuccess := unixNanos now }

end Timestamps

/-- Why the exporter is not healthy. -/
inductive Unhealthy where
  | initialResync
  | noPoll
  | stalePoll
  | resyncOutstanding
  deriving DecidableEq, Repr

def Unhealthy.reason : Unhealthy → String
  | .initialResync => "initial resync not completed"
  | .noPoll => "no successful poll yet"
  | .stalePoll => "last poll too old"
  | .resyncOutstanding => "resync outstanding"

/-- The resync counters, and since when a resync has been outstanding. -/
structure ResyncState where
  requested : Nat
  completed : Nat
  outstandingSince : Option Timestamp
  deriving DecidableEq, Repr

/-- The health check: unbound until the reconciler exists. -/
structure Health where
  reconciler : Option ResyncState
  timestamps : Timestamps
  pollDelay : Duration
  deriving DecidableEq, Repr

namespace Health

/-- The floor of the staleness window, whatever the poll delay. -/
def minWindow : Duration := Duration.fromSecs 30

/-- The staleness window: three poll delays, at least `minWindow`. -/
def window (health : Health) : Duration := max (health.pollDelay.saturatingMul 3) minWindow

/-- Whether the exporter is healthy at `now` (none), and why not. -/
def snapshot (health : Health) (now : Timestamp) : Option Unhealthy :=
  match health.reconciler with
  | none => some .initialResync
  | some reconciler =>
    if reconciler.completed = 0 then some .initialResync
    else if health.timestamps.pollSuccess = 0 then some .noPoll
    else if (health.window : Int) < now - health.timestamps.pollSuccess then some .stalePoll
    else
      -- Without a recorded time the resync is outstanding since forever.
      let since := reconciler.outstandingSince.getD (-2 ^ 126)
      if reconciler.completed < reconciler.requested ∧ (health.window : Int) < now - since then
        some .resyncOutstanding
      else none

end Health

end SwarmExporter
