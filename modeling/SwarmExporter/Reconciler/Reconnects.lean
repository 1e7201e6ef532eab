import SwarmExporter.Lib.Backoff
import SwarmExporter.Reconciler.NoGap
import SwarmExporter.Reconciler.Steps

/-!
# The reconnects of the listener

The listener waits before each attempt but the first. The wait doubles, up to its cap, from one attempt to
the next, and starts over only when a stream that connected has ended: a connect that fails, or a stream
that has not ended, changes nothing. `Listener.Moves` names the moves in which one of these counts changes.
-/

namespace SwarmExporter

open Lib

/-- The action ends a stream that was open. -/
def ListenerAction.endsStream : ListenerAction → Bool
  | .streamFailed _ => true
  | .streamCancelled => true
  | _ => false

/-- The action ends a connection, opened or not. -/
def ListenerAction.endsConnection : ListenerAction → Bool
  | .connectFailed _ => true
  | action => action.endsStream

def ListenerAction.isSleep : ListenerAction → Bool
  | .slept => true
  | _ => false

def ListenerPhase.isConnecting : ListenerPhase → Bool
  | .connecting => true
  | _ => false

/-- What an action of the system is for its listener. -/
def SystemAction.listener? : SystemAction → Option ListenerAction
  | .world _ => none
  | .listener action => some action

namespace Listener

variable {listener listener' : Listener} {cancelled : Bool} {action : ListenerAction}
  {calls : List Action}

/-- What a step of the listener does to its counts. -/
structure Moves (listener : Listener) (cancelled : Bool) (action : ListenerAction)
    (listener' : Listener) : Prop where
  backoff : listener'.backoff =
    if action.isSleep then nextBackoff listener.backoff
    else if action.endsStream then backoffInitialDelay
    else listener.backoff
  reconnects : listener'.reconnects =
    listener.reconnects + (action.endsConnection && !cancelled).toNat
  attempts : action.isAttempt.toNat + listener'.phase.isConnecting.toNat ≤
    action.isSleep.toNat + listener.phase.isConnecting.toNat
  answered : cancelled = false → action.isAttempt.toNat + listener'.phase.isConnecting.toNat =
    action.isSleep.toNat + listener.phase.isConnecting.toNat

theorem followed_moves {outcome : StreamOutcome} (hsleep : action.isSleep = false)
    (hends : action.endsConnection = true) (hconnected : outcome.connected = action.endsStream)
    (hphase : listener.phase.isConnecting = action.isAttempt) :
    Moves listener cancelled action (listener.followed cancelled outcome) := by
  have hbackoff : (listener.followed cancelled outcome).backoff =
      if outcome.connected then backoffInitialDelay else listener.backoff := by
    unfold followed
    cases cancelled <;> rfl
  have hdone : (listener.followed cancelled outcome).phase.isConnecting = false := by
    unfold followed
    cases cancelled <;> rfl
  refine ⟨?_, ?_, ?_, fun _ => ?_⟩
  · rw [hbackoff, hsleep, hconnected]
    rfl
  · rw [hends]
    unfold followed
    cases cancelled <;> rfl
  · rw [hdone, hsleep, hphase, Nat.add_comm]
  · rw [hdone, hsleep, hphase, Nat.add_comm]

theorem step_counts (h : listener.step cancelled action = some (listener', calls)) :
    Moves listener cancelled action listener' := by
  cases action with
  | connected timestamp =>
    simp only [step] at h
    split at h
    · rename_i hphase
      cases h
      exact ⟨rfl, rfl, by rw [hphase]; rfl, fun _ => by rw [hphase]; rfl⟩
    · cases h
  | connectFailed error =>
    simp only [step] at h
    split at h
    · rename_i hphase
      cases h
      exact followed_moves rfl rfl rfl (by rw [hphase]; rfl)
    · cases h
  | received delivery now timestamp =>
    simp only [step] at h
    split at h
    · rename_i hphase
      cases h
      exact ⟨rfl, rfl, by rw [hphase]; rfl, fun _ => by rw [hphase]; rfl⟩
    · cases h
  | streamFailed error =>
    simp only [step] at h
    split at h
    · rename_i hphase
      cases h
      exact followed_moves rfl rfl rfl (by rw [hphase]; rfl)
    · cases h
  | streamCancelled =>
    simp only [step] at h
    split at h
    · rename_i hphase
      simp only [Option.ite_none_right_eq_some, Option.some.injEq] at h
      obtain ⟨-, heq⟩ := h
      cases heq
      exact followed_moves rfl rfl rfl (by rw [hphase]; rfl)
    · cases h
  | slept =>
    simp only [step] at h
    split at h
    · rename_i hphase
      cases h
      unfold attempt
      cases cancelled with
      | true => exact ⟨rfl, rfl, by rw [hphase]; exact Nat.zero_le 1, fun halive => by cases halive⟩
      | false => exact ⟨rfl, rfl, by rw [hphase]; exact Nat.le_refl 1, fun _ => by rw [hphase]; rfl⟩
    · cases h
  | sleepCancelled =>
    simp only [step] at h
    split at h
    · rename_i hphase
      simp only [Option.ite_none_right_eq_some, Option.some.injEq] at h
      obtain ⟨-, heq⟩ := h
      cases heq
      exact ⟨rfl, rfl, by rw [hphase]; rfl, fun _ => by rw [hphase]; rfl⟩
    · cases h

end Listener

theorem initialDelay_le : backoffInitialDelay ≤ backoffMaxDelay := by decide +kernel

/-- A wait is doubled up to the cap; the range of a `Duration` does not matter below it. -/
theorem nextBackoff_backoff (waits : Nat) :
    nextBackoff (backoff backoffInitialDelay backoffMaxDelay waits) =
      backoff backoffInitialDelay backoffMaxDelay (waits + 1) := by
  have hle : backoff backoffInitialDelay backoffMaxDelay waits ≤ backoffMaxDelay := Nat.min_le_right _ _
  have hrange : backoffMaxDelay ≤ Duration.max := by decide +kernel
  rw [backoff_succ, nextBackoff, Duration.saturatingMul, backoffMultiplier, Nat.mul_comm]
  show min (min _ _) _ = _
  rw [Nat.min_assoc, Nat.min_eq_right hrange]

namespace System

variable [HostText] {config : Config} {anchor : Timestamp}
  {trace : List (Step System SystemAction)} {s s' : System}

/-- The waits since the last stream that connected ended. -/
def waits (trace : List (Step System SystemAction)) : Nat :=
  trace.foldl (fun waits st =>
    match st.act.listener? with
    | some action => if action.isSleep then waits + 1 else if action.endsStream then 0 else waits
    | none => waits) 0

/-- The connections of a trace that ended before the exporter was cancelled. -/
def broken (trace : List (Step System SystemAction)) : Nat :=
  trace.countP fun st =>
    st.act.listener?.any fun action => action.endsConnection && !st.pre.world.cancelled

/-- The attempts to connect that were answered. -/
def attempts (trace : List (Step System SystemAction)) : Nat :=
  trace.countP fun st => st.act.listener?.any (·.isAttempt)

/-- The waits that ended. -/
def sleeps (trace : List (Step System SystemAction)) : Nat :=
  trace.countP fun st => st.act.listener?.any (·.isSleep)

structure Reconnecting (trace : List (Step System SystemAction)) (s : System) : Prop where
  backoff : s.listener.backoff = Lib.backoff backoffInitialDelay backoffMaxDelay (waits trace)
  reconnects : s.listener.reconnects = broken trace
  attempts : attempts trace + s.listener.phase.isConnecting.toNat ≤ sleeps trace + 1
  answered : s.world.cancelled = false →
    System.attempts trace + s.listener.phase.isConnecting.toNat = sleeps trace + 1

omit [HostText] in
theorem countP_snoc {trace : List (Step System SystemAction)} (p : Step System SystemAction → Bool)
    (st : Step System SystemAction) : (trace ++ [st]).countP p = trace.countP p + (p st).toNat := by
  rw [List.countP_append]
  cases hst : p st <;> simp [hst]

omit [HostText] in
theorem waits_snoc (st : Step System SystemAction) :
    waits (trace ++ [st]) =
      match st.act.listener? with
      | some action =>
        if action.isSleep then waits trace + 1 else if action.endsStream then 0 else waits trace
      | none => waits trace := by
  unfold waits
  rw [List.foldl_append]
  rfl

theorem step_alive {action : SystemAction} (h : s.step action = some s')
    (halive : s'.world.cancelled = false) : s.world.cancelled = false := by
  have hlater : ∀ {trace w w'}, Run World.step w trace w' →
      w.cancelled = true → w'.cancelled = true := by
    intro trace w w' hrun hcancelled
    exact hrun.invariant (fun w => w.cancelled = true) hcancelled fun _ _ _ hinv hstep =>
      (World.step_advances hstep).cancelled hinv
  by_contra hcancelled
  rw [Bool.not_eq_false] at hcancelled
  cases action with
  | world action =>
    obtain ⟨world, hworld, rfl⟩ := Option.map_eq_some_iff.1 h
    rw [hlater (.single hworld) hcancelled] at halive
    cases halive
  | listener action =>
    obtain ⟨listener, calls, world, -, hcalls, rfl⟩ := step_listener h
    obtain ⟨_, hrun⟩ := run_of_calls hcalls
    rw [hlater hrun hcancelled] at halive
    cases halive

theorem Runs.reconnecting (h : Runs config anchor trace s) : Reconnecting trace s := by
  refine Run.history Reconnecting ?_ ?_ h
  · exact ⟨(backoff_zero initialDelay_le).symm, rfl, Nat.le_refl _, fun _ => rfl⟩
  · rintro trace s action s' - hinv hstep
    have halive := fun hnow => hinv.answered (step_alive hstep hnow)
    have hle := hinv.attempts
    cases action with
    | world action =>
      obtain ⟨world, -, rfl⟩ := Option.map_eq_some_iff.1 hstep
      refine ⟨?_, ?_, ?_, fun hnow => ?_⟩
      · rw [waits_snoc]
        exact hinv.backoff
      · rw [broken, countP_snoc]
        exact hinv.reconnects
      · rw [attempts, sleeps, countP_snoc, countP_snoc]
        exact hle
      · rw [attempts, sleeps, countP_snoc, countP_snoc]
        exact halive hnow
    | listener action =>
      obtain ⟨listener, calls, world, hlistener, -, rfl⟩ := step_listener hstep
      have hmoves := Listener.step_counts hlistener
      refine ⟨?_, ?_, ?_, fun hnow => ?_⟩
      · rw [waits_snoc]
        show listener.backoff = Lib.backoff _ _ (if action.isSleep then _ else _)
        rw [hmoves.backoff, hinv.backoff]
        split
        · exact nextBackoff_backoff _
        · split
          · exact (backoff_zero initialDelay_le).symm
          · rfl
      · rw [broken, countP_snoc]
        show listener.reconnects = _
        rw [hmoves.reconnects, hinv.reconnects]
        rfl
      · have hstep_le := hmoves.attempts
        rw [attempts, sleeps, countP_snoc, countP_snoc]
        show trace.countP _ + action.isAttempt.toNat + listener.phase.isConnecting.toNat ≤
          trace.countP _ + action.isSleep.toNat + 1
        unfold attempts sleeps at hle
        omega
      · have hstep_eq := hmoves.answered (step_alive hstep hnow)
        have heq := halive hnow
        rw [attempts, sleeps, countP_snoc, countP_snoc]
        show trace.countP _ + action.isAttempt.toNat + listener.phase.isConnecting.toNat =
          trace.countP _ + action.isSleep.toNat + 1
        unfold attempts sleeps at heq
        omega

/-- **The listener backs off.** In every run the wait before the next attempt is the initial delay, doubled
once for each wait since a stream that connected ended and capped; the reconnects counted are the
connections that ended before the shutdown, failed attempts included; and every attempt but the first
followed a wait of its own. -/
theorem listener_backs_off (h : Runs config anchor trace s) :
    s.listener.backoff = Lib.backoff backoffInitialDelay backoffMaxDelay (waits trace) ∧
    s.listener.reconnects = broken trace ∧
    attempts trace + s.listener.phase.isConnecting.toNat ≤ sleeps trace + 1 ∧
    (s.world.cancelled = false →
      attempts trace + s.listener.phase.isConnecting.toNat = sleeps trace + 1) := by
  obtain ⟨hbackoff, hreconnects, hattempts, hanswered⟩ := h.reconnecting
  exact ⟨hbackoff, hreconnects, hattempts, hanswered⟩

end System

namespace Sample

def connectRefused : Docker.Error := ⟨.other, "connection refused"⟩

/-- Two attempts that fail, and one that opens a stream. -/
def failedConnects : List SystemAction :=
  [.listener (.connectFailed connectRefused), .listener .slept,
    .listener (.connectFailed connectRefused), .listener .slept, .listener (.connected 1000)]

end Sample

open Sample in
/-- The third wait would be of two seconds, until the stream ends. -/
theorem System.listener_backs_off_sample : ∃ trace s, Runs config 10000000000 trace s ∧
    trace.map (·.act) = failedConnects ∧ s.listener.backoff = Duration.fromSecs 2 ∧
    s.listener.reconnects = 2 := by
  have hreplay : (replay System.step (init config 10000000000) failedConnects).any (fun result =>
      decide (waits result.1 = 2 ∧ broken result.1 = 2)) = true := by decide +kernel
  obtain ⟨trace, s, hrun, hacts, hcheck⟩ := exists_run_of_replay hreplay
  obtain ⟨hwaits, hbroken⟩ := of_decide_eq_true hcheck
  obtain ⟨hbackoff, hreconnects, -⟩ := listener_backs_off hrun
  rw [hwaits] at hbackoff
  exact ⟨trace, s, hrun, hacts, hbackoff.trans (by decide +kernel), hreconnects.trans hbroken⟩

end SwarmExporter
