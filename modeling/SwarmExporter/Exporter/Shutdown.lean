import SwarmExporter.Exporter.Steps
import SwarmExporter.Reconciler.Passes

/-!
# Shutting down

After the cancellation each worker returns on steps of its own: the reconciler gives up its call and leaves
the cycle, the listener gives up its connection or its backoff, the poller its poll. `remaining` counts
the stopping steps a worker may still need. No step of anybody raises it once cancelled (`step_remaining`),
a stopping step lowers it, and one is enabled until all three returned, so the shutdown needs no answer of
Docker, no time to pass and no particular order (`shutdown_completes`).
-/

namespace SwarmExporter

open Lib

/-! ## How far a worker is from returning -/

/-- The stopping steps of the reconciler that are left. -/
def Phase.remaining : Phase → Nat
  | .idle => 0
  | .batch _ => 1
  | .inspecting _ _ => 2
  | .keysCheck _ => 2
  | .resyncNodesListing _ _ => 3
  | .servicesListing _ => 3
  | .resyncCheck _ => 4
  | .nodesListing _ => 5
  | .nodesCheck _ => 6

def ListenerPhase.remaining : ListenerPhase → Nat
  | .stopped _ => 0
  | _ => 1

def PollerPhase.remaining : PollerPhase → Nat
  | .stopped => 0
  | .unready => 1
  | .waiting => 1
  | _ => 2

/-- The steps the reconciler takes by itself because of the cancellation: none carries an answer of
Docker. -/
def Action.isStopping : Action → Bool
  | .checkNodes => true
  | .checkResync _ => true
  | .takeDueKeys => true
  | .endCycle => true
  | .stepCancelled => true
  | _ => false

def ListenerAction.isStopping : ListenerAction → Bool
  | .connectFailed error => error.kind == .cancelled
  | .streamCancelled => true
  | .sleepCancelled => true
  | _ => false

def PollerAction.isStopping : PollerAction → Bool
  | .giveUp => true
  | .stop => true
  | _ => false

def ExporterAction.isStopping : ExporterAction → Bool
  | .system (.world action) => action.isStopping
  | .system (.listener action) => action.isStopping
  | .poller action => action.isStopping

namespace Exporter

/-- The stopping steps that are left. -/
def remaining (e : Exporter) : Nat :=
  e.system.world.phase.remaining + e.system.listener.phase.remaining + e.poller.phase.remaining

/-- All three workers returned: the reconciler at the top of its loop, which a cancellation ends. -/
def Stopped (e : Exporter) : Prop :=
  e.system.world.phase = .idle ∧ (∃ reason, e.system.listener.phase = .stopped reason) ∧
    e.poller.phase = .stopped

end Exporter

theorem Phase.remaining_le (phase : Phase) : phase.remaining ≤ 6 := by
  cases phase <;> simp [remaining]

theorem ListenerPhase.remaining_le (phase : ListenerPhase) : phase.remaining ≤ 1 := by
  cases phase <;> simp [remaining]

theorem PollerPhase.remaining_le (phase : PollerPhase) : phase.remaining ≤ 2 := by
  cases phase <;> simp [remaining]

theorem Exporter.remaining_le (e : Exporter) : e.remaining ≤ 9 := by
  have hworld := e.system.world.phase.remaining_le
  have hlistener := e.system.listener.phase.remaining_le
  have hpoller := e.poller.phase.remaining_le
  unfold remaining
  omega

theorem Exporter.stopped_of_remaining {e : Exporter} (h : e.remaining = 0) : e.Stopped := by
  unfold remaining at h
  have hworld : e.system.world.phase.remaining = 0 := by omega
  have hlistener : e.system.listener.phase.remaining = 0 := by omega
  have hpoller : e.poller.phase.remaining = 0 := by omega
  refine ⟨?_, ?_, ?_⟩
  · cases hphase : e.system.world.phase with
    | idle => rfl
    | _ =>
      rw [hphase] at hworld
      cases hworld
  · cases hphase : e.system.listener.phase with
    | stopped reason => exact ⟨reason, rfl⟩
    | _ =>
      rw [hphase] at hlistener
      cases hlistener
  · cases hphase : e.poller.phase with
    | stopped => rfl
    | _ =>
      rw [hphase] at hpoller
      cases hpoller

theorem Exporter.Stopped.remaining_eq {e : Exporter} (h : e.Stopped) : e.remaining = 0 := by
  obtain ⟨hworld, ⟨reason, hlistener⟩, hpoller⟩ := h
  rw [remaining, hworld, hlistener, hpoller]
  rfl

/-! ## No step puts it off -/

section Steps

variable [HostText]

/-- Once cancelled, the reconciler only comes closer to its return. -/
theorem World.step_remaining {w w' : World} {action : Action} (hcancelled : w.cancelled = true)
    (h : w.step action = some w') :
    w'.phase.remaining + action.isStopping.toNat ≤ w.phase.remaining := by
  cases hcycle : action.isCycle with
  | false =>
    have hnot : action.isStopping = false := by cases action <;> first | rfl | cases hcycle
    rw [World.step_phase h hcycle, hnot]
    exact le_rfl
  | true =>
    have hmoves := World.step_moves h hcycle
    have hone : action.isStopping.toNat ≤ 1 := Bool.toNat_le _
    generalize hbefore : w.phase = before at hmoves ⊢
    generalize hafter : w'.phase = after at hmoves ⊢
    cases hmoves with
    | begins hrunning =>
      rw [hcancelled] at hrunning
      cases hrunning
    | ends hpass =>
      cases before with
      | servicesListing _ => exact Nat.add_le_add_left hone _
      | resyncNodesListing _ _ => exact Nat.add_le_add_left hone _
      | _ => cases hpass
    | inspects =>
      -- A batch that is cancelled goes on to no further key.
      simp [World.step, World.cycleStep, hbefore, hcancelled] at h
    | skipsNodes => exact Nat.le_succ 5
    | listsNodes => exact le_rfl
    | refreshes => exact Nat.add_le_add_left hone _
    | skipsResync => exact Nat.le_succ 3
    | answers => exact Nat.add_le_add_left hone _
    | _ => exact le_rfl

omit [HostText] in
/-- Once cancelled, a connection that ends is the last one, and so is a backoff. -/
theorem Listener.step_remaining {listener listener' : Listener} {action : ListenerAction}
    {calls : List Action} (h : listener.step true action = some (listener', calls)) :
    listener'.phase.remaining + action.isStopping.toNat ≤ listener.phase.remaining := by
  have hone : action.isStopping.toNat ≤ 1 := Bool.toNat_le _
  cases action with
  | connected timestamp =>
    simp only [Listener.step] at h
    split at h
    · rename_i hphase
      cases h
      rw [hphase]
      exact le_rfl
    · cases h
  | received delivery now timestamp =>
    simp only [Listener.step] at h
    split at h
    · rename_i hphase
      cases h
      rw [hphase]
      exact le_rfl
    · cases h
  | _ =>
    simp only [Listener.step] at h
    split at h
    · rename_i hphase
      cases h
      rw [hphase]
      exact (Nat.zero_add _).trans_le hone
    · cases h

/-- A poll that is given up ends; the loop then waits. -/
theorem Poller.giveUp_phase {poller poller' : Poller} {w : World} {calls : List Action}
    (h : poller.step w .giveUp = some (poller', calls)) :
    poller'.phase = .waiting ∧ poller.phase.remaining = 2 := by
  simp only [Poller.step, Option.ite_none_right_eq_some] at h
  obtain ⟨-, h⟩ := h
  split at h
  case h_9 => cases h
  all_goals
    rename_i hphase
    cases h
    rw [hphase]
    exact ⟨by simp [Poller.canceled, Poller.finish], rfl⟩

/-- Once cancelled, no poll goes further than the loop that sees the cancellation. -/
theorem Poller.step_remaining {poller poller' : Poller} {w : World} {action : PollerAction}
    {calls : List Action} (hcancelled : w.cancelled = true)
    (h : poller.step w action = some (poller', calls)) :
    poller'.phase.remaining + action.isStopping.toNat ≤ poller.phase.remaining := by
  have hinPoll : poller.phase.inPoll = true → poller.phase.remaining = 2 := by
    cases poller.phase <;> first | exact fun _ => rfl | exact fun h => by cases h
  have hmoves := Poller.step_moves h
  cases hmoves with
  | stop _ hphase =>
    rcases hphase with hphase | hphase <;> rw [hphase] <;> exact le_rfl
  | begins hbegins =>
    rw [hcancelled]
    cases hbegins with
    | ready hphase =>
      rw [hphase]
      simp [Poller.pollOnce, Poller.canceled, Poller.finish, PollerPhase.remaining,
        PollerAction.isStopping]
    | tick hphase =>
      rw [hphase]
      simp [Poller.pollOnce, Poller.canceled, Poller.finish, PollerPhase.remaining,
        PollerAction.isStopping]
  | refuses hphase =>
    rw [hinPoll hphase]
    exact le_rfl
  | records hphase =>
    rw [hphase]
    exact PollerPhase.remaining_le _
  | fails hphase =>
    rw [hinPoll hphase]
    cases hgiveUp : action.isStopping with
    | false => exact PollerPhase.remaining_le _
    | true =>
      cases action with
      | giveUp =>
        rw [(giveUp_phase h).1]
        exact le_rfl
      | stop =>
        simp only [Poller.step, Option.ite_none_right_eq_some] at h
        obtain ⟨⟨-, hloop⟩, -⟩ := h
        rcases hloop with hloop | hloop <;> rw [hloop] at hphase <;> cases hphase
      | _ => cases hgiveUp
  | keeps hphase hfailed =>
    rw [hphase]
    rcases hfailed with ⟨rfl, -⟩ | ⟨_, _, _, _, rfl, -⟩
    · exact le_rfl
    · exact Nat.le_succ 1
  | publishes hphase =>
    rw [hphase]
    exact Nat.le_succ 1
  | grants hphase => rw [hphase]; exact le_rfl
  | lists hphase => rw [hphase]; exact le_rfl
  | submits hphase => rw [hphase]; exact le_rfl
  | judges hphase => rw [hphase]; exact le_rfl

/-- What is called from outside the cycle leaves it where it is. -/
theorem World.calls_phase {calls : List Action} {w w' : World}
    (hcalls : ∀ call ∈ calls, call.isCycle = false) (h : calls.foldlM World.step w = some w') :
    w'.phase = w.phase := by
  induction calls generalizing w with
  | nil =>
    cases h
    rfl
  | cons call calls ih =>
    rw [List.foldlM_cons] at h
    obtain ⟨next, hnext, hrest⟩ := Option.bind_eq_some_iff.1 h
    rw [List.forall_mem_cons] at hcalls
    rw [ih hcalls.2 hrest]
    exact World.step_phase hnext hcalls.1

variable {settings : Settings} {trace rest : List (Step Exporter ExporterAction)} {e e' : Exporter}

namespace Exporter

/-- **Once cancelled, no step puts the shutdown off**, whoever takes it, and a stopping step brings it
closer. -/
theorem step_remaining {action : ExporterAction} (hcancelled : e.system.world.cancelled = true)
    (h : e.step action = some e') :
    e'.remaining + action.isStopping.toNat ≤ e.remaining := by
  cases action with
  | system action =>
    obtain ⟨system, -, hsystem, rfl⟩ := step_system h
    cases action with
    | world action =>
      obtain ⟨world, hworld, rfl⟩ := Option.map_eq_some_iff.1 hsystem
      have hle := World.step_remaining hcancelled hworld
      simp only [remaining, ExporterAction.isStopping]
      omega
    | listener action =>
      obtain ⟨listener, calls, world, hlistener, hcalls, rfl⟩ := System.step_listener hsystem
      have houtside : ∀ call ∈ calls, call.isCycle = false :=
        Listener.forall_calls (fun _ _ _ => rfl) (fun _ => rfl) hlistener
      have hphase := World.calls_phase houtside hcalls
      rw [hcancelled] at hlistener
      have hle := Listener.step_remaining hlistener
      simp only [remaining, ExporterAction.isStopping, hphase]
      omega
  | poller action =>
    simp only [step] at h
    split at h
    · cases h
    · rename_i poller calls hpoller
      obtain ⟨world, hworld, rfl⟩ := Option.map_eq_some_iff.1 h
      have houtside : ∀ call ∈ calls, call.isCycle = false :=
        Poller.forall_calls (by rfl) (fun _ _ _ _ => rfl) (fun _ _ => rfl) hpoller
      have hphase := World.calls_phase houtside hworld
      have hle := Poller.step_remaining hcancelled hpoller
      simp only [remaining, ExporterAction.isStopping, hphase]
      omega

/-! ## A worker that has not returned can go on -/

theorem Runs.start_le_clock (h : Runs settings trace e) :
    e.system.world.start ≤ e.system.world.clock := by
  refine h.invariant (fun e => e.system.world.start ≤ e.system.world.clock) le_rfl ?_
  intro e action e' hle hstep
  obtain ⟨hstart, hclock, -⟩ := step_later hstep
  rw [hstart]
  exact hle.trans hclock

end Exporter

/-- The reconciler gives up the call in progress, skips what is left and ends its cycle. -/
theorem World.stopping_enabled {w : World} (hclock : w.start ≤ w.clock) (hcancelled : w.cancelled = true)
    (hphase : w.phase ≠ .idle) :
    ∃ action, action.isStopping = true ∧ (w.step action).isSome = true := by
  cases hwhere : w.phase with
  | idle => exact absurd hwhere hphase
  | nodesCheck now =>
    refine ⟨.checkNodes, rfl, ?_⟩
    simp only [World.step, World.cycleStep, hwhere]
    split <;> rfl
  | resyncCheck now =>
    refine ⟨.checkResync w.clock, rfl, ?_⟩
    have hreads : w.Reads w.clock := ⟨hclock, le_rfl⟩
    simp only [World.step, World.cycleStep, hwhere, if_pos hreads]
    split <;> rfl
  | keysCheck now =>
    refine ⟨.takeDueKeys, rfl, ?_⟩
    simp only [World.step, World.cycleStep, hwhere]
    rfl
  | batch keys =>
    refine ⟨.endCycle, rfl, ?_⟩
    simp only [World.step, World.cycleStep, hwhere, hcancelled, or_true]
    rfl
  | _ =>
    refine ⟨.stepCancelled, rfl, ?_⟩
    simp only [World.step, World.cycleStep, hwhere, hcancelled]
    rfl

omit [HostText] in
/-- The listener gives up its connection, the attempt at one or the backoff; it calls nothing more. -/
theorem Listener.stopping_enabled {listener : Listener}
    (hphase : ∀ reason, listener.phase ≠ .stopped reason) :
    ∃ action listener', action.isStopping = true ∧ listener.step true action = some (listener', []) := by
  cases hwhere : listener.phase with
  | stopped reason => exact absurd hwhere (hphase reason)
  | connecting =>
    refine ⟨.connectFailed ⟨.cancelled, ""⟩, listener.followed true ⟨false, none, .canceled⟩, rfl, ?_⟩
    simp [Listener.step, hwhere]
  | streaming lastSeen =>
    refine ⟨.streamCancelled, listener.followed true ⟨true, lastSeen, .canceled⟩, rfl, ?_⟩
    simp [Listener.step, hwhere]
  | backingOff =>
    refine ⟨.sleepCancelled, { listener with phase := .stopped (.duringBackoff listener.backoff) }, rfl, ?_⟩
    simp [Listener.step, hwhere]

/-- The poller gives up the poll in progress; its loop then sees the cancellation. -/
theorem Poller.stopping_enabled {poller : Poller} {w : World} (hcancelled : w.cancelled = true)
    (hphase : poller.phase ≠ .stopped) :
    ∃ action poller', action.isStopping = true ∧ poller.step w action = some (poller', []) := by
  cases hwhere : poller.phase with
  | stopped => exact absurd hwhere hphase
  | unready => exact ⟨.stop, { poller with phase := .stopped }, rfl, by simp [Poller.step, hwhere, hcancelled]⟩
  | waiting => exact ⟨.stop, { poller with phase := .stopped }, rfl, by simp [Poller.step, hwhere, hcancelled]⟩
  | refused submitted =>
    cases submitted with
    | false => exact ⟨.giveUp, _, rfl, by simp only [Poller.step, hwhere, hcancelled]; rfl⟩
    | true => exact ⟨.giveUp, _, rfl, by simp only [Poller.step, hwhere, hcancelled]; rfl⟩
  | _ => exact ⟨.giveUp, _, rfl, by simp only [Poller.step, hwhere, hcancelled]; rfl⟩

namespace Exporter

/-- **Until all three workers returned one of them has a stopping step to take.** -/
theorem stopping_enabled (h : Runs settings trace e) (hcancelled : e.system.world.cancelled = true)
    (hrunning : ¬e.Stopped) : ∃ action e', action.isStopping = true ∧ e.step action = some e' := by
  by_cases hworld : e.system.world.phase = .idle
  · by_cases hlistener : ∃ reason, e.system.listener.phase = .stopped reason
    · have hpoller : e.poller.phase ≠ .stopped := fun hstopped => hrunning ⟨hworld, hlistener, hstopped⟩
      obtain ⟨action, poller, hstopping, hstep⟩ := Poller.stopping_enabled hcancelled hpoller
      refine ⟨.poller action, { e with poller }, hstopping, ?_⟩
      simp [step, hstep]
    · obtain ⟨action, listener, hstopping, hstep⟩ := Listener.stopping_enabled (not_exists.1 hlistener)
      rw [← hcancelled] at hstep
      refine ⟨.system (.listener action),
        { e with system := { e.system.record action with world := e.system.world, listener } },
        hstopping, ?_⟩
      simp [step, SystemAction.isPoll, System.step, hstep]
  · obtain ⟨action, hstopping, hstep⟩ := World.stopping_enabled h.start_le_clock hcancelled hworld
    obtain ⟨world, hstep⟩ := Option.isSome_iff_exists.1 hstep
    have hpoll : action.isPoll = false := by cases action <;> first | rfl | cases hstopping
    refine ⟨.system (.world action), { e with system := { e.system with world } }, hstopping, ?_⟩
    simp [step, SystemAction.isPoll, hpoll, System.step, hstep]

/-- **The shutdown completes.** After the cancellation, whatever else happens in the run, no more than
nine steps are stopping ones, though answers of Docker may be worked off between them; as long as a worker
has not returned one more is enabled, without an answer of Docker or a later time; and workers that
returned stay so. -/
theorem shutdown_completes (h : Runs settings trace e) (hcancelled : e.system.world.cancelled = true)
    (hrest : Run step e rest e') :
    (rest.filter (·.act.isStopping)).length ≤ 9 ∧
    (e'.Stopped ∨ ∃ action e'', action.isStopping = true ∧ e'.step action = some e'') ∧
    (e.Stopped → e'.Stopped) := by
  have hcount : e'.system.world.cancelled = true ∧
      rest.countP (·.act.isStopping) + e'.remaining ≤ e.remaining := by
    refine Run.count_le Exporter.remaining (fun e => e.system.world.cancelled = true)
      (·.act.isStopping) hcancelled ?_ hrest
    intro e action e' hcancelled hstep
    exact ⟨(step_later hstep).2.2.2 hcancelled, step_remaining hcancelled hstep⟩
  rw [List.countP_eq_length_filter] at hcount
  obtain ⟨hcancelled', hle⟩ := hcount
  refine ⟨?_, ?_, ?_⟩
  · have hbound := e.remaining_le
    omega
  · by_cases hstopped : e'.Stopped
    · exact .inl hstopped
    · exact .inr (stopping_enabled (h.append hrest) hcancelled' hstopped)
  · intro hstopped
    have hzero := hstopped.remaining_eq
    exact stopped_of_remaining (by omega)

end Exporter

end Steps

namespace Sample

/-- Cancelled in the middle of a poll, with the stream still being opened. -/
def cancelledPoll : List ExporterAction :=
  firstResync ++ [.poller .ready, .poller .serveSnapshot, .system (.world .cancel)]

/-- The poll and the attempt are given up, and a tick comes in between. -/
def stopping : List ExporterAction :=
  [.poller .giveUp, .system (.world (.tick 2000 (Duration.fromSecs 40))), .poller .tick,
    .system (.listener (.connectFailed ⟨.cancelled, "context canceled"⟩)), .poller .stop]

end Sample

open Sample in
theorem Exporter.shutdown_completes_sample : ∃ trace e rest e', Runs settings trace e ∧
    e.system.world.cancelled = true ∧ ¬e.Stopped ∧ Run step e rest e' ∧
    rest.map (·.act) = stopping ∧ (rest.filter (·.act.isStopping)).length ≤ 9 ∧
    (e'.Stopped ∨ ∃ action e'', action.isStopping = true ∧ e'.step action = some e'') := by
  have hreplay : (replay step (init settings) cancelledPoll).any (fun result =>
      (replay step result.2 stopping).any fun _ =>
        decide (result.2.system.world.cancelled = true ∧ result.2.poller.phase ≠ .stopped)) = true := by
    decide +kernel
  obtain ⟨trace, e, hrun, -, hstopping⟩ := exists_run_of_replay hreplay
  obtain ⟨rest, e', hrest, hacts, hcheck⟩ := exists_run_of_replay hstopping
  obtain ⟨hcancelled, hrunning⟩ := of_decide_eq_true hcheck
  obtain ⟨hcount, hnext, -⟩ := shutdown_completes hrun hcancelled hrest
  exact ⟨trace, e, rest, e', hrun, hcancelled, fun hstopped => hrunning hstopped.2.2, hrest, hacts,
    hcount, hnext⟩

end SwarmExporter
