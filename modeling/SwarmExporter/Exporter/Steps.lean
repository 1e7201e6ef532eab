import SwarmExporter.Exporter.Poller
import SwarmExporter.Reconciler.NoGap
import SwarmExporter.Reconciler.Steps

/-!
# What the poller can do

`Poller.Moves` lists the moves of the poller with what each does in the world (`step_moves`); every
property of the exporter's polls is shown once per move. A run of the exporter is a run of the reconciler
with its listener (`Runs.system`), so whatever holds of every reachable world holds of the exporter's.
-/

namespace SwarmExporter

open Lib
open Docker (CallError ContainerSummary Task)

/-- A poll of the tasks is in progress. -/
def PollerPhase.inPoll : PollerPhase → Bool
  | .requesting => true
  | .granted _ => true
  | .listing _ => true
  | .submitting _ _ => true
  | .judged _ _ => true
  | .refused _ => true
  | _ => false

namespace Poller

theorem ne_stopped {poller : Poller} (h : poller.phase.inPoll = true) : poller.phase ≠ .stopped := by
  intro hstopped
  rw [hstopped] at h
  cases h

theorem ne_unready {poller : Poller} (h : poller.phase.inPoll = true) : poller.phase ≠ .unready := by
  intro hunready
  rw [hunready] at h
  cases h

/-- A poll begins: once the first resync completed, then at each tick. -/
inductive Begins (poller : Poller) (w : World) : PollerAction → Instant → Prop
  | ready (hphase : poller.phase = .unready) (hready : w.reconciler.ready = true) :
      Begins poller w .ready (w.instant + poller.delay)
  | tick (hphase : poller.phase = .waiting) (hdue : poller.nextTick ≤ w.instant) :
      Begins poller w .tick (skipMissed poller.delay poller.nextTick w.instant)

theorem finish_ne_unready {poller : Poller} {cancelled : Bool} {failure : Option PollError} :
    (poller.finish cancelled failure).phase ≠ .unready := by
  unfold finish
  split <;> simp

section Moves

variable [HostText]

/-- The move of `action`: the poller after it, and what it does in the world. -/
inductive Moves (poller : Poller) (w : World) : PollerAction → Poller → List Action → Prop
  | stop (hcancelled : w.cancelled = true)
      (hphase : poller.phase = .unready ∨ poller.phase = .waiting) :
      Moves poller w .stop { poller with phase := .stopped } []
  | begins {action : PollerAction} {nextTick : Instant} (hbegins : Begins poller w action nextTick) :
      Moves poller w action (({ poller with nextTick } : Poller).pollOnce w.cancelled) []
  | grants (hphase : poller.phase = .requesting) :
      Moves poller w .serveSnapshot
        { poller with phase := .granted w.reconciler.buildPollSnapshot } [.buildPollSnapshot]
  | lists {snapshot : PollSnapshot} (hphase : poller.phase = .granted snapshot) :
      Moves poller w .received { poller with phase := .listing snapshot } []
  | submits {snapshot : PollSnapshot} {listed : Except CallError (List Task)} {visit : List LatestKey}
      {counters : ServiceCounter} (hphase : poller.phase = .listing snapshot)
      (hvisit : Counts snapshot listed visit)
      (hcounters : pollReplicasState snapshot listed visit = .ok counters) :
      Moves poller w (.tasksListed listed visit)
        { poller with phase := .submitting snapshot counters } []
  | refuses {submitted : Bool} (hphase : poller.phase.inPoll = true)
      (hwaits : poller.phase = .requesting ∨
        ∃ snapshot counters, poller.phase = .submitting snapshot counters) :
      Moves poller w .serveStopping { poller with phase := .refused submitted } []
  | judges {snapshot : PollSnapshot} {counters : ServiceCounter} {timestamp : Timestamp}
      {visit : List String} {failure : Option PollError}
      (hphase : poller.phase = .submitting snapshot counters)
      (hfailure : failure = none ↔ (w.pollAnswer snapshot counters timestamp visit).2 = .ok ()) :
      Moves poller w (.serveCounts timestamp visit) { poller with phase := .judged snapshot failure }
        [.applyPollCounts snapshot counters timestamp visit]
  | records {snapshot : PollSnapshot} {timestamp : Timestamp}
      (hphase : poller.phase = .judged snapshot none) :
      Moves poller w (.verdict timestamp) (poller.finish w.cancelled none)
        [.markPollOk snapshot timestamp]
  | fails {action : PollerAction} {error : PollError}
      (hphase : poller.phase.inPoll = true)
      (hverdict : ∀ timestamp snapshot, action = .verdict timestamp →
        poller.phase ≠ .judged snapshot none)
      (hbegins : action ≠ .ready ∧ action ≠ .tick)
      (hcontainers : ∀ listed outside, action ≠ .containersPolled listed outside) :
      Moves poller w action (poller.finish w.cancelled (some error)) []
  | publishes {containers : ContainersState} {listed : Except Docker.Error (List ContainerSummary)}
      {outside : Surroundings} {rows : List ContainerRow} (hphase : poller.phase = .containers)
      (hcontainers : poller.containers = some containers)
      (hrows : containers.config.poll listed outside = .ok rows) :
      Moves poller w (.containersPolled listed outside)
        { poller with containers := some (containers.update rows), phase := .waiting } []
  | keeps {action : PollerAction} (hphase : poller.phase = .containers)
      (hfailed : action = .giveUp ∧ w.cancelled = true ∨ ∃ containers listed outside error,
        action = .containersPolled listed outside ∧ poller.containers = some containers ∧
          containers.config.poll listed outside = .error error) :
      Moves poller w action { poller with phase := .waiting } []

/-- **Every step of the poller is one of its moves.** -/
theorem step_moves {poller poller' : Poller} {w : World} {action : PollerAction}
    {calls : List Action} (h : poller.step w action = some (poller', calls)) :
    Moves poller w action poller' calls := by
  cases action with
  | stop =>
    simp only [step, Option.ite_none_right_eq_some, Option.some.injEq] at h
    obtain ⟨⟨hcancelled, hphase⟩, heq⟩ := h
    cases heq
    exact .stop hcancelled hphase
  | ready =>
    simp only [step, Option.ite_none_right_eq_some, Option.some.injEq] at h
    obtain ⟨⟨hphase, hready⟩, heq⟩ := h
    cases heq
    exact .begins (.ready hphase hready)
  | tick =>
    simp only [step, Option.ite_none_right_eq_some, Option.some.injEq] at h
    obtain ⟨⟨hphase, hdue⟩, heq⟩ := h
    cases heq
    exact .begins (.tick hphase hdue)
  | serveSnapshot =>
    simp only [step] at h
    split at h
    · rename_i hphase
      cases h
      exact .grants hphase
    · cases h
  | serveStopping =>
    simp only [step, Option.ite_none_right_eq_some] at h
    obtain ⟨-, h⟩ := h
    split at h
    · rename_i hphase
      cases h
      exact .refuses (by rw [hphase]; rfl) (.inl hphase)
    · rename_i hphase
      cases h
      exact .refuses (by rw [hphase]; rfl) (.inr ⟨_, _, hphase⟩)
    · cases h
  | received =>
    simp only [step] at h
    split at h
    · rename_i hphase
      split at h
      · rename_i hcancelled
        cases h
        rw [canceled, ← hcancelled]
        exact .fails (by rw [hphase]; rfl) (fun _ _ h => by cases h) (by simp) (by simp)
      · cases h
        exact .lists hphase
    · rename_i hphase
      cases h
      exact .fails (by rw [hphase]; rfl) (fun _ _ h => by cases h) (by simp) (by simp)
    · cases h
  | tasksListed listed visit =>
    simp only [step] at h
    split at h
    · rename_i snapshot hphase
      simp only [Option.ite_none_right_eq_some] at h
      obtain ⟨hvisit, h⟩ := h
      split at h
      · cases h
        exact .fails (by rw [hphase]; rfl) (fun _ _ h => by cases h) (by simp) (by simp)
      · rename_i counters hcounters
        split at h
        · rename_i hcancelled
          cases h
          rw [canceled, ← hcancelled]
          exact .fails (by rw [hphase]; rfl) (fun _ _ h => by cases h) (by simp) (by simp)
        · cases h
          exact .submits hphase hvisit hcounters
    · cases h
  | serveCounts timestamp visit =>
    simp only [step] at h
    split at h
    · rename_i hphase
      cases h
      refine .judges hphase ?_
      split
      · rename_i heq
        simp [heq]
      · rename_i heq
        simp [heq]
    · cases h
  | verdict timestamp =>
    simp only [step] at h
    split at h
    · rename_i hphase
      cases h
      exact .records hphase
    · rename_i hphase
      cases h
      refine .fails (by rw [hphase]; rfl) (fun _ snapshot _ hjudged => ?_) (by simp) (by simp)
      rw [hphase] at hjudged
      cases hjudged
    · cases h
  | containersPolled listed outside =>
    simp only [step] at h
    split at h
    · rename_i containers hphase hcontainers
      split at h
      · rename_i hrows
        cases h
        exact .publishes hphase hcontainers hrows
      · rename_i hrows
        cases h
        exact .keeps hphase (.inr ⟨_, _, _, _, rfl, hcontainers, hrows⟩)
    · cases h
  | giveUp =>
    simp only [step, Option.ite_none_right_eq_some] at h
    obtain ⟨hcancelled, h⟩ := h
    split at h
    case h_8 hphase =>
      cases h
      exact .keeps hphase (.inl ⟨rfl, hcancelled⟩)
    case h_9 => cases h
    all_goals
      rename_i hphase
      cases h
      rw [canceled, ← hcancelled]
      exact .fails (by rw [hphase]; rfl) (fun _ _ h => by cases h) (by simp) (by simp)

/-- A move takes a tick of the interval or leaves it alone; none goes back before the first poll, and none
is made after the loop ended. -/
theorem Moves.interval {poller poller' : Poller} {w : World} {action : PollerAction}
    {calls : List Action} (h : Moves poller w action poller' calls) :
    poller.phase ≠ .stopped ∧ poller'.delay = poller.delay ∧ poller'.phase ≠ .unready ∧
      (Begins poller w action poller'.nextTick ∨
        (action ≠ .ready ∧ action ≠ .tick) ∧ poller'.nextTick = poller.nextTick ∧
          (poller.phase = .unready → poller'.phase = .stopped)) := by
  cases h with
  | stop _ hphase =>
    refine ⟨?_, rfl, by simp, .inr ⟨by simp, rfl, fun _ => rfl⟩⟩
    rcases hphase with hphase | hphase <;> simp [hphase]
  | begins hbegins =>
    have hphase : poller.phase ≠ .stopped := by
      cases hbegins with
      | ready hphase => simp [hphase]
      | tick hphase => simp [hphase]
    unfold pollOnce
    split
    · exact ⟨hphase, rfl, by simp [canceled, finish], .inl hbegins⟩
    · exact ⟨hphase, rfl, by simp, .inl hbegins⟩
  | grants hphase => exact ⟨by simp [hphase], rfl, by simp, .inr ⟨by simp, rfl, by simp [hphase]⟩⟩
  | lists hphase => exact ⟨by simp [hphase], rfl, by simp, .inr ⟨by simp, rfl, by simp [hphase]⟩⟩
  | submits hphase => exact ⟨by simp [hphase], rfl, by simp, .inr ⟨by simp, rfl, by simp [hphase]⟩⟩
  | refuses hphase =>
    exact ⟨ne_stopped hphase, rfl, by simp, .inr ⟨by simp, rfl, fun h => absurd h (ne_unready hphase)⟩⟩
  | judges hphase => exact ⟨by simp [hphase], rfl, by simp, .inr ⟨by simp, rfl, by simp [hphase]⟩⟩
  | records hphase =>
    exact ⟨by simp [hphase], rfl, finish_ne_unready, .inr ⟨by simp, rfl, by simp [hphase]⟩⟩
  | fails hphase _ hbegins =>
    exact ⟨ne_stopped hphase, rfl, finish_ne_unready,
      .inr ⟨hbegins, rfl, fun h => absurd h (ne_unready hphase)⟩⟩
  | publishes hphase => exact ⟨by simp [hphase], rfl, by simp, .inr ⟨by simp, rfl, by simp [hphase]⟩⟩
  | keeps hphase hfailed =>
    refine ⟨by simp [hphase], rfl, by simp, .inr ⟨?_, rfl, by simp [hphase]⟩⟩
    rcases hfailed with ⟨rfl, -⟩ | ⟨_, _, _, _, rfl, -⟩ <;> simp

/-- The poller's calls are those of a poll. -/
theorem forall_calls {P : Action → Prop} (hbuilds : P .buildPollSnapshot)
    (hjudges : ∀ snapshot counters timestamp visit, P (.applyPollCounts snapshot counters timestamp visit))
    (hrecords : ∀ snapshot timestamp, P (.markPollOk snapshot timestamp)) {poller poller' : Poller}
    {w : World} {action : PollerAction} {calls : List Action}
    (h : poller.step w action = some (poller', calls)) : ∀ call ∈ calls, P call := by
  intro call hcall
  have hmoves := step_moves h
  cases hmoves with
  | grants =>
    obtain rfl := List.mem_singleton.1 hcall
    exact hbuilds
  | judges =>
    obtain rfl := List.mem_singleton.1 hcall
    exact hjudges _ _ _ _
  | records =>
    obtain rfl := List.mem_singleton.1 hcall
    exact hrecords _ _
  | _ => cases hcall

end Moves

end Poller

/-- The listener's calls mark keys and ask for resyncs. -/
theorem Listener.forall_calls {P : Action → Prop}
    (hmarks : ∀ event now timestamp, P (.enqueueEvent event now timestamp))
    (hasks : ∀ timestamp, P (.requestResync timestamp)) {listener listener' : Listener}
    {cancelled : Bool} {action : ListenerAction} {calls : List Action}
    (h : listener.step cancelled action = some (listener', calls)) : ∀ call ∈ calls, P call := by
  intro call hcall
  rcases Listener.step_cases h with ⟨timestamp, -, -, -, rfl⟩ | ⟨_, _, _, _, -, -, -, rfl⟩ |
    ⟨_, -, -, rfl⟩ | ⟨-, -, rfl, -⟩
  · split at hcall
    · obtain rfl := List.mem_singleton.1 hcall
      exact hasks _
    · cases hcall
  · obtain rfl := List.mem_singleton.1 hcall
    exact hmarks _ _ _
  · cases hcall
  · cases hcall

namespace Exporter

variable [HostText] {settings : Settings} {trace : List (Step Exporter ExporterAction)}
  {e e' : Exporter}

/-- A step of the poller: what it called was done in the world. -/
theorem step_poller {action : PollerAction} (h : e.step (.poller action) = some e') :
    ∃ poller calls world, e.poller.Moves e.system.world action poller calls ∧
      calls.foldlM World.step e.system.world = some world ∧
      e' = { system := { e.system with world }, poller } := by
  simp only [step] at h
  split at h
  · cases h
  · rename_i poller calls hpoller
    obtain ⟨world, hworld, rfl⟩ := Option.map_eq_some_iff.1 h
    exact ⟨poller, calls, world, Poller.step_moves hpoller, hworld, rfl⟩

/-- A step of the others leaves the poller alone. -/
theorem step_system {action : SystemAction} (h : e.step (.system action) = some e') :
    ∃ system, action.isPoll = false ∧ e.system.step action = some system ∧
      e' = { e with system } := by
  simp only [step, Option.ite_none_left_eq_some, Bool.not_eq_true] at h
  obtain ⟨hpoll, h⟩ := h
  obtain ⟨system, hsystem, rfl⟩ := Option.map_eq_some_iff.1 h
  exact ⟨system, hpoll, hsystem, rfl⟩

/-- What a step of the others does in the world. -/
theorem step_system_calls {action : SystemAction} (h : e.step (.system action) = some e') :
    ∃ calls : List Action, (∀ call ∈ calls, call.isPoll = false) ∧
      calls.foldlM World.step e.system.world = some e'.system.world ∧ e'.poller = e.poller := by
  obtain ⟨system, hpoll, hsystem, rfl⟩ := step_system h
  cases action with
  | world action =>
    obtain ⟨world, hworld, rfl⟩ := Option.map_eq_some_iff.1 hsystem
    refine ⟨[action], fun call hcall => ?_, by simpa using hworld, rfl⟩
    obtain rfl := List.mem_singleton.1 hcall
    exact hpoll
  | listener action =>
    obtain ⟨listener, calls, world, hlistener, hcalls, rfl⟩ := System.step_listener hsystem
    exact ⟨calls, Listener.forall_calls (fun _ _ _ => rfl) (fun _ => rfl) hlistener, hcalls, rfl⟩

/-- What is called in the world is a run of the system. -/
theorem run_of_calls {calls : List Action} {s : System} {world : World}
    (h : calls.foldlM World.step s.world = some world) :
    ∃ trace, Run System.step s trace { s with world } ∧
      trace.map (·.act) = calls.map SystemAction.world := by
  induction calls generalizing s with
  | nil =>
    cases h
    exact ⟨[], .nil, rfl⟩
  | cons call calls ih =>
    rw [List.foldlM_cons] at h
    obtain ⟨next, hnext, hrest⟩ := Option.bind_eq_some_iff.1 h
    obtain ⟨trace, hrun, hacts⟩ := @ih { s with world := next } hrest
    have hstep : System.step s (.world call) = some { s with world := next } := by
      simp [System.step, hnext]
    exact ⟨_, (Run.single hstep).append hrun, by rw [List.map_append, hacts]; rfl⟩

/-- **The exporter runs the system**: the reconciler and the listener cannot tell its poller from any
other. -/
theorem Runs.system (h : Runs settings trace e) :
    ∃ trace, System.Runs settings.config settings.anchor trace e.system := by
  refine h.invariant
    (fun e => ∃ trace, System.Runs settings.config settings.anchor trace e.system) ⟨[], .nil⟩ ?_
  rintro e action e' ⟨before, hbefore⟩ hstep
  cases action with
  | system action =>
    obtain ⟨system, -, hsystem, rfl⟩ := step_system hstep
    exact ⟨_, hbefore.snoc hsystem⟩
  | poller action =>
    obtain ⟨poller, calls, world, -, hcalls, rfl⟩ := step_poller hstep
    obtain ⟨after, hafter, -⟩ := run_of_calls hcalls
    exact ⟨_, hbefore.append hafter⟩

theorem Runs.world (h : Runs settings trace e) :
    World.Reachable settings.config e.system.world := by
  obtain ⟨_, hsystem⟩ := h.system
  exact System.reachable_world hsystem

theorem Runs.wired (h : Runs settings trace e) : e.system.world.reconciler.Wired := by
  obtain ⟨_, hworld⟩ := h.world
  exact World.Runs.wired hworld

/-- Every step is a run of the world. -/
theorem step_world {action : ExporterAction} (h : e.step action = some e') :
    ∃ trace, Run World.step e.system.world trace e'.system.world := by
  cases action with
  | system action =>
    obtain ⟨calls, -, hcalls, -⟩ := step_system_calls h
    exact System.run_of_calls hcalls
  | poller action =>
    obtain ⟨poller, calls, world, -, hcalls, rfl⟩ := step_poller h
    exact System.run_of_calls hcalls

/-- The clocks of the world do not run backwards, and a cancellation stays. -/
theorem step_later {action : ExporterAction} (h : e.step action = some e') :
    e'.system.world.start = e.system.world.start ∧
      e.system.world.clock ≤ e'.system.world.clock ∧
      e.system.world.instant ≤ e'.system.world.instant ∧
      (e.system.world.cancelled = true → e'.system.world.cancelled = true) := by
  obtain ⟨trace, hrun⟩ := step_world h
  refine hrun.invariant (fun w => w.start = e.system.world.start ∧
    e.system.world.clock ≤ w.clock ∧ e.system.world.instant ≤ w.instant ∧
      (e.system.world.cancelled = true → w.cancelled = true)) ⟨rfl, le_rfl, le_rfl, id⟩ ?_
  rintro w action w' ⟨hstart, hclock, hinstant, hcancelled⟩ hstep
  have hadvances := World.step_advances hstep
  exact ⟨hadvances.start.trans hstart, hclock.trans hadvances.clock,
    hinstant.trans hadvances.instant, fun h => hadvances.cancelled (hcancelled h)⟩

end Exporter

end SwarmExporter
