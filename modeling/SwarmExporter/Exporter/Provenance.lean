import SwarmExporter.Exporter.Accounts
import SwarmExporter.Reconciler.Staleness

/-!
# Where a published count comes from

A counter that is published was counted from a task list Docker sent, against a snapshot of the services
taken after the first resync, and accepted by the reconciler, all three within one poll
(`published_from_poll`). The place of the poller carries the argument: a poll that submits counters listed
its tasks since it began (`Follows`), and only the judging of counters publishes any.
-/

namespace SwarmExporter

open Lib
open Docker (CallError Task)

namespace Exporter

/-- `trace` has a step that is `start`, and no poll began after it. -/
def SamePoll (start : List (Step Exporter ExporterAction) → Step Exporter ExporterAction → Prop)
    (trace : List (Step Exporter ExporterAction)) : Prop :=
  ∃ before st after, trace = before ++ st :: after ∧ start before st ∧ ∀ later ∈ after, begins later = false

section SamePoll

variable {start : List (Step Exporter ExporterAction) → Step Exporter ExporterAction → Prop}
  {trace : List (Step Exporter ExporterAction)} {st : Step Exporter ExporterAction}

theorem SamePoll.of_last (h : start trace st) : SamePoll start (trace ++ [st]) :=
  ⟨trace, st, [], rfl, h, fun _ hlater => by cases hlater⟩

theorem SamePoll.extend (h : SamePoll start trace) (hst : begins st = false) :
    SamePoll start (trace ++ [st]) := by
  obtain ⟨before, first, after, rfl, hfirst, hafter⟩ := h
  refine ⟨before, first, after ++ [st], by simp, hfirst, fun later hlater => ?_⟩
  rcases List.mem_append.1 hlater with hlater | hlater
  · exact hafter later hlater
  · obtain rfl := List.mem_singleton.1 hlater
    exact hst

end SamePoll

/-- The reconciler builds `snapshot` for the poller, after the first resync. -/
def Grants (snapshot : PollSnapshot) (_ : List (Step Exporter ExporterAction))
    (st : Step Exporter ExporterAction) : Prop :=
  st.act = .poller .serveSnapshot ∧ st.pre.system.world.reconciler.ready = true ∧
    snapshot = st.pre.system.world.reconciler.buildPollSnapshot

/-- Docker lists tasks, and `counters` are counted from them against the snapshot of the poll. -/
def Lists [HostText] (snapshot : PollSnapshot) (counters : ServiceCounter)
    (before : List (Step Exporter ExporterAction)) (st : Step Exporter ExporterAction) : Prop :=
  ∃ tasks visit, st.act = .poller (.tasksListed (.ok tasks) visit) ∧
    SamePoll (Grants snapshot) before ∧ Enumerates visit (latestTasks snapshot tasks) ∧
    pollReplicasState snapshot (.ok tasks) visit = .ok counters

/-- The reconciler accepts `counter` for `id` from the counters of the poll. -/
def Accepts [HostText] (id : String) (counter : TaskCounter)
    (before : List (Step Exporter ExporterAction)) (st : Step Exporter ExporterAction) : Prop :=
  ∃ snapshot counters timestamp visit service, st.act = .poller (.serveCounts timestamp visit) ∧
    SamePoll (Lists snapshot counters) before ∧ snapshot.services[id]? = some service ∧
    id ∈ st.pre.system.world.reconciler.metadata ∧
    (st.pre.system.world.reconciler.state.currentPollVerdict snapshot).accepts snapshot id service =
      true ∧ counters[id]? = some counter

/-- What the poll in progress did so far; a poll without services submits no counters. -/
def Follows [HostText] (trace : List (Step Exporter ExporterAction)) : PollerPhase → Prop
  | .granted snapshot => SamePoll (Grants snapshot) trace
  | .listing snapshot => SamePoll (Grants snapshot) trace
  | .submitting snapshot counters => SamePoll (Lists snapshot counters) trace ∨ counters = ∅
  | _ => True

section Steps

variable [HostText] {settings : Settings} {trace : List (Step Exporter ExporterAction)}
  {st : Step Exporter ExporterAction} {e e' : Exporter}

theorem Follows.extend {phase : PollerPhase} (h : Follows trace phase) (hst : begins st = false) :
    Follows (trace ++ [st]) phase := by
  cases phase with
  | granted snapshot => exact SamePoll.extend h hst
  | listing snapshot => exact SamePoll.extend h hst
  | submitting snapshot counters => exact Or.imp_left (SamePoll.extend · hst) h
  | _ => trivial

theorem follows_finish (poller : Poller) (cancelled : Bool) (failure : Option PollError) :
    Follows trace (poller.finish cancelled failure).phase := by
  unfold Poller.finish
  split <;> trivial

/-- A step whose calls are no polls publishes nothing. -/
theorem calls_lastPublished {calls : List Action} {w w' : World} (wired : w.reconciler.Wired)
    (hcalls : ∀ call ∈ calls, ∀ snapshot counters timestamp visit,
      call ≠ .applyPollCounts snapshot counters timestamp visit)
    (h : calls.foldlM World.step w = some w') :
    w'.reconciler.lastPublished = w.reconciler.lastPublished := by
  induction calls generalizing w with
  | nil =>
    cases h
    rfl
  | cons call calls ih =>
    rw [List.foldlM_cons] at h
    obtain ⟨next, hnext, hrest⟩ := Option.bind_eq_some_iff.1 h
    rw [List.forall_mem_cons] at hcalls
    have hnot : World.isApplied ⟨w, call, next⟩ = false := by
      unfold World.isApplied
      split
      · rename_i hcall
        exact absurd hcall (hcalls.1 _ _ _ _)
      · rfl
    rw [ih (World.step_wired wired hnext) hcalls.2 hrest]
    exact (World.step_unpublished wired hnext hnot).lastPublished

/-- The first resync stays completed. -/
theorem step_ready {action : ExporterAction} (hrun : Runs settings trace e)
    (h : e.step action = some e') (hready : e.system.world.reconciler.ready = true) :
    e'.system.world.reconciler.ready = true := by
  obtain ⟨before, hbefore⟩ := hrun.world
  obtain ⟨after, hafter⟩ := step_world h
  refine Run.history (fun _ w => w.reconciler.ready = true) hready ?_ hafter
  intro after w action w' hafter hready hstep
  have hrun' := hbefore.append hafter
  rcases World.step_resync (World.Runs.wired hrun') (World.Runs.counted hrun').counted hstep with
    ⟨-, hkept, -⟩ | ⟨_, _, _, _, _, _, -, -, -, -, -, hcompleted, -⟩
  · rw [hkept]
    exact hready
  · exact hcompleted

/-- Polls begin once the first resync completed. -/
theorem Runs.ready (h : Runs settings trace e) :
    e.poller.phase = .unready ∨ e.poller.phase = .stopped ∨
      e.system.world.reconciler.ready = true := by
  refine Run.history (fun _ e => e.poller.phase = .unready ∨ e.poller.phase = .stopped ∨
    e.system.world.reconciler.ready = true) (.inl rfl) ?_ h
  intro trace e action e' hrun hready hstep
  have hstays := step_ready hrun hstep
  cases action with
  | system action =>
    obtain ⟨system, -, -, rfl⟩ := step_system hstep
    exact hready.imp_right (Or.imp_right hstays)
  | poller action =>
    obtain ⟨poller, calls, world, hmoves, -, rfl⟩ := step_poller hstep
    obtain ⟨hrunning, -, -, hinterval⟩ := hmoves.interval
    rcases hready with hunready | hstopped | hready
    · rcases hinterval with hbegins | ⟨-, -, hstopped⟩
      · generalize poller.nextTick = nextTick at hbegins
        cases hbegins with
        | ready _ hready => exact .inr (.inr (hstays hready))
        | tick hphase =>
          rw [hphase] at hunready
          cases hunready
      · exact .inr (.inl (hstopped hunready))
    · exact absurd hstopped hrunning
    · exact .inr (.inr (hstays hready))

/-- **A poll in progress did what its place says.** -/
theorem Runs.follows (h : Runs settings trace e) : Follows trace e.poller.phase := by
  refine Run.history (fun trace e => Follows trace e.poller.phase) ?_ ?_ h
  · exact trivial
  · intro trace e action e' hrun hfollows hstep
    cases action with
    | system action =>
      obtain ⟨system, -, -, rfl⟩ := step_system hstep
      exact hfollows.extend rfl
    | poller action =>
      obtain ⟨poller, calls, world, hmoves, -, rfl⟩ := step_poller hstep
      cases hmoves with
      | begins =>
        unfold Poller.pollOnce
        split
        · exact follows_finish _ _ _
        · trivial
      | grants hphase =>
        have hready : e.system.world.reconciler.ready = true := by
          simpa [hphase] using Runs.ready hrun
        exact SamePoll.of_last ⟨rfl, hready, rfl⟩
      | lists hphase =>
        rw [hphase] at hfollows
        exact SamePoll.extend hfollows rfl
      | @submits snapshot listed visit counters hphase hvisit hcounters =>
        rw [hphase] at hfollows
        cases listed with
        | error error =>
          unfold pollReplicasState at hcounters
          split at hcounters
          · cases hcounters
            exact .inr rfl
          · cases hcounters
        | ok tasks => exact .inl (SamePoll.of_last ⟨tasks, visit, rfl, hfollows, hvisit, hcounters⟩)
      | records => exact follows_finish _ _ _
      | fails => exact follows_finish _ _ _
      | _ => trivial

/-- **Every published count is one of a poll.** What is published for a service was counted from a task
list Docker sent, against a snapshot the reconciler built for that same poll once its first resync had
completed, and accepted in it. -/
theorem published_from_poll {id : String} {counter : TaskCounter} (h : Runs settings trace e)
    (hpublished : e.system.world.reconciler.lastPublished[id]? = some counter) :
    ∃ before judge after, trace = before ++ judge :: after ∧ Accepts id counter before judge := by
  refine Run.history (fun trace e => ∀ id counter,
    e.system.world.reconciler.lastPublished[id]? = some counter →
    ∃ before judge after, trace = before ++ judge :: after ∧ Accepts id counter before judge)
    ?_ ?_ h id counter hpublished
  · intro id counter hnone
    simp [init, System.init, World.init, Reconciler.withPolicy] at hnone
  · intro trace e action e' hrun hsourced hstep id counter hpublished
    have hkeeps : e'.system.world.reconciler.lastPublished =
          e.system.world.reconciler.lastPublished →
        ∃ before judge after, trace ++ [⟨e, action, e'⟩] = before ++ judge :: after ∧
          Accepts id counter before judge := by
      intro hsame
      rw [hsame] at hpublished
      obtain ⟨before, judge, after, rfl, haccepts⟩ := hsourced id counter hpublished
      exact ⟨before, judge, after ++ [⟨e, action, e'⟩], by simp, haccepts⟩
    cases action with
    | system action =>
      obtain ⟨calls, hcalls, hworld, -⟩ := step_system_calls hstep
      refine hkeeps (calls_lastPublished (Runs.wired hrun) ?_ hworld)
      rintro call hcall snapshot counters timestamp visit rfl
      cases hcalls _ hcall
    | poller action =>
      obtain ⟨poller, calls, world, hmoves, hcalls, rfl⟩ := step_poller hstep
      cases hmoves with
      | @judges snapshot counters timestamp visit _ hphase =>
        have hjudged : World.step e.system.world (.applyPollCounts snapshot counters timestamp visit) =
            some world := by simpa using hcalls
        cases hbuilds : World.isApplied ⟨e.system.world, .applyPollCounts snapshot counters timestamp visit,
            world⟩ with
        | false => exact hkeeps (World.step_unpublished (Runs.wired hrun) hjudged hbuilds).lastPublished
        | true =>
          obtain ⟨hpublishes, -⟩ := World.applied_step hjudged hbuilds
          have hcounter := (hpublishes.published id).symm.trans hpublished
          rcases Reconciler.publishedCounter_cases hcounter with ⟨hcached, haccepted⟩ |
            ⟨-, -, hlast, -⟩
          · -- Accepted in this poll: it submits what it listed.
            obtain ⟨service, hservice, haccepts, hcounted⟩ :=
              Reconciler.acceptedCounter_eq_some.1 haccepted
            have hfollows := Runs.follows hrun
            rw [hphase] at hfollows
            have hlists := hfollows.resolve_right (by rintro rfl; simp at hcounted)
            exact ⟨trace, _, [], rfl, snapshot, counters, timestamp, visit, service, rfl, hlists,
              hservice, hcached, haccepts, hcounted⟩
          · -- Carried over: an earlier poll accepted it.
            obtain ⟨before, judge, after, rfl, hsource⟩ := hsourced id counter hlast
            exact ⟨before, judge, _, List.append_assoc _ _ _, hsource⟩
      | grants =>
        refine hkeeps (calls_lastPublished (Runs.wired hrun) ?_ hcalls)
        rintro call hcall snapshot counters timestamp visit rfl
        cases List.mem_singleton.1 hcall
      | records =>
        refine hkeeps (calls_lastPublished (Runs.wired hrun) ?_ hcalls)
        rintro call hcall snapshot counters timestamp visit rfl
        cases List.mem_singleton.1 hcall
      | _ =>
        cases hcalls
        exact hkeeps rfl

end Steps

open Sample in
theorem published_from_poll_sample : ∃ trace e counter before judge after, Runs settings trace e ∧
    e.system.world.reconciler.lastPublished["web"]? = some counter ∧
    trace = before ++ judge :: after ∧ Accepts "web" counter before judge := by
  have hreplay : (replay step (init settings) (firstResync ++ .poller .ready :: emptyPoll)).any
      (fun result => result.2.system.world.reconciler.lastPublished["web"]?.isSome) = true := by
    decide +kernel
  obtain ⟨trace, e, hrun, -, hcheck⟩ := exists_run_of_replay hreplay
  obtain ⟨counter, hcounter⟩ := Option.isSome_iff_exists.1 hcheck
  obtain ⟨before, judge, after, htrace, haccepts⟩ := published_from_poll hrun hcounter
  exact ⟨trace, e, counter, before, judge, after, hrun, hcounter, htrace, haccepts⟩

end Exporter

end SwarmExporter
