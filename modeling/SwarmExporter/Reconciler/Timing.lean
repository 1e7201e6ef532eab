import SwarmExporter.Reconciler.Passes
import SwarmExporter.Reconciler.Schedule

/-!
# The timing of the resyncs

When the next resync may start, and the backoff after its next failure, are written in three places: a
failed attempt and a recovered panic schedule a retry, and a completed pass resets both. `step_timing`
says which steps do which; every other step leaves the two alone.
-/

namespace SwarmExporter

open Lib
open Docker (CallError Event Node Service)

namespace Reconciler

/-! ## Polls -/

variable {verdict : PollVerdict} {snapshot : PollSnapshot} {counters : ServiceCounter} {now : Instant}
  {timestamp : Timestamp}

theorem schedule_judgeService (judging : Judging) (id : String) :
    (judgeService verdict snapshot counters now timestamp judging id).reconciler.schedule =
      judging.reconciler.schedule := by
  unfold judgeService
  simp only
  repeat' split
  all_goals rfl

theorem schedule_foldl_judgeService (ids : List String) (judging : Judging) :
    (ids.foldl (judgeService verdict snapshot counters now timestamp) judging).reconciler.schedule =
      judging.reconciler.schedule := by
  induction ids generalizing judging with
  | nil => rfl
  | cons id ids ih => rw [List.foldl_cons, ih, schedule_judgeService]

theorem schedule_applyPollCounts (r : Reconciler) (visit : List String) :
    (r.applyPollCounts snapshot counters now timestamp visit).1.schedule = r.schedule := by
  have hjudged : (r.judgeServices snapshot counters now timestamp).reconciler.schedule = r.schedule :=
    schedule_foldl_judgeService _ _
  unfold applyPollCounts
  simp only
  split
  · exact hjudged
  · split
    · exact hjudged
    · exact hjudged

end Reconciler

namespace World

/-! ## Attempts -/

/-- The step starts a resync. -/
def startsAttempt (st : Step World Action) : Bool :=
  st.pre.phase.pass?.isNone && st.post.phase.pass?.isSome

/-- The step ends a resync, in whichever way. -/
def EndsAttempt (st : Step World Action) : Prop :=
  st.pre.phase.pass?.isSome = true ∧ st.post.phase.pass? = none

/-- The resync in progress fails or panics: it ends, and neither completes nor is cancelled. -/
def FailsAttempt [HostText] (st : Step World Action) : Prop :=
  EndsAttempt st ∧ ¬st.pre.Completes st.act st.post ∧ st.act ≠ .stepCancelled

/-- A node refresh or the inspect of a service panics, while it waits or on what Docker sent. -/
def PanicsInStep (st : Step World Action) : Prop :=
  st.pre.phase.pass? = none ∧
    ((∃ timestamp, st.act = .stepPanics timestamp) ∨
      ∃ service timestamp panic, st.act = .inspected (.ok service) timestamp ∧
        buildMetadata service st.pre.reconciler.customLabels = .error panic)

/-- The step leaves the timing of the resyncs alone. -/
def KeepsTiming (w w' : World) : Prop :=
  w'.reconciler.resyncNotBefore = w.reconciler.resyncNotBefore ∧
    w'.reconciler.resyncBackoff = w.reconciler.resyncBackoff

/-- The step schedules the next resync after the backoff, and grows it. -/
def SchedulesRetry (w w' : World) : Prop :=
  w'.reconciler.resyncNotBefore = some (w.instant + w.reconciler.resyncBackoff) ∧
    w'.reconciler.resyncBackoff = w.reconciler.growBackoff w.reconciler.resyncBackoff

/-- The step makes the next resync due at once, with the initial backoff. -/
def ResetsTiming (w w' : World) : Prop :=
  w'.reconciler.resyncNotBefore = none ∧
    w'.reconciler.resyncBackoff = w.reconciler.backoffInitial

/-- What a step does to the timing of the resyncs. -/
def Timed [HostText] (w : World) (action : Action) (w' : World) : Prop :=
  KeepsTiming w w' ∧ ¬FailsAttempt ⟨w, action, w'⟩ ∨
  SchedulesRetry w w' ∧ (FailsAttempt ⟨w, action, w'⟩ ∨ PanicsInStep ⟨w, action, w'⟩) ∨
  ResetsTiming w w' ∧ w.Completes action w'

section

variable {w w' : World} {action : Action}

theorem keepsTiming_of_schedule (h : w'.reconciler.schedule = w.reconciler.schedule) :
    KeepsTiming w w' :=
  ⟨congrArg Schedule.resyncNotBefore h, congrArg Schedule.resyncBackoff h⟩

/-- A recovered panic, from a reconciler with the same schedule. -/
theorem schedulesRetry_of_afterPanic {r : Reconciler} {resyncStep : Bool} {timestamp : Timestamp}
    (hschedule : r.schedule = w.reconciler.schedule)
    (h : w'.reconciler = r.afterPanic resyncStep w.instant timestamp) : SchedulesRetry w w' := by
  have hbackoff : r.resyncBackoff = w.reconciler.resyncBackoff :=
    congrArg Schedule.resyncBackoff hschedule
  have hmax : r.backoffMax = w.reconciler.backoffMax := congrArg Schedule.backoffMax hschedule
  constructor
  · rw [h, ← hbackoff]
    cases resyncStep <;> rfl
  · rw [h, Reconciler.growBackoff, ← hbackoff, ← hmax]
    cases resyncStep <;> rfl

variable [HostText]

theorem not_fails_of_idle (h : w.phase.pass? = none) : ¬FailsAttempt ⟨w, action, w'⟩ := by
  rintro ⟨⟨hpass, -⟩, -⟩
  simp [h] at hpass

theorem not_fails_of_phase (h : w'.phase = w.phase) : ¬FailsAttempt ⟨w, action, w'⟩ := by
  rintro ⟨⟨hpass, hnone⟩, -⟩
  simp only [h] at hnone
  simp [hnone] at hpass

theorem timed_of_schedule (hschedule : w'.reconciler.schedule = w.reconciler.schedule)
    (hfails : ¬FailsAttempt ⟨w, action, w'⟩) : Timed w action w' :=
  .inl ⟨keepsTiming_of_schedule hschedule, hfails⟩

/-- The steps of the other tasks leave the timing alone. -/
theorem timed_of_other (h : w.step action = some w') (hcycle : action.isCycle = false) :
    Timed w action w' := by
  refine timed_of_schedule ?_ (not_fails_of_phase (step_phase h hcycle))
  cases action with
  | tick =>
    simp only [step, Option.ite_none_right_eq_some, Option.some.injEq] at h
    rw [← h.2]
  | cancel =>
    cases h
    rfl
  | enqueueEvent event now timestamp =>
    simp only [step, Option.ite_none_right_eq_some, Option.some.injEq] at h
    rw [← h.2]
    exact Reconciler.schedule_enqueueEvent _ _ _ _
  | requestResync =>
    simp only [step, Option.ite_none_right_eq_some, Option.some.injEq] at h
    rw [← h.2]
    rfl
  | buildPollSnapshot =>
    simp only [step, Option.ite_none_right_eq_some, Option.some.injEq] at h
    rw [← h.2]
  | applyPollCounts snapshot counters timestamp visit =>
    simp only [step, Option.ite_none_right_eq_some, Option.some.injEq] at h
    rw [← h.2]
    exact Reconciler.schedule_applyPollCounts _ _
  | markPollOk =>
    simp only [step, Option.ite_none_right_eq_some, Option.some.injEq] at h
    rw [← h.2]
    rfl
  | _ => cases hcycle

/-- A node refresh leaves the timing of the resyncs alone. -/
theorem keepsTiming_nodesListed (wired : w.reconciler.Wired) {listed : Except CallError (List Node)}
    {visit : List String} {timestamp : Timestamp}
    (h : w'.reconciler = w.reconciler.recovered (Reconciler.nodesListed listed visit w.instant) false
      w.instant timestamp) : KeepsTiming w w' := by
  cases listed with
  | error error =>
    rw [KeepsTiming, h]
    exact ⟨rfl, rfl⟩
  | ok nodes =>
    let applied := w.reconciler.withNodes nodes visit
    have hwrite : Reconciler.nodesListed (.ok nodes) visit w.instant w.reconciler =
        .ok () { applied with nodesBackoff := applied.backoffInitial } :=
      bind_ok (Reconciler.applyNodes_ok wired nodes visit)
    have hschedule : applied.schedule = w.reconciler.schedule := Reconciler.schedule_withNodes _ _ _
    rw [KeepsTiming, h, Reconciler.recovered, hwrite]
    exact ⟨congrArg Schedule.resyncNotBefore hschedule, congrArg Schedule.resyncBackoff hschedule⟩

omit [HostText] in
theorem plain_of_mem_resyncOps {services : List Service} {nodes : List Node}
    {visit ids : List String} {op : Op} (h : op ∈ Reconciler.resyncOps services nodes visit ids) :
    op.isBookkeep = false ∧ ∀ target passStart now timestamp,
      op ≠ .completeResync target passStart now timestamp := by
  refine ⟨Reconciler.isBookkeep_of_mem_resyncOps h, ?_⟩
  rintro target passStart now timestamp rfl
  cases isPlain_of_mem_resyncOps h

/-- The answer to the node list of a resync: the pass completes, or it fails or panics and is scheduled
again. -/
theorem timed_resyncNodesListed (wired : w.reconciler.Wired) {pass : Pass} {services : List Service}
    (hphase : w.phase = .resyncNodesListing pass services) {listed : Except CallError (List Node)}
    {visit ids : List String} {fault : Option Nat} {timestamp : Timestamp}
    (h : w.step (.resyncNodesListed listed visit ids fault timestamp) = some w') :
    Timed w (.resyncNodesListed listed visit ids fault timestamp) w' := by
  have hreads := step_reads h rfl
  simp only [step, cycleStep, hphase, Option.ite_none_right_eq_some, Option.some.injEq] at h
  obtain ⟨⟨hvisit, -⟩, rfl⟩ := h
  have hends : ∀ {w' : World}, w'.phase = .keysCheck pass.now →
      EndsAttempt ⟨w, .resyncNodesListed listed visit ids fault timestamp, w'⟩ := by
    intro w' hpost
    constructor
    · simp [hphase, Phase.pass?]
    · simp [hpost, Phase.pass?]
  cases listed with
  | error error =>
    refine .inr (.inl ⟨⟨rfl, rfl⟩, .inl ⟨hends rfl, ?_, by simp⟩⟩)
    rintro ⟨_, _, _, _, _, _, -, haction, -⟩
    cases haction
  | ok nodes =>
    have hlists := Reconciler.applyLists_ops wired hvisit services nodes ids fault
    cases hrun : Reconciler.applyLists services nodes visit ids fault w.reconciler with
    | ok _ r =>
      rw [hrun] at hlists
      obtain ⟨rfl, hperforms⟩ := hlists
      have hwrite : Reconciler.resyncListed services (.ok nodes) visit ids none pass.target
          pass.passStart w.instant timestamp w.reconciler =
          .ok () (r.completeResync pass.target pass.passStart w.instant timestamp) := bind_ok hrun
      have hschedule : r.schedule = w.reconciler.schedule :=
        Reconciler.performs_schedule hperforms fun op hop =>
          plain_of_mem_resyncOps hop
      have hfinish : Reconciler.Performs r
          [.completeResync pass.target pass.passStart w.instant timestamp]
          (r.completeResync pass.target pass.passStart w.instant timestamp) := .single rfl
      simp only [Reconciler.recovered, hwrite]
      refine .inr (.inr ⟨⟨rfl, congrArg Schedule.backoffInitial hschedule⟩, ?_⟩)
      refine completes_of_ops hphase rfl hreads (hperforms.append hfinish) ?_
      rw [essential_append, essential_eq_self fun op => Reconciler.isBookkeep_of_mem_resyncOps]
      rfl
    | error panic r =>
      rw [hrun] at hlists
      obtain ⟨done, hpre, hperforms⟩ := hlists
      have hwrite : Reconciler.resyncListed services (.ok nodes) visit ids fault pass.target
          pass.passStart w.instant timestamp w.reconciler = .error panic r := bind_error hrun
      have hschedule : r.schedule = w.reconciler.schedule :=
        Reconciler.performs_schedule hperforms fun op hop =>
          plain_of_mem_resyncOps (hpre.subset hop)
      have hresyncs : r.state.resyncs = w.reconciler.state.resyncs :=
        Reconciler.performs_resyncs hperforms fun op hop =>
          Op.plain (isPlain_of_mem_resyncOps (hpre.subset (mem_of_mem_essential hop)))
      simp only [Reconciler.recovered, hwrite]
      refine .inr (.inl ⟨schedulesRetry_of_afterPanic hschedule rfl, .inl ⟨hends rfl, ?_, by simp⟩⟩)
      -- The panic raised one more request, which a completed pass does not.
      rintro ⟨_, _, _, _, _, _, -, -, -, -, hcompleted, -⟩
      have hrequested : r.state.resyncRequested = w.reconciler.state.resyncRequested :=
        congrArg Resyncs.requested hresyncs
      have hraised : r.state.resyncRequested + 1 = w.reconciler.state.resyncRequested :=
        congrArg Resyncs.requested hcompleted
      omega

/-- The answer to an inspect: a service that cannot be read panics, and nothing else moves the
timing. -/
theorem timed_inspected (wired : w.reconciler.Wired) {key : DueKey} {keys : List DueKey}
    (hphase : w.phase = .inspecting key keys) {result : Except CallError Service}
    {timestamp : Timestamp} (h : w.step (.inspected result timestamp) = some w') :
    Timed w (.inspected result timestamp) w' := by
  have hpass : w.phase.pass? = none := by rw [hphase]; rfl
  obtain ⟨service, metadata, -, -, hpost⟩ | ⟨service, panic, rfl, hpanic, hpost⟩ |
    ⟨error, -, -, hpost⟩ | ⟨error, -, -, hpost⟩ := inspected_cases wired hphase h
  · refine timed_of_schedule ?_ (not_fails_of_idle hpass)
    rw [hpost, Reconciler.schedule_withService]
  · exact .inr (.inl ⟨schedulesRetry_of_afterPanic rfl hpost,
      .inr ⟨hpass, .inr ⟨service, timestamp, panic, rfl, hpanic⟩⟩⟩)
  · refine timed_of_schedule ?_ (not_fails_of_idle hpass)
    rw [hpost, Reconciler.schedule_removeService]
  · refine timed_of_schedule ?_ (not_fails_of_idle hpass)
    rw [hpost, Reconciler.schedule_modifyState]

/-- A node refresh or the inspect of a service that panics while it waits. -/
theorem timed_panicked (hpass : w.phase.pass? = none) (phase : Phase) (timestamp : Timestamp) :
    Timed w (.stepPanics timestamp) (w.panicked false phase timestamp) :=
  .inr (.inl ⟨schedulesRetry_of_afterPanic rfl rfl, .inr ⟨hpass, .inl ⟨timestamp, rfl⟩⟩⟩)

/-- A resync that panics while it waits. -/
theorem timed_resync_panicked (hpass : w.phase.pass?.isSome = true) (now : Instant)
    (timestamp : Timestamp) :
    Timed w (.stepPanics timestamp) (w.panicked true (.keysCheck now) timestamp) := by
  refine .inr (.inl ⟨schedulesRetry_of_afterPanic rfl rfl, .inl ⟨⟨hpass, rfl⟩, ?_, by simp⟩⟩)
  rintro ⟨_, _, _, _, _, _, -, haction, -⟩
  cases haction

/-- **What a step does to the timing of the resyncs.** -/
theorem step_timing (wired : w.reconciler.Wired) (h : w.step action = some w') :
    Timed w action w' := by
  by_cases hcycle : action.isCycle = false
  · exact timed_of_other h hcycle
  cases action with
  | beginCycle timestamp =>
    simp only [step, cycleStep] at h
    split at h
    · rename_i hphase
      simp only [Option.ite_none_right_eq_some, Option.some.injEq] at h
      obtain ⟨-, rfl⟩ := h
      refine timed_of_schedule ?_ (not_fails_of_idle (by rw [hphase]; rfl))
      unfold Reconciler.requestPeriodic
      split <;> rfl
    · cases h
  | checkNodes =>
    simp only [step, cycleStep] at h
    split at h
    · rename_i now hphase
      split at h
      all_goals
        cases h
        exact timed_of_schedule rfl (not_fails_of_idle (by rw [hphase]; rfl))
    · cases h
  | nodesListed listed visit timestamp =>
    simp only [step, cycleStep] at h
    split at h
    · rename_i now hphase
      simp only [Option.ite_none_right_eq_some, Option.some.injEq] at h
      obtain ⟨-, rfl⟩ := h
      exact .inl ⟨keepsTiming_nodesListed wired rfl, not_fails_of_idle (by rw [hphase]; rfl)⟩
    · cases h
  | checkResync passStart =>
    simp only [step, cycleStep] at h
    split at h
    · rename_i now hphase
      simp only [Option.ite_none_right_eq_some] at h
      obtain ⟨-, h⟩ := h
      split at h
      all_goals
        cases h
        exact timed_of_schedule rfl (not_fails_of_idle (by rw [hphase]; rfl))
    · cases h
  | servicesListed listed =>
    simp only [step, cycleStep] at h
    split at h
    · rename_i pass hphase
      split at h
      · cases h
        refine timed_of_schedule rfl ?_
        rintro ⟨⟨-, hnone⟩, -⟩
        cases hnone
      · cases h
        refine .inr (.inl ⟨⟨rfl, rfl⟩, .inl ⟨⟨by rw [hphase]; rfl, rfl⟩, ?_, by simp⟩⟩)
        rintro ⟨_, _, _, _, _, _, -, haction, -⟩
        cases haction
    · cases h
  | resyncNodesListed listed visit ids fault timestamp =>
    cases hphase : w.phase with
    | resyncNodesListing pass services => exact timed_resyncNodesListed wired hphase h
    | _ =>
      simp only [step, cycleStep, hphase] at h
      cases h
  | takeDueKeys =>
    simp only [step, cycleStep] at h
    split at h
    · rename_i now hphase
      cases h
      exact timed_of_schedule rfl (not_fails_of_idle (by rw [hphase]; rfl))
    · cases h
  | startInspect =>
    simp only [step, cycleStep] at h
    split at h
    · rename_i key keys hphase
      simp only [Option.ite_none_right_eq_some, Option.some.injEq] at h
      obtain ⟨-, rfl⟩ := h
      exact timed_of_schedule rfl (not_fails_of_idle (by rw [hphase]; rfl))
    · cases h
  | inspected result timestamp =>
    cases hphase : w.phase with
    | inspecting key keys => exact timed_inspected wired hphase h
    | _ =>
      simp only [step, cycleStep, hphase] at h
      cases h
  | endCycle =>
    simp only [step, cycleStep] at h
    split at h
    · rename_i keys hphase
      simp only [Option.ite_none_right_eq_some, Option.some.injEq] at h
      obtain ⟨-, rfl⟩ := h
      exact timed_of_schedule rfl (not_fails_of_idle (by rw [hphase]; rfl))
    · cases h
  | stepPanics timestamp =>
    simp only [step, cycleStep, Option.ite_none_right_eq_some] at h
    obtain ⟨-, h⟩ := h
    split at h
    · rename_i now hphase
      cases h
      exact timed_panicked (by rw [hphase]; rfl) _ timestamp
    · rename_i pass hphase
      cases h
      exact timed_resync_panicked (by rw [hphase]; rfl) _ timestamp
    · rename_i pass services hphase
      cases h
      exact timed_resync_panicked (by rw [hphase]; rfl) _ timestamp
    · rename_i key keys hphase
      cases h
      exact timed_panicked (by rw [hphase]; rfl) _ timestamp
    · cases h
  | stepCancelled =>
    simp only [step, cycleStep, Option.ite_none_right_eq_some] at h
    obtain ⟨-, h⟩ := h
    refine timed_of_schedule ?_ fun hfails => hfails.2.2 rfl
    split at h
    all_goals
      cases h
      try rfl
  | _ => exact absurd rfl hcycle

end

end World

end SwarmExporter
