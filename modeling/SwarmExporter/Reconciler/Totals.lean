import SwarmExporter.Reconciler.DirtySet
import SwarmExporter.Reconciler.Judging
import SwarmExporter.Reconciler.RateLimit

/-!
# The reconciler's counters

The counters a dashboard reads, against the run. A resync that started is counted once, as a success or as a
failure, unless the shutdown cut it short; a success is a rise of the requests served. A poll counts one
rejection for each service of its snapshot that is still cached and gets no counter. An event without an
actor is counted and does nothing else.
-/

namespace SwarmExporter

open Lib
open Docker (CallError Event Node Service)

/-- The counters, and whether a resync completed. -/
structure Totals where
  successes : Nat
  failures : Nat
  rejections : Nat
  dropped : Nat
  ready : Bool

namespace Reconciler

def totals (r : Reconciler) : Totals :=
  ⟨r.metrics.resyncSuccesses, r.metrics.resyncFailures, r.metrics.pollRejections,
    r.metrics.eventsDropped, r.ready⟩

theorem totals_eq {r r' : Reconciler} (hmetrics : r'.metrics = r.metrics) (hready : r'.ready = r.ready) :
    r'.totals = r.totals := by
  rw [totals, totals, hmetrics, hready]

/-- A panic of the resync counts as a failure, one of another step does not. -/
theorem totals_afterPanic (r : Reconciler) (resyncStep : Bool) (now : Instant) (timestamp : Timestamp) :
    (r.afterPanic resyncStep now timestamp).totals =
      { r.totals with failures := r.totals.failures + resyncStep.toNat } := by
  cases resyncStep <;> rfl

theorem totals_enqueueEvent (r : Reconciler) (event : Event) (now : Instant) (timestamp : Timestamp) :
    (r.enqueueEvent event now timestamp).totals =
      { r.totals with dropped := r.totals.dropped + event.actor.id.isEmpty.toNat } := by
  unfold enqueueEvent
  cases event.actor.id.isEmpty <;> rfl

section Writes

variable [HostText] {r r' : Reconciler} {op : Op} {ops : List Op}

/-- Writing to the caches counts nothing. -/
theorem perform_totals (h : perform r op = some r') (hplain : op.isPlain = true) :
    r'.totals = r.totals := by
  cases op with
  | applyNodes nodes visit =>
    simp only [perform, Option.ite_none_right_eq_some, Option.some.injEq] at h
    obtain ⟨-, rfl⟩ := h
    obtain ⟨-, hready, hmetrics, -⟩ := withNodes_frame r nodes visit
    exact totals_eq hmetrics hready
  | applyService service =>
    simp only [perform] at h
    split at h
    · rename_i metadata _
      cases h
      obtain ⟨hready, hmetrics, -⟩ := withService_frame r service r.nodes metadata
      exact totals_eq hmetrics hready
    · cases h
  | removeService id =>
    cases h
    obtain ⟨-, hready, hmetrics, -⟩ := removeService_frame r id
    exact totals_eq hmetrics hready
  | pruneServiceGenerations =>
    cases h
    rfl
  | setNodesDirty dirty =>
    cases h
    rfl
  | _ => cases hplain

theorem performs_totals (h : Performs r ops r') (hops : ∀ op ∈ ops, op.isPlain = true) :
    r'.totals = r.totals :=
  h.induct (fun current => current.totals = r.totals) rfl fun op hop _ _ hcurrent hperform =>
    (perform_totals hperform (hops op hop)).trans hcurrent

/-! ## Rejections -/

/-- The services a poll with these counts rejects. -/
def rejected (r : Reconciler) (snapshot : PollSnapshot) (counters : ServiceCounter) : List String :=
  snapshot.serviceIds.filter (r.rejects (r.state.currentPollVerdict snapshot) snapshot counters)

variable {verdict : PollVerdict} {snapshot : PollSnapshot} {counters : ServiceCounter} {now : Instant}
  {timestamp : Timestamp} {done : List String} {judging : Judging}

/-- A service is counted exactly when it is rejected. -/
theorem totals_judgeService (h : Judged r verdict snapshot counters now timestamp done judging)
    (id : String) :
    (judgeService verdict snapshot counters now timestamp judging id).reconciler.totals =
      { judging.reconciler.totals with
        rejections := judging.reconciler.totals.rejections +
          (r.rejects verdict snapshot counters id).toNat } := by
  cases hservice : snapshot.services[id]? with
  | none =>
    have hrejects : r.rejects verdict snapshot counters id = false := by
      simp [rejects, notMem_iff_getElem?.2 hservice]
    simp only [judgeService, hservice, hrejects]
    rfl
  | some service =>
    have hsnapshot : id ∈ snapshot.services := mem_iff_getElem?.2 ⟨service, hservice⟩
    cases hcached : r.metadata[id]? with
    | none =>
      have hrejects : r.rejects verdict snapshot counters id = false := by
        simp [rejects, notMem_iff_getElem?.2 hcached]
      simp only [judgeService, hservice, h.metadata, hcached, hrejects]
      rfl
    | some metadata =>
      have hmetadata : id ∈ r.metadata := mem_iff_getElem?.2 ⟨metadata, hcached⟩
      have hrejects : r.rejects verdict snapshot counters id =
          (acceptedCounter verdict snapshot counters id).isNone := by
        simp [rejects, hsnapshot, hmetadata]
      rw [hrejects]
      cases haccepts : verdict.accepts snapshot id service with
      | true =>
        have haccepted : acceptedCounter verdict snapshot counters id = counters[id]? := by
          simp only [acceptedCounter, hservice, haccepts, if_pos]
        cases hcounter : counters[id]? with
        | some counter =>
          simp only [judgeService, hservice, h.metadata, hcached, haccepts, haccepted, hcounter]
          rfl
        | none =>
          simp only [judgeService, hservice, h.metadata, hcached, haccepts, haccepted, hcounter]
          repeat' split
          all_goals rfl
      | false =>
        have haccepted : acceptedCounter verdict snapshot counters id = none := by
          simp only [acceptedCounter, hservice, haccepts]
          rfl
        cases hcounter : counters[id]? with
        | some counter =>
          simp only [judgeService, hservice, h.metadata, hcached, haccepts, haccepted, hcounter]
          repeat' split
          all_goals rfl
        | none =>
          simp only [judgeService, hservice, h.metadata, hcached, haccepts, haccepted, hcounter]
          repeat' split
          all_goals rfl

theorem totals_judgeServices (r : Reconciler) (snapshot : PollSnapshot) (counters : ServiceCounter)
    (now : Instant) (timestamp : Timestamp) :
    (r.judgeServices snapshot counters now timestamp).reconciler.totals =
      { r.totals with rejections := r.totals.rejections + (r.rejected snapshot counters).length } := by
  have hfold : ∀ (ids done : List String) (judging : Judging),
      Judged r (r.state.currentPollVerdict snapshot) snapshot counters now timestamp done judging →
      (ids.foldl (judgeService (r.state.currentPollVerdict snapshot) snapshot counters now timestamp)
        judging).reconciler.totals =
        { judging.reconciler.totals with
          rejections := judging.reconciler.totals.rejections +
            (ids.filter (r.rejects (r.state.currentPollVerdict snapshot) snapshot counters)).length } := by
    intro ids
    induction ids with
    | nil => exact fun _ _ _ => rfl
    | cons id ids ih =>
      intro done judging hjudged
      rw [List.foldl_cons, ih _ _ (judgeService_judged hjudged id), totals_judgeService hjudged]
      cases hrejects : r.rejects (r.state.currentPollVerdict snapshot) snapshot counters id with
      | false => rw [List.filter_cons_of_neg (by simp [hrejects])]; rfl
      | true =>
        rw [List.filter_cons_of_pos hrejects, List.length_cons, Nat.add_comm _ 1]
        simp only [Bool.toNat_true, Nat.add_assoc]
  exact hfold snapshot.serviceIds [] { reconciler := r }
    ⟨rfl, rfl, rfl, by simp, by simp, rfl, [], .nil, rfl⟩

theorem totals_applyPollCounts (r : Reconciler) (snapshot : PollSnapshot) (counters : ServiceCounter)
    (now : Instant) (timestamp : Timestamp) (visit : List String) :
    (r.applyPollCounts snapshot counters now timestamp visit).1.totals =
      { r.totals with rejections := r.totals.rejections + (r.rejected snapshot counters).length } := by
  rw [← totals_judgeServices r snapshot counters now timestamp, applyPollCounts]
  simp only
  repeat' split
  all_goals rfl

end Writes

end Reconciler

namespace World

/-! ## What a step counts -/

/-- The step ends a resync because of the cancellation. -/
def givesUp (st : Step World Action) : Bool :=
  match st.act with
  | .stepCancelled => st.pre.phase.pass?.isSome && st.post.phase.pass?.isNone
  | _ => false

/-- The step raises the requests served. -/
def servesRequests (st : Step World Action) : Bool :=
  decide (st.pre.reconciler.state.resyncCompleted < st.post.reconciler.state.resyncCompleted)

/-- The step brings an event without an actor. -/
def dropsEvent (st : Step World Action) : Bool :=
  match st.act with
  | .enqueueEvent event _ _ => event.actor.id.isEmpty
  | _ => false

/-- The services the step rejects. -/
def rejectedIn (st : Step World Action) : List String :=
  match st.act with
  | .applyPollCounts snapshot counters _ _ => st.pre.reconciler.rejected snapshot counters
  | _ => []

/-- The rejections of a trace, in order. -/
def allRejected (trace : List (Step World Action)) : List String := trace.flatMap rejectedIn

section

variable {w w' : World} {action : Action}

/-- The step counts events and rejections, and ends no resync unless it gives it up. -/
def KeepsResyncs (w : World) (action : Action) (w' : World) : Prop :=
  w'.reconciler.totals =
      { w.reconciler.totals with
        rejections := w.reconciler.totals.rejections + (rejectedIn ⟨w, action, w'⟩).length
        dropped := w.reconciler.totals.dropped + (dropsEvent ⟨w, action, w'⟩).toNat } ∧
    (EndsAttempt ⟨w, action, w'⟩ ↔ givesUp ⟨w, action, w'⟩ = true)

/-- The step ends a resync and counts it as a failure. -/
def CountsFailure (w : World) (action : Action) (w' : World) : Prop :=
  w'.reconciler.totals = { w.reconciler.totals with failures := w.reconciler.totals.failures + 1 } ∧
    EndsAttempt ⟨w, action, w'⟩ ∧ givesUp ⟨w, action, w'⟩ = false ∧
    servesRequests ⟨w, action, w'⟩ = false

/-- The step completes a resync and counts it as a success. -/
def CountsSuccess [HostText] (w : World) (action : Action) (w' : World) : Prop :=
  w'.reconciler.totals =
      { w.reconciler.totals with successes := w.reconciler.totals.successes + 1, ready := true } ∧
    EndsAttempt ⟨w, action, w'⟩ ∧ w.Completes action w'

/-- What a step counts. -/
def Totalled [HostText] (w : World) (action : Action) (w' : World) : Prop :=
  KeepsResyncs w action w' ∨ CountsFailure w action w' ∨ CountsSuccess w action w'

/-- A step that counts nothing and leaves the resyncs where they are. -/
theorem keepsResyncs_of_totals (hevent : dropsEvent ⟨w, action, w'⟩ = false)
    (hrejected : rejectedIn ⟨w, action, w'⟩ = []) (hcancelled : action ≠ .stepCancelled)
    (hends : ¬EndsAttempt ⟨w, action, w'⟩) (htotals : w'.reconciler.totals = w.reconciler.totals) :
    KeepsResyncs w action w' := by
  refine ⟨?_, fun h => absurd h hends, fun h => ?_⟩
  · rw [htotals, hevent, hrejected]
    rfl
  · cases action with
    | stepCancelled => exact absurd rfl hcancelled
    | _ => cases h

theorem not_endsAttempt_of_idle (h : w.phase.pass? = none) : ¬EndsAttempt ⟨w, action, w'⟩ := by
  rintro ⟨hpass, -⟩
  simp [h] at hpass

theorem not_endsAttempt_of_phase (h : w'.phase = w.phase) : ¬EndsAttempt ⟨w, action, w'⟩ := by
  rintro ⟨hpass, hnone⟩
  simp only [h] at hnone
  simp [hnone] at hpass

variable [HostText]

/-- What the other tasks count. -/
theorem totalled_of_other (h : w.step action = some w') (hcycle : action.isCycle = false) :
    Totalled w action w' := by
  have hends : ¬EndsAttempt ⟨w, action, w'⟩ := not_endsAttempt_of_phase (step_phase h hcycle)
  cases action with
  | tick =>
    simp only [step, Option.ite_none_right_eq_some, Option.some.injEq] at h
    obtain ⟨-, rfl⟩ := h
    exact .inl (keepsResyncs_of_totals rfl rfl (by simp) hends rfl)
  | cancel =>
    cases h
    exact .inl (keepsResyncs_of_totals rfl rfl (by simp) hends rfl)
  | enqueueEvent event now timestamp =>
    simp only [step, Option.ite_none_right_eq_some, Option.some.injEq] at h
    obtain ⟨-, rfl⟩ := h
    exact .inl ⟨Reconciler.totals_enqueueEvent _ _ _ _, fun h => absurd h hends, fun h => by cases h⟩
  | requestResync =>
    simp only [step, Option.ite_none_right_eq_some, Option.some.injEq] at h
    obtain ⟨-, rfl⟩ := h
    exact .inl (keepsResyncs_of_totals rfl rfl (by simp) hends rfl)
  | buildPollSnapshot =>
    simp only [step, Option.ite_none_right_eq_some, Option.some.injEq] at h
    obtain ⟨-, rfl⟩ := h
    exact .inl (keepsResyncs_of_totals rfl rfl (by simp) hends rfl)
  | applyPollCounts snapshot counters timestamp visit =>
    simp only [step, Option.ite_none_right_eq_some, Option.some.injEq] at h
    obtain ⟨-, rfl⟩ := h
    exact .inl ⟨Reconciler.totals_applyPollCounts _ _ _ _ _ _, fun h => absurd h hends,
      fun h => by cases h⟩
  | markPollOk =>
    simp only [step, Option.ite_none_right_eq_some, Option.some.injEq] at h
    obtain ⟨-, rfl⟩ := h
    exact .inl (keepsResyncs_of_totals rfl rfl (by simp) hends rfl)
  | _ => cases hcycle

/-- The answer to the node list of a resync is counted, as a success when the pass is over and as a
failure otherwise. -/
theorem totalled_resyncNodesListed (wired : w.reconciler.Wired) {pass : Pass} {services : List Service}
    (hphase : w.phase = .resyncNodesListing pass services) {listed : Except CallError (List Node)}
    {visit ids : List String} {fault : Option Nat} {timestamp : Timestamp}
    (h : w.step (.resyncNodesListed listed visit ids fault timestamp) = some w') :
    Totalled w (.resyncNodesListed listed visit ids fault timestamp) w' := by
  have hreads := step_reads h rfl
  simp only [step, cycleStep, hphase, Option.ite_none_right_eq_some, Option.some.injEq] at h
  obtain ⟨⟨hvisit, -⟩, rfl⟩ := h
  have hends : ∀ {w' : World}, w'.phase = .keysCheck pass.now →
      EndsAttempt ⟨w, .resyncNodesListed listed visit ids fault timestamp, w'⟩ := by
    intro w' hpost
    constructor
    · simp [hphase, Phase.pass?]
    · simp [hpost, Phase.pass?]
  cases listed with
  | error error => exact .inr (.inl ⟨rfl, hends rfl, rfl, decide_eq_false (lt_irrefl _)⟩)
  | ok nodes =>
    have hlists := Reconciler.applyLists_ops wired hvisit services nodes ids fault
    cases hrun : Reconciler.applyLists services nodes visit ids fault w.reconciler with
    | ok _ r =>
      rw [hrun] at hlists
      obtain ⟨rfl, hperforms⟩ := hlists
      have hwrite : Reconciler.resyncListed services (.ok nodes) visit ids none pass.target
          pass.passStart w.instant timestamp w.reconciler =
          .ok () (r.completeResync pass.target pass.passStart w.instant timestamp) := bind_ok hrun
      have htotals : r.totals = w.reconciler.totals :=
        Reconciler.performs_totals hperforms fun op hop => isPlain_of_mem_resyncOps hop
      have hfinish : Reconciler.Performs r
          [.completeResync pass.target pass.passStart w.instant timestamp]
          (r.completeResync pass.target pass.passStart w.instant timestamp) := .single rfl
      simp only [Reconciler.recovered, hwrite]
      refine .inr (.inr ⟨?_, hends rfl, ?_⟩)
      · rw [← htotals]
        rfl
      · refine completes_of_ops hphase rfl hreads (hperforms.append hfinish) ?_
        rw [essential_append, essential_eq_self fun op => Reconciler.isBookkeep_of_mem_resyncOps]
        rfl
    | error panic r =>
      rw [hrun] at hlists
      obtain ⟨done, hpre, hperforms⟩ := hlists
      have hwrite : Reconciler.resyncListed services (.ok nodes) visit ids fault pass.target
          pass.passStart w.instant timestamp w.reconciler = .error panic r := bind_error hrun
      have htotals : r.totals = w.reconciler.totals :=
        Reconciler.performs_totals hperforms fun op hop => isPlain_of_mem_resyncOps (hpre.subset hop)
      have hresyncs : r.state.resyncs = w.reconciler.state.resyncs :=
        Reconciler.performs_resyncs hperforms fun op hop =>
          Op.plain (isPlain_of_mem_resyncOps (hpre.subset (mem_of_mem_essential hop)))
      simp only [Reconciler.recovered, hwrite]
      refine .inr (.inl ⟨?_, hends rfl, rfl, ?_⟩)
      · rw [← htotals]
        rfl
      · refine decide_eq_false (Nat.not_lt_of_le (Nat.le_of_eq ?_))
        exact congrArg Resyncs.completed hresyncs

/-- **What a step counts.** -/
theorem step_totalled (wired : w.reconciler.Wired) (h : w.step action = some w') :
    Totalled w action w' := by
  by_cases hcycle : action.isCycle = false
  · exact totalled_of_other h hcycle
  have hkeeps : w.phase.pass? = none → dropsEvent ⟨w, action, w'⟩ = false →
      rejectedIn ⟨w, action, w'⟩ = [] → action ≠ .stepCancelled →
      w'.reconciler.totals = w.reconciler.totals → Totalled w action w' :=
    fun hpass hevent hrejected hcancelled htotals =>
      .inl (keepsResyncs_of_totals hevent hrejected hcancelled (not_endsAttempt_of_idle hpass) htotals)
  cases action with
  | beginCycle timestamp =>
    simp only [step, cycleStep] at h
    split at h
    · rename_i hphase
      simp only [Option.ite_none_right_eq_some, Option.some.injEq] at h
      obtain ⟨-, rfl⟩ := h
      refine hkeeps (by rw [hphase]; rfl) rfl rfl (by simp) ?_
      unfold Reconciler.requestPeriodic
      split <;> rfl
    · cases h
  | checkNodes =>
    simp only [step, cycleStep] at h
    split at h
    · rename_i now hphase
      split at h
      all_goals
        cases h
        exact hkeeps (by rw [hphase]; rfl) rfl rfl (by simp) rfl
    · cases h
  | nodesListed listed visit timestamp =>
    simp only [step, cycleStep] at h
    split at h
    · rename_i now hphase
      simp only [Option.ite_none_right_eq_some, Option.some.injEq] at h
      obtain ⟨-, rfl⟩ := h
      refine hkeeps (by rw [hphase]; rfl) rfl rfl (by simp) ?_
      cases listed with
      | error error => rfl
      | ok nodes =>
        let applied := w.reconciler.withNodes nodes visit
        have hwrite : Reconciler.nodesListed (.ok nodes) visit w.instant w.reconciler =
            .ok () { applied with nodesBackoff := applied.backoffInitial } :=
          bind_ok (Reconciler.applyNodes_ok wired nodes visit)
        obtain ⟨-, hready, hmetrics, -⟩ := Reconciler.withNodes_frame w.reconciler nodes visit
        simp only [Reconciler.recovered, hwrite]
        exact Reconciler.totals_eq hmetrics hready
    · cases h
  | checkResync passStart =>
    simp only [step, cycleStep] at h
    split at h
    · rename_i now hphase
      simp only [Option.ite_none_right_eq_some] at h
      obtain ⟨-, h⟩ := h
      split at h
      all_goals
        cases h
        exact hkeeps (by rw [hphase]; rfl) rfl rfl (by simp) rfl
    · cases h
  | servicesListed listed =>
    simp only [step, cycleStep] at h
    split at h
    · rename_i pass hphase
      split at h
      · cases h
        refine .inl (keepsResyncs_of_totals rfl rfl (by simp) ?_ rfl)
        rintro ⟨-, hnone⟩
        cases hnone
      · cases h
        exact .inr (.inl ⟨rfl, ⟨by rw [hphase]; rfl, rfl⟩, rfl, decide_eq_false (lt_irrefl _)⟩)
    · cases h
  | resyncNodesListed listed visit ids fault timestamp =>
    cases hphase : w.phase with
    | resyncNodesListing pass services => exact totalled_resyncNodesListed wired hphase h
    | _ =>
      simp only [step, cycleStep, hphase] at h
      cases h
  | takeDueKeys =>
    simp only [step, cycleStep] at h
    split at h
    · rename_i now hphase
      cases h
      exact hkeeps (by rw [hphase]; rfl) rfl rfl (by simp) rfl
    · cases h
  | startInspect =>
    simp only [step, cycleStep] at h
    split at h
    · rename_i key keys hphase
      simp only [Option.ite_none_right_eq_some, Option.some.injEq] at h
      obtain ⟨-, rfl⟩ := h
      exact hkeeps (by rw [hphase]; rfl) rfl rfl (by simp) rfl
    · cases h
  | inspected result timestamp =>
    cases hphase : w.phase with
    | inspecting key keys =>
      refine hkeeps (by rw [hphase]; rfl) rfl rfl (by simp) ?_
      obtain ⟨service, metadata, -, -, hpost⟩ | ⟨service, panic, -, -, hpost⟩ | ⟨error, -, -, hpost⟩ |
        ⟨error, -, -, hpost⟩ := inspected_cases wired hphase h
      · obtain ⟨hready, hmetrics, -⟩ :=
          Reconciler.withService_frame w.reconciler service w.reconciler.nodes metadata
        rw [hpost]
        exact Reconciler.totals_eq hmetrics hready
      · rw [hpost]
        exact Reconciler.totals_afterPanic _ false _ _
      · obtain ⟨-, hready, hmetrics, -⟩ := Reconciler.removeService_frame w.reconciler key.serviceId
        rw [hpost]
        exact Reconciler.totals_eq hmetrics hready
      · rw [hpost]
        rfl
    | _ =>
      simp only [step, cycleStep, hphase] at h
      cases h
  | endCycle =>
    simp only [step, cycleStep] at h
    split at h
    · rename_i keys hphase
      simp only [Option.ite_none_right_eq_some, Option.some.injEq] at h
      obtain ⟨-, rfl⟩ := h
      exact hkeeps (by rw [hphase]; rfl) rfl rfl (by simp) rfl
    · cases h
  | stepPanics timestamp =>
    simp only [step, cycleStep, Option.ite_none_right_eq_some] at h
    obtain ⟨-, h⟩ := h
    split at h
    · rename_i now hphase
      cases h
      exact hkeeps (by rw [hphase]; rfl) rfl rfl (by simp) (Reconciler.totals_afterPanic _ false _ _)
    · rename_i pass hphase
      cases h
      exact .inr (.inl ⟨Reconciler.totals_afterPanic _ true _ _, ⟨by rw [hphase]; rfl, rfl⟩, rfl,
        decide_eq_false (lt_irrefl _)⟩)
    · rename_i pass services hphase
      cases h
      exact .inr (.inl ⟨Reconciler.totals_afterPanic _ true _ _, ⟨by rw [hphase]; rfl, rfl⟩, rfl,
        decide_eq_false (lt_irrefl _)⟩)
    · rename_i key keys hphase
      cases h
      exact hkeeps (by rw [hphase]; rfl) rfl rfl (by simp) (Reconciler.totals_afterPanic _ false _ _)
    · cases h
  | stepCancelled =>
    have hends : EndsAttempt ⟨w, .stepCancelled, w'⟩ ↔ givesUp ⟨w, .stepCancelled, w'⟩ = true := by
      simp [EndsAttempt, givesUp]
    simp only [step, cycleStep, Option.ite_none_right_eq_some] at h
    obtain ⟨-, h⟩ := h
    refine .inl ⟨?_, hends⟩
    split at h
    all_goals
      cases h
      try rfl
  | _ => exact absurd rfl hcycle

/-! ## What a run counts -/

variable {config : Config} {trace : List (Step World Action)}

/-- The target of a pass in progress is not served yet. -/
theorem Runs.completed_lt_target (h : Runs config trace w) :
    ∀ pass, w.phase.pass? = some pass → w.reconciler.state.resyncCompleted < pass.target := by
  refine Run.history (fun _ w => ∀ pass, w.phase.pass? = some pass →
    w.reconciler.state.resyncCompleted < pass.target) (fun pass hpass => by cases hpass) ?_ h
  intro trace w action w' hrun hinv hstep pass hpass
  rcases step_pass hstep hpass with hbefore | ⟨rfl, htarget, hreconciler⟩
  · rcases step_resync (Runs.wired hrun) (Runs.counted hrun).counted hstep with ⟨hraises, -⟩ | hcompletes
    · rw [show w'.reconciler.state.resyncCompleted = w.reconciler.state.resyncCompleted from
        hraises.completed]
      exact hinv pass hbefore
    · -- The pass that completes is not in progress any more.
      obtain ⟨_, _, _, _, _, _, hphase, rfl, -⟩ := hcompletes
      simp only [step, cycleStep, hphase, Option.ite_none_right_eq_some, Option.some.injEq] at hstep
      obtain ⟨-, rfl⟩ := hstep
      cases hpass
  · have hmoves := step_moves hstep rfl
    generalize hpre : w.phase = phase at hmoves
    generalize hpost : w'.phase = phase' at hmoves hpass
    cases hmoves with
    | starts hdue _ =>
      simp only [Reconciler.resyncDue, Bool.and_eq_true, decide_eq_true_eq] at hdue
      rw [hreconciler, htarget]
      exact hdue.1
    | skipsResync => cases hpass
    | ends _ => cases hpass
    | refreshes _ => cases hpass
    | answers _ => cases hpass

/-- A resync that completes serves the requests up to its target. -/
theorem CountsSuccess.serves (h : Runs config trace w) (hcounts : CountsSuccess w action w') :
    servesRequests ⟨w, action, w'⟩ = true := by
  obtain ⟨-, -, pass, _, _, _, _, _, hphase, -, -, -, hresyncs, -⟩ := hcounts
  have hlt := h.completed_lt_target pass (by rw [hphase]; rfl)
  simp only [State.resyncs, State.completeResync, Resyncs.mk.injEq] at hresyncs
  rw [servesRequests, decide_eq_true_eq, hresyncs.2.1]
  exact lt_max_of_lt_right hlt

/-- Without a resync that ends, no request is served. -/
theorem KeepsResyncs.serves (h : Runs config trace w) (hstep : w.step action = some w')
    (hkeeps : KeepsResyncs w action w') : servesRequests ⟨w, action, w'⟩ = false := by
  rcases step_resync (Runs.wired h) (Runs.counted h).counted hstep with ⟨hraises, -⟩ | hcompletes
  · exact decide_eq_false (Nat.not_lt_of_le (Nat.le_of_eq hraises.completed))
  · obtain ⟨_, _, _, _, _, _, hphase, rfl, -⟩ := hcompletes
    simp only [step, cycleStep, hphase, Option.ite_none_right_eq_some, Option.some.injEq] at hstep
    obtain ⟨-, rfl⟩ := hstep
    have hgives := hkeeps.2.1 ⟨by rw [hphase]; rfl, rfl⟩
    cases hgives

/-- What the counters say of the trace. -/
structure Counts (trace : List (Step World Action)) (w : World) : Prop where
  attempts : attempts trace = w.reconciler.totals.successes + w.reconciler.totals.failures +
    trace.countP givesUp + w.phase.pass?.isSome.toNat
  successes : w.reconciler.totals.successes = trace.countP servesRequests
  ready : w.reconciler.totals.ready = true ↔ 0 < w.reconciler.totals.successes
  rejections : w.reconciler.totals.rejections = (allRejected trace).length
  dropped : w.reconciler.totals.dropped = trace.countP dropsEvent

omit [HostText] in
theorem pass_of_ends {st : Step World Action} (h : EndsAttempt st) :
    st.pre.phase.pass?.isSome.toNat = 1 ∧ st.post.phase.pass?.isSome.toNat = 0 ∧
      startsAttempt st = false := by
  obtain ⟨hpre, hpost⟩ := h
  rw [hpre, hpost]
  refine ⟨rfl, rfl, ?_⟩
  rw [startsAttempt, hpost]
  exact Bool.and_false _

omit [HostText] in
theorem pass_of_not_ends {st : Step World Action} (h : ¬EndsAttempt st) :
    st.post.phase.pass?.isSome.toNat =
      st.pre.phase.pass?.isSome.toNat + if startsAttempt st then 1 else 0 := by
  unfold EndsAttempt at h
  unfold startsAttempt
  cases hpre : st.pre.phase.pass? <;> cases hpost : st.post.phase.pass? <;> simp_all

/-- A step that ends a resync rejects no service and drops no event. -/
theorem counts_only_of_ends (hstep : w.step action = some w') (hends : EndsAttempt ⟨w, action, w'⟩) :
    rejectedIn ⟨w, action, w'⟩ = [] ∧ dropsEvent ⟨w, action, w'⟩ = false := by
  cases action with
  | enqueueEvent => exact absurd hends (not_endsAttempt_of_phase (step_phase hstep rfl))
  | applyPollCounts => exact absurd hends (not_endsAttempt_of_phase (step_phase hstep rfl))
  | _ => exact ⟨rfl, rfl⟩

/-- **What a step counts is what it did.** -/
theorem Counts.snoc (hrun : Runs config trace w) (h : Counts trace w) (hstep : w.step action = some w') :
    Counts (trace ++ [⟨w, action, w'⟩]) w' := by
  obtain ⟨hattempts, hsuccesses, hready, hrejections, hdropped⟩ := h
  have hrejected : allRejected (trace ++ [⟨w, action, w'⟩]) =
      allRejected trace ++ rejectedIn ⟨w, action, w'⟩ := by
    simp [allRejected]
  have hcount : ∀ p : Step World Action → Bool, List.countP p (trace ++ [⟨w, action, w'⟩]) =
      trace.countP p + (p ⟨w, action, w'⟩).toNat := by
    intro p
    rw [List.countP_append, List.countP_singleton]
    cases p ⟨w, action, w'⟩ <;> rfl
  rcases step_totalled (Runs.wired hrun) hstep with hkeeps | hfails | hsucceeds
  · have hserves := hkeeps.serves hrun hstep
    obtain ⟨htotals, hends⟩ := hkeeps
    refine ⟨?_, ?_, ?_, ?_, ?_⟩
    · rw [attempts_concat, hattempts, hcount, htotals]
      by_cases hended : EndsAttempt ⟨w, action, w'⟩
      · obtain ⟨hpre, hpost, hstarts⟩ := pass_of_ends hended
        simp only at hpre hpost
        rw [hends.1 hended, hpre, hpost, hstarts, Bool.toNat_true]
        rfl
      · have hpost := pass_of_not_ends hended
        simp only at hpost
        rw [Bool.eq_false_of_not_eq_true (mt hends.2 hended), hpost, Bool.toNat_false]
        show _ = w.reconciler.totals.successes + w.reconciler.totals.failures + _ + _
        omega
    · rw [hcount, hserves, htotals]
      exact hsuccesses
    · rw [htotals]
      exact hready
    · rw [hrejected, List.length_append, htotals, ← hrejections]
    · rw [hcount, htotals, ← hdropped]
  · obtain ⟨htotals, hended, hgives, hserves⟩ := hfails
    obtain ⟨hpre, hpost, hstarts⟩ := pass_of_ends hended
    obtain ⟨hnone, hdrops⟩ := counts_only_of_ends hstep hended
    simp only at hpre hpost
    refine ⟨?_, ?_, ?_, ?_, ?_⟩
    · rw [attempts_concat, hattempts, hcount, htotals, hstarts, hgives, hpre, hpost, Bool.toNat_false,
        if_neg Bool.false_ne_true]
      show _ = w.reconciler.totals.successes + (w.reconciler.totals.failures + 1) + _ + 0
      omega
    · rw [hcount, hserves, htotals]
      exact hsuccesses
    · rw [htotals]
      exact hready
    · rw [hrejected, hnone, List.append_nil, htotals]
      exact hrejections
    · rw [hcount, hdrops, htotals]
      exact hdropped
  · have hserves := hsucceeds.serves hrun
    obtain ⟨htotals, hended, hcompletes⟩ := hsucceeds
    obtain ⟨hpre, hpost, hstarts⟩ := pass_of_ends hended
    obtain ⟨hnone, hdrops⟩ := counts_only_of_ends hstep hended
    have hgives : givesUp ⟨w, action, w'⟩ = false := by
      obtain ⟨_, _, _, _, _, _, -, rfl, -⟩ := hcompletes
      rfl
    simp only at hpre hpost
    refine ⟨?_, ?_, ?_, ?_, ?_⟩
    · rw [attempts_concat, hattempts, hcount, htotals, hstarts, hgives, hpre, hpost, Bool.toNat_false,
        if_neg Bool.false_ne_true]
      show _ = w.reconciler.totals.successes + 1 + w.reconciler.totals.failures + _ + 0
      omega
    · rw [hcount, hserves, htotals, Bool.toNat_true, ← hsuccesses]
    · rw [htotals]
      simp
    · rw [hrejected, hnone, List.append_nil, htotals]
      exact hrejections
    · rw [hcount, hdrops, htotals]
      exact hdropped

/-- **The counters account for the run.** In every run each resync that started was counted once, as a
success or as a failure, or was given up on cancellation, or is in progress; a success is a step that
served requests, and the exporter is ready from the first on; each rejection counted is a service that an
applied poll gave no counter although it is cached; and each event dropped is one without an actor. -/
theorem counters_account (h : Runs config trace w) :
    attempts trace = w.reconciler.metrics.resyncSuccesses + w.reconciler.metrics.resyncFailures +
      trace.countP givesUp + w.phase.pass?.isSome.toNat ∧
    w.reconciler.metrics.resyncSuccesses = trace.countP servesRequests ∧
    (w.reconciler.ready = true ↔ 0 < w.reconciler.metrics.resyncSuccesses) ∧
    w.reconciler.metrics.pollRejections = (allRejected trace).length ∧
    w.reconciler.metrics.eventsDropped = trace.countP dropsEvent := by
  have hcounts : Counts trace w := by
    refine Run.history Counts ⟨rfl, rfl, ?_, rfl, rfl⟩ ?_ h
    · constructor
      · intro hready
        cases hready
      · intro hpos
        exact absurd hpos (Nat.lt_irrefl 0)
    · intro trace w action w' hrun hcounts hstep
      exact hcounts.snoc hrun hstep
  exact ⟨hcounts.attempts, hcounts.successes, hcounts.ready, hcounts.rejections, hcounts.dropped⟩

end

end World

namespace Sample

/-- A resync that fails, an event without an actor, and the resync that follows. -/
def retriedResync : List Action :=
  resyncStart ++ [listFails, .takeDueKeys, .endCycle, .enqueueEvent { kind := "service" } 0 1000,
    .tick 1000 (Duration.fromMillis 500)] ++ resyncCycle [replicated "web" "web" 2] [] ["web"]

/-- The service changes between the snapshot of a poll and its verdict. -/
def rejectedPoll : List Action :=
  [.buildPollSnapshot, .enqueueEvent (changed "web") 0 1000,
    .applyPollCounts (snapshotAfter retriedResync) (noTasks (snapshotAfter retriedResync)) 1000 []]

end Sample

open Sample in
theorem World.counters_account_sample : ∃ trace w, Runs config trace w ∧ attempts trace = 2 ∧
    w.reconciler.metrics.resyncSuccesses + w.reconciler.metrics.resyncFailures = 2 ∧
    w.reconciler.ready = true ∧ (allRejected trace).length = 1 ∧ trace.countP dropsEvent = 1 := by
  have hreplay : (replay World.step (init config) (retriedResync ++ rejectedPoll)).any (fun result =>
      decide (attempts result.1 = 2 ∧ result.1.countP givesUp = 0 ∧ result.2.phase = .idle) &&
        decide (result.2.reconciler.metrics.resyncSuccesses = 1) &&
        decide (result.2.reconciler.metrics.pollRejections = 1) &&
        decide (result.2.reconciler.metrics.eventsDropped = 1)) = true := by
    decide +kernel
  obtain ⟨trace, w, hrun, -, hcheck⟩ := exists_run_of_replay hreplay
  simp only [Bool.and_eq_true, decide_eq_true_eq] at hcheck
  obtain ⟨⟨⟨⟨hattempts, hgives, hidle⟩, hone⟩, hrejected⟩, hdropped⟩ := hcheck
  obtain ⟨htotal, -, hready, hrejections, hevents⟩ := counters_account hrun
  rw [hattempts, hgives, hidle] at htotal
  exact ⟨trace, w, hrun, hattempts, htotal.symm, hready.2 (by omega), hrejections ▸ hrejected,
    hevents ▸ hdropped⟩

end SwarmExporter
