import SwarmExporter.Reconciler.Steps

/-!
# The polls of a run

A snapshot in use was handed out by `buildPollSnapshot` earlier in the run, so its label sets are
those of services that were cached then. The counters `pollReplicasState` returns for it carry them,
and a counter that is carried over carries the labels of a service cached now: the families of a poll
always build (`builds_of_labelledBy`).
-/

namespace SwarmExporter

open Lib
open Docker (CallError Task)

/-! ## The labels of counters -/

/-- Each counter has the label set of its service in `snapshot`. -/
def LabelledBy (snapshot : PollSnapshot) (counters : ServiceCounter) : Prop :=
  ∀ (id : String) (counter : TaskCounter), counters[id]? = some counter →
    ∃ service, snapshot.services[id]? = some service ∧ counter.labels = service.labels

namespace LabelledBy

variable {snapshot : PollSnapshot} {counters : ServiceCounter} {id : String}

theorem insert (h : LabelledBy snapshot counters) {service : PollService} {counter : TaskCounter}
    (hservice : snapshot.services[id]? = some service) (hlabels : counter.labels = service.labels) :
    LabelledBy snapshot (counters.insert id counter) := by
  intro other found hfound
  rw [Std.ExtTreeMap.getElem?_insert] at hfound
  split at hfound
  · rename_i heq
    obtain rfl := Std.LawfulEqCmp.compare_eq_iff_eq.1 heq
    cases hfound
    exact ⟨service, hservice, hlabels⟩
  · exact h other found hfound

theorem getD (h : LabelledBy snapshot counters) {service : PollService}
    (hservice : snapshot.services[id]? = some service) :
    (counters.getD id (.forService service)).labels = service.labels := by
  rw [Std.ExtTreeMap.getD_eq_getD_getElem?]
  cases hcounter : counters[id]? with
  | none => rfl
  | some counter =>
    obtain ⟨found, hfound, hlabels⟩ := h id counter hcounter
    rw [hservice] at hfound
    cases hfound
    exact hlabels

end LabelledBy

theorem countWanted_labels (counter : TaskCounter) (task : Task) :
    (countWanted counter task).labels = counter.labels := by
  unfold countWanted
  split
  · rfl
  · split <;> rfl

theorem countTask_labelledBy {snapshot : PollSnapshot} (latest : Map LatestKey Task) {counts : Counts}
    (h : LabelledBy snapshot counts.counters) (key : LatestKey) :
    LabelledBy snapshot (countTask snapshot latest counts key).counters := by
  unfold countTask
  split
  · rename_i task service _ hservice
    exact h.insert hservice ((countWanted_labels _ _).trans (h.getD hservice))
  · exact h

theorem foldl_countTask_labelledBy {snapshot : PollSnapshot} (latest : Map LatestKey Task)
    (visit : List LatestKey) {counts : Counts} (h : LabelledBy snapshot counts.counters) :
    LabelledBy snapshot (visit.foldl (countTask snapshot latest) counts).counters := by
  induction visit generalizing counts with
  | nil => exact h
  | cons key visit ih => exact ih (countTask_labelledBy latest h key)

theorem addServicesWithoutTasks_labelledBy {snapshot : PollSnapshot} (ids : List String)
    {counters : ServiceCounter} (h : LabelledBy snapshot counters) :
    LabelledBy snapshot (addServicesWithoutTasks counters ids snapshot) := by
  unfold addServicesWithoutTasks
  induction ids generalizing counters with
  | nil => exact h
  | cons id ids ih =>
    rw [List.foldl_cons]
    apply ih
    split
    · exact h
    · split
      · rename_i service hservice
        exact h.insert hservice rfl
      · exact h

/-- **The counters of a task list carry the labels of the snapshot's services.** -/
theorem pollReplicasState_labelledBy [HostText] {snapshot : PollSnapshot}
    {listed : Except CallError (List Task)} {visit : List LatestKey} {counters : ServiceCounter}
    (h : pollReplicasState snapshot listed visit = .ok counters) : LabelledBy snapshot counters := by
  unfold pollReplicasState at h
  split at h
  · cases h
    intro id counter hcounter
    simp at hcounter
  · split at h
    · cases h
    · rename_i tasks
      cases h
      apply addServicesWithoutTasks_labelledBy
      have hcounts : LabelledBy snapshot
          (visit.foldl (countTask snapshot (latestTasks snapshot tasks)) {}).counters :=
        foldl_countTask_labelledBy _ _ fun id counter hcounter => by simp at hcounter
      intro id counter hcounter
      unfold markEligibleNodesCovered at hcounter
      rw [Std.ExtTreeMap.getElem?_map] at hcounter
      obtain ⟨counted, hcounted, rfl⟩ := Option.map_eq_some_iff.1 hcounter
      obtain ⟨service, hservice, hlabels⟩ := hcounts id counted hcounted
      refine ⟨service, hservice, ?_⟩
      split <;> exact hlabels

/-! ## The snapshots of a run -/

theorem Reconciler.getElem?_buildPollSnapshot (r : Reconciler) (id : String) :
    r.buildPollSnapshot.services[id]? =
      r.metadata[id]?.map fun metadata => .new (r.state.generationOf id) metadata := by
  unfold buildPollSnapshot
  rw [Std.ExtTreeMap.getElem?_map]

theorem Reconciler.buildPollSnapshot_labelled {r : Reconciler} (wired : r.Wired) :
    r.buildPollSnapshot.Labelled r.customLabels := by
  intro id service hservice
  rw [getElem?_buildPollSnapshot] at hservice
  obtain ⟨metadata, hmetadata, rfl⟩ := Option.map_eq_some_iff.1 hservice
  exact ⟨rfl, wired.labelled id metadata hmetadata⟩

namespace World

variable [HostText] {config : Config} {trace : List (Step World Action)} {w w' : World}
  {action : Action}

theorem step_snapshots (h : w.step action = some w') {snapshot : PollSnapshot}
    (hmem : snapshot ∈ w'.snapshots) :
    snapshot ∈ w.snapshots ∨
      action = .buildPollSnapshot ∧ snapshot = w.reconciler.buildPollSnapshot := by
  by_cases hcycle : action.isCycle = true
  · obtain ⟨reconciler, phase, rfl⟩ := step_frame h hcycle
    exact .inl hmem
  · cases action with
    | cancel =>
      cases h
      exact .inl hmem
    | buildPollSnapshot =>
      simp only [step, Option.ite_none_right_eq_some, Option.some.injEq] at h
      obtain ⟨-, rfl⟩ := h
      rcases List.mem_cons.1 hmem with rfl | hmem
      · exact .inr ⟨rfl, rfl⟩
      · exact .inl hmem
    | tick | enqueueEvent | requestResync | applyPollCounts | markPollOk =>
      simp only [step, Option.ite_none_right_eq_some, Option.some.injEq] at h
      obtain ⟨-, rfl⟩ := h
      exact .inl hmem
    | _ => exact absurd rfl hcycle

theorem Runs.snapshots_labelled (h : Runs config trace w) :
    ∀ snapshot ∈ w.snapshots, snapshot.Labelled config.custom := by
  refine Run.history (fun _ w => ∀ snapshot ∈ w.snapshots, snapshot.Labelled config.custom)
    (by simp [init]) ?_ h
  intro trace w action w' hrun hinv hstep snapshot hmem
  rcases step_snapshots hstep hmem with hold | ⟨-, rfl⟩
  · exact hinv snapshot hold
  · rw [← Runs.customLabels hrun]
    exact Reconciler.buildPollSnapshot_labelled (Runs.wired hrun)

end World

/-! ## A poll that is applied -/

namespace Reconciler

variable [HostText] {r : Reconciler} {snapshot : PollSnapshot} {counters : ServiceCounter}
  {now : Instant} {timestamp : Timestamp} {visit : List String}

/-- What an applied poll publishes and leaves behind. -/
structure Publishes (r : Reconciler) (snapshot : PollSnapshot) (counters : ServiceCounter)
    (visit : List String) (r' : Reconciler) : Prop where
  published : ∀ id, r'.lastPublished[id]? =
    r.publishedCounter (r.state.currentPollVerdict snapshot) snapshot counters id
  rejections : ∀ id, r'.pollRejections[id]? =
    if r.rejects (r.state.currentPollVerdict snapshot) snapshot counters id then
      some (r.rejectionsOf id) else none
  built : ∃ built, (r'.replicasState.build r'.lastPublished visit).build = .ok built ∧
    r'.replicasState.current = some built

/-- A call that publishes nothing. -/
structure Unpublished (r r' : Reconciler) : Prop where
  replicasState : r'.replicasState = r.replicasState
  lastPublished : r'.lastPublished = r.lastPublished
  pollRejections : r'.pollRejections = r.pollRejections

/-- The services a poll omits, sorted. -/
def omitted (r : Reconciler) (snapshot : PollSnapshot) (counters : ServiceCounter) : List String :=
  (snapshot.serviceIds.filter
    (r.omits (r.state.currentPollVerdict snapshot) snapshot counters)).mergeSort (· ≤ ·)

/-- Judging changes nothing that is published. -/
theorem judgeServices_unpublished :
    Unpublished r (r.judgeServices snapshot counters now timestamp).reconciler := by
  have hjudged := judgeServices_judged r snapshot counters now timestamp
  refine ⟨?_, hjudged.lastPublished, hjudged.pollRejections⟩
  obtain ⟨ops, hperforms, hops⟩ := hjudged.performs
  refine hperforms.induct (fun current => current.replicasState = r.replicasState) rfl ?_
  intro op hop current next hcurrent hperform
  by_cases hbook : op.isBookkeep = true
  · cases op with
    | bookkeep =>
      cases hperform
      exact hcurrent
    | _ => cases hbook
  · have hmem : op ∈ essential ops := List.mem_filter.2 ⟨hop, by simpa using hbook⟩
    rw [hops] at hmem
    obtain ⟨id, -, rfl⟩ := List.mem_map.1 hmem
    cases hperform
    exact hcurrent

/-- Whether the families of a poll build. -/
def builds (r : Reconciler) (snapshot : PollSnapshot) (counters : ServiceCounter) (now : Instant)
    (timestamp : Timestamp) (visit : List String) : Bool :=
  let judging := r.judgeServices snapshot counters now timestamp
  (judging.reconciler.replicasState.build judging.published visit).build.isOk

/-- **A poll whose families build publishes what was judged**, and fails with the services it omits. -/
theorem applyPollCounts_of_builds (h : r.builds snapshot counters now timestamp visit = true) :
    r.Publishes snapshot counters visit
        (r.applyPollCounts snapshot counters now timestamp visit).1 ∧
      (r.applyPollCounts snapshot counters now timestamp visit).2 =
        if r.omitted snapshot counters = [] then .ok ()
        else .error (.partiallyRejected (r.omitted snapshot counters)) := by
  have hjudged := judgeServices_judged r snapshot counters now timestamp
  have hpublished := judgeServices_published r snapshot counters now timestamp
  have hrejections := judgeServices_rejections r snapshot counters now timestamp
  unfold builds at h
  generalize hjudging : r.judgeServices snapshot counters now timestamp = judging at *
  cases hbuild : (judging.reconciler.replicasState.build judging.published visit).build with
  | error error =>
    simp only [hbuild] at h
    cases h
  | ok built =>
    rw [applyPollCounts_of_built hjudging hbuild]
    refine ⟨⟨hpublished, hrejections, built, hbuild, rfl⟩, ?_⟩
    unfold omitted
    rw [hjudged.omitted]
    have hnil : ∀ ids : List String, ids.mergeSort (· ≤ ·) = [] ↔ ids = [] := by
      intro ids
      rw [← List.length_eq_zero_iff, List.length_mergeSort, List.length_eq_zero_iff]
    simp only [hnil]

/-- **A poll whose families do not build publishes nothing.** -/
theorem applyPollCounts_of_not_builds (h : r.builds snapshot counters now timestamp visit = false) :
    r.Unpublished (r.applyPollCounts snapshot counters now timestamp visit).1 ∧
      ∃ message, (r.applyPollCounts snapshot counters now timestamp visit).2 =
        .error (.publish message) := by
  have hunpublished := @judgeServices_unpublished _ r snapshot counters now timestamp
  unfold builds at h
  generalize hjudging : r.judgeServices snapshot counters now timestamp = judging at *
  cases hbuild : (judging.reconciler.replicasState.build judging.published visit).build with
  | error error =>
    rw [applyPollCounts_of_failed hjudging hbuild]
    exact ⟨hunpublished, _, rfl⟩
  | ok built =>
    simp only [hbuild] at h
    cases h

omit [HostText] in
theorem acceptedCounter_eq_some {verdict : PollVerdict} {id : String} {counter : TaskCounter} :
    acceptedCounter verdict snapshot counters id = some counter ↔
      ∃ service, snapshot.services[id]? = some service ∧
        verdict.accepts snapshot id service = true ∧ counters[id]? = some counter := by
  unfold acceptedCounter
  cases snapshot.services[id]? with
  | none => simp
  | some service => simp

omit [HostText] in
/-- A published counter was accepted from this poll, or carried over under the identity the service
has now. -/
theorem publishedCounter_cases {verdict : PollVerdict} {id : String} {counter : TaskCounter}
    (h : r.publishedCounter verdict snapshot counters id = some counter) :
    (id ∈ r.metadata ∧ acceptedCounter verdict snapshot counters id = some counter) ∨
      (r.rejects verdict snapshot counters id = true ∧ r.rejectionsOf id ≤ maxCarriedPolls ∧
        r.lastPublished[id]? = some counter ∧
        ∃ metadata, r.metadata[id]? = some metadata ∧ counter.labels = labelsForMetadata metadata) := by
  unfold publishedCounter at h
  split at h
  · rename_i hjudged
    split at h
    · rename_i accepted haccepted
      cases h
      exact .inl ⟨hjudged.2, haccepted⟩
    · rename_i hnone
      split at h
      · cases h
      · rename_i hlimit
        unfold carriedCounter at h
        split at h
        · cases h
        · rename_i metadata hmetadata
          obtain ⟨hlast, hlabels⟩ := Option.filter_eq_some_iff.1 h
          refine .inr ⟨?_, Nat.not_lt.1 hlimit, hlast, metadata, hmetadata, of_decide_eq_true hlabels⟩
          simp [rejects, hjudged, hnone]
  · cases h

/-- **The families of counted tasks always build.** -/
theorem builds_of_labelledBy (wired : r.Wired) (hsnapshot : snapshot.Labelled r.customLabels)
    (hcounters : LabelledBy snapshot counters) (now : Instant) (timestamp : Timestamp)
    (visit : List String) : r.builds snapshot counters now timestamp visit = true := by
  have hpublished := judgeServices_published r snapshot counters now timestamp
  have hunpublished := @judgeServices_unpublished _ r snapshot counters now timestamp
  unfold builds
  generalize r.judgeServices snapshot counters now timestamp = judging at *
  have hfits : ∀ (id : String) (counter : TaskCounter), judging.published[id]? = some counter →
      judging.reconciler.replicasState.Fits counter.labels := by
    intro id counter hcounter
    rw [hunpublished.replicasState]
    rw [hpublished] at hcounter
    rcases publishedCounter_cases hcounter with ⟨-, haccepted⟩ | ⟨-, -, -, metadata, hmetadata, hlabels⟩
    · obtain ⟨-, -, -, hcounted⟩ := acceptedCounter_eq_some.1 haccepted
      obtain ⟨service, hservice, hlabels⟩ := hcounters id counter hcounted
      obtain ⟨hidentity, labelled⟩ := hsnapshot id service hservice
      rw [hlabels, hidentity]
      exact wired.families.replicas_fits labelled
    · rw [hlabels]
      exact wired.families.replicas_fits (wired.labelled id metadata hmetadata)
  simp only [ReplicasState.build_ok hfits visit]
  rfl

end Reconciler

end SwarmExporter
