import SwarmExporter.Reconciler.Staleness

/-!
# What a poll reports missing

A service that was rejected by more than `maxCarriedPolls` applied polls in a row is omitted, and the
poll fails with the sorted list of these. Every other cached service of the snapshot is published, or
nothing was published for it under the labels it has now. A poll whose families do not build changes
nothing.
-/

namespace SwarmExporter

open Lib
open Docker (Event)

namespace Reconciler

variable {r : Reconciler} {snapshot : PollSnapshot} {counters : ServiceCounter} {id : String}

theorem pairwise_omitted (r : Reconciler) (snapshot : PollSnapshot) (counters : ServiceCounter) :
    (r.omitted snapshot counters).Pairwise (· ≤ ·) := by
  have hsorted : (r.omitted snapshot counters).Pairwise fun first second : String =>
      decide (first ≤ second) = true := by
    apply List.pairwise_mergeSort
    · intro first second third hfirst hsecond
      exact decide_eq_true (String.le_trans (of_decide_eq_true hfirst) (of_decide_eq_true hsecond))
    · intro first second
      rw [Bool.or_eq_true, decide_eq_true_eq, decide_eq_true_eq]
      exact String.le_total first second
  exact hsorted.imp of_decide_eq_true

theorem nodup_omitted (r : Reconciler) (snapshot : PollSnapshot) (counters : ServiceCounter) :
    (r.omitted snapshot counters).Nodup := by
  refine (List.mergeSort_perm _ _).nodup_iff.2 (List.Nodup.filter _ ?_)
  exact Std.ExtTreeMap.nodup_keys

theorem mem_omitted : id ∈ r.omitted snapshot counters ↔
    r.omits (r.state.currentPollVerdict snapshot) snapshot counters id = true := by
  unfold omitted
  rw [List.mem_mergeSort, List.mem_filter, mem_serviceIds]
  constructor
  · exact And.right
  · intro homits
    refine ⟨?_, homits⟩
    obtain ⟨hrejects, -⟩ := Bool.and_eq_true_iff.1 homits
    obtain ⟨service, hservice, -⟩ := World.rejects_iff.1 hrejects
    exact mem_iff_getElem?.2 ⟨service, hservice⟩

/-- A judged service gets no counter only where it is omitted, or rejected with nothing to carry. -/
theorem publishedCounter_eq_none {verdict : PollVerdict} (hsnapshot : id ∈ snapshot.services)
    (hcached : id ∈ r.metadata) :
    r.publishedCounter verdict snapshot counters id = none ↔
      r.rejects verdict snapshot counters id = true ∧
        (r.omits verdict snapshot counters id = true ∨ r.carriedCounter id = none) := by
  unfold publishedCounter omits
  rw [if_pos ⟨hsnapshot, hcached⟩]
  cases haccepted : acceptedCounter verdict snapshot counters id with
  | some counter => simp [rejects, haccepted]
  | none =>
    have hrejects : r.rejects verdict snapshot counters id = true := by
      simp [rejects, haccepted, hsnapshot, hcached]
    by_cases hlimit : maxCarriedPolls < r.rejectionsOf id
    · simp [hrejects, hlimit]
    · simp [hrejects, hlimit]

theorem carriedCounter_eq_none {metadata : ServiceMetadata} (hcached : r.metadata[id]? = some metadata)
    (h : r.carriedCounter id = none) {counter : TaskCounter}
    (hlast : r.lastPublished[id]? = some counter) : counter.labels ≠ labelsForMetadata metadata := by
  intro hlabels
  simp only [carriedCounter, hcached, hlast, Option.filter_eq_none_iff, Option.some.injEq,
    decide_eq_true_eq] at h
  exact h counter rfl hlabels

end Reconciler

namespace World

section Steps

variable [HostText] {config : Config} {trace before after : List (Step World Action)} {w : World}
  {poll : Step World Action} {snapshot : PollSnapshot} {counters : ServiceCounter}
  {timestamp : Timestamp} {visit : List String} {id : String}

/-- What the applied poll `poll` answers and publishes after `before`: `ids` are the services that
were in the snapshot and cached but got no counter at each of the last `maxCarriedPolls + 1` applied
polls. -/
structure Reports (before : List (Step World Action)) (poll : Step World Action)
    (snapshot : PollSnapshot) (answer : Except PollError Unit) (ids : List String) : Prop where
  sorted : ids.Pairwise (· ≤ ·)
  nodup : ids.Nodup
  omitted : ∀ id, id ∈ ids ↔
    EndsIn (RejectedAt id) (appliedPolls (before ++ [poll])) (maxCarriedPolls + 1)
  answered : answer = if ids = [] then .ok () else .error (.partiallyRejected ids)
  -- The families hold the series of the published counters and no others.
  families : ∃ built, poll.post.reconciler.replicasState.current = some built ∧
    ∀ name values, HasSeries built name values ↔ ∃ (id : String) (counter : TaskCounter),
      poll.post.reconciler.lastPublished[id]? = some counter ∧
      ∃ entry ∈ poll.post.reconciler.replicasState.series counter,
        name = entry.desc.name ∧ values = entry.desc.values entry.labels
  unpublished : ∀ id ∈ ids, poll.post.reconciler.lastPublished[id]? = none
  published : ∀ (id : String) (metadata : ServiceMetadata), id ∈ snapshot.services →
    poll.pre.reconciler.metadata[id]? = some metadata → id ∉ ids →
    id ∈ poll.post.reconciler.lastPublished ∨
      RejectedAt id poll ∧ ∀ previous, (appliedPolls before).getLast? = some previous →
        ∀ counter, previous.post.reconciler.lastPublished[id]? = some counter →
          counter.labels ≠ labelsForMetadata metadata

/-- A poll omits a service exactly at its last allowed rejection in a row. -/
theorem mem_omitted_iff (hrun : Runs config before poll.pre)
    (hact : poll.act = .applyPollCounts snapshot counters timestamp visit)
    (happlied : isApplied poll = true) :
    id ∈ poll.pre.reconciler.omitted snapshot counters ↔
      EndsIn (RejectedAt id) (appliedPolls (before ++ [poll])) (maxCarriedPolls + 1) := by
  rw [Reconciler.mem_omitted, appliedPolls_snoc, if_pos happlied, Reconciler.omits, Bool.and_eq_true,
    decide_eq_true_eq, Reconciler.rejectionsOf, Nat.lt_succ_iff, ← rejectedAt_iff hact,
    rejections_iff hrun]
  constructor
  · rintro ⟨hrejected, hearlier⟩
    exact (endsIn_snoc hrejected).2 hearlier
  · intro hends
    by_cases hrejected : RejectedAt id poll
    · exact ⟨hrejected, (endsIn_snoc hrejected).1 hends⟩
    · cases (endsIn_snoc_of_not hrejected).1 hends

/-- A service missing from an applied poll is omitted, or rejected with nothing published before under
its labels. -/
theorem missing_of_applied (hrun : Runs config before poll.pre)
    (hact : poll.act = .applyPollCounts snapshot counters timestamp visit)
    (hpublishes : poll.pre.reconciler.Publishes snapshot counters visit poll.post.reconciler)
    {metadata : ServiceMetadata} (hsnapshot : id ∈ snapshot.services)
    (hcached : poll.pre.reconciler.metadata[id]? = some metadata)
    (hmissing : id ∉ poll.post.reconciler.lastPublished) :
    RejectedAt id poll ∧ (id ∈ poll.pre.reconciler.omitted snapshot counters ∨
      ∀ previous, (appliedPolls before).getLast? = some previous →
        ∀ counter, previous.post.reconciler.lastPublished[id]? = some counter →
          counter.labels ≠ labelsForMetadata metadata) := by
  rw [notMem_iff_getElem?, hpublishes.published, Reconciler.publishedCounter_eq_none hsnapshot
    (mem_iff_getElem?.2 ⟨metadata, hcached⟩)] at hmissing
  obtain ⟨hrejects, homits | hcarried⟩ := hmissing
  · exact ⟨(rejectedAt_iff hact).2 hrejects, .inl (Reconciler.mem_omitted.2 homits)⟩
  · refine ⟨(rejectedAt_iff hact).2 hrejects, .inr fun previous hprevious counter hcounter => ?_⟩
    have hlast : poll.pre.reconciler.lastPublished[id]? = some counter := by
      rw [lastPublished_eq hrun, hprevious]
      exact hcounter
    exact Reconciler.carriedCounter_eq_none hcached hcarried hlast

/-- **A service is never silently missing.** An applied poll fails with exactly the services that got no
counter at each of the last `maxCarriedPolls + 1` applied polls, and publishes every other cached
service of its snapshot that it accepted or that has a counter under its labels to carry over. A poll
that is not applied fails and leaves everything published as it was. -/
theorem poll_reports_missing (h : Runs config (before ++ poll :: after) w)
    (hact : poll.act = .applyPollCounts snapshot counters timestamp visit) :
    (isApplied poll = true → ∃ ids, Reports before poll snapshot
      (poll.pre.pollAnswer snapshot counters timestamp visit).2 ids) ∧
    (isApplied poll = false → Reconciler.Unpublished poll.pre.reconciler poll.post.reconciler ∧
      ∃ message, (poll.pre.pollAnswer snapshot counters timestamp visit).2 =
        .error (.publish message)) := by
  obtain ⟨hrun, hstep, -⟩ := h.of_mid
  have hbuilds : isApplied poll =
      poll.pre.reconciler.builds snapshot counters poll.pre.instant timestamp visit := by
    unfold isApplied
    rw [hact]
  constructor
  · intro happlied
    rw [hact] at hstep
    obtain ⟨hpublishes, hvisit, hanswer⟩ := applied_step hstep (hbuilds ▸ happlied)
    refine ⟨poll.pre.reconciler.omitted snapshot counters, Reconciler.pairwise_omitted _ _ _,
      Reconciler.nodup_omitted _ _ _, fun id => mem_omitted_iff hrun hact happlied, hanswer, ?_, ?_, ?_⟩
    · obtain ⟨built, hbuilt, hcurrent⟩ := hpublishes.built
      exact ⟨built, hcurrent, ReplicasState.hasSeries_of_build hvisit hbuilt⟩
    · intro id hid
      obtain ⟨hrejects, hlimit⟩ := Bool.and_eq_true_iff.1 (Reconciler.mem_omitted.1 hid)
      obtain ⟨service, hservice, hcached, -⟩ := rejects_iff.1 hrejects
      rw [hpublishes.published, Reconciler.publishedCounter_eq_none
        (mem_iff_getElem?.2 ⟨service, hservice⟩) hcached]
      exact ⟨hrejects, .inl (Reconciler.mem_omitted.1 hid)⟩
    · intro id metadata hsnapshot hcached hid
      by_cases hmissing : id ∈ poll.post.reconciler.lastPublished
      · exact .inl hmissing
      · obtain ⟨hrejected, homitted | hprevious⟩ :=
          missing_of_applied hrun hact hpublishes hsnapshot hcached hmissing
        · exact absurd homitted hid
        · exact .inr ⟨hrejected, hprevious⟩
  · intro happlied
    refine ⟨step_unpublished (Runs.wired hrun) hstep happlied, ?_⟩
    exact (Reconciler.applyPollCounts_of_not_builds (hbuilds ▸ happlied)).2

end Steps

open Sample in
/-- The third poll that rejects a service in a row fails with it. -/
theorem poll_reports_missing_sample : ∃ before poll w snapshot, Runs config (before ++ [poll]) w ∧
    w.reconciler.pollRejections.getD "web" 0 = 3 ∧
    ∃ ids, Reports before poll snapshot (.error (.partiallyRejected ["web"])) ids := by
  let resynced : List Action := resyncCycle [replicated "web" "web" 2] [] ["web"]
  let changed : Event := { kind := "service", actor := ⟨"web"⟩ }
  let polled (snapshot : PollSnapshot) (visit : List String) : Action :=
    .applyPollCounts snapshot (noTasks snapshot) 1000 visit
  let check (snapshot : PollSnapshot) (st : Step World Action) : Bool :=
    isApplied st && decide ((st.pre.pollAnswer snapshot (noTasks snapshot) 1000 []).2 =
      .error (.partiallyRejected ["web"]))
  obtain ⟨snapshot, hreplay⟩ : ∃ snapshot,
      (replay step (init config) (resynced ++ [.buildPollSnapshot, polled snapshot ["web"],
        .enqueueEvent changed 0 1000, polled snapshot ["web"], polled snapshot ["web"]] ++
        [polled snapshot []])).any
        (fun result => decide (result.2.reconciler.pollRejections.getD "web" 0 = 3) &&
          result.1.getLast?.any (check snapshot)) = true :=
    ⟨snapshotAfter resynced, by decide +kernel⟩
  obtain ⟨trace, w, hrun, hacts, hcheck⟩ := exists_run_of_replay hreplay
  obtain ⟨hrejections, hlast⟩ := Bool.and_eq_true_iff.1 hcheck
  obtain ⟨before, rest, rfl, -, hrest⟩ := List.map_eq_append_iff.1 hacts
  obtain ⟨poll, rfl, hpoll⟩ := List.map_eq_singleton_iff.1 hrest
  simp only [List.getLast?_concat, Option.any_some, check, Bool.and_eq_true,
    decide_eq_true_eq] at hlast
  obtain ⟨happlied, hanswer⟩ := hlast
  refine ⟨before, poll, w, snapshot, hrun, of_decide_eq_true hrejections, ?_⟩
  rw [← hanswer]
  exact (poll_reports_missing hrun hpoll).1 happlied

end World

end SwarmExporter
