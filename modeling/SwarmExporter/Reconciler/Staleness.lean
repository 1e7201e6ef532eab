import SwarmExporter.Collector.Published
import SwarmExporter.Reconciler.Acceptance

/-!
# How old a published count can be

`lastPublished` and `pollRejections` are replaced as a whole by every applied poll, and by nothing else.
Along a run the rejections of a service are the number of applied polls, counted back from the last,
that rejected it (`rejections_iff`), and what is published for it is the counter accepted just before
these (`publishedCounts`). A service rejected once more than `maxCarriedPolls` is omitted and fails the
poll, so nothing is missing silently.
-/

namespace SwarmExporter

open Lib
open Docker (CallError Event Task)

/-- The last `count` items of `items` are all `rejected`. -/
def EndsIn {α : Type} (rejected : α → Prop) (items : List α) (count : Nat) : Prop :=
  ∃ earlier last, items = earlier ++ last ∧ last.length = count ∧ ∀ item ∈ last, rejected item

section EndsIn

variable {α : Type} {rejected : α → Prop} {items : List α} {item : α} {count : Nat}

theorem endsIn_zero : EndsIn rejected items 0 := ⟨items, [], by simp, rfl, by simp⟩

theorem endsIn_snoc (h : rejected item) :
    EndsIn rejected (items ++ [item]) (count + 1) ↔ EndsIn rejected items count := by
  constructor
  · rintro ⟨earlier, last, heq, hlength, hlast⟩
    have hne : last ≠ [] := by
      rintro rfl
      cases hlength
    rw [← List.dropLast_concat_getLast hne, ← List.append_assoc] at heq
    obtain ⟨rfl, -⟩ := List.append_inj' heq rfl
    refine ⟨earlier, last.dropLast, rfl, by simp [hlength], fun other hother => ?_⟩
    exact hlast other (List.mem_of_mem_dropLast hother)
  · rintro ⟨earlier, last, rfl, rfl, hlast⟩
    refine ⟨earlier, last ++ [item], by simp, by simp, fun other hother => ?_⟩
    rcases List.mem_append.1 hother with hother | hother
    · exact hlast other hother
    · obtain rfl := List.mem_singleton.1 hother
      exact h

theorem endsIn_snoc_of_not (h : ¬rejected item) :
    EndsIn rejected (items ++ [item]) count ↔ count = 0 := by
  constructor
  · rintro ⟨earlier, last, heq, rfl, hlast⟩
    by_contra hne
    have hne : last ≠ [] := fun hnil => hne (by rw [hnil]; rfl)
    rw [← List.dropLast_concat_getLast hne, ← List.append_assoc] at heq
    obtain ⟨-, hitem⟩ := List.append_inj' heq rfl
    obtain rfl := List.head_eq_of_cons_eq hitem
    exact h (hlast _ (List.getLast_mem hne))
  · rintro rfl
    exact endsIn_zero

end EndsIn

namespace Reconciler

variable [HostText] {r r' : Reconciler}

/-- Only a poll writes what is published. -/
theorem perform_unpublished {op : Op} (h : perform r op = some r')
    (hop : ∀ built counters rejections, op ≠ .publish built counters rejections) :
    Unpublished r r' := by
  cases op with
  | publish built counters rejections => exact absurd rfl (hop built counters rejections)
  | enqueueEvent event now timestamp =>
    cases h
    unfold enqueueEvent
    split <;> exact ⟨rfl, rfl, rfl⟩
  | applyNodes nodes visit =>
    simp only [perform, Option.ite_none_right_eq_some, Option.some.injEq] at h
    obtain ⟨-, rfl⟩ := h
    obtain ⟨-, -, -, hlast, hrejections, hreplicas⟩ := withNodes_frame r nodes visit
    exact ⟨hreplicas, hlast, hrejections⟩
  | applyService service =>
    obtain ⟨metadata, -, rfl⟩ := perform_applyService h
    obtain ⟨-, -, hlast, hrejections, hreplicas⟩ := withService_frame r service r.nodes metadata
    exact ⟨hreplicas, hlast, hrejections⟩
  | removeService id =>
    cases h
    obtain ⟨-, -, -, hlast, hrejections, hreplicas⟩ := removeService_frame r id
    exact ⟨hreplicas, hlast, hrejections⟩
  | _ =>
    cases h
    exact ⟨rfl, rfl, rfl⟩

end Reconciler

namespace World

section Steps

variable [HostText] {config : Config} {trace : List (Step World Action)} {w w' : World}
  {action : Action} {id : String}

/-- Whether `st` is a poll that is applied: its families build. -/
def isApplied (st : Step World Action) : Bool :=
  match st.act with
  | .applyPollCounts snapshot counters timestamp visit =>
    st.pre.reconciler.builds snapshot counters st.pre.instant timestamp visit
  | _ => false

/-- The applied polls of a trace, in order. -/
def appliedPolls (trace : List (Step World Action)) : List (Step World Action) :=
  trace.filter isApplied

/-- `st` is a poll that accepts `counter` for `id`, which is cached. -/
def AcceptedAt (id : String) (counter : TaskCounter) (st : Step World Action) : Prop :=
  ∃ snapshot counters timestamp visit service,
    st.act = .applyPollCounts snapshot counters timestamp visit ∧
    snapshot.services[id]? = some service ∧ id ∈ st.pre.reconciler.metadata ∧
    (st.pre.reconciler.state.currentPollVerdict snapshot).accepts snapshot id service = true ∧
    counters[id]? = some counter

/-- `st` is a poll with `id` in its snapshot, cached, but not accepted or without counts. -/
def RejectedAt (id : String) (st : Step World Action) : Prop :=
  ∃ snapshot counters timestamp visit service,
    st.act = .applyPollCounts snapshot counters timestamp visit ∧
    snapshot.services[id]? = some service ∧ id ∈ st.pre.reconciler.metadata ∧
    ¬((st.pre.reconciler.state.currentPollVerdict snapshot).accepts snapshot id service = true ∧
      id ∈ counters)

/-- The counters a poll submits are those its task list gave. -/
def CountsTasks (st : Step World Action) : Prop :=
  ∀ snapshot counters timestamp visit, st.act = .applyPollCounts snapshot counters timestamp visit →
    ∃ listed order, pollReplicasState snapshot listed order = .ok counters

section Poll

variable {snapshot : PollSnapshot} {counters : ServiceCounter} {timestamp : Timestamp}
  {visit : List String}

omit [HostText] in
theorem rejects_iff {r : Reconciler} {verdict : PollVerdict} :
    r.rejects verdict snapshot counters id = true ↔
      ∃ service, snapshot.services[id]? = some service ∧ id ∈ r.metadata ∧
        ¬(verdict.accepts snapshot id service = true ∧ id ∈ counters) := by
  unfold Reconciler.rejects
  simp only [Bool.and_eq_true, decide_eq_true_eq, Option.isNone_iff_eq_none]
  constructor
  · rintro ⟨⟨hsnapshot, hcached⟩, hnone⟩
    obtain ⟨service, hservice⟩ := mem_iff_getElem?.1 hsnapshot
    refine ⟨service, hservice, hcached, ?_⟩
    rintro ⟨haccepts, hcounter⟩
    obtain ⟨counter, hcounter⟩ := mem_iff_getElem?.1 hcounter
    have hsome := Reconciler.acceptedCounter_eq_some.2 ⟨service, hservice, haccepts, hcounter⟩
    rw [hnone] at hsome
    cases hsome
  · rintro ⟨service, hservice, hcached, hrejected⟩
    refine ⟨⟨mem_iff_getElem?.2 ⟨service, hservice⟩, hcached⟩, ?_⟩
    rw [Option.eq_none_iff_forall_ne_some]
    intro counter hcounter
    obtain ⟨found, hfound, haccepts, hcounter⟩ := Reconciler.acceptedCounter_eq_some.1 hcounter
    rw [hservice] at hfound
    cases hfound
    exact hrejected ⟨haccepts, mem_iff_getElem?.2 ⟨counter, hcounter⟩⟩

omit [HostText] in
theorem rejectedAt_iff {st : Step World Action}
    (hact : st.act = .applyPollCounts snapshot counters timestamp visit) :
    RejectedAt id st ↔ st.pre.reconciler.rejects
      (st.pre.reconciler.state.currentPollVerdict snapshot) snapshot counters id = true := by
  rw [rejects_iff]
  constructor
  · rintro ⟨snapshot', counters', timestamp', visit', service, hact', hrest⟩
    rw [hact] at hact'
    cases hact'
    exact ⟨service, hrest⟩
  · rintro ⟨service, hrest⟩
    exact ⟨snapshot, counters, timestamp, visit, service, hact, hrest⟩

/-- What an applied poll does. -/
theorem applied_step (h : w.step (.applyPollCounts snapshot counters timestamp visit) = some w')
    (happlied : w.reconciler.builds snapshot counters w.instant timestamp visit = true) :
    w.reconciler.Publishes snapshot counters visit w'.reconciler ∧
      Enumerates visit w'.reconciler.lastPublished ∧
      (w.pollAnswer snapshot counters timestamp visit).2 =
        if w.reconciler.omitted snapshot counters = [] then .ok ()
        else .error (.partiallyRejected (w.reconciler.omitted snapshot counters)) := by
  simp only [step, Option.ite_none_right_eq_some, Option.some.injEq] at h
  obtain ⟨⟨-, -, -, -, hvisit⟩, rfl⟩ := h
  obtain ⟨hpublishes, hanswer⟩ := Reconciler.applyPollCounts_of_builds happlied
  refine ⟨hpublishes, ?_, hanswer⟩
  have hlast : (w.pollAnswer snapshot counters timestamp visit).1.lastPublished =
      (w.reconciler.judgeServices snapshot counters w.instant timestamp).published := by
    apply Std.ExtTreeMap.ext_getElem?
    intro other
    exact (hpublishes.published other).trans
      (Reconciler.judgeServices_published _ _ _ _ _ other).symm
  rw [hlast]
  exact hvisit

end Poll

/-- **A step that is no applied poll publishes nothing.** -/
theorem step_unpublished (wired : w.reconciler.Wired) (h : w.step action = some w')
    (hnot : isApplied ⟨w, action, w'⟩ = false) :
    Reconciler.Unpublished w.reconciler w'.reconciler := by
  by_cases hpoll : ∃ snapshot counters timestamp visit,
      action = .applyPollCounts snapshot counters timestamp visit
  · obtain ⟨snapshot, counters, timestamp, visit, rfl⟩ := hpoll
    simp only [step, Option.ite_none_right_eq_some, Option.some.injEq] at h
    obtain ⟨-, rfl⟩ := h
    exact (Reconciler.applyPollCounts_of_not_builds hnot).1
  · obtain ⟨ops, hperforms, hmakes⟩ := step_ops wired h
    refine hperforms.induct (fun r => Reconciler.Unpublished w.reconciler r) ⟨rfl, rfl, rfl⟩ ?_
    rintro op hop current next ⟨hreplicas, hlast, hrejections⟩ hperform
    have hkind : ∀ built counters rejections, op ≠ .publish built counters rejections := by
      rintro built counters rejections rfl
      exact hpoll ((makes_madeBy hmakes (List.mem_filter.2 ⟨hop, rfl⟩)).publishes _ _ _ rfl)
    obtain ⟨hreplicas', hlast', hrejections'⟩ := Reconciler.perform_unpublished hperform hkind
    exact ⟨hreplicas'.trans hreplicas, hlast'.trans hlast, hrejections'.trans hrejections⟩

/-! ## Along a run -/

omit [HostText] in
/-- The applied polls after one more step. -/
theorem appliedPolls_snoc (trace : List (Step World Action)) (st : Step World Action) :
    appliedPolls (trace ++ [st]) = appliedPolls trace ++ if isApplied st then [st] else [] := by
  unfold appliedPolls
  rw [List.filter_append]
  cases h : isApplied st <;> simp [h]

omit [HostText] in
theorem exists_of_isApplied {st : Step World Action} (h : isApplied st = true) :
    ∃ snapshot counters timestamp visit,
      st.act = .applyPollCounts snapshot counters timestamp visit ∧
      st.pre.reconciler.builds snapshot counters st.pre.instant timestamp visit = true := by
  unfold isApplied at h
  split at h
  · rename_i snapshot counters timestamp visit hact
    exact ⟨snapshot, counters, timestamp, visit, hact, h⟩
  · cases h

/-- **The rejections of a service count the polls that rejected it in a row.** -/
theorem rejections_iff (h : Runs config trace w) (id : String) (count : Nat) :
    count ≤ w.reconciler.pollRejections.getD id 0 ↔
      EndsIn (RejectedAt id) (appliedPolls trace) count := by
  refine Run.history (fun trace w => ∀ count, count ≤ w.reconciler.pollRejections.getD id 0 ↔
    EndsIn (RejectedAt id) (appliedPolls trace) count) ?_ ?_ h count
  · intro count
    constructor
    · intro hcount
      obtain rfl : count = 0 := Nat.le_zero.1 hcount
      exact endsIn_zero
    · rintro ⟨earlier, last, heq, rfl, -⟩
      obtain ⟨rfl, rfl⟩ := List.append_eq_nil_iff.1 heq.symm
      exact Nat.zero_le _
  · intro trace w action w' hrun hinv hstep count
    rw [appliedPolls_snoc]
    cases happlied : isApplied ⟨w, action, w'⟩ with
    | false =>
      rw [(step_unpublished (Runs.wired hrun) hstep happlied).pollRejections]
      simpa using hinv count
    | true =>
      obtain ⟨snapshot, counters, timestamp, visit, hact, hbuilds⟩ := exists_of_isApplied happlied
      obtain rfl : action = .applyPollCounts snapshot counters timestamp visit := hact
      obtain ⟨hpublishes, -⟩ := applied_step hstep hbuilds
      rw [if_pos rfl, Std.ExtTreeMap.getD_eq_getD_getElem?, hpublishes.rejections]
      by_cases hrejects : w.reconciler.rejects (w.reconciler.state.currentPollVerdict snapshot)
          snapshot counters id = true
      · have hrejected : RejectedAt id ⟨w, .applyPollCounts snapshot counters timestamp visit, w'⟩ :=
          (rejectedAt_iff rfl).2 hrejects
        rw [if_pos hrejects, Option.getD_some, Reconciler.rejectionsOf]
        cases count with
        | zero => exact ⟨fun _ => endsIn_zero, fun _ => Nat.zero_le _⟩
        | succ count => rw [Nat.add_le_add_iff_right, hinv, endsIn_snoc hrejected]
      · have hkept : ¬RejectedAt id ⟨w, .applyPollCounts snapshot counters timestamp visit, w'⟩ :=
          fun hrejected => hrejects ((rejectedAt_iff rfl).1 hrejected)
        rw [if_neg hrejects, Option.getD_none, endsIn_snoc_of_not hkept, Nat.le_zero]

/-- What is published is what the last applied poll published. -/
theorem lastPublished_eq (h : Runs config trace w) :
    w.reconciler.lastPublished =
      ((appliedPolls trace).getLast?.map (·.post.reconciler.lastPublished)).getD ∅ := by
  refine Run.history (fun trace w => w.reconciler.lastPublished =
    ((appliedPolls trace).getLast?.map (·.post.reconciler.lastPublished)).getD ∅) rfl ?_ h
  intro trace w action w' hrun hinv hstep
  rw [appliedPolls_snoc]
  cases happlied : isApplied ⟨w, action, w'⟩ with
  | false =>
    rw [(step_unpublished (Runs.wired hrun) hstep happlied).lastPublished, hinv]
    simp
  | true => simp

/-- What is known about the counter published for a service. -/
structure Aged (trace : List (Step World Action)) (w : World) (id : String)
    (counter : TaskCounter) : Prop where
  history : ∃ earlier accepted rejected,
    appliedPolls trace = earlier ++ accepted :: rejected ∧
    rejected.length = w.reconciler.pollRejections.getD id 0 ∧ rejected.length ≤ maxCarriedPolls ∧
    AcceptedAt id counter accepted ∧ ∀ st ∈ rejected, RejectedAt id st
  labels : ∀ last, (appliedPolls trace).getLast? = some last →
    ∃ metadata, last.pre.reconciler.metadata[id]? = some metadata ∧
      counter.labels = labelsForMetadata metadata

section Poll

variable {snapshot : PollSnapshot} {counters : ServiceCounter} {timestamp : Timestamp}
  {visit : List String} {poll : Step World Action} {counter : TaskCounter}

/-- The counter a poll accepts has age 0. -/
theorem aged_of_accepted (hrun : Runs config trace poll.pre)
    (hact : poll.act = .applyPollCounts snapshot counters timestamp visit)
    (hpolls : appliedPolls (trace ++ [poll]) = appliedPolls trace ++ [poll])
    (hmem : snapshot ∈ poll.pre.snapshots) (hcounters : LabelledBy snapshot counters)
    (hpublishes : poll.pre.reconciler.Publishes snapshot counters visit poll.post.reconciler)
    (hcached : id ∈ poll.pre.reconciler.metadata)
    (haccepted : Reconciler.acceptedCounter (poll.pre.reconciler.state.currentPollVerdict snapshot)
      snapshot counters id = some counter) :
    Aged (trace ++ [poll]) poll.post id counter := by
  obtain ⟨service, hservice, haccepts, hcounter⟩ := Reconciler.acceptedCounter_eq_some.1 haccepted
  have hrejections : poll.post.reconciler.pollRejections.getD id 0 = 0 := by
    rw [Std.ExtTreeMap.getD_eq_getD_getElem?, hpublishes.rejections]
    simp [Reconciler.rejects, haccepted]
  constructor
  · refine ⟨appliedPolls trace, poll, [], hpolls, hrejections.symm, Nat.zero_le _, ?_, by simp⟩
    exact ⟨snapshot, counters, timestamp, visit, service, hact, hservice, hcached, haccepts, hcounter⟩
  · intro last hlast
    rw [hpolls, List.getLast?_concat] at hlast
    obtain rfl := Option.some.inj hlast
    obtain ⟨found, hfound, hlabels⟩ := hcounters id counter hcounter
    rw [hservice] at hfound
    obtain rfl := Option.some.inj hfound
    have hlabelled := (Runs.snapshots_labelled hrun snapshot hmem id service hservice).1
    exact ⟨service.metadata, metadata_of_accepts hrun hmem hservice hcached haccepts,
      hlabels.trans hlabelled⟩

omit [HostText] in
/-- A counter that is carried over is one poll older. -/
theorem aged_of_carried (hact : poll.act = .applyPollCounts snapshot counters timestamp visit)
    (hpolls : appliedPolls (trace ++ [poll]) = appliedPolls trace ++ [poll])
    (hpublishes : poll.pre.reconciler.Publishes snapshot counters visit poll.post.reconciler)
    (haged : Aged trace poll.pre id counter)
    (hrejects : poll.pre.reconciler.rejects (poll.pre.reconciler.state.currentPollVerdict snapshot)
      snapshot counters id = true)
    (hlimit : poll.pre.reconciler.rejectionsOf id ≤ maxCarriedPolls) {metadata : ServiceMetadata}
    (hmetadata : poll.pre.reconciler.metadata[id]? = some metadata)
    (hlabels : counter.labels = labelsForMetadata metadata) :
    Aged (trace ++ [poll]) poll.post id counter := by
  obtain ⟨⟨earlier, accepted, rejected, hearlier, hlength, -, haccepted, hrejected⟩, -⟩ := haged
  have hrejections : poll.post.reconciler.pollRejections.getD id 0 = rejected.length + 1 := by
    rw [Std.ExtTreeMap.getD_eq_getD_getElem?, hpublishes.rejections, if_pos hrejects,
      Option.getD_some, Reconciler.rejectionsOf, hlength]
  rw [Reconciler.rejectionsOf, ← hlength] at hlimit
  constructor
  · refine ⟨earlier, accepted, rejected ++ [poll], ?_, ?_, ?_, haccepted, fun st hst => ?_⟩
    · rw [hpolls, hearlier, List.append_assoc, List.cons_append]
    · rw [hrejections, List.length_append, List.length_singleton]
    · rw [List.length_append, List.length_singleton]
      exact hlimit
    · rcases List.mem_append.1 hst with hst | hst
      · exact hrejected st hst
      · obtain rfl := List.mem_singleton.1 hst
        exact (rejectedAt_iff hact).2 hrejects
  · intro last hlast
    rw [hpolls, List.getLast?_concat] at hlast
    obtain rfl := Option.some.inj hlast
    exact ⟨metadata, hmetadata, hlabels⟩

end Poll

omit [HostText] in
/-- Nothing ages while no poll is applied. -/
theorem Aged.keep {counter : TaskCounter} {st : Step World Action} (h : Aged trace st.pre id counter)
    (hpolls : appliedPolls (trace ++ [st]) = appliedPolls trace)
    (hrejections : st.post.reconciler.pollRejections = st.pre.reconciler.pollRejections) :
    Aged (trace ++ [st]) st.post id counter := by
  obtain ⟨hhistory, hlabels⟩ := h
  constructor
  · rw [hpolls, hrejections]
    exact hhistory
  · rw [hpolls]
    exact hlabels

/-- **The staleness bound.** Let every poll submit the counters its task list gave. Whenever a counter
is published for a service that was rejected by the last `k` applied polls, `k` is at most
`maxCarriedPolls`, the counter was accepted by the applied poll before them, each of them had the
service in its snapshot and cached, and its labels are those of the metadata cached at the last one. -/
theorem published_counts_bounded (h : Runs config trace w) (hcounts : ∀ st ∈ trace, CountsTasks st)
    {counter : TaskCounter} (hpublished : w.reconciler.lastPublished[id]? = some counter) :
    Aged trace w id counter := by
  refine Run.history (fun trace w => (∀ st ∈ trace, CountsTasks st) → ∀ id counter,
    w.reconciler.lastPublished[id]? = some counter → Aged trace w id counter) ?_ ?_ h hcounts id counter
    hpublished
  · intro _ id counter hnone
    simp [init, Reconciler.withPolicy] at hnone
  · intro trace w action w' hrun hinv hstep hcounts id counter hpublished
    have haged := hinv fun st hst => hcounts st (List.mem_append_left _ hst)
    cases happlied : isApplied ⟨w, action, w'⟩ with
    | false =>
      have hunpublished := step_unpublished (Runs.wired hrun) hstep happlied
      rw [hunpublished.lastPublished] at hpublished
      have hpolls : appliedPolls (trace ++ [⟨w, action, w'⟩]) = appliedPolls trace := by
        rw [appliedPolls_snoc, happlied]
        simp
      exact (haged id counter hpublished).keep hpolls hunpublished.pollRejections
    | true =>
      have hpolls : appliedPolls (trace ++ [⟨w, action, w'⟩]) =
          appliedPolls trace ++ [⟨w, action, w'⟩] := by
        rw [appliedPolls_snoc, happlied, if_pos rfl]
      obtain ⟨snapshot, counters, timestamp, visit, hact, hbuilds⟩ := exists_of_isApplied happlied
      obtain rfl : action = .applyPollCounts snapshot counters timestamp visit := hact
      obtain ⟨hpublishes, -⟩ := applied_step hstep hbuilds
      obtain ⟨listed, order, hcounted⟩ := hcounts _
        (List.mem_append_right _ (List.mem_singleton.2 rfl)) snapshot counters timestamp visit rfl
      rw [hpublishes.published] at hpublished
      rcases Reconciler.publishedCounter_cases hpublished with ⟨hcached, haccepted⟩ |
        ⟨hrejects, hlimit, hlast, metadata, hmetadata, hlabels⟩
      · have hmem : snapshot ∈ w.snapshots := by
          simp only [step, Option.ite_none_right_eq_some] at hstep
          exact hstep.1.2.2.1
        exact aged_of_accepted hrun rfl hpolls hmem (pollReplicasState_labelledBy hcounted) hpublishes
          hcached haccepted
      · exact aged_of_carried rfl hpolls hpublishes (haged id counter hlast) hrejects hlimit hmetadata
          hlabels

end Steps

open Sample in
/-- A count carried over by the poll after the one that accepted it. -/
theorem published_counts_bounded_sample : ∃ trace w counter, Runs config trace w ∧
    w.reconciler.pollRejections.getD "web" 0 = 1 ∧ Aged trace w "web" counter := by
  let resynced : List Action := resyncCycle [replicated "web" "web" 2] [] ["web"]
  let changed : Event := { kind := "service", actor := ⟨"web"⟩ }
  obtain ⟨snapshot, hreplay, hcounted⟩ : ∃ snapshot,
      (replay step (init config) (resynced ++ [.buildPollSnapshot,
        .applyPollCounts snapshot (noTasks snapshot) 1000 ["web"], .enqueueEvent changed 0 1000,
        .applyPollCounts snapshot (noTasks snapshot) 1000 ["web"]])).any
        (fun result => decide (result.2.reconciler.pollRejections.getD "web" 0 = 1) &&
          result.2.reconciler.lastPublished["web"]?.isSome) = true ∧
      pollReplicasState snapshot (.ok []) [] = .ok (noTasks snapshot) :=
    ⟨snapshotAfter resynced, by decide +kernel, by decide +kernel⟩
  obtain ⟨trace, w, hrun, hacts, hcheck⟩ := exists_run_of_replay hreplay
  obtain ⟨hrejections, hpublished⟩ := Bool.and_eq_true_iff.1 hcheck
  obtain ⟨counter, hpublished⟩ := Option.isSome_iff_exists.1 hpublished
  have hcounts : ∀ st ∈ trace, CountsTasks st := by
    intro st hst found counters timestamp visit hact
    have hmem : st.act ∈ trace.map (·.act) := List.mem_map_of_mem hst
    rw [hacts, hact] at hmem
    simp [resynced, resyncCycle] at hmem
    obtain ⟨rfl, rfl, -⟩ := hmem
    exact ⟨.ok [], [], hcounted⟩
  exact ⟨trace, w, counter, hrun, of_decide_eq_true hrejections,
    published_counts_bounded hrun hcounts hpublished⟩

end World

end SwarmExporter
