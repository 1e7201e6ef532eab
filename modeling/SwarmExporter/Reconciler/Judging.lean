import SwarmExporter.Reconciler.Ops

/-!
# What a poll decides about each service

`applyPollCounts` walks the services of its snapshot one by one. The walk reads only what it does not
change (the caches, what the last poll published, the rejections), so its result is a function of each
service: the counter accepted for it (`acceptedCounter`), whether it is rejected (`rejects`), and the
counter published for it, accepted or carried over (`publishedCounter`). `judgeServices_judged` says so
of the loop, and `applyPollCounts_eq` of the whole call.
-/

namespace SwarmExporter

open Lib

namespace Reconciler

section Judging

variable (r : Reconciler) (verdict : PollVerdict) (snapshot : PollSnapshot)
  (counters : ServiceCounter)

/-- The counter of `id` that `verdict` accepts. -/
def acceptedCounter (id : String) : Option TaskCounter :=
  match snapshot.services[id]? with
  | none => none
  | some service => if verdict.accepts snapshot id service then counters[id]? else none

/-- Whether `id` is in the snapshot and cached, but gets no counter from this poll. -/
def rejects (id : String) : Bool :=
  decide (id ∈ snapshot.services) && decide (id ∈ r.metadata) &&
    (acceptedCounter verdict snapshot counters id).isNone

/-- How many polls in a row have rejected `id`, this one included if it does. -/
def rejectionsOf (id : String) : Nat := r.pollRejections.getD id 0 + 1

/-- Whether `id` was rejected once too often to keep its series. -/
def omits (id : String) : Bool :=
  r.rejects verdict snapshot counters id && decide (maxCarriedPolls < r.rejectionsOf id)

/-- The counter published before, if `id` still has its label identity. -/
def carriedCounter (id : String) : Option TaskCounter :=
  match r.metadata[id]? with
  | none => none
  | some metadata =>
    r.lastPublished[id]?.filter fun previous => previous.labels = labelsForMetadata metadata

/-- The counter this poll publishes for `id`. -/
def publishedCounter (id : String) : Option TaskCounter :=
  if id ∈ snapshot.services ∧ id ∈ r.metadata then
    match acceptedCounter verdict snapshot counters id with
    | some counter => some counter
    | none => if maxCarriedPolls < r.rejectionsOf id then none else r.carriedCounter id
  else none

/-- Whether `id` is dropped and marked dirty: it left the cache since the snapshot. -/
def drops (id : String) : Bool := decide (id ∈ snapshot.services) && decide (id ∉ r.metadata)

end Judging

variable [HostText] {r : Reconciler} {verdict : PollVerdict} {snapshot : PollSnapshot}
  {counters : ServiceCounter} {now : Instant} {timestamp : Timestamp}

/-- `judging` is the outcome of judging `done`. -/
structure Judged (r : Reconciler) (verdict : PollVerdict) (snapshot : PollSnapshot)
    (counters : ServiceCounter) (now : Instant) (timestamp : Timestamp) (done : List String)
    (judging : Judging) : Prop where
  metadata : judging.reconciler.metadata = r.metadata
  lastPublished : judging.reconciler.lastPublished = r.lastPublished
  pollRejections : judging.reconciler.pollRejections = r.pollRejections
  published : ∀ id, judging.published[id]? =
    if id ∈ done then r.publishedCounter verdict snapshot counters id else none
  rejections : ∀ id, judging.rejections[id]? =
    if id ∈ done ∧ r.rejects verdict snapshot counters id then some (r.rejectionsOf id) else none
  omitted : judging.omitted = done.filter (r.omits verdict snapshot counters)
  performs : ∃ ops, Performs r ops judging.reconciler ∧
    essential ops = (done.filter (r.drops snapshot)).map (.markServiceDirty · now timestamp)

namespace Judged

variable {done : List String} {judging : Judging}

/-- A service that left the cache. -/
theorem drop (h : Judged r verdict snapshot counters now timestamp done judging) {id : String}
    (hdrops : r.drops snapshot id = true) :
    Judged r verdict snapshot counters now timestamp (done ++ [id])
      { judging with
        reconciler := judging.reconciler.modifyState (·.markServiceDirty id now timestamp) } := by
  obtain ⟨hsnapshot, hcached⟩ : id ∈ snapshot.services ∧ id ∉ r.metadata := by
    simpa [drops] using hdrops
  obtain ⟨ops, hperforms, hops⟩ := h.performs
  have hnone : r.publishedCounter verdict snapshot counters id = none := by
    simp [publishedCounter, hcached]
  refine ⟨h.metadata, h.lastPublished, h.pollRejections, fun other => ?_, fun other => ?_, ?_,
    ops ++ [.markServiceDirty id now timestamp], hperforms.append (.single rfl), ?_⟩
  · rw [h.published]
    grind
  · rw [h.rejections]
    grind [rejects]
  · rw [h.omitted]
    simp [List.filter_append, omits, rejects, hcached]
  · simp [hops, List.filter_append, hdrops]

/-- A service that is not in the snapshot is skipped. -/
theorem skip (h : Judged r verdict snapshot counters now timestamp done judging) {id : String}
    (hsnapshot : id ∉ snapshot.services) :
    Judged r verdict snapshot counters now timestamp (done ++ [id]) judging := by
  obtain ⟨ops, hperforms, hops⟩ := h.performs
  refine ⟨h.metadata, h.lastPublished, h.pollRejections, fun other => ?_, fun other => ?_, ?_,
    ops, hperforms, ?_⟩
  · rw [h.published]
    grind [publishedCounter]
  · rw [h.rejections]
    grind [rejects]
  · rw [h.omitted]
    simp [List.filter_append, omits, rejects, hsnapshot]
  · simp [hops, List.filter_append, drops, hsnapshot]

/-- A service that gets the counter it was counted with. -/
theorem accept (h : Judged r verdict snapshot counters now timestamp done judging) {id : String}
    {counter : TaskCounter} (hjudged : id ∈ snapshot.services ∧ id ∈ r.metadata)
    (haccepted : acceptedCounter verdict snapshot counters id = some counter) :
    Judged r verdict snapshot counters now timestamp (done ++ [id])
      { judging with published := judging.published.insert id counter } := by
  obtain ⟨ops, hperforms, hops⟩ := h.performs
  have hsome : r.publishedCounter verdict snapshot counters id = some counter := by
    simp [publishedCounter, hjudged, haccepted]
  have hrejects : r.rejects verdict snapshot counters id = false := by
    simp [rejects, haccepted]
  refine ⟨h.metadata, h.lastPublished, h.pollRejections, fun other => ?_, fun other => ?_, ?_,
    ops, hperforms, ?_⟩
  · rw [Std.ExtTreeMap.getElem?_insert, h.published]
    grind
  · rw [h.rejections]
    grind
  · rw [h.omitted]
    simp [List.filter_append, omits, hrejects]
  · simp [hops, List.filter_append, drops, hjudged]

/-- The reconciler after one more rejection was counted. -/
def countRejection (r : Reconciler) : Reconciler :=
  { r with metrics := { r.metrics with pollRejections := r.metrics.pollRejections + 1 } }

/-- A rejected service: its series are kept, unless it was rejected too often or has none. -/
theorem reject (h : Judged r verdict snapshot counters now timestamp done judging) {id : String}
    (hrejects : r.rejects verdict snapshot counters id = true) :
    Judged r verdict snapshot counters now timestamp (done ++ [id])
      { reconciler := countRejection judging.reconciler
        published := (r.publishedCounter verdict snapshot counters id).elim judging.published
          (judging.published.insert id)
        rejections := judging.rejections.insert id (r.rejectionsOf id)
        omitted := judging.omitted ++
          if maxCarriedPolls < r.rejectionsOf id then [id] else [] } := by
  obtain ⟨ops, hperforms, hops⟩ := h.performs
  have hdrops : r.drops snapshot id = false := by
    simp only [rejects, Bool.and_eq_true, decide_eq_true_eq] at hrejects
    simp [drops, hrejects.1.2]
  have hcount : perform judging.reconciler (countRejection judging.reconciler).bookkeeping =
      some (countRejection judging.reconciler) := rfl
  refine ⟨h.metadata, h.lastPublished, h.pollRejections, fun other => ?_, fun other => ?_, ?_,
    _, hperforms.append (.single hcount), ?_⟩
  · cases hpublished : r.publishedCounter verdict snapshot counters id with
    | none =>
      rw [Option.elim_none, h.published]
      grind
    | some counter =>
      rw [Option.elim_some, Std.ExtTreeMap.getElem?_insert, h.published]
      grind
  · rw [Std.ExtTreeMap.getElem?_insert, h.rejections]
    grind
  · rw [h.omitted]
    by_cases hlimit : maxCarriedPolls < r.rejectionsOf id <;>
      simp [List.filter_append, omits, hrejects, hlimit]
  · simp [hops, List.filter_append, hdrops]

end Judged

/-- **One round of the loop judges one more service.** -/
theorem judgeService_judged {done : List String} {judging : Judging}
    (h : Judged r verdict snapshot counters now timestamp done judging) (id : String) :
    Judged r verdict snapshot counters now timestamp (done ++ [id])
      (judgeService verdict snapshot counters now timestamp judging id) := by
  cases hservice : snapshot.services[id]? with
  | none =>
    have hskip := h.skip (notMem_iff_getElem?.2 hservice)
    simpa only [judgeService, hservice] using hskip
  | some service =>
    have hsnapshot : id ∈ snapshot.services := mem_iff_getElem?.2 ⟨service, hservice⟩
    cases hcached : r.metadata[id]? with
    | none =>
      have hdrops : r.drops snapshot id = true := by
        simp [drops, hsnapshot, notMem_iff_getElem?.2 hcached]
      have hdrop := h.drop hdrops
      simpa only [judgeService, hservice, h.metadata, hcached] using hdrop
    | some metadata =>
      have hjudged : id ∈ snapshot.services ∧ id ∈ r.metadata :=
        ⟨hsnapshot, mem_iff_getElem?.2 ⟨metadata, hcached⟩⟩
      cases haccepted : acceptedCounter verdict snapshot counters id with
      | some counter =>
        obtain ⟨haccepts, hcounter⟩ : verdict.accepts snapshot id service = true ∧
            counters[id]? = some counter := by
          simpa [acceptedCounter, hservice] using haccepted
        have haccept := h.accept hjudged haccepted
        simpa only [judgeService, hservice, h.metadata, hcached, hcounter, haccepts] using haccept
      | none =>
        have hrejects : r.rejects verdict snapshot counters id = true := by
          simp [rejects, hjudged, haccepted]
        have hreject := h.reject hrejects
        have hpublished : r.publishedCounter verdict snapshot counters id =
            if maxCarriedPolls < r.rejectionsOf id then none else r.carriedCounter id := by
          simp [publishedCounter, hjudged, haccepted]
        have hround : judgeService verdict snapshot counters now timestamp judging id =
            { reconciler := Judged.countRejection judging.reconciler
              published := (r.publishedCounter verdict snapshot counters id).elim judging.published
                (judging.published.insert id)
              rejections := judging.rejections.insert id (r.rejectionsOf id)
              omitted := judging.omitted ++
                if maxCarriedPolls < r.rejectionsOf id then [id] else [] } := by
          have hcurrent : judging.reconciler.metadata[id]? = some metadata := by
            rw [h.metadata, hcached]
          have hrejections : judging.reconciler.pollRejections.getD id 0 + 1 = r.rejectionsOf id := by
            rw [h.pollRejections, rejectionsOf]
          rw [hpublished]
          simp only [judgeService, hservice, hcurrent]
          split
          · simp_all [acceptedCounter]
          · simp only [hrejections, carriedCounter, hcached, ← h.lastPublished]
            by_cases hlimit : maxCarriedPolls < r.rejectionsOf id
            · simp [hlimit, Judged.countRejection]
            · simp only [hlimit, ↓reduceIte, List.append_nil]
              cases hprevious : judging.reconciler.lastPublished[id]? with
              | none => rfl
              | some previous =>
                by_cases hlabels : previous.labels = labelsForMetadata metadata <;>
                  simp [hlabels, Judged.countRejection, Option.filter]
        rw [hround]
        exact hreject

/-- The loop over any list of ids. -/
theorem foldl_judgeService_judged {done : List String} {judging : Judging}
    (h : Judged r verdict snapshot counters now timestamp done judging) (ids : List String) :
    Judged r verdict snapshot counters now timestamp (done ++ ids)
      (ids.foldl (judgeService verdict snapshot counters now timestamp) judging) := by
  induction ids generalizing done judging with
  | nil => simpa using h
  | cons id ids ih =>
    rw [List.foldl_cons, List.append_cons]
    exact ih (judgeService_judged h id)

variable (r snapshot counters now timestamp)

/-- **The loop of a poll decides about every service of its snapshot.** -/
theorem judgeServices_judged :
    Judged r (r.state.currentPollVerdict snapshot) snapshot counters now timestamp snapshot.serviceIds
      (r.judgeServices snapshot counters now timestamp) := by
  have hstart : Judged r (r.state.currentPollVerdict snapshot) snapshot counters now timestamp []
      { reconciler := r } :=
    ⟨rfl, rfl, rfl, by simp, by simp, rfl, [], .nil, rfl⟩
  exact foldl_judgeService_judged hstart snapshot.serviceIds

omit [HostText] in
theorem mem_serviceIds {snapshot : PollSnapshot} {id : String} :
    id ∈ snapshot.serviceIds ↔ id ∈ snapshot.services := Std.ExtTreeMap.mem_keys

/-- The counters a poll publishes, once per service. -/
theorem judgeServices_published (id : String) :
    (r.judgeServices snapshot counters now timestamp).published[id]? =
      r.publishedCounter (r.state.currentPollVerdict snapshot) snapshot counters id := by
  rw [(judgeServices_judged r snapshot counters now timestamp).published]
  simp only [mem_serviceIds]
  split
  · rfl
  · rename_i hsnapshot
    rw [publishedCounter, if_neg fun h => hsnapshot h.1]

theorem judgeServices_rejections (id : String) :
    (r.judgeServices snapshot counters now timestamp).rejections[id]? =
      if r.rejects (r.state.currentPollVerdict snapshot) snapshot counters id then
        some (r.rejectionsOf id)
      else none := by
  rw [(judgeServices_judged r snapshot counters now timestamp).rejections]
  simp only [mem_serviceIds]
  by_cases hrejects : r.rejects (r.state.currentPollVerdict snapshot) snapshot counters id = true
  · have hsnapshot : id ∈ snapshot.services := by
      simp only [rejects, Bool.and_eq_true, decide_eq_true_eq] at hrejects
      exact hrejects.1.1
    simp [hrejects, hsnapshot]
  · simp [hrejects]

section Call

variable {r snapshot counters now timestamp} {visit : List String}

omit [HostText] in
/-- A poll whose families build is applied: published, with the services omitted as its failure. -/
theorem applyPollCounts_of_built {judging : Judging} {built : Map String BuiltFamily}
    (hjudging : r.judgeServices snapshot counters now timestamp = judging)
    (hbuilt : (judging.reconciler.replicasState.build judging.published visit).build = .ok built) :
    r.applyPollCounts snapshot counters now timestamp visit =
      ({ judging.reconciler with
          replicasState := { judging.reconciler.replicasState with current := some built }
          lastPublished := judging.published
          pollRejections := judging.rejections },
        if judging.omitted = [] then .ok ()
        else .error (.partiallyRejected (judging.omitted.mergeSort (· ≤ ·)))) := by
  subst hjudging
  simp only [applyPollCounts, ReplicasState.update, hbuilt]
  split <;> rfl

omit [HostText] in
/-- A poll whose families do not build publishes nothing. -/
theorem applyPollCounts_of_failed {judging : Judging} {error : BuildError}
    (hjudging : r.judgeServices snapshot counters now timestamp = judging)
    (hfailed : (judging.reconciler.replicasState.build judging.published visit).build =
      .error error) :
    r.applyPollCounts snapshot counters now timestamp visit =
      (judging.reconciler, .error
        (.publish ("build replicas state snapshot; keeping previous: " ++ error.display))) := by
  subst hjudging
  simp only [applyPollCounts, ReplicasState.update, hfailed]

end Call

/-- The operations of a poll: it marks the services that left the cache dirty, and publishes if the
families build. -/
theorem applyPollCounts_ops (visit : List String) :
    ∃ ops, Performs r ops (r.applyPollCounts snapshot counters now timestamp visit).1 ∧
      ∃ published, essential ops =
        (snapshot.serviceIds.filter (r.drops snapshot)).map (.markServiceDirty · now timestamp) ++
          published ∧
        ∀ op ∈ published, ∃ built counters rejections, op = .publish built counters rejections := by
  obtain ⟨ops, hperforms, hops⟩ :=
    (judgeServices_judged r snapshot counters now timestamp).performs
  generalize hjudging : r.judgeServices snapshot counters now timestamp = judging at hperforms
  cases hbuild : (judging.reconciler.replicasState.build judging.published visit).build with
  | error error =>
    rw [applyPollCounts_of_failed hjudging hbuild]
    exact ⟨ops, hperforms, [], by simp [hops], by simp⟩
  | ok built =>
    rw [applyPollCounts_of_built hjudging hbuild]
    refine ⟨ops ++ [.publish built judging.published judging.rejections],
      hperforms.append (.single rfl), [.publish built judging.published judging.rejections], ?_, ?_⟩
    · simp [hops]
    · simp

end Reconciler

end SwarmExporter
