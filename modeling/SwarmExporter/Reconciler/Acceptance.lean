import SwarmExporter.Reconciler.Generations
import SwarmExporter.Reconciler.Passes
import SwarmExporter.Reconciler.Polls

/-!
# When a poll is accepted

The verdict on a service compares generations, the epoch and the dirty set. Along a run these say what
happened between the snapshot and the poll: the generation of a cached service is the one of the
snapshot exactly if nothing touched the service since, the epoch exactly if no resync was requested,
and the node generation exactly if no operation touched the nodes. A counter that is accepted is
therefore published under the metadata it was counted for.
-/

namespace SwarmExporter

open Lib
open Docker (CallError Event Node Task)

/-- The verdict on a service of the snapshot, in terms of the state. -/
theorem State.accepts_iff {state : State} {snapshot : PollSnapshot} {id : String}
    {service : PollService} (hservice : snapshot.services[id]? = some service) :
    (state.currentPollVerdict snapshot).accepts snapshot id service = true ↔
      state.epoch = snapshot.epoch ∧ state.generationOf id = service.generation ∧
        id ∉ state.pendingSet ∧
        (service.metadata.serviceMode.nodeDependent = true →
          state.nodeGeneration = snapshot.nodeGeneration ∧ state.nodesDirty = false) := by
  have hgeneration : (state.currentPollVerdict snapshot).generations.getD id 0 =
      state.generationOf id := by
    simp [currentPollVerdict, Std.ExtTreeMap.getD_eq_getD_getElem?, hservice]
  have hdirty : (state.currentPollVerdict snapshot).dirty.getD id false =
      decide (id ∈ state.pendingSet) := by
    simp only [currentPollVerdict, Std.ExtTreeMap.getD_eq_getD_getElem?,
      Std.ExtTreeMap.getElem?_filterMap', hservice]
    by_cases hpending : id ∈ state.pendingSet <;> simp [hpending]
  unfold PollVerdict.accepts
  simp only [hgeneration, hdirty]
  simp only [currentPollVerdict]
  by_cases hepoch : state.epoch = snapshot.epoch <;>
    by_cases hgen : state.generationOf id = service.generation <;>
    by_cases hpending : id ∈ state.pendingSet <;>
    by_cases hnodes : state.nodeGeneration = snapshot.nodeGeneration <;>
    cases service.metadata.serviceMode.nodeDependent <;>
    simp [hepoch, hgen, hpending, hnodes]

namespace World

section Between

variable [HostText] {config : Config} {before between trace : List (Step World Action)}
  {w w' : World} {action : Action} {id : String}

/-- The epoch counts the requests. -/
theorem Runs.epoch (h : Runs config trace w) :
    w.reconciler.state.epoch + 1 = w.reconciler.state.resyncRequested := by
  refine Run.history (fun _ w => w.reconciler.state.epoch + 1 =
    w.reconciler.state.resyncRequested) rfl ?_ h
  intro trace w action w' hrun hepoch hstep
  rcases step_resync (Runs.wired hrun) (Runs.counted hrun).counted hstep with ⟨hraises, -⟩ | hcompletes
  · have hepoch' := hraises.epoch
    simp only [State.resyncs] at hepoch'
    omega
  · obtain ⟨_, _, _, _, _, _, -, -, -, -, hresyncs, -⟩ := hcompletes
    simp only [State.resyncs, State.completeResync, Resyncs.mk.injEq] at hresyncs
    omega

theorem Runs.generationInv (h : Runs config trace w) : w.reconciler.GenerationInv :=
  h.invariant Reconciler.GenerationInv (Reconciler.withPolicy_generationInv _ _ _)
    fun _ _ _ _ inv hperform => Reconciler.perform_generationInv inv hperform

/-- No step of `between` touched the service `id`. -/
def Untouched (id : String) (between : List (Step World Action)) : Prop :=
  ∀ st ∈ between, ∀ op, Ran st op → ¬op.Touches id

/-- No step of `between` touched the nodes. -/
def NodesUntouched (between : List (Step World Action)) : Prop :=
  ∀ st ∈ between, ∀ op, Ran st op → ¬op.TouchesNodes

/-- **The generation of a service cached at both ends is the same exactly if nothing touched it.** -/
theorem generationOf_eq_iff (hrun : Runs config before w) (hbetween : Run step w between w')
    (hcached : id ∈ w.reconciler.metadata) (hcached' : id ∈ w'.reconciler.metadata) :
    w'.reconciler.state.generationOf id = w.reconciler.state.generationOf id ↔
      Untouched id between := by
  have hrun' : Runs config (before ++ between) w' := hrun.append hbetween
  obtain ⟨value, hvalue⟩ := ((Runs.generationInv hrun).cached id).1 hcached
  obtain ⟨value', hvalue'⟩ := ((Runs.generationInv hrun').cached id).1 hcached'
  rw [Reconciler.generationOf_of_cachedAt hvalue, Reconciler.generationOf_of_cachedAt hvalue']
  constructor
  · rintro rfl st hst op hran htouches
    obtain ⟨ops, hperforms, hop⟩ := run_ops_of_ran (Runs.wired hrun) hbetween hst hran
    obtain ⟨-, houtdated⟩ := Reconciler.performs_touched hperforms hop htouches
      ((Runs.generationInv hrun).bounded id ⟨value', true⟩ hvalue)
    exact lt_irrefl _ (houtdated value' hvalue')
  · intro huntouched
    obtain ⟨ops, hperforms, hran⟩ := run_ops (Runs.wired hrun) hbetween
    obtain ⟨hkept, -⟩ := Reconciler.performs_untouched hperforms fun op hop => by
      obtain ⟨st, hst, hop⟩ := hran op hop
      exact huntouched st hst op hop
    have hsame := hvalue'.symm.trans ((hkept value).2 hvalue)
    cases hsame
    rfl

/-- **So is the node generation, exactly if nothing touched the nodes.** -/
theorem nodeGeneration_eq_iff (hrun : Runs config before w) (hbetween : Run step w between w') :
    w'.reconciler.state.nodeGeneration = w.reconciler.state.nodeGeneration ↔
      NodesUntouched between := by
  constructor
  · intro heq st hst op hran htouches
    obtain ⟨ops, hperforms, hop⟩ := run_ops_of_ran (Runs.wired hrun) hbetween hst hran
    have hlt := Reconciler.performs_nodes_touched hperforms hop htouches
    omega
  · intro huntouched
    obtain ⟨ops, hperforms, hran⟩ := run_ops (Runs.wired hrun) hbetween
    refine (Reconciler.performs_nodes_untouched hperforms fun op hop => ?_).1
    obtain ⟨st, hst, hop⟩ := hran op hop
    exact huntouched st hst op hop

/-- An untouched service keeps its metadata, if its counts do not depend on the nodes or these were not
touched either. -/
theorem metadata_eq_of_untouched (hrun : Runs config before w) (hbetween : Run step w between w')
    (huntouched : Untouched id between) {metadata : ServiceMetadata}
    (hmetadata : w.reconciler.metadata[id]? = some metadata)
    (hnodes : metadata.serviceMode.nodeDependent = true → NodesUntouched between) :
    w'.reconciler.metadata[id]? = some metadata ∧
      (metadata.serviceMode.nodeDependent = true → w'.reconciler.nodes = w.reconciler.nodes) := by
  obtain ⟨ops, hperforms, hran⟩ := run_ops (Runs.wired hrun) hbetween
  have hnodes' : metadata.serviceMode.nodeDependent = true →
      w'.reconciler.nodes = w.reconciler.nodes := by
    intro hdependent
    refine (Reconciler.performs_nodes_untouched hperforms fun op hop => ?_).2
    obtain ⟨st, hst, hop⟩ := hran op hop
    exact hnodes hdependent st hst op hop
  refine ⟨?_, hnodes'⟩
  obtain ⟨-, hspec⟩ := Reconciler.performs_untouched hperforms fun op hop => by
    obtain ⟨st, hst, hop⟩ := hran op hop
    exact huntouched st hst op hop
  rw [hmetadata] at hspec
  obtain ⟨metadata', hmetadata', hsame⟩ := Option.map_eq_some_iff.1 hspec
  -- Both have the counts of the nodes cached with them.
  have hdesired := (Runs.seriesInv hrun).replicas id metadata hmetadata
  have hdesired' := (Runs.seriesInv (hrun.append hbetween)).replicas id metadata' hmetadata'
  have hcounts : (replicaCounts metadata' w'.reconciler.nodes).1 =
      (replicaCounts metadata w.reconciler.nodes).1 := by
    have hcounts' : ∀ nodes, replicaCounts metadata' nodes = replicaCounts metadata nodes := by
      intro nodes
      calc
        replicaCounts metadata' nodes = replicaCounts metadata'.spec nodes := rfl
        _ = replicaCounts metadata.spec nodes := by rw [hsame]
        _ = replicaCounts metadata nodes := rfl
    rw [hcounts']
    by_cases hdependent : metadata.serviceMode.nodeDependent = true
    · rw [hnodes' hdependent]
    · rw [Bool.not_eq_true] at hdependent
      rw [replicaCounts_fst_of_not_nodeDependent hdependent,
        replicaCounts_fst_of_not_nodeDependent hdependent]
  have heq : metadata' = metadata := by
    calc
      metadata' = { metadata'.spec with desiredReplicas := metadata'.desiredReplicas } := rfl
      _ = { metadata.spec with desiredReplicas := metadata.desiredReplicas } := by
        rw [hsame, hdesired', hcounts, ← hdesired]
      _ = metadata := rfl
  rw [hmetadata', heq]

/-! ## The poll -/

/-- `poll` publishes `counter` for `id`, from this poll and not from an earlier one. -/
structure PublishedBy (poll : Step World Action) (id : String) (counter : TaskCounter)
    (visit : List String) : Prop where
  published : poll.post.reconciler.lastPublished[id]? = some counter
  fresh : poll.post.reconciler.pollRejections[id]? = none
  built : ∃ built,
    (poll.post.reconciler.replicasState.build poll.post.reconciler.lastPublished visit).build =
      .ok built ∧ poll.post.reconciler.replicasState.current = some built

/-- Nothing about the service `id` of a snapshot changed between the world `asked` that handed it out
and the world `judged`, and no change is waiting. -/
structure Unchanged (id : String) (service : PollService) (asked : World)
    (between : List (Step World Action)) (judged : World) : Prop where
  /-- No event marked it, and it was neither applied nor removed. -/
  untouched : Untouched id between
  /-- No resync was requested. -/
  requested : judged.reconciler.state.resyncRequested = asked.reconciler.state.resyncRequested
  pending : id ∉ judged.reconciler.state.pendingSet
  /-- Where its mode depends on the nodes, no event marked them and no list was applied. -/
  nodes : service.metadata.serviceMode.nodeDependent = true →
    NodesUntouched between ∧ judged.reconciler.state.nodesDirty = false

theorem buildPollSnapshot_step (h : w.step .buildPollSnapshot = some w') :
    w'.reconciler = w.reconciler := by
  simp only [step, Option.ite_none_right_eq_some, Option.some.injEq] at h
  obtain ⟨-, rfl⟩ := h
  rfl

/-- What a poll of counted tasks publishes. -/
theorem poll_publishes {snapshot : PollSnapshot} {counters : ServiceCounter} {timestamp : Timestamp}
    {visit : List String} (hrun : Runs config before w) (hcounters : LabelledBy snapshot counters)
    (h : w.step (.applyPollCounts snapshot counters timestamp visit) = some w') :
    w.reconciler.Publishes snapshot counters visit w'.reconciler := by
  simp only [step, Option.ite_none_right_eq_some, Option.some.injEq] at h
  obtain ⟨⟨-, -, hmem, -⟩, rfl⟩ := h
  have hlabelled := Runs.snapshots_labelled hrun snapshot hmem
  rw [← Runs.customLabels hrun] at hlabelled
  exact (Reconciler.applyPollCounts_of_builds
    (Reconciler.builds_of_labelledBy (Runs.wired hrun) hlabelled hcounters _ _ _)).1

/-- **What the verdict says about a run.** -/
theorem accepts_iff_unchanged {service : PollService} (hrun : Runs config before w)
    (hbetween : Run step w between w')
    (hservice : w.reconciler.buildPollSnapshot.services[id]? = some service)
    (hcached : id ∈ w'.reconciler.metadata) :
    (w'.reconciler.state.currentPollVerdict w.reconciler.buildPollSnapshot).accepts
        w.reconciler.buildPollSnapshot id service = true ↔
      Unchanged id service w between w' := by
  have hservice' := hservice
  rw [Reconciler.getElem?_buildPollSnapshot] at hservice'
  obtain ⟨metadata, hmetadata, hnew⟩ := Option.map_eq_some_iff.1 hservice'
  have hgeneration : service.generation = w.reconciler.state.generationOf id := by
    rw [← hnew]
    rfl
  have hsnapshotCached : id ∈ w.reconciler.metadata := mem_iff_getElem?.2 ⟨metadata, hmetadata⟩
  have hepoch := Runs.epoch hrun
  have hepoch' := Runs.epoch (hrun.append hbetween)
  have hrequests : w'.reconciler.state.epoch = w.reconciler.state.epoch ↔
      w'.reconciler.state.resyncRequested = w.reconciler.state.resyncRequested := by
    omega
  rw [State.accepts_iff hservice, hgeneration,
    generationOf_eq_iff hrun hbetween hsnapshotCached hcached]
  show w'.reconciler.state.epoch = w.reconciler.state.epoch ∧ _ ∧ _ ∧
    (_ → w'.reconciler.state.nodeGeneration = w.reconciler.state.nodeGeneration ∧ _) ↔ _
  rw [hrequests, nodeGeneration_eq_iff hrun hbetween]
  constructor
  · rintro ⟨hrequested, huntouched, hpending, hnodes⟩
    exact ⟨huntouched, hrequested, hpending, hnodes⟩
  · rintro ⟨huntouched, hrequested, hpending, hnodes⟩
    exact ⟨hrequested, huntouched, hpending, hnodes⟩

/-- A service that is accepted is cached with the metadata of the snapshot. -/
theorem metadata_of_unchanged {service : PollService} (hrun : Runs config before w)
    (hbetween : Run step w between w')
    (hservice : w.reconciler.buildPollSnapshot.services[id]? = some service)
    (h : Unchanged id service w between w') :
    w'.reconciler.metadata[id]? = some service.metadata ∧
      (service.metadata.serviceMode.nodeDependent = true →
        w'.reconciler.nodes = w.reconciler.nodes) := by
  rw [Reconciler.getElem?_buildPollSnapshot] at hservice
  obtain ⟨metadata, hmetadata, rfl⟩ := Option.map_eq_some_iff.1 hservice
  exact metadata_eq_of_untouched hrun hbetween h.untouched hmetadata fun hdependent =>
    (h.nodes hdependent).1

/-- A snapshot in use was handed out by a step of the run. -/
theorem Runs.snapshot_built (h : Runs config trace w) {snapshot : PollSnapshot}
    (hmem : snapshot ∈ w.snapshots) :
    ∃ before build after, trace = before ++ build :: after ∧ build.act = .buildPollSnapshot ∧
      snapshot = build.pre.reconciler.buildPollSnapshot := by
  have hinv := Run.history (fun trace w => ∀ snapshot ∈ w.snapshots, ∃ build ∈ trace,
    build.act = .buildPollSnapshot ∧ snapshot = build.pre.reconciler.buildPollSnapshot)
    (by simp [init]) (fun trace w action w' _ hinv hstep snapshot hmem => by
      rcases step_snapshots hstep hmem with hold | ⟨rfl, rfl⟩
      · obtain ⟨build, hbuild, hact⟩ := hinv snapshot hold
        exact ⟨build, List.mem_append_left _ hbuild, hact⟩
      · exact ⟨_, List.mem_append_right _ (List.mem_singleton.2 rfl), rfl, rfl⟩) h
  obtain ⟨build, hbuild, hact⟩ := hinv snapshot hmem
  obtain ⟨before, after, rfl⟩ := List.append_of_mem hbuild
  exact ⟨before, build, after, rfl, hact⟩

/-- **A counter is accepted under the metadata it was counted for.** -/
theorem metadata_of_accepts {snapshot : PollSnapshot} {service : PollService}
    (h : Runs config trace w) (hmem : snapshot ∈ w.snapshots)
    (hservice : snapshot.services[id]? = some service) (hcached : id ∈ w.reconciler.metadata)
    (haccepts : (w.reconciler.state.currentPollVerdict snapshot).accepts snapshot id service = true) :
    w.reconciler.metadata[id]? = some service.metadata := by
  obtain ⟨before, build, after, rfl, hbuild, rfl⟩ := Runs.snapshot_built h hmem
  obtain ⟨hbefore, hstep, hafter⟩ := Run.of_mid h
  have hrun : Runs config (before ++ [build]) build.post := hbefore.snoc hstep
  rw [hbuild] at hstep
  rw [← buildPollSnapshot_step hstep] at hservice haccepts
  have hunchanged := (accepts_iff_unchanged hrun hafter hservice hcached).1 haccepts
  exact (metadata_of_unchanged hrun hafter hservice hunchanged).1

/-- **The acceptance of a poll is a statement about the run.** Let a snapshot be handed out at `build`
and the counters of its tasks be submitted at `poll`. A service of the snapshot that is still cached and
has a counter gets it published from this poll if and only if in between no event marked the service,
it was neither applied nor removed, no resync was requested, it is not waiting in the dirty set, and,
where its mode depends on the nodes, neither an event nor a list touched these and they are not dirty.
The counter is then published under the metadata the snapshot has, which is the cached one. -/
theorem poll_acceptance {build poll : Step World Action} {after : List (Step World Action)}
    {counters : ServiceCounter} {timestamp : Timestamp} {visit : List String}
    {listed : Except CallError (List Task)} {order : List LatestKey} {service : PollService}
    {counter : TaskCounter} (h : Runs config (before ++ build :: between ++ poll :: after) w)
    (hbuild : build.act = .buildPollSnapshot)
    (hpoll : poll.act =
      .applyPollCounts build.pre.reconciler.buildPollSnapshot counters timestamp visit)
    (hcounted : pollReplicasState build.pre.reconciler.buildPollSnapshot listed order = .ok counters)
    (hservice : build.pre.reconciler.buildPollSnapshot.services[id]? = some service)
    (hcached : id ∈ poll.pre.reconciler.metadata) (hcounter : counters[id]? = some counter) :
    (PublishedBy poll id counter visit ↔ Unchanged id service build.post between poll.pre) ∧
    (PublishedBy poll id counter visit →
      poll.pre.reconciler.metadata[id]? = some service.metadata ∧
        counter.labels = labelsForMetadata service.metadata ∧
        (service.metadata.serviceMode.nodeDependent = true →
          poll.pre.reconciler.nodes = build.pre.reconciler.nodes)) := by
  obtain ⟨hprior, hpollStep, -⟩ := Run.of_mid h
  obtain ⟨hbefore, hbuildStep, hbetween⟩ := Run.of_mid hprior
  have hrun : Runs config (before ++ [build]) build.post := hbefore.snoc hbuildStep
  rw [hbuild] at hbuildStep
  have hsame := buildPollSnapshot_step hbuildStep
  rw [← hsame] at hpoll hcounted hservice
  rw [hpoll] at hpollStep
  have hlabels := pollReplicasState_labelledBy hcounted
  have hpublishes := poll_publishes hprior hlabels hpollStep
  have hmem : id ∈ build.post.reconciler.buildPollSnapshot.services :=
    mem_iff_getElem?.2 ⟨service, hservice⟩
  have haccepts := accepts_iff_unchanged hrun hbetween hservice hcached
  have hiff : PublishedBy poll id counter visit ↔ Unchanged id service build.post between poll.pre := by
    rw [← haccepts]
    constructor
    · rintro ⟨-, hfresh, -⟩
      rw [hpublishes.rejections] at hfresh
      by_contra hrejected
      have hnone : Reconciler.acceptedCounter
          (poll.pre.reconciler.state.currentPollVerdict build.post.reconciler.buildPollSnapshot)
          build.post.reconciler.buildPollSnapshot counters id = none := by
        simp only [Reconciler.acceptedCounter, hservice]
        rw [if_neg hrejected]
      simp [Reconciler.rejects, hmem, hcached, hnone] at hfresh
    · intro haccepted
      have haccepted' : Reconciler.acceptedCounter
          (poll.pre.reconciler.state.currentPollVerdict build.post.reconciler.buildPollSnapshot)
          build.post.reconciler.buildPollSnapshot counters id = some counter := by
        simp [Reconciler.acceptedCounter, hservice, haccepted, hcounter]
      refine ⟨?_, ?_, hpublishes.built⟩
      · rw [hpublishes.published]
        simp [Reconciler.publishedCounter, hmem, hcached, haccepted']
      · rw [hpublishes.rejections]
        simp [Reconciler.rejects, haccepted']
  refine ⟨hiff, fun hpublished => ?_⟩
  obtain ⟨hkept, hsameNodes⟩ := metadata_of_unchanged hrun hbetween hservice (hiff.1 hpublished)
  refine ⟨hkept, ?_, fun hdependent => (hsameNodes hdependent).trans (by rw [hsame])⟩
  obtain ⟨found, hfound, hcarried⟩ := hlabels id counter hcounter
  rw [hservice] at hfound
  cases hfound
  have hlabelled := Reconciler.buildPollSnapshot_labelled (Runs.wired hrun) id service hservice
  exact hcarried.trans hlabelled.1

end Between

open Sample in
/-- An event of another service between the snapshot and the poll. -/
theorem poll_acceptance_sample : ∃ trace w before build between poll after service counter,
    Runs config trace w ∧ trace = before ++ build :: between ++ poll :: after ∧
    (PublishedBy poll "web" counter ["web"] ↔ Unchanged "web" service build.post between poll.pre) := by
  let resynced : List Action := resyncCycle [replicated "web" "web" 2] [] ["web"]
  let other : Event := { kind := "service", actor := ⟨"db"⟩ }
  let check (snapshot : PollSnapshot) (st : Step World Action) : Bool :=
    match st.act with
    | .buildPollSnapshot => decide (st.pre.reconciler.buildPollSnapshot = snapshot)
    | .applyPollCounts .. => decide ("web" ∈ st.pre.reconciler.metadata)
    | _ => true
  obtain ⟨snapshot, hreplay, hservice, hcounter, hcounted⟩ : ∃ snapshot,
      (replay step (init config) (resynced ++ [.buildPollSnapshot, .enqueueEvent other 0 1000,
        .applyPollCounts snapshot (noTasks snapshot) 1000 ["web"]])).any
        (fun result => result.1.all (check snapshot)) = true ∧
      snapshot.services["web"]?.isSome = true ∧ (noTasks snapshot)["web"]?.isSome = true ∧
      pollReplicasState snapshot (.ok []) [] = .ok (noTasks snapshot) :=
    ⟨snapshotAfter resynced, by decide +kernel, by decide +kernel, by decide +kernel,
      by decide +kernel⟩
  obtain ⟨service, hservice⟩ := Option.isSome_iff_exists.1 hservice
  obtain ⟨counter, hcounter⟩ := Option.isSome_iff_exists.1 hcounter
  obtain ⟨trace, w, hrun, hacts, hcheck⟩ := exists_run_of_replay hreplay
  obtain ⟨before, rest, rfl, -, hrest⟩ := List.map_eq_append_iff.1 hacts
  obtain ⟨build, rest, rfl, hbuild, hrest⟩ := List.map_eq_cons_iff.1 hrest
  obtain ⟨event, rest, rfl, -, hrest⟩ := List.map_eq_cons_iff.1 hrest
  obtain ⟨poll, after, rfl, hpoll, -⟩ := List.map_eq_cons_iff.1 hrest
  have hsnapshot : build.pre.reconciler.buildPollSnapshot = snapshot := by
    have hbuilt := List.all_eq_true.1 hcheck build (by simp)
    simp only [check, hbuild] at hbuilt
    exact of_decide_eq_true hbuilt
  have hcached : "web" ∈ poll.pre.reconciler.metadata := by
    have hpolled := List.all_eq_true.1 hcheck poll (by simp)
    simp only [check, hpoll] at hpolled
    exact of_decide_eq_true hpolled
  have htrace : before ++ build :: event :: poll :: after =
      before ++ build :: [event] ++ poll :: after := by simp
  rw [htrace] at hrun
  subst hsnapshot
  exact ⟨_, w, before, build, [event], poll, after, service, counter, hrun, rfl,
    (poll_acceptance hrun hbuild hpoll hcounted hservice hcached hcounter).1⟩

end World

end SwarmExporter
