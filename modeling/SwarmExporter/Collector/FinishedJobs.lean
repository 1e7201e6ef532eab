import SwarmExporter.Collector.Published
import SwarmExporter.Collector.TaskReference

/-!
# When a job is finished

A job is at its desired replicas once it is finished. For a replicated job that is a count: every wanted
chosen task is complete, and there are as many of them as the job has to complete. For a global job it
goes by node identity: every node that is eligible now has a wanted completed task of its own. That
there are then at least as many completed tasks as eligible nodes is the counting step the source leaves
to the reader (`countEligibleNodes_le`); it needs that no two nodes have one ID.
-/

namespace SwarmExporter

open Lib
open Docker (CallError Node Placement Task)

/-! ## Wanted tasks that are complete -/

section Complete

variable {tasks : List Task} {nodes : List Node}

theorem wantedTask_iff {task : Task} : wantedTask task = true ↔ retiredTask task = false := by
  simp [wantedTask]

theorem wantedComplete_iff {task : Task} : wantedComplete task = true ↔
    retiredTask task = false ∧ task.status.state = taskStateComplete := by
  simp [wantedComplete]

/-- As many tasks are wanted and complete as are wanted, exactly when no wanted task is incomplete. -/
theorem countP_wantedComplete_eq_iff : tasks.countP wantedComplete = tasks.countP wantedTask ↔
    ∀ task ∈ tasks, retiredTask task = false → task.status.state = taskStateComplete := by
  have hboth : tasks.countP wantedComplete =
      (tasks.filter wantedTask).countP (·.status.state == taskStateComplete) := by
    rw [List.countP_filter]
    apply List.countP_congr
    intro task _
    simp [wantedComplete, wantedTask, and_comm]
  rw [hboth, List.countP_eq_length_filter (p := wantedTask), List.countP_eq_length]
  constructor
  · intro hall task htask hwanted
    simpa using hall task (List.mem_filter.2 ⟨htask, wantedTask_iff.2 hwanted⟩)
  · intro hall task htask
    obtain ⟨htask, hwanted⟩ := List.mem_filter.1 htask
    simpa using hall task htask (wantedTask_iff.1 hwanted)

theorem mem_completedNodes {nodeId : String} : nodeId ∈ completedNodes tasks ↔
    ∃ task ∈ tasks, wantedComplete task = true ∧ task.nodeId = nodeId := by
  simp [completedNodes, and_assoc]

theorem eligibleNodesCovered_iff [HostText] {placement : Option Placement} :
    eligibleNodesCovered nodes placement (completedNodes tasks) = true ↔
      nodes ≠ [] ∧ ∀ node ∈ nodes, nodeEligible (some node) placement = true →
        ∃ task ∈ tasks, wantedComplete task = true ∧ task.nodeId = node.id := by
  simp [eligibleNodesCovered, mem_completedNodes, or_iff_not_imp_left]

/-- **Covering the eligible nodes takes as many completed tasks**: their IDs are distinct, and each is
the node of one. -/
theorem countEligibleNodes_le [HostText] {placement : Option Placement}
    (hnodes : (nodes.map (·.id)).Nodup)
    (hcovered : ∀ node ∈ nodes, nodeEligible (some node) placement = true →
      ∃ task ∈ tasks, wantedComplete task = true ∧ task.nodeId = node.id) :
    countEligibleNodes nodes placement ≤ tasks.countP wantedComplete := by
  let eligible := nodes.filter fun node => nodeEligible (some node) placement
  have hnodup : (eligible.map (·.id)).Nodup := (List.filter_sublist.map _).nodup hnodes
  have hsubset : eligible.map (·.id) ⊆ completedNodes tasks := by
    intro nodeId hnodeId
    obtain ⟨node, hnode, rfl⟩ := List.mem_map.1 hnodeId
    obtain ⟨hnode, heligible⟩ := List.mem_filter.1 hnode
    exact mem_completedNodes.2 (hcovered node hnode heligible)
  calc countEligibleNodes nodes placement
      = (eligible.map (·.id)).length := by
        rw [countEligibleNodes, List.countP_eq_length_filter, List.length_map]
    _ ≤ (completedNodes tasks).length := (hnodup.subperm hsubset).length_le
    _ = tasks.countP wantedComplete := by
        rw [completedNodes, List.length_map, List.countP_eq_length_filter]

end Complete

/-! ## The verdicts -/

section Verdict

variable [HostText] {snapshot : PollSnapshot} {custom : CustomLabels} {tasks chosen : List Task}
  {visit : List LatestKey} {counters : ServiceCounter} {id : String} {service : PollService}
  {counter : TaskCounter}

/-- A task of the service's current iteration. -/
def CurrentIteration (service : PollService) (task : Task) : Prop :=
  task.jobIteration.map (·.index) = some service.metadata.jobIteration

instance (service : PollService) : DecidablePred (CurrentIteration service) :=
  fun _ => inferInstanceAs (Decidable (_ = _))

/-- A global job with these chosen tasks is finished: it ran, no wanted task is incomplete, and every
node that is eligible now has a wanted completed one of its own. -/
structure GlobalJobFinished (snapshot : PollSnapshot) (service : PollService) (chosen : List Task) :
    Prop where
  nodes : snapshot.nodes ≠ []
  ran : ∃ task ∈ chosen, retiredTask task = false
  complete : ∀ task ∈ chosen, retiredTask task = false → task.status.state = taskStateComplete
  covered : ∀ node ∈ snapshot.nodes,
    nodeEligible (some node) (placementFromMetadata service.metadata) = true →
    ∃ task ∈ chosen, retiredTask task = false ∧ task.status.state = taskStateComplete ∧
      CurrentIteration service task ∧ task.nodeId = node.id

/-- A replicated job with these chosen tasks is finished: no wanted task of the current iteration is
incomplete, and there are as many as it has to complete. -/
structure ReplicatedJobFinished (service : PollService) (chosen : List Task) : Prop where
  complete : ∀ task ∈ chosen, CurrentIteration service task → retiredTask task = false →
    task.status.state = taskStateComplete
  enough : service.metadata.configuredReplicas ≤
    (chosen.countP fun task => wantedTask task ∧ CurrentIteration service task : Nat)

omit [HostText] in
/-- The chosen tasks of a job are of its current iteration. -/
theorem currentIteration_of_mem_chosenTasks (hservice : snapshot.services[id]? = some service)
    (hjob : service.metadata.serviceMode = .replicatedJob ∨ service.metadata.serviceMode = .globalJob)
    {task : Task} (htask : task ∈ chosenTasks (latestTasks snapshot tasks) visit id) :
    CurrentIteration service task := by
  obtain ⟨key, hkey, hlatest⟩ := List.mem_filterMap.1 htask
  obtain ⟨found, hfound, ⟨-, hiteration⟩, heq⟩ :=
    countedKey_iff.1 (mem_keyTasks.1 (crowned_of_latestTasks hlatest).mem).2
  have hid : key.serviceId = id := by simpa using (List.mem_filter.1 hkey).2
  obtain rfl : task.serviceId = id := by rw [← hid, heq, keyAt_serviceId]
  rw [hservice] at hfound
  cases hfound
  exact hiteration hjob

theorem serviceCounter_wantedComplete (snapshot : PollSnapshot) (service : PollService)
    (tasks : List Task) :
    (serviceCounter snapshot service tasks).wantedComplete = tasks.countP wantedComplete := by
  rw [← countService_wantedComplete service]
  unfold serviceCounter
  split <;> rfl

omit [HostText] in
theorem countService_desired (service : PollService) (tasks : List Task) :
    (countService service tasks).desired = service.metadata.desiredReplicas ∧
      (countService service tasks).desiredKnown = true := by
  induction tasks using List.reverseRecOn with
  | nil => exact ⟨rfl, rfl⟩
  | append_singleton tasks task ih =>
    rw [countService_snoc, TaskCounter.add_eq _ false]
    exact ih

/-- The counter keeps the labels and the desired replicas of the service. -/
theorem serviceCounter_service (snapshot : PollSnapshot) (service : PollService) (tasks : List Task) :
    (serviceCounter snapshot service tasks).labels = service.labels ∧
      (serviceCounter snapshot service tasks).desired = service.metadata.desiredReplicas ∧
      (serviceCounter snapshot service tasks).desiredKnown = true := by
  have hlabels := countService_labels service tasks
  have hdesired := countService_desired service tasks
  unfold serviceCounter
  split
  · exact ⟨hlabels, hdesired⟩
  · exact ⟨hlabels, hdesired⟩

/-- What is published of a job's counter. -/
theorem atDesired_job {base : Labels} {mode : Mode} (hmode : base.getD labelServiceMode "" = mode.asStr)
    (hjob : mode = .replicatedJob ∨ mode = .globalJob) :
    atDesired base (serviceCounter snapshot service chosen) =
      if jobAtDesired mode.asStr (serviceCounter snapshot service chosen)
        service.metadata.desiredReplicas then 1 else 0 := by
  obtain ⟨-, hdesired, hknown⟩ := serviceCounter_service snapshot service chosen
  unfold atDesired
  simp only [hknown, hdesired, hmode, isJobMode_asStr, hjob, decide_true, Bool.not_true, if_true,
    Bool.false_eq_true, if_false]

theorem jobAtDesired_replicatedJob (desired : Gauge) :
    jobAtDesired Mode.replicatedJob.asStr (serviceCounter snapshot service chosen) desired = true ↔
      (∀ task ∈ chosen, retiredTask task = false → task.status.state = taskStateComplete) ∧
        desired ≤ (chosen.countP wantedTask : Nat) := by
  unfold jobAtDesired
  rw [serviceCounter_wanted, serviceCounter_wantedComplete]
  simp only [beq_self_eq_true, if_true, Bool.and_eq_true, beq_iff_eq, decide_eq_true_eq,
    countP_wantedComplete_eq_iff]
  apply and_congr_right
  intro hall
  rw [countP_wantedComplete_eq_iff.2 hall]

theorem jobAtDesired_globalJob (desired : Gauge)
    (hmode : service.labels.getD labelServiceMode "" = Mode.globalJob.asStr) :
    jobAtDesired Mode.globalJob.asStr (serviceCounter snapshot service chosen) desired = true ↔
      (∃ task ∈ chosen, retiredTask task = false) ∧
        (∀ task ∈ chosen, retiredTask task = false → task.status.state = taskStateComplete) ∧
        snapshot.nodes ≠ [] ∧ ∀ node ∈ snapshot.nodes,
          nodeEligible (some node) (placementFromMetadata service.metadata) = true →
          ∃ task ∈ chosen, wantedComplete task = true ∧ task.nodeId = node.id := by
  unfold jobAtDesired
  have hother : (Mode.globalJob.asStr == Mode.replicatedJob.asStr) = false := by decide
  rw [serviceCounter_wanted, serviceCounter_wantedComplete, hother]
  simp only [Bool.false_eq_true, if_false, Bool.and_eq_true, decide_eq_true_eq, beq_iff_eq,
    countP_wantedComplete_eq_iff, List.countP_pos_iff, wantedTask_iff, and_assoc]
  apply and_congr_right
  rintro ⟨task, htask, -⟩
  have hnonempty : chosen ≠ [] := List.ne_nil_of_mem htask
  have hcovered : (serviceCounter snapshot service chosen).eligibleNodesCovered =
      eligibleNodesCovered snapshot.nodes (placementFromMetadata service.metadata)
        (completedNodes chosen) := by
    unfold serviceCounter
    rw [if_neg (by simp [hnonempty, hmode])]
  rw [hcovered, eligibleNodesCovered_iff]

theorem atDesired_globalJob (hmode : service.labels.getD labelServiceMode "" = Mode.globalJob.asStr)
    (hcurrent : ∀ task ∈ chosen, CurrentIteration service task) :
    (GlobalJobFinished snapshot service chosen →
      atDesired service.labels (serviceCounter snapshot service chosen) = 1) ∧
    (¬GlobalJobFinished snapshot service chosen →
      atDesired service.labels (serviceCounter snapshot service chosen) = 0) := by
  have hiff : GlobalJobFinished snapshot service chosen ↔ jobAtDesired Mode.globalJob.asStr
      (serviceCounter snapshot service chosen) service.metadata.desiredReplicas = true := by
    rw [jobAtDesired_globalJob _ hmode]
    constructor
    · rintro ⟨hnodes, hran, hcomplete, hcovered⟩
      refine ⟨hran, hcomplete, hnodes, fun node hnode heligible => ?_⟩
      obtain ⟨task, htask, hwanted, hdone, -, hid⟩ := hcovered node hnode heligible
      exact ⟨task, htask, wantedComplete_iff.2 ⟨hwanted, hdone⟩, hid⟩
    · rintro ⟨hran, hcomplete, hnodes, hcovered⟩
      refine ⟨hnodes, hran, hcomplete, fun node hnode heligible => ?_⟩
      obtain ⟨task, htask, hdone, hid⟩ := hcovered node hnode heligible
      obtain ⟨hwanted, hdone⟩ := wantedComplete_iff.1 hdone
      exact ⟨task, htask, hwanted, hdone, hcurrent task htask, hid⟩
  rw [atDesired_job hmode (.inr rfl), hiff]
  exact ⟨fun hfinished => if_pos hfinished, fun hunfinished => if_neg hunfinished⟩

theorem atDesired_replicatedJob
    (hmode : service.labels.getD labelServiceMode "" = Mode.replicatedJob.asStr)
    (hcurrent : ∀ task ∈ chosen, CurrentIteration service task)
    (hdesired : service.metadata.desiredReplicas = service.metadata.configuredReplicas) :
    atDesired service.labels (serviceCounter snapshot service chosen) = 1 ↔
      ReplicatedJobFinished service chosen := by
  have hcount : (chosen.countP fun task => wantedTask task ∧ CurrentIteration service task) =
      chosen.countP wantedTask := by
    apply List.countP_congr
    intro task htask
    simp [hcurrent task htask]
  have hiff : ReplicatedJobFinished service chosen ↔ jobAtDesired Mode.replicatedJob.asStr
      (serviceCounter snapshot service chosen) service.metadata.desiredReplicas = true := by
    rw [jobAtDesired_replicatedJob, hdesired]
    constructor
    · rintro ⟨hcomplete, henough⟩
      rw [hcount] at henough
      exact ⟨fun task htask => hcomplete task htask (hcurrent task htask), henough⟩
    · rintro ⟨hcomplete, henough⟩
      rw [← hcount] at henough
      exact ⟨fun task htask _ => hcomplete task htask, henough⟩
  rw [atDesired_job hmode (.inl rfl), hiff]
  split
  · rename_i hfinished
    simp [hfinished]
  · rename_i hunfinished
    simp [hunfinished]

/-- The published value of the at-desired series with these labels. -/
def ReplicasState.atDesiredValue (families : ReplicasState) (labels : Labels) : Option Gauge :=
  families.current.bind fun built =>
    seriesValue built families.atDesiredDesc.name (families.atDesiredDesc.values labels)

/-- The counters of a poll can be published, and the at-desired series of a service has the value of its
counter, unless another service has the same labels. -/
theorem atDesiredValue_of_poll (accepted : custom.Accepted) (labelled : snapshot.Labelled custom)
    (hcounters : pollReplicasState snapshot (.ok tasks) visit = .ok counters)
    (hservice : snapshot.services[id]? = some service) (hcounter : counters[id]? = some counter)
    (halone : ∀ (other : String) (service' : PollService), snapshot.services[other]? = some service' →
      service'.labels = service.labels → other = id)
    {order : List String} (horder : Enumerates order counters) :
    ∃ families, (ReplicasState.new custom).update counters order = .ok families ∧
      families.atDesiredValue service.labels =
        some (atDesired (sanitizeMetricLabels counter.labels) counter) := by
  have hfits : ∀ (other : String) (counter' : TaskCounter), counters[other]? = some counter' →
      ∃ service', snapshot.services[other]? = some service' ∧ counter'.labels = service'.labels ∧
        (ReplicasState.new custom).Fits counter'.labels := by
    intro other counter' hcounter'
    rw [getElem?_pollReplicasState hcounters, Option.map_eq_some_iff] at hcounter'
    obtain ⟨service', hservice', rfl⟩ := hcounter'
    have hlabels := (serviceCounter_service snapshot service'
      (chosenTasks (latestTasks snapshot tasks) visit other)).1
    obtain ⟨heq, hcustom⟩ := labelled other service' hservice'
    refine ⟨service', hservice', hlabels, ?_⟩
    rw [hlabels, heq]
    exact replicasState_fits accepted hcustom
  have hbuild : ((ReplicasState.new custom).build counters order).build =
      .ok ((ReplicasState.new custom).build counters order).families := by
    apply ReplicasState.build_ok
    intro other counter' hcounter'
    obtain ⟨-, -, -, hfitted⟩ := hfits other counter' hcounter'
    exact hfitted
  refine ⟨_, by rw [ReplicasState.update, hbuild], ?_⟩
  obtain ⟨found, hfound, hlabels, hfitted⟩ := hfits id counter hcounter
  rw [hservice] at hfound
  cases hfound
  have hentry : (⟨(ReplicasState.new custom).atDesiredDesc, sanitizeMetricLabels counter.labels,
      atDesired (sanitizeMetricLabels counter.labels) counter⟩ : SeriesEntry) ∈
      (ReplicasState.new custom).series counter := by
    simp [ReplicasState.series]
  have hvalue := ReplicasState.seriesValue_of_build horder hbuild hcounter hentry ?_
  · rw [hfitted.sanitized, hlabels] at hvalue
    rw [hfitted.sanitized, hlabels]
    exact hvalue
  · -- The three families have different names, and a series of this one is that of its labels.
    intro other counter' hcounter' entry hseries hnames
    obtain ⟨service', hservice', hlabels', hfitted'⟩ := hfits other counter' hcounter'
    simp only [ReplicasState.series, List.mem_append, List.mem_map, List.mem_cons, List.not_mem_nil,
      or_false] at hseries
    rcases hseries with ⟨state, -, rfl⟩ | rfl | rfl
    · exact absurd hnames.1 (by simp [ReplicasState.new])
    · exact absurd hnames.1 (by simp [ReplicasState.new])
    · have hvalues := hnames.2
      simp only [hfitted.sanitized, hfitted'.sanitized, hfitted.atDesired.values_eq,
        hfitted'.atDesired.values_eq] at hvalues
      have hsame := hfitted.atDesired.key_inj hfitted'.atDesired hvalues
      rw [hlabels, hlabels'] at hsame
      obtain rfl := halone other service' hservice' hsame.symm
      rw [hcounter] at hcounter'
      cases hcounter'
      rfl

/-- Every eligible node of a finished global job has a completed task of its own. -/
theorem GlobalJobFinished.completed (hfinished : GlobalJobFinished snapshot service chosen) :
    ∀ node ∈ snapshot.nodes,
      nodeEligible (some node) (placementFromMetadata service.metadata) = true →
      ∃ task ∈ chosen, wantedComplete task = true ∧ task.nodeId = node.id := by
  intro node hnode heligible
  obtain ⟨task, htask, hwanted, hdone, -, hid⟩ := hfinished.covered node hnode heligible
  exact ⟨task, htask, wantedComplete_iff.2 ⟨hwanted, hdone⟩, hid⟩

/-- **The verdict on a job.** What is published for a global job is 1 exactly when the nodes are known,
a task is wanted, every wanted task is complete and every eligible node has one of its own; the
completed tasks are then at least as many as desired, and a completed task elsewhere never stands in for
a node without one. For a replicated job it is 1 exactly when every wanted task is complete and they are
as many as it has to complete. -/
theorem finished_job_iff (accepted : custom.Accepted) (labelled : snapshot.Labelled custom)
    (hnodes : (snapshot.nodes.map (·.id)).Nodup)
    (hcounters : pollReplicasState snapshot (.ok tasks) visit = .ok counters)
    (hservice : snapshot.services[id]? = some service) (hcounter : counters[id]? = some counter)
    (hdesired : service.metadata.desiredReplicas = (replicaCounts service.metadata snapshot.nodes).1)
    (hexact : fromInt (countEligibleNodes snapshot.nodes (placementFromMetadata service.metadata)) =
      countEligibleNodes snapshot.nodes (placementFromMetadata service.metadata)) :
    let chosen := chosenTasks (latestTasks snapshot tasks) visit id
    let value := atDesired (sanitizeMetricLabels counter.labels) counter
    (∀ order, Enumerates order counters →
      (∀ (other : String) (service' : PollService), snapshot.services[other]? = some service' →
        service'.labels = service.labels → other = id) →
      ∃ families, (ReplicasState.new custom).update counters order = .ok families ∧
        families.atDesiredValue service.labels = some value) ∧
    (service.metadata.serviceMode = .globalJob →
      (value = 1 ↔ GlobalJobFinished snapshot service chosen) ∧
      (value = 1 → service.metadata.desiredReplicas ≤ (chosen.countP wantedComplete : Nat)) ∧
      ∀ node ∈ snapshot.nodes,
        nodeEligible (some node) (placementFromMetadata service.metadata) = true →
        (∀ task ∈ chosen, task.nodeId = node.id → wantedComplete task = false) → value = 0) ∧
    (service.metadata.serviceMode = .replicatedJob →
      (value = 1 ↔ ReplicatedJobFinished service chosen)) := by
  intro chosen value
  have hmode := mode_of_labelled accepted labelled hservice
  obtain ⟨heq, hcustom⟩ := labelled id service hservice
  have hcounted : serviceCounter snapshot service chosen = counter := by
    rw [getElem?_pollReplicasState hcounters, hservice, Option.map_some, Option.some.injEq] at hcounter
    exact hcounter
  have hbase : sanitizeMetricLabels counter.labels = service.labels := by
    rw [← hcounted, (serviceCounter_service ..).1, heq]
    exact sanitizeMetricLabels_labelsForMetadata accepted hcustom
  have hvalue : value = atDesired service.labels (serviceCounter snapshot service chosen) := by
    rw [hcounted, ← hbase]
  refine ⟨fun order horder halone =>
    atDesiredValue_of_poll accepted labelled hcounters hservice hcounter halone horder, ?_, ?_⟩
  · intro hglobal
    rw [hglobal] at hmode
    have hcurrent : ∀ task ∈ chosen, CurrentIteration service task := fun task htask =>
      currentIteration_of_mem_chosenTasks hservice (.inr hglobal) htask
    obtain ⟨hone, hzero⟩ := @atDesired_globalJob _ snapshot _ _ hmode hcurrent
    rw [← hvalue] at hone hzero
    have hiff : value = 1 ↔ GlobalJobFinished snapshot service chosen := by
      refine ⟨fun hfinished => ?_, hone⟩
      by_contra hunfinished
      rw [hzero hunfinished] at hfinished
      cases hfinished
    refine ⟨hiff, fun hfinished => ?_, fun node hnode heligible hbare => hzero fun hfinished => ?_⟩
    · rw [hdesired, replicaCounts, hglobal]
      simp only [hexact]
      exact Int.ofNat_le.2 (countEligibleNodes_le hnodes (hiff.1 hfinished).completed)
    · obtain ⟨task, htask, hdone, hid⟩ := hfinished.completed node hnode heligible
      rw [hbare task htask hid] at hdone
      cases hdone
  · intro hreplicated
    rw [hreplicated] at hmode
    have hcurrent : ∀ task ∈ chosen, CurrentIteration service task := fun task htask =>
      currentIteration_of_mem_chosenTasks hservice (.inl hreplicated) htask
    have hconfigured : service.metadata.desiredReplicas = service.metadata.configuredReplicas := by
      rw [hdesired]
      exact replicaCounts_fst_of_not_nodeDependent (by rw [hreplicated]; rfl) _
    rw [hvalue]
    exact atDesired_replicatedJob hmode hcurrent hconfigured

end Verdict

namespace Sample

/-- A node with this availability. -/
def jobNode (id availability : String) : Node :=
  { id, spec := { availability }, status := { state := "ready" } }

/-- A global job in its third iteration, which one of the two nodes is eligible for. -/
def jobService : PollService :=
  .new 1
    { stack := "", service := "job", serviceMode := .globalJob, desiredReplicas := 1,
      jobIteration := 3 }

def jobSnapshot : PollSnapshot :=
  { services := (∅ : Map String PollService).insert "job" jobService
    nodes := [jobNode "a" "drain", jobNode "b" "active"]
    nodeGeneration := 1
    epoch := 1 }

theorem jobSnapshot_labelled : jobSnapshot.Labelled ⟨[]⟩ := by
  intro id service hservice
  simp only [jobSnapshot, Std.ExtTreeMap.getElem?_insert, Std.LawfulEqCmp.compare_eq_iff_eq] at hservice
  split at hservice
  · cases hservice
    refine ⟨rfl, fun name => ?_⟩
    simp [jobService, PollService.new, CustomLabels.sanitizedNames]
  · simp at hservice

/-- The task of the job's current iteration that completed on a node. -/
def jobTask (nodeId : String) : Task :=
  { serviceId := "job", nodeId, status := { state := "complete" }, desiredState := "complete",
    jobIteration := some ⟨3⟩ }

end Sample

open Sample in
/-- A task that completed on the drained node leaves the job unfinished, one on the other finishes it. -/
theorem finished_job_iff_sample :
    (∃ counters, pollReplicasState jobSnapshot (.ok [jobTask "a"]) [⟨"job", 0, "a"⟩] = .ok counters ∧
      ∃ counter, counters["job"]? = some counter ∧
        atDesired (sanitizeMetricLabels counter.labels) counter = 0) ∧
    ∃ counters, pollReplicasState jobSnapshot (.ok [jobTask "b"]) [⟨"job", 0, "b"⟩] = .ok counters ∧
      ∃ counter, counters["job"]? = some counter ∧
        atDesired (sanitizeMetricLabels counter.labels) counter = 1 := by
  have accepted : (CustomLabels.mk []).Accepted :=
    accepted_of_validateCustomLabels (show validateCustomLabels [] = .ok [] by decide +kernel)
  have hservice : jobSnapshot.services["job"]? = some jobService := Std.ExtTreeMap.getElem?_insert_self
  have hverdict : ∀ nodeId counters,
      pollReplicasState jobSnapshot (.ok [jobTask nodeId]) [⟨"job", 0, nodeId⟩] = .ok counters →
      ∀ counter, counters["job"]? = some counter → _ := fun nodeId counters hcounters counter hcounter =>
    (finished_job_iff accepted jobSnapshot_labelled (by decide) hcounters hservice hcounter
      (by decide +kernel) (by decide +kernel)).2.1 rfl
  constructor
  · obtain ⟨counters, hcounters⟩ := pollReplicasState_isOk jobSnapshot [jobTask "a"] [⟨"job", 0, "a"⟩]
    obtain ⟨counter, hcounter⟩ : ∃ counter, counters["job"]? = some counter :=
      ⟨_, (getElem?_pollReplicasState hcounters "job").trans (by rw [hservice]; rfl)⟩
    refine ⟨counters, hcounters, counter, hcounter, ?_⟩
    exact (hverdict "a" counters hcounters counter hcounter).2.2 (jobNode "b" "active") (by decide)
      (by decide +kernel) (by decide +kernel)
  · obtain ⟨counters, hcounters⟩ := pollReplicasState_isOk jobSnapshot [jobTask "b"] [⟨"job", 0, "b"⟩]
    obtain ⟨counter, hcounter⟩ : ∃ counter, counters["job"]? = some counter :=
      ⟨_, (getElem?_pollReplicasState hcounters "job").trans (by rw [hservice]; rfl)⟩
    refine ⟨counters, hcounters, counter, hcounter, ?_⟩
    apply (hverdict "b" counters hcounters counter hcounter).1.2
    exact ⟨by decide, by decide +kernel, by decide +kernel, by decide +kernel⟩

end SwarmExporter
