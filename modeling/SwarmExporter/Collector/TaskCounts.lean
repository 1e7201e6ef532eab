import SwarmExporter.Collector.ReplicasState
import SwarmExporter.Lib.Champion

/-!
# What a task list counts to

The task of a key is the one left of the key's tasks in list order (`getElem?_latestTasks`), and the
counter of a service is made from the chosen tasks of its keys alone (`getElem?_pollReplicasState`):
by state, by whether Swarm still wants them, and for a global job by the nodes they completed on.
-/

namespace SwarmExporter

open Lib
open Docker (CallError Node Placement Task)

/-! ## The task of a key -/

/-- The tasks of the list counted under `key`, in list order. -/
def keyTasks (snapshot : PollSnapshot) (tasks : List Task) (key : LatestKey) : List Task :=
  tasks.filter fun task => countedKey snapshot task = some key

section Latest

variable {snapshot : PollSnapshot} {tasks : List Task} {task : Task} {key : LatestKey}

theorem latestTasks_snoc (snapshot : PollSnapshot) (tasks : List Task) (task : Task) :
    latestTasks snapshot (tasks ++ [task]) =
      chooseTask snapshot (latestTasks snapshot tasks) task := by
  unfold latestTasks
  rw [List.foldl_append]
  rfl

theorem getElem?_chooseTask (snapshot : PollSnapshot) (latest : Map LatestKey Task) (task : Task)
    (key : LatestKey) : (chooseTask snapshot latest task)[key]? =
      if countedKey snapshot task = some key then challenge preferredTask latest[key]? task
      else latest[key]? := by
  unfold chooseTask
  cases hkey : countedKey snapshot task with
  | none => simp
  | some counted =>
    by_cases heq : counted = key
    · subst heq
      simp only [if_true, challenge]
      split
      · rw [Std.ExtTreeMap.getElem?_insert_self]
      · rfl
    · have hne : some counted ≠ some key := fun h => heq (Option.some.inj h)
      simp only [if_neg hne]
      split
      · rw [Std.ExtTreeMap.getElem?_insert]
        simp [heq]
      · rfl

/-- **The task of a key is the one left of the key's tasks.** -/
theorem getElem?_latestTasks (snapshot : PollSnapshot) (tasks : List Task) (key : LatestKey) :
    (latestTasks snapshot tasks)[key]? = champion preferredTask (keyTasks snapshot tasks key) := by
  induction tasks using List.reverseRecOn with
  | nil => simp [latestTasks, keyTasks, champion]
  | append_singleton tasks task ih =>
    rw [latestTasks_snoc, getElem?_chooseTask, ih]
    unfold keyTasks
    rw [List.filter_append]
    by_cases hkey : countedKey snapshot task = some key
    · rw [if_pos hkey, ← champion_snoc]
      simp [hkey]
    · simp [hkey]

theorem mem_keyTasks : task ∈ keyTasks snapshot tasks key ↔
    task ∈ tasks ∧ countedKey snapshot task = some key := by
  simp [keyTasks]

/-- A task is counted under a key of its service, which is in the snapshot. -/
theorem countedKey_eq_some (h : countedKey snapshot task = some key) :
    key.serviceId = task.serviceId ∧ ∃ service, snapshot.services[task.serviceId]? = some service ∧
      dedupeKeyForTask task service.metadata = some key := by
  unfold countedKey at h
  split at h
  · cases h
  · rename_i service hservice
    split at h
    · cases h
    · refine ⟨?_, service, hservice, h⟩
      unfold dedupeKeyForTask at h
      split at h
      · cases h
      · split at h <;> cases h <;> rfl

/-- The key of a global job's task has its node. -/
theorem nodeId_of_dedupeKeyForTask {metadata : ServiceMetadata}
    (h : dedupeKeyForTask task metadata = some key) (hmode : metadata.serviceMode = .globalJob) :
    key.nodeId = task.nodeId := by
  unfold dedupeKeyForTask at h
  split at h
  · cases h
  · rw [hmode] at h
    cases h
    rfl

end Latest

/-! ## The counter of a service -/

/-- The chosen tasks of a service, in the order of `visit`. -/
def chosenTasks (latest : Map LatestKey Task) (visit : List LatestKey) (serviceId : String) :
    List Task :=
  (visit.filter (·.serviceId = serviceId)).filterMap (latest[·]?)

/-- One chosen task more. -/
def TaskCounter.add (counter : TaskCounter) (task : Task) : TaskCounter :=
  countWanted (counter.inc task.status.state) task

/-- The counter of a service with these chosen tasks. -/
def countService (service : PollService) (tasks : List Task) : TaskCounter :=
  tasks.foldl TaskCounter.add (.forService service)

/-- Whether Swarm still wants `task`, which is complete. -/
def wantedComplete (task : Task) : Bool :=
  !retiredTask task && task.status.state == taskStateComplete

/-- The nodes the tasks completed on. -/
def completedNodes (tasks : List Task) : List String := (tasks.filter wantedComplete).map (·.nodeId)

theorem TaskCounter.add_labels (counter : TaskCounter) (task : Task) :
    (counter.add task).labels = counter.labels := by
  unfold add countWanted
  split
  · rfl
  · split <;> rfl

theorem countService_snoc (service : PollService) (tasks : List Task) (task : Task) :
    countService service (tasks ++ [task]) = (countService service tasks).add task := by
  unfold countService
  rw [List.foldl_append]
  rfl

theorem countService_labels (service : PollService) (tasks : List Task) :
    (countService service tasks).labels = service.labels := by
  induction tasks using List.reverseRecOn with
  | nil => rfl
  | append_singleton tasks task ih => rw [countService_snoc, TaskCounter.add_labels, ih]

theorem countService_mode (service : PollService) (tasks : List Task) :
    (countService service tasks).mode = service.labels.getD labelServiceMode "" := by
  rw [TaskCounter.mode, countService_labels]

/-- The chosen tasks by state. -/
theorem countService_states (service : PollService) (tasks : List Task) (state : String) :
    (countService service tasks).state state = tasks.countP (·.status.state = state) := by
  induction tasks using List.reverseRecOn with
  | nil => simp [countService, TaskCounter.forService, TaskCounter.state]
  | append_singleton tasks task ih =>
    have hadd : ((countService service tasks).add task).state state =
        ((countService service tasks).inc task.status.state).state state := by
      unfold TaskCounter.add countWanted
      split
      · rfl
      · split <;> rfl
    rw [countService_snoc, hadd, List.countP_append, ← ih]
    simp only [TaskCounter.state, TaskCounter.inc, Std.ExtTreeMap.getD_insert, List.countP_singleton,
      Std.LawfulEqCmp.compare_eq_iff_eq, decide_eq_true_eq]
    split
    · rename_i heq
      rw [heq]
    · rfl

section Counts

variable {snapshot : PollSnapshot} {latest : Map LatestKey Task} {visit : List LatestKey}
  {key : LatestKey} {task : Task} {id : String}

theorem chosenTasks_snoc (latest : Map LatestKey Task) (visit : List LatestKey) (key : LatestKey)
    (id : String) : chosenTasks latest (visit ++ [key]) id =
      chosenTasks latest visit id ++ if key.serviceId = id then latest[key]?.toList else [] := by
  unfold chosenTasks
  rw [List.filter_append, List.filterMap_append]
  by_cases hid : key.serviceId = id
  · cases hlatest : latest[key]? <;> simp [hid, hlatest]
  · simp [hid]

/-- The services have their chosen tasks counted; a service without one has no counter. -/
structure Tallied (snapshot : PollSnapshot) (latest : Map LatestKey Task) (visit : List LatestKey)
    (counts : Counts) : Prop where
  counters : ∀ id, counts.counters[id]? =
    if chosenTasks latest visit id = [] then none
    else (snapshot.services[id]?).map (countService · (chosenTasks latest visit id))
  nodes : ∀ id service, snapshot.services[id]? = some service →
    service.labels.getD labelServiceMode "" = Mode.globalJob.asStr →
    counts.completedNodes.getD id [] = completedNodes (chosenTasks latest visit id)

/-- A key whose service is in the snapshot, or that has no task. -/
def Placed (snapshot : PollSnapshot) (latest : Map LatestKey Task) : Prop :=
  ∀ (key : LatestKey) (task : Task), latest[key]? = some task →
    key.serviceId = task.serviceId ∧ key.serviceId ∈ snapshot.services

theorem placed_latestTasks (snapshot : PollSnapshot) (tasks : List Task) :
    Placed snapshot (latestTasks snapshot tasks) := by
  intro key task htask
  rw [getElem?_latestTasks] at htask
  obtain ⟨-, hkey⟩ := mem_keyTasks.1 (crowned_of_champion htask).mem
  obtain ⟨hid, service, hservice, -⟩ := countedKey_eq_some hkey
  exact ⟨hid, mem_iff_getElem?.2 ⟨service, hid ▸ hservice⟩⟩

/-- One more key. -/
theorem Tallied.snoc {counts : Counts} (h : Tallied snapshot latest visit counts)
    (hplaced : Placed snapshot latest) (key : LatestKey) :
    Tallied snapshot latest (visit ++ [key]) (countTask snapshot latest counts key) := by
  cases hlatest : latest[key]? with
  | none =>
    have hchosen : ∀ id, chosenTasks latest (visit ++ [key]) id = chosenTasks latest visit id := by
      intro id
      rw [chosenTasks_snoc, hlatest]
      simp
    have hcounts : countTask snapshot latest counts key = counts := by
      simp [countTask, hlatest]
    rw [hcounts]
    exact ⟨fun id => by rw [hchosen]; exact h.counters id, fun id => by rw [hchosen]; exact h.nodes id⟩
  | some task =>
    obtain ⟨hid, hmem⟩ := hplaced key task hlatest
    obtain ⟨service, hservice⟩ := mem_iff_getElem?.1 hmem
    have hchosen : ∀ id, chosenTasks latest (visit ++ [key]) id =
        chosenTasks latest visit id ++ if key.serviceId = id then [task] else [] := by
      intro id
      rw [chosenTasks_snoc, hlatest]
      rfl
    have hcurrent : counts.counters.getD key.serviceId (.forService service) =
        countService service (chosenTasks latest visit key.serviceId) := by
      rw [Std.ExtTreeMap.getD_eq_getD_getElem?, h.counters, hservice]
      split
      · rename_i hnil
        rw [hnil]
        rfl
      · rfl
    constructor
    · intro id
      rw [hchosen]
      simp only [countTask, hlatest, hservice, hcurrent, Std.ExtTreeMap.getElem?_insert,
        Std.LawfulEqCmp.compare_eq_iff_eq]
      by_cases heq : key.serviceId = id
      · subst heq
        rw [if_pos rfl, if_pos rfl, if_neg (by simp), hservice, Option.map_some, countService_snoc]
        rfl
      · rw [if_neg heq, if_neg heq, List.append_nil]
        exact h.counters id
    · intro id other hother hmode
      rw [hchosen]
      simp only [countTask, hlatest, hservice, hcurrent, completesNode]
      have hincmode : ((countService service (chosenTasks latest visit key.serviceId)).inc
          task.status.state).mode = service.labels.getD labelServiceMode "" :=
        countService_mode service _
      rw [hincmode]
      by_cases heq : key.serviceId = id
      · subst heq
        rw [hservice] at hother
        cases hother
        rw [if_pos rfl, completedNodes, List.filter_append, List.map_append, hmode]
        cases hcomplete : wantedComplete task with
        | true =>
          have hcond : (!retiredTask task && task.status.state == taskStateComplete) = true := hcomplete
          simp [hcond, ← hid, hcomplete, h.nodes _ _ hservice hmode, completedNodes]
        | false =>
          have hcond : (!retiredTask task && task.status.state == taskStateComplete) = false := hcomplete
          simp [hcond, hcomplete, h.nodes _ _ hservice hmode, completedNodes]
      · rw [if_neg heq, List.append_nil]
        split
        · rw [Std.ExtTreeMap.getD_insert, if_neg]
          · exact h.nodes id other hother hmode
          · rw [Std.LawfulEqCmp.compare_eq_iff_eq, ← hid]
            exact heq
        · exact h.nodes id other hother hmode

theorem foldl_countTask_tallied (hplaced : Placed snapshot latest) (visit : List LatestKey) :
    Tallied snapshot latest visit (visit.foldl (countTask snapshot latest) {}) := by
  induction visit using List.reverseRecOn with
  | nil => exact ⟨fun id => by simp [chosenTasks], fun id service _ _ => by simp [chosenTasks, completedNodes]⟩
  | append_singleton visit key ih =>
    rw [List.foldl_append]
    exact ih.snoc hplaced key

end Counts

/-! ## The counters of a poll -/

section Poll

variable [HostText] {snapshot : PollSnapshot} {tasks : List Task} {visit : List LatestKey}
  {counters : ServiceCounter} {id : String}

/-- The counter of a service of `snapshot` with these chosen tasks. Only a service with tasks has its
nodes looked at. -/
def serviceCounter (snapshot : PollSnapshot) (service : PollService) (tasks : List Task) :
    TaskCounter :=
  let counter := countService service tasks
  if tasks = [] ∨ service.labels.getD labelServiceMode "" ≠ Mode.globalJob.asStr then counter
  else
    { counter with
      eligibleNodesCovered := eligibleNodesCovered snapshot.nodes
        (placementFromMetadata service.metadata) (completedNodes tasks) }

theorem markEligibleNodesCovered_of_tallied {latest : Map LatestKey Task} {counts : Counts}
    (h : Tallied snapshot latest visit counts) (id : String) :
    (markEligibleNodesCovered counts snapshot)[id]? =
      if chosenTasks latest visit id = [] then none
      else (snapshot.services[id]?).map (serviceCounter snapshot · (chosenTasks latest visit id)) := by
  unfold markEligibleNodesCovered
  rw [Std.ExtTreeMap.getElem?_map, h.counters]
  split
  · rfl
  · rename_i hchosen
    cases hservice : snapshot.services[id]? with
    | none => rfl
    | some service =>
      simp only [Option.map_some, countService_mode, serviceCounter, hchosen, false_or, Option.bind_some]
      by_cases hmode : service.labels.getD labelServiceMode "" = Mode.globalJob.asStr
      · rw [if_neg (not_not.2 hmode), if_neg (not_not.2 hmode), h.nodes id service hservice hmode]
      · rw [if_pos hmode, if_pos hmode]

omit [HostText] in
theorem getElem?_addServiceWithoutTasks (counters : ServiceCounter) (first : String)
    (snapshot : PollSnapshot) (id : String) :
    (addServicesWithoutTasks counters [first] snapshot)[id]? =
      counters[id]?.or (if id = first then (snapshot.services[id]?).map .forService else none) := by
  simp only [addServicesWithoutTasks, List.foldl_cons, List.foldl_nil]
  by_cases heq : id = first
  · subst heq
    rw [if_pos rfl]
    split
    · rename_i hmem
      obtain ⟨counter, hcounter⟩ := mem_iff_getElem?.1 hmem
      rw [hcounter, Option.some_or]
    · rename_i hmem
      rw [notMem_iff_getElem?.1 hmem, Option.none_or]
      cases hservice : snapshot.services[id]? with
      | some service => rw [Std.ExtTreeMap.getElem?_insert_self, Option.map_some]
      | none => exact notMem_iff_getElem?.1 hmem
  · rw [if_neg heq, Option.or_none]
    split
    · rfl
    · split
      · rw [Std.ExtTreeMap.getElem?_insert, if_neg]
        rw [Std.LawfulEqCmp.compare_eq_iff_eq]
        exact Ne.symm heq
      · rfl

omit [HostText] in
theorem getElem?_addServicesWithoutTasks (counters : ServiceCounter) (ids : List String)
    (snapshot : PollSnapshot) (id : String) :
    (addServicesWithoutTasks counters ids snapshot)[id]? =
      counters[id]?.or (if id ∈ ids then (snapshot.services[id]?).map .forService else none) := by
  induction ids generalizing counters with
  | nil => simp [addServicesWithoutTasks]
  | cons first ids ih =>
    have hcons : addServicesWithoutTasks counters (first :: ids) snapshot =
        addServicesWithoutTasks (addServicesWithoutTasks counters [first] snapshot) ids snapshot := rfl
    rw [hcons, ih, getElem?_addServiceWithoutTasks, Option.or_assoc]
    congr 1
    by_cases heq : id = first
    · rw [if_pos heq, if_pos (List.mem_cons.2 (.inl heq))]
      cases (snapshot.services[id]?).map TaskCounter.forService with
      | none => simp
      | some counter => rfl
    · rw [if_neg heq, Option.none_or]
      simp [heq]

/-- **The counters of a task list**, one per service of the snapshot, each from the chosen tasks of its
own keys. -/
theorem getElem?_pollReplicasState
    (h : pollReplicasState snapshot (.ok tasks) visit = .ok counters) (id : String) :
    counters[id]? = (snapshot.services[id]?).map
      (serviceCounter snapshot · (chosenTasks (latestTasks snapshot tasks) visit id)) := by
  unfold pollReplicasState at h
  split at h
  · rename_i hempty
    cases h
    have hnone : snapshot.services[id]? = none := by
      rw [← notMem_iff_getElem?, ← Std.ExtTreeMap.mem_keys]
      rw [PollSnapshot.serviceIds, List.isEmpty_iff] at hempty
      rw [hempty]
      exact List.not_mem_nil
    rw [hnone]
    simp
  · cases h
    have htallied := foldl_countTask_tallied (placed_latestTasks snapshot tasks) visit
    rw [getElem?_addServicesWithoutTasks, markEligibleNodesCovered_of_tallied htallied]
    cases hservice : snapshot.services[id]? with
    | none => simp
    | some service =>
      have hmem : id ∈ snapshot.serviceIds :=
        Std.ExtTreeMap.mem_keys.2 (mem_iff_getElem?.2 ⟨service, hservice⟩)
      rw [if_pos hmem]
      split
      · rename_i hnil
        simp [serviceCounter, hnil, countService]
      · rfl

end Poll

end SwarmExporter
