import Mathlib.Algebra.BigOperators.Group.Finset.Basic
import SwarmExporter.Collector.ListOrder

/-!
# What the counters mean

The counters without the loop: a service is counted by the slots or nodes that have a counted task
(`places`), not by its tasks. `preferredTask` is no order, but its first two rules are: whether a key has
a wanted task, and whether it has a wanted running one, is seen on the task that is left
(`Decisive.any_latestTasks`). What the third rule leaves open is only which of the other states is
counted.
-/

namespace SwarmExporter

open Lib
open Docker (CallError Node Placement Task)

/-! ## The counted tasks and where they are -/

/-- Where a replica is: in a slot, or on a node. -/
inductive Place where
  | slot (slot : Int)
  | node (nodeId : String)
  deriving DecidableEq, Repr

/-- The slot of a task of a replicated mode, the node of one of a global mode. -/
def placeOf (mode : Mode) (task : Task) : Place :=
  match mode with
  | .replicated | .replicatedJob => .slot task.slot
  | .global | .globalJob => .node task.nodeId

/-- A task of `service` that counts: it is not retired without having stopped, and for a job it belongs
to the current iteration. -/
def Counted (service : PollService) (task : Task) : Prop :=
  ¬(retiredTask task = true ∧ task.status.state ∉ stoppedTaskStates) ∧
    (service.metadata.serviceMode = .replicatedJob ∨ service.metadata.serviceMode = .globalJob →
      task.jobIteration.map (·.index) = some service.metadata.jobIteration)

instance (service : PollService) : DecidablePred (Counted service) :=
  fun _ => inferInstanceAs (Decidable (_ ∧ _))

/-- Whether `task` counts for a service of the snapshot. -/
def PollSnapshot.counts (snapshot : PollSnapshot) (task : Task) : Bool :=
  (snapshot.services[task.serviceId]?).any fun service => Counted service task

/-- The slots or nodes of the service `id` that have a counted task with `p`. -/
def places (id : String) (service : PollService) (tasks : List Task) (p : Task → Bool) :
    Finset Place :=
  ((tasks.filter fun task => task.serviceId = id ∧ Counted service task ∧ p task).map
    (placeOf service.metadata.serviceMode)).toFinset

/-- A task Swarm still wants. -/
def wantedTask (task : Task) : Bool := !retiredTask task

/-- A running task Swarm still wants. -/
def wantedRunning (task : Task) : Bool :=
  !retiredTask task && task.status.state == taskStateRunning

/-- The counts of all states together. -/
def TaskCounter.total (counter : TaskCounter) : Nat := (counter.states.keys.map counter.state).sum

/-! ## Places and keys -/

/-- The key of the tasks of a service at `place`. -/
def keyAt (id : String) : Place → LatestKey
  | .slot slot => ⟨id, slot, ""⟩
  | .node nodeId => ⟨id, 0, nodeId⟩

/-- The place of a key. -/
def LatestKey.place (mode : Mode) (key : LatestKey) : Place :=
  match mode with
  | .replicated | .replicatedJob => .slot key.slot
  | .global | .globalJob => .node key.nodeId

theorem place_keyAt_placeOf (mode : Mode) (id : String) (task : Task) :
    (keyAt id (placeOf mode task)).place mode = placeOf mode task := by
  cases mode <;> rfl

@[simp] theorem keyAt_serviceId (id : String) (place : Place) : (keyAt id place).serviceId = id := by
  cases place <;> rfl

section Keys

variable {snapshot : PollSnapshot} {tasks : List Task} {task : Task} {key : LatestKey} {id : String}
  {service : PollService}

theorem isJobMode_asStr (mode : Mode) :
    isJobMode mode.asStr = decide (mode = .replicatedJob ∨ mode = .globalJob) := by
  cases mode <;> decide

/-- A task has a key when it is of the current iteration, and the key is that of its place. -/
theorem dedupeKeyForTask_iff {metadata : ServiceMetadata} :
    dedupeKeyForTask task metadata = some key ↔
      (metadata.serviceMode = .replicatedJob ∨ metadata.serviceMode = .globalJob →
        task.jobIteration.map (·.index) = some metadata.jobIteration) ∧
      key = keyAt task.serviceId (placeOf metadata.serviceMode task) := by
  unfold dedupeKeyForTask
  rw [isJobMode_asStr]
  cases metadata.serviceMode <;> cases task.jobIteration <;>
    simp [placeOf, keyAt, @eq_comm _ _ key]

/-- A task is counted under the key of its place. -/
theorem countedKey_iff : countedKey snapshot task = some key ↔
    ∃ service, snapshot.services[task.serviceId]? = some service ∧ Counted service task ∧
      key = keyAt task.serviceId (placeOf service.metadata.serviceMode task) := by
  unfold countedKey
  cases hservice : snapshot.services[task.serviceId]? with
  | none => simp
  | some service =>
    simp only [Option.some.injEq, exists_eq_left', Counted, and_assoc, ← dedupeKeyForTask_iff]
    cases hretired : retiredTask task <;>
      cases hstopped : stoppedTaskStates.contains task.status.state <;>
      simp_all [retiredNotStopped]

theorem counts_iff : snapshot.counts task = true ↔
    ∃ service, snapshot.services[task.serviceId]? = some service ∧ Counted service task := by
  unfold PollSnapshot.counts
  cases snapshot.services[task.serviceId]? <;> simp

/-- A task that counts for no service has no key. -/
theorem countedKey_eq_none (h : snapshot.counts task = false) : countedKey snapshot task = none := by
  by_contra hkey
  obtain ⟨key, hkey⟩ := Option.ne_none_iff_exists'.1 hkey
  obtain ⟨service, hservice, hcounted, -⟩ := countedKey_iff.1 hkey
  rw [counts_iff.2 ⟨service, hservice, hcounted⟩] at h
  cases h

theorem mem_places {p : Task → Bool} {place : Place} : place ∈ places id service tasks p ↔
    ∃ task ∈ tasks, (task.serviceId = id ∧ Counted service task ∧ p task = true) ∧
      placeOf service.metadata.serviceMode task = place := by
  simp only [places, List.mem_toFinset, List.mem_map, List.mem_filter, decide_eq_true_eq, and_assoc]

/-- The places with a counted task are those of the keys that have one. -/
theorem exists_mem_keyTasks_iff {p : Task → Bool} (hservice : snapshot.services[id]? = some service)
    (hkey : key.serviceId = id) : (∃ task ∈ keyTasks snapshot tasks key, p task = true) ↔
      ∃ place ∈ places id service tasks p, keyAt id place = key := by
  constructor
  · rintro ⟨task, htask, hp⟩
    obtain ⟨hmem, hcounted⟩ := mem_keyTasks.1 htask
    obtain ⟨found, hfound, hcounted, heq⟩ := countedKey_iff.1 hcounted
    obtain rfl : task.serviceId = id := by
      rw [← hkey, heq, keyAt_serviceId]
    rw [hservice] at hfound
    cases hfound
    exact ⟨_, mem_places.2 ⟨task, hmem, ⟨rfl, hcounted, hp⟩, rfl⟩, heq.symm⟩
  · rintro ⟨place, hplace, rfl⟩
    obtain ⟨task, hmem, ⟨rfl, hcounted, hp⟩, rfl⟩ := mem_places.1 hplace
    exact ⟨task, mem_keyTasks.2 ⟨hmem, countedKey_iff.2 ⟨service, hservice, hcounted, rfl⟩⟩, hp⟩

end Keys

/-! ## What is seen on the task that is left -/

/-- A task with `p` is preferred to every task without it, and none of those to it. -/
def Decisive (p : Task → Bool) : Prop :=
  ∀ item other, p item = true → p other = false →
    preferredTask item other = true ∧ preferredTask other item = false

theorem decisive_true : Decisive fun _ => true := by
  intro item other _ hother
  cases hother

theorem decisive_wantedTask : Decisive wantedTask := by
  intro item other hitem hother
  have hwanted : retiredTask item = false := by simpa [wantedTask] using hitem
  have hretired : retiredTask other = true := by simpa [wantedTask] using hother
  simp [preferredTask, hwanted, hretired]

/-- Among wanted tasks, a running one is preferred to any other. -/
theorem decisive_wantedRunning : Decisive wantedRunning := by
  intro item other hitem hother
  unfold wantedRunning at hitem hother
  obtain ⟨hwanted, hrunning⟩ : retiredTask item = false ∧ item.status.state = taskStateRunning := by
    simpa using hitem
  cases hretired : retiredTask other with
  | true => simp [preferredTask, hwanted, hretired]
  | false =>
    have hstate : other.status.state ≠ taskStateRunning := by simpa [hretired] using hother
    simp [preferredTask, hwanted, hretired, hrunning, hstate]

section Chosen

variable {snapshot : PollSnapshot} {tasks : List Task} {visit : List LatestKey} {key : LatestKey}
  {id : String} {service : PollService} {p : Task → Bool}

/-- **The task left of a key has `p` exactly when one of its tasks has it.** -/
theorem Decisive.any_latestTasks (hp : Decisive p) :
    (latestTasks snapshot tasks)[key]?.any p = true ↔
      ∃ task ∈ keyTasks snapshot tasks key, p task = true := by
  cases hlatest : (latestTasks snapshot tasks)[key]? with
  | none =>
    rw [getElem?_latestTasks, champion_eq_none] at hlatest
    simp [hlatest]
  | some winner =>
    have hcrowned := crowned_of_latestTasks hlatest
    rw [Option.any_some]
    constructor
    · intro hwinner
      exact ⟨winner, hcrowned.mem, hwinner⟩
    · rintro ⟨task, htask, hitem⟩
      refine hcrowned.of_dominated (p := fun task => p task = true) ?_ htask hitem
      intro item _ other _ hitem hother
      exact hp item other hitem (Bool.eq_false_iff.2 hother)

theorem countP_chosenTasks_eq (latest : Map LatestKey Task) (visit : List LatestKey) (id : String)
    (p : Task → Bool) : (chosenTasks latest visit id).countP p =
      (visit.filter fun key => key.serviceId = id ∧ latest[key]?.any p = true).length := by
  unfold chosenTasks
  rw [List.countP_filterMap, List.countP_filter, List.countP_eq_length_filter]
  congr 2
  funext key
  cases latest[key]? <;> simp [and_comm]

/-- The chosen tasks with `p` are as many as the places that have a counted task with it. -/
theorem Decisive.countP_chosenTasks (hp : Decisive p)
    (hvisit : Enumerates visit (latestTasks snapshot tasks))
    (hservice : snapshot.services[id]? = some service) :
    (chosenTasks (latestTasks snapshot tasks) visit id).countP p =
      (places id service tasks p).card := by
  rw [countP_chosenTasks_eq, ← List.toFinset_card_of_nodup (hvisit.1.filter _)]
  have hkeys : ∀ key, (key ∈ visit ∧ key.serviceId = id ∧
      (latestTasks snapshot tasks)[key]?.any p = true) ↔
      ∃ place ∈ places id service tasks p, keyAt id place = key := by
    intro key
    constructor
    · rintro ⟨-, hid, hany⟩
      exact (exists_mem_keyTasks_iff hservice hid).1 (hp.any_latestTasks.1 hany)
    · rintro ⟨place, hplace, rfl⟩
      have hany := hp.any_latestTasks.2
        ((exists_mem_keyTasks_iff hservice (keyAt_serviceId id place)).2 ⟨place, hplace, rfl⟩)
      refine ⟨(hvisit.2 _).2 ?_, keyAt_serviceId id place, hany⟩
      obtain ⟨task, htask, -⟩ := (Option.any_eq_true ..).1 hany
      exact mem_iff_getElem?.2 ⟨task, htask⟩
  have himage : (visit.filter fun key => key.serviceId = id ∧
      (latestTasks snapshot tasks)[key]?.any p = true).toFinset =
      (places id service tasks p).image (keyAt id) := by
    ext key
    simpa using hkeys key
  rw [himage]
  -- A slot and a node can have the same key, two places of one mode cannot.
  apply Finset.card_image_of_injOn
  intro place hplace place' hplace' heq
  obtain ⟨task, -, -, rfl⟩ := mem_places.1 hplace
  obtain ⟨task', -, -, rfl⟩ := mem_places.1 hplace'
  rw [← place_keyAt_placeOf _ id task, heq, place_keyAt_placeOf]

/-- A chosen task counts, so one that runs is wanted. -/
theorem wantedRunning_of_mem_chosenTasks {task : Task}
    (htask : task ∈ chosenTasks (latestTasks snapshot tasks) visit id) :
    (task.status.state = taskStateRunning) ↔ wantedRunning task = true := by
  obtain ⟨key, -, hlatest⟩ := List.mem_filterMap.1 htask
  obtain ⟨service, -, ⟨hstops, -⟩, -⟩ :=
    countedKey_iff.1 (mem_keyTasks.1 (crowned_of_latestTasks hlatest).mem).2
  unfold wantedRunning
  constructor
  · intro hrunning
    cases hretired : retiredTask task with
    | true => exact absurd ⟨hretired, by rw [hrunning]; decide⟩ hstops
    | false => simp [hrunning]
  · intro hwanted
    simpa using (Bool.and_eq_true_iff.1 hwanted).2

end Chosen

/-! ## The counters -/

section Counters

variable {tasks : List Task} {service : PollService}

/-- The counts of all states are those of the tasks. -/
theorem countService_total (service : PollService) (tasks : List Task) :
    (countService service tasks).total = tasks.length := by
  have hcount : ∀ state, (countService service tasks).state state =
      (tasks.map (·.status.state)).count state := by
    intro state
    rw [countService_states, List.count_eq_countP, List.countP_map]
    rfl
  have hkeys : ∀ state ∈ tasks.map (·.status.state),
      state ∈ (countService service tasks).states.keys.toFinset := by
    intro state hstate
    rw [List.mem_toFinset, Std.ExtTreeMap.mem_keys]
    by_contra hmem
    have hzero := hcount state
    rw [TaskCounter.state, Std.ExtTreeMap.getD_eq_fallback hmem] at hzero
    exact (List.count_pos_iff.2 hstate).ne hzero
  calc (countService service tasks).total
      = ∑ state ∈ (countService service tasks).states.keys.toFinset,
          (countService service tasks).state state := by
        rw [TaskCounter.total, List.sum_toFinset _ Std.ExtTreeMap.nodup_keys]
    _ = ∑ state ∈ (countService service tasks).states.keys.toFinset,
          (tasks.map (·.status.state) : Multiset String).count state := by
        apply Finset.sum_congr rfl
        intro state _
        rw [hcount, Multiset.coe_count]
    _ = tasks.length := by
        rw [Multiset.sum_count_eq_card fun state hstate => hkeys state (Multiset.mem_coe.1 hstate)]
        simp

theorem countService_wanted (service : PollService) (tasks : List Task) :
    (countService service tasks).wanted = tasks.countP wantedTask := by
  induction tasks using List.reverseRecOn with
  | nil => rfl
  | append_singleton tasks task ih =>
    rw [countService_snoc, TaskCounter.add_eq _ false, List.countP_append, List.countP_singleton, ← ih]
    unfold TaskCounter.addTally tally wantedTask
    cases retiredTask task <;> rfl

theorem countService_wantedComplete (service : PollService) (tasks : List Task) :
    (countService service tasks).wantedComplete = tasks.countP wantedComplete := by
  induction tasks using List.reverseRecOn with
  | nil => rfl
  | append_singleton tasks task ih =>
    have hcomplete : (tally false task).complete = wantedComplete task := rfl
    rw [countService_snoc, TaskCounter.add_eq _ false, List.countP_append, List.countP_singleton, ← ih]
    unfold TaskCounter.addTally
    rw [hcomplete]
    cases wantedComplete task <;> rfl

end Counters

section Poll

variable [HostText] {snapshot : PollSnapshot} {tasks tasks' : List Task} {visit : List LatestKey}
  {counters : ServiceCounter} {id : String} {service : PollService}

theorem serviceCounter_total (snapshot : PollSnapshot) (service : PollService) (tasks : List Task) :
    (serviceCounter snapshot service tasks).total = tasks.length := by
  rw [← countService_total service]
  unfold serviceCounter
  split <;> rfl

theorem serviceCounter_wanted (snapshot : PollSnapshot) (service : PollService) (tasks : List Task) :
    (serviceCounter snapshot service tasks).wanted = tasks.countP wantedTask := by
  rw [← countService_wanted service]
  unfold serviceCounter
  split <;> rfl

/-- The counters of a poll agree with the places of the counted tasks. -/
structure CountsPlaces (id : String) (service : PollService) (tasks : List Task)
    (counter : TaskCounter) : Prop where
  total : counter.total = (places id service tasks fun _ => true).card
  running : counter.state taskStateRunning = (places id service tasks wantedRunning).card
  wanted : counter.wanted = (places id service tasks wantedTask).card

theorem serviceCounter_countsPlaces (hvisit : Enumerates visit (latestTasks snapshot tasks))
    (hservice : snapshot.services[id]? = some service) :
    CountsPlaces id service tasks
      (serviceCounter snapshot service (chosenTasks (latestTasks snapshot tasks) visit id)) where
  total := by
    rw [serviceCounter_total, ← decisive_true.countP_chosenTasks hvisit hservice, List.countP_true]
  running := by
    rw [serviceCounter_state, ← decisive_wantedRunning.countP_chosenTasks hvisit hservice]
    apply List.countP_congr
    intro task htask
    rw [decide_eq_true_eq]
    exact wantedRunning_of_mem_chosenTasks htask
  wanted := by
    rw [serviceCounter_wanted, decisive_wantedTask.countP_chosenTasks hvisit hservice]

omit [HostText] in
/-- The places of a list are those of its tasks, in any order. -/
theorem places_of_perm (h : tasks'.Perm tasks) (id : String) (service : PollService)
    (p : Task → Bool) : places id service tasks' p = places id service tasks p := by
  ext place
  simp only [mem_places, h.mem_iff]

omit [HostText] in
/-- A list leaves what its counted tasks leave. -/
theorem latestTasks_filter_counts (snapshot : PollSnapshot) (tasks : List Task) :
    latestTasks snapshot (tasks.filter snapshot.counts) = latestTasks snapshot tasks := by
  apply Std.ExtTreeMap.ext_getElem?
  intro key
  rw [getElem?_latestTasks, getElem?_latestTasks]
  unfold keyTasks
  rw [List.filter_filter]
  congr 1
  apply List.filter_congr
  intro task _
  cases hcounts : snapshot.counts task with
  | true => simp
  | false => simp [countedKey_eq_none hcounts]

/-- **What a poll counts.** The poll returns, every service of the snapshot has a counter and no other
service has one, and a counter counts slots or nodes: in all states together those with a counted task,
as running those with a wanted running one, as wanted those with a wanted one. So the running counts do
not depend on the order of the list, and tasks that do not count change nothing, wherever they stand. -/
theorem poll_counts_places (snapshot : PollSnapshot) (tasks : List Task) :
    (∀ visit, Enumerates visit (latestTasks snapshot tasks) →
      ∃ counters, pollReplicasState snapshot (.ok tasks) visit = .ok counters ∧
        (∀ id, id ∈ counters ↔ id ∈ snapshot.services) ∧
        ∀ (id : String) (service : PollService) (counter : TaskCounter),
          snapshot.services[id]? = some service → counters[id]? = some counter →
          CountsPlaces id service tasks counter) ∧
    (∀ (tasks' : List Task) (visit visit' : List LatestKey) (counters counters' : ServiceCounter),
      tasks'.Perm tasks → Enumerates visit (latestTasks snapshot tasks) →
      Enumerates visit' (latestTasks snapshot tasks') →
      pollReplicasState snapshot (.ok tasks) visit = .ok counters →
      pollReplicasState snapshot (.ok tasks') visit' = .ok counters' →
      ∀ id : String, counters'[id]?.map (TaskCounter.state · taskStateRunning) =
        counters[id]?.map (TaskCounter.state · taskStateRunning)) ∧
    ∀ (tasks' : List Task) (visit : List LatestKey),
      tasks'.filter snapshot.counts = tasks.filter snapshot.counts →
      pollReplicasState snapshot (.ok tasks') visit = pollReplicasState snapshot (.ok tasks) visit := by
  refine ⟨fun visit hvisit => ?_, ?_, fun tasks' visit hcounted => ?_⟩
  · obtain ⟨counters, hcounters⟩ := pollReplicasState_isOk snapshot tasks visit
    refine ⟨counters, hcounters, fun id => ?_, fun id service counter hservice hcounter => ?_⟩
    · rw [mem_iff_getElem?, mem_iff_getElem?, getElem?_pollReplicasState hcounters]
      cases snapshot.services[id]? <;> simp
    · rw [getElem?_pollReplicasState hcounters, hservice, Option.map_some, Option.some.injEq] at hcounter
      rw [← hcounter]
      exact serviceCounter_countsPlaces hvisit hservice
  · intro tasks' visit visit' counters counters' hperm hvisit hvisit' hcounters hcounters' id
    rw [getElem?_pollReplicasState hcounters, getElem?_pollReplicasState hcounters']
    cases hservice : snapshot.services[id]? with
    | none => rfl
    | some service =>
      simp only [Option.map_some, (serviceCounter_countsPlaces hvisit hservice).running,
        (serviceCounter_countsPlaces hvisit' hservice).running, places_of_perm hperm]
  · have hlatest : latestTasks snapshot tasks' = latestTasks snapshot tasks := by
      rw [← latestTasks_filter_counts, hcounted, latestTasks_filter_counts]
    simp only [pollReplicasState, hlatest]

end Poll

namespace Sample

/-- A task of the service `web`. -/
def replica (slot : Int) (state desiredState : String) : Task :=
  { version := ⟨1⟩
    createdAt := ⟨1⟩
    serviceId := "web"
    slot
    status := { timestamp := ⟨1⟩, state }
    desiredState }

/-- Slot 1 is being replaced, the task of slot 2 is retired on a node that is down, and slot 3 has
failed for good. -/
def rollout : List Task :=
  [replica 1 "running" "running", replica 1 "starting" "running", replica 2 "running" "shutdown",
    replica 3 "failed" "shutdown"]

end Sample

open Sample in
/-- Two slots count, one of them as running. -/
theorem poll_counts_places_sample :
    ∃ counters, pollReplicasState oneService (.ok rollout) [⟨"web", 1, ""⟩, ⟨"web", 3, ""⟩] =
      .ok counters ∧ ∃ counter, counters["web"]? = some counter ∧ counter.total = 2 ∧
        counter.state taskStateRunning = 1 ∧ counter.wanted = 1 := by
  have hvisit : Enumerates [⟨"web", 1, ""⟩, ⟨"web", 3, ""⟩] (latestTasks oneService rollout) := by
    decide +kernel
  obtain ⟨counters, hcounters, hmem, hcounts⟩ := (poll_counts_places oneService rollout).1 _ hvisit
  obtain ⟨counter, hcounter⟩ := mem_iff_getElem?.1 ((hmem "web").2 (by decide +kernel))
  have hservice : oneService.services["web"]? = some
      (.new 1 { stack := "", service := "web", serviceMode := .replicated }) :=
    Std.ExtTreeMap.getElem?_insert_self
  obtain ⟨htotal, hrunning, hwanted⟩ := hcounts "web" _ counter hservice hcounter
  refine ⟨counters, hcounters, counter, hcounter, htotal.trans ?_, hrunning.trans ?_, hwanted.trans ?_⟩
  · decide +kernel
  · decide +kernel
  · decide +kernel

end SwarmExporter
