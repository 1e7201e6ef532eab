import SwarmExporter.Collector.LabelPipeline
import SwarmExporter.Collector.TaskCounts

/-!
# The order of the task list

Docker promises no order of the task list. What the counters can depend on is which task of a key is
left, and of that task only its state and, for a global job, its node. `newerThan` does not decide
between two tasks of one creation time and one non-zero status time, whatever their versions, and it
has cycles once a task without a status time is compared by version with tasks that have one. The order
does not matter exactly where the tasks of a key that can be left are in one state
(`poll_order_free_iff`).
-/

namespace SwarmExporter

open Lib
open Docker (CallError Node Placement Task)

/-- What a chosen task counts as; the node only where it is looked at. -/
structure Tally where
  state : String
  retired : Bool
  node : Option String
  deriving DecidableEq

/-- `task` as it counts for a global job, or for another mode. -/
def tally (globalJob : Bool) (task : Task) : Tally :=
  ⟨task.status.state, retiredTask task, if globalJob then some task.nodeId else none⟩

/-- A wanted task that is complete. -/
def Tally.complete (tally : Tally) : Bool := !tally.retired && tally.state == taskStateComplete

/-- One task more, by its tally. -/
def TaskCounter.addTally (counter : TaskCounter) (tally : Tally) : TaskCounter :=
  { counter with
    states := counter.states.insert tally.state (counter.states.getD tally.state 0 + 1)
    wanted := counter.wanted + (!tally.retired).toNat
    wantedComplete := counter.wantedComplete + tally.complete.toNat }

section Tally

variable {tasks tasks' : List Task}

theorem TaskCounter.add_eq (counter : TaskCounter) (globalJob : Bool) (task : Task) :
    counter.add task = counter.addTally (tally globalJob task) := by
  unfold add addTally countWanted inc tally Tally.complete
  cases hretired : retiredTask task with
  | true => simp
  | false =>
    by_cases hcomplete : task.status.state = taskStateComplete
    · simp [hcomplete]
    · simp [hcomplete]

/-- Two tasks can be counted in either order. -/
theorem TaskCounter.addTally_comm (counter : TaskCounter) (first second : Tally) :
    (counter.addTally first).addTally second = (counter.addTally second).addTally first := by
  have hstates : ((counter.addTally first).addTally second).states =
      ((counter.addTally second).addTally first).states := by
    apply Std.ExtTreeMap.ext_getElem?
    intro state
    simp only [addTally, Std.ExtTreeMap.getElem?_insert, Std.ExtTreeMap.getD_insert,
      Std.LawfulEqCmp.compare_eq_iff_eq]
    by_cases heq : first.state = second.state
    · simp [heq]
    · simp only [heq, Ne.symm heq, if_false]
      grind
  unfold addTally at hstates ⊢
  simp only at hstates
  rw [hstates]
  simp only [Nat.add_right_comm]

theorem countService_eq (globalJob : Bool) (service : PollService) (tasks : List Task) :
    countService service tasks =
      (tasks.map (tally globalJob)).foldl TaskCounter.addTally (.forService service) := by
  unfold countService
  rw [List.foldl_map]
  simp only [← TaskCounter.add_eq]

/-- The counter depends on the tallies alone, in any order. -/
theorem countService_of_perm {globalJob : Bool}
    (h : (tasks.map (tally globalJob)).Perm (tasks'.map (tally globalJob))) (service : PollService) :
    countService service tasks = countService service tasks' := by
  rw [countService_eq globalJob, countService_eq globalJob]
  apply h.foldl_eq'
  intro first _ second _ counter
  exact counter.addTally_comm first second

theorem serviceCounter_state [HostText] (snapshot : PollSnapshot) (service : PollService)
    (tasks : List Task) (state : String) : (serviceCounter snapshot service tasks).state state =
      tasks.countP (·.status.state = state) := by
  rw [← countService_states service]
  unfold serviceCounter
  split <;> rfl

theorem completedNodes_eq (tasks : List Task) : completedNodes tasks =
    (tasks.map (tally true)).filterMap fun tally => if tally.complete then tally.node else none := by
  unfold completedNodes
  induction tasks with
  | nil => rfl
  | cons task tasks ih =>
    have hcomplete : (tally true task).complete = wantedComplete task := rfl
    rw [List.map_cons, List.filterMap_cons, hcomplete, ← ih]
    cases h : wantedComplete task with
    | true => simp [h, tally]
    | false => simp [h]

theorem completedNodes_of_perm (h : (tasks.map (tally true)).Perm (tasks'.map (tally true))) :
    (completedNodes tasks).Perm (completedNodes tasks') := by
  rw [completedNodes_eq, completedNodes_eq]
  exact h.filterMap _

theorem eligibleNodesCovered_of_perm [HostText] {completed completed' : List String}
    (h : completed.Perm completed') (nodes : List Node) (placement : Option Placement) :
    eligibleNodesCovered nodes placement completed = eligibleNodesCovered nodes placement completed' := by
  unfold eligibleNodesCovered
  have hcontains : ∀ node : Node, completed.contains node.id = completed'.contains node.id := by
    intro node
    rw [Bool.eq_iff_iff, List.contains_iff_mem, List.contains_iff_mem, h.mem_iff]
  simp only [hcontains]

/-- The counter of a service depends on the tallies of its chosen tasks alone, in any order. -/
theorem serviceCounter_of_perm [HostText] {snapshot : PollSnapshot} {service : PollService}
    (globalJob : Bool)
    (hmode : service.labels.getD labelServiceMode "" = Mode.globalJob.asStr → globalJob = true)
    (h : (tasks.map (tally globalJob)).Perm (tasks'.map (tally globalJob))) :
    serviceCounter snapshot service tasks = serviceCounter snapshot service tasks' := by
  have hnil : tasks = [] ↔ tasks' = [] := by
    rw [← List.length_eq_zero_iff, ← List.length_eq_zero_iff]
    have hlength := h.length_eq
    rw [List.length_map, List.length_map] at hlength
    rw [hlength]
  unfold serviceCounter
  rw [countService_of_perm h service]
  simp only [hnil]
  split
  · rfl
  · rename_i hjob
    push Not at hjob
    obtain rfl := hmode hjob.2
    rw [eligibleNodesCovered_of_perm (completedNodes_of_perm h)]

end Tally

/-! ## Which task is left -/

section Chosen

variable {snapshot : PollSnapshot} {tasks tasks' : List Task} {key : LatestKey} {first second : Task}

theorem keyTasks_perm (h : tasks'.Perm tasks) (key : LatestKey) :
    (keyTasks snapshot tasks' key).Perm (keyTasks snapshot tasks key) := h.filter _

/-- The tasks of a key that can be left are all retired or all wanted: a wanted one beats every retired
one. -/
theorem retiredTask_of_crowned (hfirst : Crowned preferredTask (keyTasks snapshot tasks key) first)
    (hsecond : Crowned preferredTask (keyTasks snapshot tasks key) second) :
    retiredTask first = retiredTask second := by
  have hdominates : ∀ item ∈ keyTasks snapshot tasks key, ∀ other ∈ keyTasks snapshot tasks key,
      retiredTask item = false → ¬retiredTask other = false →
      preferredTask item other = true ∧ preferredTask other item = false := by
    intro item _ other _ hitem hother
    rw [Bool.not_eq_false] at hother
    simp [preferredTask, hitem, hother]
  cases hretired : retiredTask first with
  | false => exact (hsecond.of_dominated hdominates hfirst.mem hretired).symm
  | true =>
    cases hother : retiredTask second with
    | true => rfl
    | false =>
      have hwanted := hfirst.of_dominated hdominates hsecond.mem hother
      rw [hretired] at hwanted
      cases hwanted

theorem crowned_of_latestTasks (h : (latestTasks snapshot tasks)[key]? = some first) :
    Crowned preferredTask (keyTasks snapshot tasks key) first := by
  rw [getElem?_latestTasks] at h
  exact crowned_of_champion h

/-- The same keys have a task, in whichever order the tasks are listed. -/
theorem mem_latestTasks_of_perm (h : tasks'.Perm tasks) :
    key ∈ latestTasks snapshot tasks' ↔ key ∈ latestTasks snapshot tasks := by
  have hnil : keyTasks snapshot tasks' key = [] ↔ keyTasks snapshot tasks key = [] := by
    rw [← List.length_eq_zero_iff, ← List.length_eq_zero_iff, (keyTasks_perm h key).length_eq]
  rw [← not_iff_not, notMem_iff_getElem?, notMem_iff_getElem?, getElem?_latestTasks,
    getElem?_latestTasks, champion_eq_none, champion_eq_none, hnil]

/-- The tasks of a key that can be left are in one state. -/
def OneState (snapshot : PollSnapshot) (tasks : List Task) : Prop :=
  ∀ (key : LatestKey) (first second : Task), Crowned preferredTask (keyTasks snapshot tasks key) first →
    Crowned preferredTask (keyTasks snapshot tasks key) second →
    first.status.state = second.status.state

/-- Where the tasks that can be left are in one state, the chosen ones count alike. -/
theorem tally_latestTasks (hstates : OneState snapshot tasks) (hperm : tasks'.Perm tasks)
    {service : PollService} (hservice : snapshot.services[key.serviceId]? = some service) :
    (latestTasks snapshot tasks')[key]?.map
        (tally (service.metadata.serviceMode = .globalJob)) =
      (latestTasks snapshot tasks)[key]?.map (tally (service.metadata.serviceMode = .globalJob)) := by
  cases hfirst : (latestTasks snapshot tasks)[key]? with
  | none =>
    have hmem : key ∉ latestTasks snapshot tasks' := by
      rw [mem_latestTasks_of_perm hperm]
      exact notMem_iff_getElem?.2 hfirst
    rw [notMem_iff_getElem?.1 hmem]
  | some first =>
    obtain ⟨second, hsecond⟩ := mem_iff_getElem?.1
      ((mem_latestTasks_of_perm hperm).2 (mem_iff_getElem?.2 ⟨first, hfirst⟩))
    have hcrowned := crowned_of_latestTasks hfirst
    have hcrowned' := (crowned_of_latestTasks hsecond).perm (keyTasks_perm hperm key).symm
    rw [hsecond, Option.map_some, Option.map_some]
    congr 1
    unfold tally
    rw [hstates key second first hcrowned' hcrowned, retiredTask_of_crowned hcrowned' hcrowned]
    congr 1
    by_cases hmode : service.metadata.serviceMode = .globalJob
    · have hnode : ∀ task ∈ keyTasks snapshot tasks key, key.nodeId = task.nodeId := by
        intro task htask
        obtain ⟨hid, found, hfound, hkey⟩ := countedKey_eq_some (mem_keyTasks.1 htask).2
        rw [← hid, hservice] at hfound
        cases hfound
        exact nodeId_of_dedupeKeyForTask hkey hmode
      rw [← hnode second hcrowned'.mem, ← hnode first hcrowned.mem]
    · simp [hmode]

end Chosen

/-! ## The counters in another order -/

section Order

variable [HostText] {snapshot : PollSnapshot} {custom : CustomLabels} {tasks tasks' : List Task}

/-- Listing the tasks in another order, and visiting the chosen ones in another order, gives the same
counters. -/
def OrderFree (snapshot : PollSnapshot) (tasks : List Task) : Prop :=
  ∀ (tasks' : List Task) (visit visit' : List LatestKey), tasks'.Perm tasks →
    Enumerates visit (latestTasks snapshot tasks) → Enumerates visit' (latestTasks snapshot tasks') →
    pollReplicasState snapshot (.ok tasks') visit' = pollReplicasState snapshot (.ok tasks) visit

theorem pollReplicasState_isOk (snapshot : PollSnapshot) (tasks : List Task) (visit : List LatestKey) :
    ∃ counters, pollReplicasState snapshot (.ok tasks) visit = .ok counters := by
  unfold pollReplicasState
  split
  · exact ⟨_, rfl⟩
  · exact ⟨_, rfl⟩

omit [HostText] in
theorem enumerates_of_perm {visit : List LatestKey} (hperm : tasks'.Perm tasks)
    (h : Enumerates visit (latestTasks snapshot tasks)) :
    Enumerates visit (latestTasks snapshot tasks') :=
  ⟨h.1, fun key => (h.2 key).trans (mem_latestTasks_of_perm hperm).symm⟩

omit [HostText] in
theorem mode_of_labelled (accepted : custom.Accepted) (labelled : snapshot.Labelled custom)
    {id : String} {service : PollService} (hservice : snapshot.services[id]? = some service) :
    service.labels.getD labelServiceMode "" = service.metadata.serviceMode.asStr := by
  obtain ⟨hlabels, hcustom⟩ := labelled id service hservice
  rw [hlabels, Std.ExtTreeMap.getD_eq_getD_getElem?,
    getElem?_labelsForMetadata_base accepted hcustom (by decide)]
  have hdisplay : ¬compare labelDisplayName labelServiceMode = .eq := by decide
  rw [baseLabels, Std.ExtTreeMap.getElem?_insert, if_neg hdisplay, Std.ExtTreeMap.getElem?_insert_self]
  rfl

theorem orderFree_of_oneState (accepted : custom.Accepted) (labelled : snapshot.Labelled custom)
    (h : OneState snapshot tasks) : OrderFree snapshot tasks := by
  intro tasks' visit visit' hperm hvisit hvisit'
  obtain ⟨counters, hcounters⟩ := pollReplicasState_isOk snapshot tasks visit
  obtain ⟨counters', hcounters'⟩ := pollReplicasState_isOk snapshot tasks' visit'
  rw [hcounters, hcounters']
  congr 1
  apply Std.ExtTreeMap.ext_getElem?
  intro id
  rw [getElem?_pollReplicasState hcounters, getElem?_pollReplicasState hcounters']
  cases hservice : snapshot.services[id]? with
  | none => rfl
  | some service =>
    rw [Option.map_some, Option.map_some]
    congr 1
    apply serviceCounter_of_perm (decide (service.metadata.serviceMode = .globalJob))
    · intro hmode
      rw [mode_of_labelled accepted labelled hservice, Mode.asStr_inj] at hmode
      exact decide_eq_true hmode
    · have hvisits : visit'.Perm visit := hvisit'.perm (enumerates_of_perm hperm hvisit)
      unfold chosenTasks
      rw [List.map_filterMap, List.map_filterMap]
      refine ((hvisits.filter _).filterMap _).trans (.of_eq ?_)
      apply List.filterMap_congr
      intro key hkey
      obtain rfl := of_decide_eq_true (List.mem_filter.1 hkey).2
      exact tally_latestTasks h hperm hservice

omit [HostText] in
/-- The tasks of `key` in another order, before the others. -/
theorem reordered {order : List Task} {key : LatestKey}
    (h : order.Perm (keyTasks snapshot tasks key)) :
    let others := tasks.filter fun task => !decide (countedKey snapshot task = some key)
    (order ++ others).Perm tasks ∧ keyTasks snapshot (order ++ others) key = order ∧
      ∀ other, other ≠ key →
        keyTasks snapshot (order ++ others) other = keyTasks snapshot others other := by
  intro others
  have hcounted : ∀ task ∈ order, countedKey snapshot task = some key := fun task htask =>
    (mem_keyTasks.1 (h.mem_iff.1 htask)).2
  refine ⟨?_, ?_, fun other hother => ?_⟩
  · exact (h.append_right others).trans (List.filter_append_perm _ _)
  · unfold keyTasks
    rw [List.filter_append, List.filter_eq_self.2 fun task htask => decide_eq_true (hcounted task htask)]
    have hnone : others.filter (fun task => countedKey snapshot task = some key) = [] := by
      rw [List.filter_eq_nil_iff]
      intro task htask hkey
      have hnot := (List.mem_filter.1 htask).2
      rw [hkey] at hnot
      cases hnot
    rw [hnone, List.append_nil]
  · unfold keyTasks
    rw [List.filter_append, List.filter_eq_nil_iff.2 ?_, List.nil_append]
    intro task htask hkey
    rw [decide_eq_true_eq, hcounted task htask] at hkey
    exact hother (Option.some.inj hkey).symm

omit [HostText] in
/-- The states of the chosen tasks of a service, those of one key counted apart. -/
theorem countP_chosenTasks {latest : Map LatestKey Task} {visit : List LatestKey} {key : LatestKey}
    {task : Task} (hvisit : Enumerates visit latest) (htask : latest[key]? = some task)
    (state : String) :
    (chosenTasks latest visit key.serviceId).countP (·.status.state = state) =
      (if task.status.state = state then 1 else 0) +
        (chosenTasks latest (visit.erase key) key.serviceId).countP (·.status.state = state) := by
  have hmem : key ∈ visit := (hvisit.2 key).2 (mem_iff_getElem?.2 ⟨task, htask⟩)
  have hperm : (chosenTasks latest visit key.serviceId).Perm
      (task :: chosenTasks latest (visit.erase key) key.serviceId) := by
    unfold chosenTasks
    refine (((List.perm_cons_erase hmem).filter _).filterMap _).trans (.of_eq ?_)
    rw [List.filter_cons_of_pos (by simp), List.filterMap_cons, htask]
  rw [hperm.countP_eq, List.countP_cons, Nat.add_comm]
  simp

theorem oneState_of_orderFree (h : OrderFree snapshot tasks) : OneState snapshot tasks := by
  intro key first second hfirst hsecond
  obtain ⟨order, horder, hchampion⟩ := exists_champion_iff.2 hfirst
  obtain ⟨order', horder', hchampion'⟩ := exists_champion_iff.2 hsecond
  obtain ⟨hperm, hkey, hothers⟩ := reordered horder
  obtain ⟨hperm', hkey', hothers'⟩ := reordered horder'
  generalize order ++ _ = listed at hperm hkey hothers
  generalize order' ++ _ = listed' at hperm' hkey' hothers'
  -- Both orders have the same keys, and every key but `key` has the same task.
  let visit := (latestTasks snapshot tasks).keys
  have hvisit : Enumerates visit (latestTasks snapshot tasks) := enumerates_keys _
  have htask : (latestTasks snapshot listed)[key]? = some first := by
    rw [getElem?_latestTasks, hkey, hchampion]
  have htask' : (latestTasks snapshot listed')[key]? = some second := by
    rw [getElem?_latestTasks, hkey', hchampion']
  have hrest : chosenTasks (latestTasks snapshot listed) (visit.erase key) key.serviceId =
      chosenTasks (latestTasks snapshot listed') (visit.erase key) key.serviceId := by
    unfold chosenTasks
    apply List.filterMap_congr
    intro other hother
    have hne : other ≠ key :=
      ((hvisit.1.mem_erase_iff).1 (List.mem_filter.1 hother).1).1
    rw [getElem?_latestTasks, getElem?_latestTasks, hothers other hne, hothers' other hne]
  have hsame := (h listed visit visit hperm hvisit (enumerates_of_perm hperm hvisit)).trans
    (h listed' visit visit hperm' hvisit (enumerates_of_perm hperm' hvisit)).symm
  obtain ⟨counters, hcounters⟩ := pollReplicasState_isOk snapshot listed visit
  have hcounters' := hsame.symm.trans hcounters
  obtain ⟨-, hmem⟩ := placed_latestTasks snapshot listed key first htask
  obtain ⟨service, hservice⟩ := mem_iff_getElem?.1 hmem
  have hcounter := getElem?_pollReplicasState hcounters key.serviceId
  rw [getElem?_pollReplicasState hcounters', hservice, Option.map_some, Option.map_some,
    Option.some.injEq] at hcounter
  have hstates := congrArg (·.state first.status.state) hcounter
  simp only [serviceCounter_state] at hstates
  rw [countP_chosenTasks (enumerates_of_perm hperm hvisit) htask,
    countP_chosenTasks (enumerates_of_perm hperm' hvisit) htask', hrest, if_pos rfl] at hstates
  by_contra hne
  rw [if_neg (Ne.symm hne)] at hstates
  omega

/-- **When the order of the task list does not matter**: exactly where, for each key, the tasks that
head a chain of its tasks, each preferred to the next and no other task preferred to all of them, are in
one state. -/
theorem poll_order_free_iff (accepted : custom.Accepted) (labelled : snapshot.Labelled custom)
    (tasks : List Task) : OrderFree snapshot tasks ↔ OneState snapshot tasks :=
  ⟨oneState_of_orderFree, orderFree_of_oneState accepted labelled⟩

/-- No two tasks of a key agree on the creation time, the status time and the version. -/
def Distinguished (snapshot : PollSnapshot) (tasks : List Task) : Prop :=
  tasks.Pairwise fun first second => countedKey snapshot first ≠ none →
    countedKey snapshot first = countedKey snapshot second →
    ¬(first.createdAt = second.createdAt ∧ first.status.timestamp = second.status.timestamp ∧
      first.version.index = second.version.index)

end Order

namespace Sample

/-- A snapshot of one replicated service, without custom labels. -/
def oneService : PollSnapshot :=
  { services := (∅ : Map String PollService).insert "web"
      (.new 1 { stack := "", service := "web", serviceMode := .replicated })
    nodes := []
    nodeGeneration := 1
    epoch := 1 }

theorem oneService_labelled : oneService.Labelled ⟨[]⟩ := by
  intro id service hservice
  simp only [oneService, Std.ExtTreeMap.getElem?_insert, Std.LawfulEqCmp.compare_eq_iff_eq] at hservice
  split at hservice
  · cases hservice
    refine ⟨rfl, fun name => ?_⟩
    simp [PollService.new, CustomLabels.sanitizedNames]
  · simp at hservice

/-- A retired task of its slot 1, created and last reported at nanosecond 1. -/
def stopped (version : Nat) (state : String) : Task :=
  { version := ⟨version⟩
    createdAt := ⟨1⟩
    serviceId := "web"
    slot := 1
    status := { timestamp := ⟨1⟩, state }
    desiredState := "shutdown" }

end Sample

open Sample in
/-- Two failed tasks that nothing tells apart but their versions. -/
theorem poll_order_free_iff_sample :
    OrderFree oneService [stopped 1 "failed", stopped 2 "failed"] := by
  have accepted : (CustomLabels.mk []).Accepted :=
    accepted_of_validateCustomLabels (show validateCustomLabels [] = .ok [] by decide +kernel)
  apply (poll_order_free_iff accepted oneService_labelled _).2
  have hfailed : ∀ key, ∀ task ∈ keyTasks oneService [stopped 1 "failed", stopped 2 "failed"] key,
      task.status.state = "failed" := by
    intro key task htask
    obtain ⟨hmem, -⟩ := mem_keyTasks.1 htask
    rcases List.mem_pair.1 hmem with rfl | rfl <;> rfl
  intro key first second hfirst hsecond
  rw [hfailed key first hfirst.mem, hfailed key second hsecond.mem]

open Sample in
/-- Two tasks created and last reported at the same times: the version does not decide between them. -/
theorem poll_order_matters : oneService.Labelled ⟨[]⟩ ∧
    Distinguished oneService [stopped 1 "failed", stopped 2 "rejected"] ∧
    ¬OrderFree oneService [stopped 1 "failed", stopped 2 "rejected"] := by
  refine ⟨oneService_labelled, ?_, fun h => ?_⟩
  · unfold Distinguished
    decide +kernel
  · have hsame := h [stopped 2 "rejected", stopped 1 "failed"] [⟨"web", 1, ""⟩] [⟨"web", 1, ""⟩]
      (List.Perm.swap ..) (by decide +kernel) (by decide +kernel)
    revert hsame
    decide +kernel

end SwarmExporter
