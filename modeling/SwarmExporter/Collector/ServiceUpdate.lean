import SwarmExporter.Collector.Desired
import SwarmExporter.Lib.Failing

/-!
# The service update and rollback metrics

An info-style state family, one series per known state with 1 on the current one, and the started and
completed timestamps. `updateForService` writes the three families one series at a time and stops at
the first label set that does not fit, keeping what it wrote; with label sets that fit it writes
`ServiceUpdateMetrics.updated` (`updateForService_of_fits`).
-/

namespace SwarmExporter

open Lib
open Docker (GoTime Service)

/-- The exported update states. -/
inductive UpdateState where
  | updating
  | completed
  | paused
  | rollbackStarted
  | rollbackCompleted
  deriving DecidableEq, Repr

namespace UpdateState

def asStr : UpdateState → String
  | .updating => "updating"
  | .completed => "completed"
  | .paused => "paused"
  | .rollbackStarted => "rollback_started"
  | .rollbackCompleted => "rollback_completed"

theorem asStr_inj {left right : UpdateState} : left.asStr = right.asStr ↔ left = right := by
  cases left <;> cases right <;> decide

end UpdateState

/-- Every exported state, in the order the series are written. -/
def knownStates : List UpdateState :=
  [.updating, .completed, .paused, .rollbackStarted, .rollbackCompleted]

theorem mem_knownStates (state : UpdateState) : state ∈ knownStates := by
  cases state <;> decide

/-- Maps the service's `UpdateStatus.State` to the exported state; an unknown value is paused. -/
def updateStateFromSwarm : Option String → UpdateState
  | none => .completed
  | some "completed" => .completed
  | some "updating" => .updating
  | some "paused" => .paused
  | some "rollback_paused" => .paused
  | some "rollback_started" => .rollbackStarted
  | some "rollback_completed" => .rollbackCompleted
  | some _ => .paused

/-- A copy of `base` with the `state` label set. -/
def cloneLabelsWithState (base : Labels) (state : String) : Labels := base.insert labelState state

structure ServiceUpdateMetrics where
  state : GaugeVec
  started : GaugeVec
  completed : GaugeVec
  deriving DecidableEq

namespace ServiceUpdateMetrics

def updateStateHelp : String :=
  "Service update/rollback state indicator (1 for the current state, 0 otherwise)."

def updateStartedHelp : String :=
  "Unix timestamp (seconds) when the current/last service update started (0 if unknown)."

def updateCompletedHelp : String :=
  "Unix timestamp (seconds) when the current/last service update completed (0 if unknown)."

/-- The families, labelled with the base labels plus `custom`, and `state` last on the state
family. -/
def new (custom : CustomLabels) : ServiceUpdateMetrics :=
  let base := baseLabelNames ++ custom.sanitizedNames
  { state := .new ⟨"swarm_service_update_state_info", updateStateHelp, base ++ [labelState]⟩
    started := .new ⟨"swarm_service_update_started_timestamp_seconds", updateStartedHelp, base⟩
    completed :=
      .new ⟨"swarm_service_update_completed_timestamp_seconds", updateCompletedHelp, base⟩ }

def setState (labels : Labels) (value : Gauge) : EStateM LabelsMismatch ServiceUpdateMetrics Unit :=
  fun metrics =>
    match metrics.state.setWith labels value with
    | .ok state => .ok () { metrics with state }
    | .error mismatch => .error mismatch metrics

def setStarted (labels : Labels) (value : Gauge) : EStateM LabelsMismatch ServiceUpdateMetrics Unit :=
  fun metrics =>
    match metrics.started.setWith labels value with
    | .ok started => .ok () { metrics with started }
    | .error mismatch => .error mismatch metrics

def setCompleted (labels : Labels) (value : Gauge) :
    EStateM LabelsMismatch ServiceUpdateMetrics Unit :=
  fun metrics =>
    match metrics.completed.setWith labels value with
    | .ok completed => .ok () { metrics with completed }
    | .error mismatch => .error mismatch metrics

/-- A time in whole seconds, 0 when unknown. -/
def seconds (time : Option GoTime) : Gauge :=
  match time with
  | some time => fromInt time.unix
  | none => 0

/-- The exported state of `service`: completed without an update status. -/
def currentState (service : Service) : UpdateState :=
  updateStateFromSwarm (service.updateStatus.map (·.state))

def startedSeconds (service : Service) : Gauge :=
  seconds (service.updateStatus.bind (·.startedAt))

def completedSeconds (service : Service) : Gauge :=
  seconds (service.updateStatus.bind (·.completedAt))

/-- The value of the state series of `service` for `state`. -/
def stateValue (service : Service) (state : UpdateState) : Gauge :=
  if state = currentState service then 1 else 0

/-- Writes every known state of `service` and its timestamps. -/
def updateForService (service : Service) (metadata : ServiceMetadata) :
    EStateM LabelsMismatch ServiceUpdateMetrics Unit := do
  let base := labelsForMetadata metadata
  forM knownStates fun state =>
    setState (cloneLabelsWithState base state.asStr) (stateValue service state)
  setStarted base (startedSeconds service)
  setCompleted base (completedSeconds service)

/-- Deletes every series of a removed service. -/
def clear (metrics : ServiceUpdateMetrics) (metadata : ServiceMetadata) : ServiceUpdateMetrics :=
  let base := labelsForMetadata metadata
  { state := knownStates.foldl
      (fun vec state => (vec.deleteWith (cloneLabelsWithState base state.asStr)).2) metrics.state
    started := (metrics.started.deleteWith base).2
    completed := (metrics.completed.deleteWith base).2 }

/-! ## Label sets that fit -/

/-- `labels` fits the timestamp families, and with any state the state family. -/
structure Fits (metrics : ServiceUpdateMetrics) (labels : Labels) : Prop where
  state : ∀ state, metrics.state.desc.Fits (cloneLabelsWithState labels state)
  started : metrics.started.desc.Fits labels
  completed : metrics.completed.desc.Fits labels

/-- The key of a state series. -/
def stateKey (metrics : ServiceUpdateMetrics) (labels : Labels) (state : UpdateState) : List String :=
  metrics.state.desc.key (cloneLabelsWithState labels state.asStr)

/-- What `updateForService` leaves when the label sets fit. -/
def updated (metrics : ServiceUpdateMetrics) (service : Service) (metadata : ServiceMetadata) :
    ServiceUpdateMetrics :=
  let base := labelsForMetadata metadata
  { state := { metrics.state with
      children := knownStates.foldl
        (fun children state =>
          children.insert (metrics.stateKey base state) (stateValue service state))
        metrics.state.children }
    started := metrics.started.put base (startedSeconds service)
    completed := metrics.completed.put base (completedSeconds service) }

/-- What `clear` leaves when the label sets fit. -/
def cleared (metrics : ServiceUpdateMetrics) (metadata : ServiceMetadata) : ServiceUpdateMetrics :=
  let base := labelsForMetadata metadata
  { state := { metrics.state with
      children := knownStates.foldl
        (fun children state => children.erase (metrics.stateKey base state)) metrics.state.children }
    started := metrics.started.drop base
    completed := metrics.completed.drop base }

variable {metrics : ServiceUpdateMetrics} {metadata : ServiceMetadata}

theorem setState_of_fits {labels : Labels} (h : metrics.state.desc.Fits labels) (value : Gauge) :
    setState labels value metrics = .ok () { metrics with state := metrics.state.put labels value } := by
  unfold setState
  rw [GaugeVec.setWith_of_fits h]

theorem setStarted_of_fits {labels : Labels} (h : metrics.started.desc.Fits labels) (value : Gauge) :
    setStarted labels value metrics =
      .ok () { metrics with started := metrics.started.put labels value } := by
  unfold setStarted
  rw [GaugeVec.setWith_of_fits h]

theorem setCompleted_of_fits {labels : Labels} (h : metrics.completed.desc.Fits labels)
    (value : Gauge) :
    setCompleted labels value metrics =
      .ok () { metrics with completed := metrics.completed.put labels value } := by
  unfold setCompleted
  rw [GaugeVec.setWith_of_fits h]

/-- The loop over the states, for any list of them. -/
theorem forM_setState_of_fits {base : Labels}
    (h : ∀ state, metrics.state.desc.Fits (cloneLabelsWithState base state))
    (value : UpdateState → Gauge) (states : List UpdateState) :
    (forM states fun state => setState (cloneLabelsWithState base state.asStr) (value state))
        metrics =
      .ok () { metrics with state :=
        { metrics.state with
          children := states.foldl
            (fun children state => children.insert (metrics.stateKey base state) (value state))
            metrics.state.children } } := by
  induction states generalizing metrics with
  | nil => rfl
  | cons state states ih =>
    rw [List.forM_cons, bind_ok (setState_of_fits (h state.asStr) _)]
    exact ih h

theorem updateForService_of_fits (service : Service)
    (h : metrics.Fits (labelsForMetadata metadata)) :
    updateForService service metadata metrics = .ok () (metrics.updated service metadata) := by
  unfold updateForService
  rw [bind_ok (forM_setState_of_fits h.state (stateValue service) knownStates)]
  refine (bind_ok (setStarted_of_fits ?_ _)).trans ?_
  · exact h.started
  · refine setCompleted_of_fits ?_ _
    exact h.completed

/-- The loop of `clear` over the states, for any list of them. -/
theorem foldl_deleteWith_of_fits {vec : GaugeVec} {base : Labels}
    (h : ∀ state, vec.desc.Fits (cloneLabelsWithState base state)) (states : List UpdateState) :
    states.foldl (fun vec state => (vec.deleteWith (cloneLabelsWithState base state.asStr)).2) vec =
      { vec with
        children := states.foldl
          (fun children state =>
            children.erase (vec.desc.key (cloneLabelsWithState base state.asStr)))
          vec.children } := by
  induction states generalizing vec with
  | nil => rfl
  | cons state states ih =>
    rw [List.foldl_cons, GaugeVec.deleteWith_of_fits (h state.asStr)]
    exact ih h

/-- Clearing a service keeps what the families are. -/
theorem foldl_deleteWith_desc {base : Labels} (states : List UpdateState) (vec : GaugeVec) :
    (states.foldl (fun vec state => (vec.deleteWith (cloneLabelsWithState base state.asStr)).2)
      vec).desc = vec.desc := by
  induction states generalizing vec with
  | nil => rfl
  | cons state states ih => rw [List.foldl_cons, ih, GaugeVec.deleteWith_desc]

@[simp] theorem clear_state_desc (metrics : ServiceUpdateMetrics) (metadata : ServiceMetadata) :
    (metrics.clear metadata).state.desc = metrics.state.desc :=
  foldl_deleteWith_desc knownStates metrics.state

@[simp] theorem clear_started_desc (metrics : ServiceUpdateMetrics) (metadata : ServiceMetadata) :
    (metrics.clear metadata).started.desc = metrics.started.desc :=
  GaugeVec.deleteWith_desc _ _

@[simp] theorem clear_completed_desc (metrics : ServiceUpdateMetrics) (metadata : ServiceMetadata) :
    (metrics.clear metadata).completed.desc = metrics.completed.desc :=
  GaugeVec.deleteWith_desc _ _

theorem clear_of_fits (h : metrics.Fits (labelsForMetadata metadata)) :
    metrics.clear metadata = metrics.cleared metadata := by
  simp only [clear, cleared, stateKey]
  rw [foldl_deleteWith_of_fits h.state, GaugeVec.deleteWith_of_fits h.started,
    GaugeVec.deleteWith_of_fits h.completed]

/-! ## The state series of a service -/

theorem mem_map_stateKey {labels : Labels} {key : List String} :
    key ∈ knownStates.map (metrics.stateKey labels) ↔ ∃ state, key = metrics.stateKey labels state := by
  rw [List.mem_map]
  constructor
  · rintro ⟨state, -, rfl⟩
    exact ⟨state, rfl⟩
  · rintro ⟨state, rfl⟩
    exact ⟨state, mem_knownStates state, rfl⟩

theorem getElem?_cleared_state_own (state : UpdateState) :
    (metrics.cleared metadata).state.children[metrics.stateKey (labelsForMetadata metadata) state]? =
      none := by
  have hmem : metrics.stateKey (labelsForMetadata metadata) state ∈
      knownStates.map (metrics.stateKey (labelsForMetadata metadata)) :=
    mem_map_stateKey.2 ⟨state, rfl⟩
  have herased := getElem?_foldl_erase_of_mem metrics.state.children hmem
  rwa [List.foldl_map] at herased

theorem getElem?_cleared_state_other {key : List String}
    (h : ¬∃ state, key = metrics.stateKey (labelsForMetadata metadata) state) :
    (metrics.cleared metadata).state.children[key]? = metrics.state.children[key]? := by
  have herased := getElem?_foldl_erase_of_notMem _ metrics.state.children (mt mem_map_stateKey.1 h)
  rwa [List.foldl_map] at herased

theorem getElem?_updated_state_other (service : Service) {key : List String}
    (h : ¬∃ state, key = metrics.stateKey (labelsForMetadata metadata) state) :
    (metrics.updated service metadata).state.children[key]? = metrics.state.children[key]? := by
  have hkey : key ∉ (knownStates.map fun state =>
      (metrics.stateKey (labelsForMetadata metadata) state, stateValue service state)).map
        Prod.fst := by
    rw [List.map_map]
    exact mt mem_map_stateKey.1 h
  have hentries := getElem?_foldl_insert_of_notMem _ metrics.state.children hkey
  rwa [List.foldl_map] at hentries

/-- The keys of a service's states are distinct. -/
theorem stateKey_inj {labels : Labels} (h : metrics.Fits labels) {state state' : UpdateState}
    (hkey : metrics.stateKey labels state = metrics.stateKey labels state') : state = state' := by
  have hlabels := (h.state state.asStr).key_inj (h.state state'.asStr) hkey
  have hget : (cloneLabelsWithState labels state.asStr)[labelState]? =
      (cloneLabelsWithState labels state'.asStr)[labelState]? := by rw [hlabels]
  simp only [cloneLabelsWithState, Std.ExtTreeMap.getElem?_insert_self, Option.some.injEq] at hget
  exact UpdateState.asStr_inj.1 hget

theorem getElem?_updated_state_own (h : metrics.Fits (labelsForMetadata metadata)) (service : Service)
    (state : UpdateState) :
    (metrics.updated service metadata).state.children[
      metrics.stateKey (labelsForMetadata metadata) state]? = some (stateValue service state) := by
  have hkeys : ((knownStates.map fun state =>
      (metrics.stateKey (labelsForMetadata metadata) state, stateValue service state)).map
        Prod.fst).Nodup := by
    rw [List.map_map]
    exact List.Nodup.map (fun _ _ hkey => stateKey_inj h hkey) (by decide)
  have hmem : (metrics.stateKey (labelsForMetadata metadata) state, stateValue service state) ∈
      knownStates.map fun state =>
        (metrics.stateKey (labelsForMetadata metadata) state, stateValue service state) :=
    List.mem_map.2 ⟨state, mem_knownStates state, rfl⟩
  have hentries := getElem?_foldl_insert_of_mem hkeys metrics.state.children hmem
  rwa [List.foldl_map] at hentries

end ServiceUpdateMetrics

end SwarmExporter
