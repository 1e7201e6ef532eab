import Mathlib.Data.List.Forall2
import SwarmExporter.Collector.Published
import SwarmExporter.Docker.Types

/-!
# The container states

`swarm_container_state`, opt-in: every listed container has a series per known state, 1 for its own.
The list does not tell the health of a running container or the exit code of an exited one, so a poll
inspects those, in list order, under one deadline and a cap on the attempts. Whether another inspect fits
is asked row by row, but it never starts to fit again: the attempts only grow and the clock never goes
back (`canInspect_mono`). So the inspects attempted are those of the first such rows
(`exists_attempted`), however they turn out.
-/

namespace SwarmExporter

open Lib
open Docker (CallError ContainerInspect ContainerSummary)

/-! ## States and labels -/

def containerStateRunning : String := "running"
def containerStateExited : String := "exited"
def containerStateHealthStarting : String := "health_starting"
def containerStateHealthy : String := "healthy"
def containerStateUnhealthy : String := "unhealthy"

/-- Every state emitted per container: Docker's runtime states, then the health overlay of a running
container with a healthcheck. -/
def knownContainerStates : List String :=
  ["created", "restarting", containerStateRunning, "removing", "paused", containerStateExited, "dead",
    containerStateHealthy, containerStateUnhealthy, containerStateHealthStarting]

def labelContainer : String := "container"
def labelProject : String := "project"
def labelOrchestrator : String := "orchestrator"
def labelExitCode : String := "exit_code"

def composeProjectLabel : String := "com.docker.compose.project"
def composeServiceLabel : String := "com.docker.compose.service"
def swarmServiceNameLabel : String := "com.docker.swarm.service.name"

/-- What runs a container. -/
inductive Orchestrator where
  | compose
  | swarm
  | none
  deriving DecidableEq, Repr

def Orchestrator.asStr : Orchestrator → String
  | .compose => "compose"
  | .swarm => "swarm"
  | .none => "none"

/-- The orchestrator of a container and the names it gives it. -/
structure Orchestration where
  project : String
  service : String
  stack : String
  orchestrator : Orchestrator
  deriving DecidableEq, Repr

/-- `text` without leading and trailing white space. -/
def trimText (text : String) : String := String.ofList (trimSpace text.toList)

/-- The orchestrator a container's labels name, and the project, service and stack they give it. -/
def classifyOrchestrator (labels : Labels) : Orchestration :=
  let project := trimText (labels.getD composeProjectLabel "")
  let service := trimText (labels.getD composeServiceLabel "")
  let stack := trimText (labels.getD stackNamespaceLabel "")
  let swarmService := trimText (labels.getD swarmServiceNameLabel "")
  if !project.isEmpty then ⟨project, service, stack, .compose⟩
  else if !swarmService.isEmpty then
    let service := if service.isEmpty then shortServiceName stack swarmService else service
    ⟨project, service, stack, .swarm⟩
  else ⟨project, service, stack, .none⟩

/-- The first of `names` without its leading `/`, empty when there is none. -/
def firstContainerName : List String → String
  | [] => ""
  | name :: _ => (stripPrefix "/" name).getD name

/-- The group alone when it equals the service, else `<group> <service>`; the container name without a
group and a service. -/
def displayNameForContainer (group service containerName : String) : String :=
  if group.isEmpty || service.isEmpty then containerName
  else if group = service then group
  else group ++ " " ++ service

/-! ## Rows -/

/-- The labels of one container, as a poll returns them. -/
abbrev ContainerRow := Labels

/-- What an inspect is needed for. -/
inductive InspectNeed where
  | none
  | health
  | exit
  deriving DecidableEq, Repr

/-- The working record of one container during a poll. -/
structure Row where
  id : String
  /-- The state the list reported. -/
  state : String
  labels : ContainerRow
  need : InspectNeed
  deriving DecidableEq

namespace Row

def insert (row : Row) (name value : String) : Row := { row with labels := row.labels.insert name value }

def keepBaseState (row : Row) : Row := row.insert labelState row.state

@[simp] theorem insert_need (row : Row) (name value : String) : (row.insert name value).need = row.need :=
  rfl

@[simp] theorem keepBaseState_need (row : Row) : row.keepBaseState.need = row.need := rfl

/-- The overlay of a health status, read in lower case and trimmed. -/
def healthOverlay (status : String) : Option String :=
  if status = containerStateHealthy then some containerStateHealthy
  else if status = containerStateUnhealthy then some containerStateUnhealthy
  else if status = "starting" then some containerStateHealthStarting
  else none

variable [HostText]

/-- Overlays the health of a container with a healthcheck; anything else keeps the listed state. -/
def applyHealthOverlay (row : Row) (inspect : ContainerInspect) : Row :=
  let hasHealthcheck := inspect.config.any (·.healthcheck.isSome)
  let health := inspect.state.bind (·.health)
  match health.filter fun _ => hasHealthcheck with
  | some health =>
    match healthOverlay (HostText.toLowercase (trimText health.status)) with
    | some overlay => row.insert labelState overlay
    | none => row.keepBaseState
  | none => row.keepBaseState

/-- Keeps the listed state and, for an exited container whose inspect has a state, records the exit
code. -/
def applyExitCode (row : Row) (inspect : ContainerInspect) : Row :=
  let row := row.keepBaseState
  match inspect.state with
  | none => row
  | some state =>
    if equalFold row.state containerStateExited then row.insert labelExitCode (toString state.exitCode)
    else row

/-- A row after its inspect; one whose inspect failed keeps its listed state. -/
def applyInspect (row : Row) (answer : Except Docker.Error ContainerInspect) : Row :=
  match answer with
  | .error _ => row.keepBaseState
  | .ok inspect =>
    match row.need with
    | .health => row.applyHealthOverlay inspect
    | .exit => row.applyExitCode inspect
    | .none => row.keepBaseState

end Row

/-! ## Polling -/

/-- The `--containers` and `--containers-include-swarm` settings, with the poll's bounds. -/
structure ContainersConfig where
  enabled : Bool
  includeSwarm : Bool
  /-- The inspects one poll may attempt, failed ones included. -/
  inspectCap : Nat := 300
  /-- The deadline all the inspects of one poll share. -/
  enrichTimeout : Duration := Duration.fromSecs 10
  deriving DecidableEq, Repr

/-- What a poll meets outside the program. -/
structure Surroundings where
  /-- The clock when the enrichment starts, then at each row. -/
  now : Nat → Instant
  monotone : ∀ row, now row ≤ now (row + 1)
  /-- What each inspect answers, in the order they are attempted; one that outlasts the deadline fails. -/
  answer : Nat → Except Docker.Error ContainerInspect

/-- A row after the enrichment, and what its inspect answered if one was attempted. -/
structure Enriched where
  row : Row
  inspect : Option (Except Docker.Error ContainerInspect)

/-- Whether the container is a Swarm task's. -/
def ContainerSummary.isSwarm (container : ContainerSummary) : Bool :=
  !(trimText (container.labels.getD swarmServiceNameLabel "")).isEmpty

namespace ContainersConfig

variable (config : ContainersConfig)

/-- Swarm task containers are skipped unless asked for. -/
def skips (container : ContainerSummary) : Bool :=
  ContainerSummary.isSwarm container && !config.includeSwarm

/-- The row of a container, before it is enriched. -/
def listedRow (container : ContainerSummary) : Row :=
  let orchestration := classifyOrchestrator container.labels
  let name := firstContainerName container.names
  let group :=
    if orchestration.project.isEmpty then orchestration.stack else orchestration.project
  let friendly := displayNameForContainer group orchestration.service name
  { id := container.id
    state := container.state
    labels := (∅ : Labels)
      |>.insert labelProject orchestration.project
      |>.insert labelStack orchestration.stack
      |>.insert labelService orchestration.service
      |>.insert labelContainer name
      |>.insert labelOrchestrator orchestration.orchestrator.asStr
      |>.insert labelDisplayName friendly
    need :=
      if container.state = containerStateRunning then .health
      else if container.state = containerStateExited then .exit
      else .none }

/-- Whether one more inspect fits in this poll. -/
def canInspect (now deadline : Instant) (inspected : Nat) : Bool :=
  if config.inspectCap ≤ inspected then false
  else if deadline ≤ now then false
  else true

variable [HostText]

/-- The loop of `enrich`, from the row `index` on with `inspected` inspects attempted. -/
def enrichRows (outside : Surroundings) (deadline : Instant) : Nat → Nat → List Row → List Enriched
  | _, _, [] => []
  | index, inspected, row :: rest =>
    let row := row.insert labelExitCode ""
    if row.need = .none || !config.canInspect (outside.now (index + 1)) deadline inspected then
      ⟨row.keepBaseState, none⟩ :: enrichRows outside deadline (index + 1) inspected rest
    else
      let answer := outside.answer inspected
      ⟨row.applyInspect answer, some answer⟩ ::
        enrichRows outside deadline (index + 1) (inspected + 1) rest

/-- Inspects the rows that need it, in list order, under one deadline for the whole poll and at most
`inspectCap` attempts. -/
def enrich (outside : Surroundings) (rows : List Row) : List Enriched :=
  config.enrichRows outside (outside.now 0 + config.enrichTimeout) 0 0 rows

/-- One row per container counted, enriched, with the inspect each was given. Inert when the collector is
disabled. -/
def pollEnriched (list : Except Docker.Error (List ContainerSummary)) (outside : Surroundings) :
    Except CallError (List Enriched) :=
  if !config.enabled then .ok []
  else
    match list with
    | .error error => .error ⟨"container list", error⟩
    | .ok list =>
      let rows := (list.filter fun container => !config.skips container).map listedRow
      .ok (config.enrich outside rows)

/-- Lists every container and returns one row per container counted. -/
def poll (list : Except Docker.Error (List ContainerSummary)) (outside : Surroundings) :
    Except CallError (List ContainerRow) :=
  (config.pollEnriched list outside).map (List.map (·.row.labels))

end ContainersConfig

/-! ## Publishing -/

/-- The container state family and its settings. -/
structure ContainersState where
  config : ContainersConfig
  desc : Desc
  /-- The published set; nothing before the first publish. -/
  current : Option (Map String BuiltFamily)
  deriving DecidableEq

def containerLabelNames : List String :=
  [labelProject, labelStack, labelService, labelContainer, labelOrchestrator, labelDisplayName,
    labelState, labelExitCode]

def containerStateHelp : String :=
  "Container state info (exactly one state=1 per container). Includes exit_code for exited."

/-- `swarm_container_state`. -/
def containerStateDesc : Desc :=
  ⟨"swarm_" ++ labelContainer ++ "_" ++ labelState, containerStateHelp,
    sanitizeLabelNames containerLabelNames⟩

namespace ContainersState

/-- The family, with nothing published. -/
def new (config : ContainersConfig) : ContainersState := ⟨config, containerStateDesc, none⟩

/-- The series of one row: every known state, 1 for its own. -/
def buildRow (desc : Desc) (builder : SnapshotBuilder) (base : ContainerRow) : SnapshotBuilder :=
  let ownState := base.getD labelState ""
  let exitCode := base.getD labelExitCode ""
  knownContainerStates.foldl
    (fun builder state =>
      let labels := (base.insert labelState state).insert labelExitCode exitCode
      builder.set desc (sanitizeMetricLabels labels).toList (if ownState = state then 1 else 0))
    builder

/-- The one-hot state series of every row, without publishing them. -/
def buildContainersState (desc : Desc) (rows : List ContainerRow) : SnapshotBuilder :=
  rows.foldl (buildRow desc) {}

/-- Publishes the one-hot state series of every row, built whole first; a failed build keeps the previous
set. Inert when the collector is disabled. -/
def update (state : ContainersState) (rows : List ContainerRow) : ContainersState :=
  if !state.config.enabled then state
  else
    match (buildContainersState state.desc rows).build with
    | .ok families => { state with current := some families }
    | .error _ => state

end ContainersState

/-! ## What one row ends with -/

/-- Docker's runtime states. -/
def runtimeStates : List String :=
  ["created", "restarting", containerStateRunning, "removing", "paused", containerStateExited, "dead"]

/-- The states a healthcheck overlays. -/
def healthStates : List String :=
  [containerStateHealthy, containerStateUnhealthy, containerStateHealthStarting]

def hasHealthcheck (inspect : ContainerInspect) : Bool := inspect.config.any (·.healthcheck.isSome)

/-- What enriching leaves of `row`: its labels other than the state and the exit code, the listed state or
an overlay its inspect gave it, and an exit code that is empty unless its inspect gave it. -/
structure Enriched.From (row : Row) (enriched : Enriched) : Prop where
  state_eq : enriched.row.state = row.state
  need_eq : enriched.row.need = row.need
  own : ∀ name, name ≠ labelState → name ≠ labelExitCode →
    enriched.row.labels[name]? = row.labels[name]?
  state : ∃ state, enriched.row.labels[labelState]? = some state ∧ (state = row.state ∨
    state ∈ healthStates ∧ row.need = .health ∧
      ∃ inspect, enriched.inspect = some (.ok inspect) ∧ hasHealthcheck inspect = true)
  exitCode : ∃ exitCode, enriched.row.labels[labelExitCode]? = some exitCode ∧
    (exitCode ≠ "" → row.need = .exit ∧ ∃ inspect, enriched.inspect = some (.ok inspect))
  uninspected : row.need = .none → enriched.inspect = none

section Rows

theorem labelState_ne_exitCode : labelState ≠ labelExitCode := by decide

theorem Row.getElem?_insert (row : Row) (name value other : String) :
    (row.insert name value).labels[other]? = if name = other then some value else row.labels[other]? := by
  simp only [Row.insert, Std.ExtTreeMap.getElem?_insert, Std.LawfulEqCmp.compare_eq_iff_eq]

theorem mem_healthStates_of_overlay {status overlay : String}
    (h : Row.healthOverlay status = some overlay) : overlay ∈ healthStates := by
  unfold Row.healthOverlay at h
  split at h
  · cases h
    decide
  · split at h
    · cases h
      decide
    · split at h
      · cases h
        decide
      · cases h

/-- A row that keeps its listed state, with the exit code still empty. -/
theorem Enriched.From.keep (row : Row) {inspect : Option (Except Docker.Error ContainerInspect)}
    (h : row.need = .none → inspect = none) :
    Enriched.From row ⟨(row.insert labelExitCode "").keepBaseState, inspect⟩ where
  state_eq := rfl
  need_eq := rfl
  own name hstate hexit := by
    rw [Row.keepBaseState, Row.getElem?_insert, if_neg hstate.symm, Row.getElem?_insert,
      if_neg hexit.symm]
  state := ⟨row.state, by rw [Row.keepBaseState, Row.getElem?_insert, if_pos rfl]; rfl, .inl rfl⟩
  exitCode := by
    refine ⟨"", ?_, fun h => absurd rfl h⟩
    rw [Row.keepBaseState, Row.getElem?_insert, if_neg labelState_ne_exitCode, Row.getElem?_insert,
      if_pos rfl]
  uninspected := h

variable [HostText]

theorem Enriched.From.overlay (row : Row) (inspect : ContainerInspect) (hneed : row.need = .health) :
    Enriched.From row
      ⟨(row.insert labelExitCode "").applyHealthOverlay inspect, some (.ok inspect)⟩ := by
  have hkeep : Enriched.From row
      ⟨(row.insert labelExitCode "").keepBaseState, some (.ok inspect)⟩ :=
    .keep row fun h => by simp [hneed] at h
  unfold Row.applyHealthOverlay
  simp only
  split
  · rename_i health hhealth
    split
    · rename_i overlay hoverlay
      obtain ⟨-, hchecked⟩ := Option.filter_eq_some_iff.1 hhealth
      exact {
        state_eq := rfl
        need_eq := rfl
        own := fun name hstate hexit => by
          rw [Row.getElem?_insert, if_neg hstate.symm, Row.getElem?_insert, if_neg hexit.symm]
        state := ⟨overlay, by rw [Row.getElem?_insert, if_pos rfl],
          .inr ⟨mem_healthStates_of_overlay hoverlay, hneed, inspect, rfl, hchecked⟩⟩
        exitCode := by
          refine ⟨"", ?_, fun h => absurd rfl h⟩
          rw [Row.getElem?_insert, if_neg labelState_ne_exitCode, Row.getElem?_insert, if_pos rfl]
        uninspected := hkeep.uninspected }
    · exact hkeep
  · exact hkeep

theorem Enriched.From.exit (row : Row) (inspect : ContainerInspect) (hneed : row.need = .exit) :
    Enriched.From row
      ⟨(row.insert labelExitCode "").applyExitCode inspect, some (.ok inspect)⟩ := by
  have hkeep : Enriched.From row
      ⟨(row.insert labelExitCode "").keepBaseState, some (.ok inspect)⟩ :=
    .keep row fun h => by simp [hneed] at h
  unfold Row.applyExitCode
  simp only
  split
  · exact hkeep
  · rename_i state hstate
    split
    · exact {
        state_eq := rfl
        need_eq := rfl
        own := fun name hname hexit => by
          rw [Row.getElem?_insert, if_neg hexit.symm]
          exact hkeep.own name hname hexit
        state := by
          obtain ⟨listed, hlisted, hkind⟩ := hkeep.state
          refine ⟨listed, ?_, hkind⟩
          rw [Row.getElem?_insert, if_neg labelState_ne_exitCode.symm]
          exact hlisted
        exitCode := ⟨_, by rw [Row.getElem?_insert, if_pos rfl], fun _ => ⟨hneed, inspect, rfl⟩⟩
        uninspected := hkeep.uninspected }
    · exact hkeep

/-- **One row**: whatever its inspect answers. -/
theorem Enriched.From.applyInspect (row : Row) (answer : Except Docker.Error ContainerInspect)
    (hneed : row.need ≠ .none) :
    Enriched.From row ⟨(row.insert labelExitCode "").applyInspect answer, some answer⟩ := by
  have hkeep : Enriched.From row ⟨(row.insert labelExitCode "").keepBaseState, some answer⟩ :=
    .keep row fun h => absurd h hneed
  cases answer with
  | error error => exact hkeep
  | ok inspect =>
    unfold Row.applyInspect
    simp only
    split
    · rename_i h
      exact .overlay row inspect h
    · rename_i h
      exact .exit row inspect h
    · exact hkeep

end Rows

/-! ## The whole list -/

namespace ContainersConfig

variable {config : ContainersConfig} {outside : Surroundings} {deadline : Instant}

/-- **What does not fit never fits again.** -/
theorem canInspect_mono {now now' : Instant} {inspected inspected' : Nat}
    (h : config.canInspect now deadline inspected = false) (hnow : now ≤ now')
    (hinspected : inspected ≤ inspected') : config.canInspect now' deadline inspected' = false := by
  unfold canInspect at h ⊢
  split
  · rfl
  · rename_i hcap
    rw [if_neg (by omega)] at h
    split at h
    · rename_i hpassed
      rw [if_pos (Nat.le_trans hpassed hnow)]
    · cases h

theorem lt_cap_of_canInspect {now : Instant} {inspected : Nat}
    (h : config.canInspect now deadline inspected = true) : inspected < config.inspectCap := by
  unfold canInspect at h
  split at h
  · cases h
  · omega

variable [HostText]

/-- What the loop does with one row: it keeps it, or inspects it. -/
theorem enrichRows_cons (index inspected : Nat) (row : Row) (rest : List Row) :
    (row.need = .none ∨ config.canInspect (outside.now (index + 1)) deadline inspected = false) ∧
      config.enrichRows outside deadline index inspected (row :: rest) =
        ⟨(row.insert labelExitCode "").keepBaseState, none⟩ ::
          config.enrichRows outside deadline (index + 1) inspected rest ∨
    row.need ≠ .none ∧ config.canInspect (outside.now (index + 1)) deadline inspected = true ∧
      config.enrichRows outside deadline index inspected (row :: rest) =
        ⟨(row.insert labelExitCode "").applyInspect (outside.answer inspected),
          some (outside.answer inspected)⟩ ::
          config.enrichRows outside deadline (index + 1) (inspected + 1) rest := by
  have hskips : (decide ((row.insert labelExitCode "").need = .none) ||
      !config.canInspect (outside.now (index + 1)) deadline inspected) = true ↔
      row.need = .none ∨ config.canInspect (outside.now (index + 1)) deadline inspected = false := by
    rw [Bool.or_eq_true, decide_eq_true_iff, Bool.not_eq_true', Row.insert_need]
  rw [enrichRows]
  by_cases hskip : row.need = .none ∨
      config.canInspect (outside.now (index + 1)) deadline inspected = false
  · exact .inl ⟨hskip, if_pos (hskips.2 hskip)⟩
  · right
    refine ⟨fun h => hskip (.inl h), ?_, if_neg (mt hskips.1 hskip)⟩
    rw [← Bool.not_eq_false]
    exact fun h => hskip (.inr h)

/-- **Every row, in order.** -/
theorem enrichRows_forall₂ (index inspected : Nat) (rows : List Row) :
    List.Forall₂ Enriched.From rows (config.enrichRows outside deadline index inspected rows) := by
  induction rows generalizing index inspected with
  | nil => exact .nil
  | cons row rest ih =>
    rcases @enrichRows_cons config outside deadline _ index inspected row rest with
      ⟨-, heq⟩ | ⟨hneed, -, heq⟩
    · rw [heq]
      exact .cons (.keep row fun _ => rfl) (ih (index + 1) inspected)
    · rw [heq]
      exact .cons (.applyInspect row _ hneed) (ih (index + 1) (inspected + 1))

/-- Once no inspect fits, none is attempted. -/
theorem enrichRows_uninspected {index inspected : Nat} (rows : List Row)
    (h : config.canInspect (outside.now (index + 1)) deadline inspected = false) :
    ∀ enriched ∈ config.enrichRows outside deadline index inspected rows, enriched.inspect = none := by
  induction rows generalizing index with
  | nil =>
    intro enriched hmem
    cases hmem
  | cons row rest ih =>
    rcases @enrichRows_cons config outside deadline _ index inspected row rest with
      ⟨-, heq⟩ | ⟨-, hcan, -⟩
    · rw [heq, List.forall_mem_cons]
      exact ⟨rfl, ih (canInspect_mono h (outside.monotone _) (Nat.le_refl _))⟩
    · rw [h] at hcan
      cases hcan

/-- **The inspects attempted are those of the first rows that need one**, at most as many as are left. -/
theorem exists_attempted (index inspected : Nat) (rows : List Row) :
    ∃ attempted rest, (config.enrichRows outside deadline index inspected rows).filter
        (fun enriched => enriched.row.need ≠ .none) = attempted ++ rest ∧
      attempted.length ≤ config.inspectCap - inspected ∧
      (∀ enriched ∈ attempted, enriched.inspect ≠ none) ∧
      ∀ enriched ∈ rest, enriched.inspect = none := by
  induction rows generalizing index inspected with
  | nil => exact ⟨[], [], rfl, Nat.zero_le _, by simp, by simp⟩
  | cons row rows ih =>
    rcases @enrichRows_cons config outside deadline _ index inspected row rows with
      ⟨hskip, heq⟩ | ⟨hneed, hcan, heq⟩
    · by_cases hneed : row.need = .none
      · obtain ⟨attempted, rest, hsplit, hcount, hattempted, hrest⟩ := ih (index + 1) inspected
        refine ⟨attempted, rest, ?_, hcount, hattempted, hrest⟩
        rw [heq, List.filter_cons_of_neg (by simp [hneed]), hsplit]
      · have hnone := enrichRows_uninspected (row :: rows) (hskip.resolve_left hneed)
        refine ⟨[], _, rfl, Nat.zero_le _, by simp, fun enriched hmem => ?_⟩
        exact hnone enriched (List.mem_of_mem_filter hmem)
    · obtain ⟨attempted, rest, hsplit, hcount, hattempted, hrest⟩ := ih (index + 1) (inspected + 1)
      have hcap := lt_cap_of_canInspect hcan
      let answer := outside.answer inspected
      have hfirst := (Enriched.From.applyInspect row answer hneed).need_eq
      refine ⟨⟨(row.insert labelExitCode "").applyInspect answer, some answer⟩ :: attempted, rest,
        ?_, ?_, List.forall_mem_cons.2 ⟨?_, hattempted⟩, hrest⟩
      · rw [heq, List.filter_cons_of_pos (by rw [hfirst]; simpa using hneed), hsplit,
          List.cons_append]
      · rw [List.length_cons]
        omega
      · simp

end ContainersConfig

/-! ## A poll -/

/-- The container's row: its labels other than the state and the exit code; the listed state, or a health
state only if it was listed running and its inspect succeeded with a healthcheck; an exit code that is
empty unless it was listed exited and its inspect succeeded. -/
structure Enriched.Of (container : ContainerSummary) (enriched : Enriched) : Prop where
  listed : enriched.row.state = container.state
  own : ∀ name, name ≠ labelState → name ≠ labelExitCode →
    enriched.row.labels[name]? = (ContainersConfig.listedRow container).labels[name]?
  state : ∃ state, enriched.row.labels[labelState]? = some state ∧ (state = container.state ∨
    state ∈ healthStates ∧ container.state = containerStateRunning ∧
      ∃ inspect, enriched.inspect = some (.ok inspect) ∧ hasHealthcheck inspect = true)
  exitCode : ∃ exitCode, enriched.row.labels[labelExitCode]? = some exitCode ∧
    (exitCode ≠ "" → container.state = containerStateExited ∧
      ∃ inspect, enriched.inspect = some (.ok inspect))
  uninspected : container.state ∉ [containerStateRunning, containerStateExited] →
    enriched.inspect = none

namespace ContainersConfig

theorem need_listedRow (container : ContainerSummary) :
    ((listedRow container).need = .health ↔ container.state = containerStateRunning) ∧
    ((listedRow container).need = .exit ↔ container.state = containerStateExited) ∧
    ((listedRow container).need = .none ↔
      container.state ∉ [containerStateRunning, containerStateExited]) := by
  have hne : containerStateRunning ≠ containerStateExited := by decide
  simp only [listedRow, List.mem_cons, List.not_mem_nil, or_false]
  by_cases hrunning : container.state = containerStateRunning
  · simp [hrunning, hne]
  · by_cases hexited : container.state = containerStateExited
    · simp [hexited, hne.symm]
    · simp [hrunning, hexited]

/-- What enriching leaves of a listed row. -/
theorem of_listedRow {container : ContainerSummary} {enriched : Enriched}
    (h : Enriched.From (listedRow container) enriched) : Enriched.Of container enriched := by
  obtain ⟨hhealth, hexit, hnone⟩ := need_listedRow container
  refine ⟨h.state_eq, h.own, ?_, ?_, fun hstate => h.uninspected (hnone.2 hstate)⟩
  · obtain ⟨state, hstate, hlisted | ⟨hoverlay, hneed, hinspect⟩⟩ := h.state
    · exact ⟨state, hstate, .inl hlisted⟩
    · exact ⟨state, hstate, .inr ⟨hoverlay, hhealth.1 hneed, hinspect⟩⟩
  · obtain ⟨exitCode, hexitCode, hcoded⟩ := h.exitCode
    refine ⟨exitCode, hexitCode, fun hne => ?_⟩
    obtain ⟨hneed, hinspect⟩ := hcoded hne
    exact ⟨hexit.1 hneed, hinspect⟩

/-- Every item on the right has its partner. -/
theorem exists_of_mem_forall₂ {α β : Type} {R : α → β → Prop} {l : List α} {l' : List β}
    (h : List.Forall₂ R l l') {b : β} (hb : b ∈ l') : ∃ a ∈ l, R a b := by
  induction h with
  | nil => cases hb
  | cons hrel _ ih =>
    rcases List.mem_cons.1 hb with rfl | hb
    · exact ⟨_, List.mem_cons_self, hrel⟩
    · obtain ⟨a, ha, hrel⟩ := ih hb
      exact ⟨a, List.mem_cons_of_mem _ ha, hrel⟩

/-- The containers a poll returns a row for: none when the collector is disabled. -/
def counts (config : ContainersConfig) (container : ContainerSummary) : Bool :=
  config.enabled && !config.skips container

variable [HostText] (config : ContainersConfig) (outside : Surroundings)

theorem pollEnriched_eq (list : List ContainerSummary) :
    config.pollEnriched (.ok list) outside =
      .ok (config.enrich outside ((list.filter config.counts).map listedRow)) := by
  unfold pollEnriched
  cases henabled : config.enabled with
  | false =>
    have hnone : list.filter config.counts = [] := by
      rw [List.filter_eq_nil_iff]
      intro container _
      simp [counts, henabled]
    rw [hnone]
    rfl
  | true =>
    have hcounts : config.counts = fun container => !config.skips container := by
      funext container
      rw [counts, henabled, Bool.true_and]
    rw [hcounts]
    rfl

/-- **A poll**: one row per container counted, in list order, and the inspects attempted are those of the
first running and exited ones, at most `inspectCap` of them. -/
theorem poll_spec (list : List ContainerSummary) :
    ∃ trace, config.pollEnriched (.ok list) outside = .ok trace ∧
      config.poll (.ok list) outside = .ok (trace.map (·.row.labels)) ∧
      List.Forall₂ Enriched.Of (list.filter config.counts) trace ∧
      ∃ attempted rest, trace.filter (fun enriched =>
          enriched.row.state ∈ [containerStateRunning, containerStateExited]) = attempted ++ rest ∧
        attempted.length ≤ config.inspectCap ∧
        (∀ enriched ∈ attempted, enriched.inspect ≠ none) ∧
        ∀ enriched ∈ rest, enriched.inspect = none := by
  have hpoll := config.pollEnriched_eq outside list
  let rows := (list.filter config.counts).map listedRow
  have hrows : List.Forall₂ Enriched.From rows (config.enrich outside rows) :=
    enrichRows_forall₂ 0 0 rows
  rw [List.forall₂_map_left_iff] at hrows
  refine ⟨config.enrich outside rows, hpoll, by rw [poll, hpoll]; rfl,
    hrows.imp fun _ _ => of_listedRow, ?_⟩
  obtain ⟨attempted, rest, hsplit, hcap, hattempted, hrest⟩ :=
    @exists_attempted config outside (outside.now 0 + config.enrichTimeout) _ 0 0 rows
  refine ⟨attempted, rest, ?_, hcap, hattempted, hrest⟩
  rw [← hsplit]
  refine List.filter_congr fun enriched hmem => ?_
  obtain ⟨container, -, hfrom⟩ := exists_of_mem_forall₂ hrows hmem
  have hnone := (need_listedRow container).2.2
  have hlisted : enriched.row.state = container.state := hfrom.state_eq
  rw [decide_eq_decide, hlisted, hfrom.need_eq, ne_eq, hnone, not_not]

end ContainersConfig

end SwarmExporter
