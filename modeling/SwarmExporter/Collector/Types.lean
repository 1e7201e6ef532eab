import SwarmExporter.Docker.Types
import SwarmExporter.Labels
import SwarmExporter.Metrics

/-!
# The metadata the exporter keeps per service

`buildMetadata` reads the metadata of a service from its spec: the names that label its series, its
mode and what its counts are computed from. It panics for a replicated service without `Replicas`,
and the reconciler recovers the panic, so it is an `Except` here.
-/

namespace SwarmExporter

open Lib
open Docker (Service Platform ReplicatedJob)

/-- What a step of the reconciler panics with. -/
inductive Panic where
  /-- A replicated service without `Replicas`. -/
  | noReplicas (serviceId : String)
  /-- `must` on a label set that does not fit its family. -/
  | labels (mismatch : LabelsMismatch)
  /-- Any other panic, such as one inside a Docker call. -/
  | other
  deriving DecidableEq, Repr

/-- The custom labels, in the order they were requested. -/
structure CustomLabels where
  labels : List CustomLabel
  deriving DecidableEq, Repr

namespace CustomLabels

/-- Pairs `rawKeys` with `sanitizedKeys`, which have the same length and order. -/
def new (rawKeys sanitizedKeys : List String) : CustomLabels :=
  ⟨List.zipWith CustomLabel.mk rawKeys sanitizedKeys⟩

/-- The sanitized label names, for the family descriptors. -/
def sanitizedNames (custom : CustomLabels) : List String :=
  custom.labels.map (·.sanitized)

end CustomLabels

/-- The service modes, spelled as in the MODE column of `docker service ls`. -/
inductive Mode where
  | replicated
  | global
  | replicatedJob
  | globalJob
  deriving DecidableEq, Inhabited, Repr

def Mode.asStr : Mode → String
  | .replicated => "replicated"
  | .global => "global"
  | .replicatedJob => "replicated-job"
  | .globalJob => "global-job"

theorem Mode.asStr_inj {left right : Mode} : left.asStr = right.asStr ↔ left = right := by
  cases left <;> cases right <;> decide

/-- Whether `mode` is the text of a job mode, whose tasks run to completion. -/
def isJobMode (mode : String) : Bool :=
  mode == Mode.replicatedJob.asStr || mode == Mode.globalJob.asStr

/-- The service label holding the stack a service was deployed with. -/
def stackNamespaceLabel : String := "com.docker.stack.namespace"

/-- The restart condition of a one-shot service. -/
def restartConditionNone : String := "none"

/-- What the exporter keeps per service to populate its labels. -/
structure ServiceMetadata where
  stack : String
  /-- The visible service name, without the `<stack>_` prefix. -/
  service : String
  serviceMode : Mode
  /-- Sanitized label name to the service's label value, `""` when the service lacks it. -/
  customLabels : Labels := ∅
  /-- The desired replicas last computed for the service. -/
  desiredReplicas : Gauge := 0
  /-- Replicated: the configured replicas; replicated job: the total completions. -/
  configuredReplicas : Gauge := 0
  jobIteration : Nat := 0
  constraints : List String := []
  platforms : List Platform := []
  restartConditionNone : Bool := false
  deriving DecidableEq, Repr

/-- `text` without `pre`, when it starts with it. -/
def stripPrefix (pre text : String) : Option String :=
  if pre.toList.isPrefixOf text.toList then
    some (String.ofList (text.toList.drop pre.toList.length))
  else none

/-- The visible service name without the `<stack>_` prefix, when there is a stack and the name
carries it; otherwise the name as it is. -/
def shortServiceName (stack fullName : String) : String :=
  if stack.isEmpty then fullName
  else ((stripPrefix stack fullName).bind (stripPrefix "_")).getD fullName

/-- A friendly label: the stack when it equals the service, the service without a stack, else
`<stack> <service>`. -/
def displayName (stack service : String) : String :=
  if stack = service then stack
  else if stack.isEmpty then service
  else stack ++ " " ++ service

/-- The effective mode of `service`: `global` unless another mode is set. -/
def serviceMode (service : Service) : Mode :=
  let mode := service.spec.mode
  if mode.replicated.isSome then .replicated
  else if mode.replicatedJob.isSome then .replicatedJob
  else if mode.globalJob.isSome then .globalJob
  else .global

/-- How many tasks a replicated job must complete: `TotalCompletions`, else `MaxConcurrent`, else
1. -/
def jobTotalCompletions (job : ReplicatedJob) : Gauge :=
  match job.totalCompletions <|> job.maxConcurrent with
  | some count => fromInt count
  | none => 1

/-- The configured replicas of `buildMetadata`: the replicas of a replicated service, which panics
when it has none, and the total completions of a replicated job. -/
def configuredReplicas (service : Service) : Except Panic Gauge :=
  match service.spec.mode.replicated with
  | some ⟨some replicas⟩ => .ok (fromInt replicas)
  | some ⟨none⟩ => .error (.noReplicas service.id)
  | none =>
    match service.spec.mode.replicatedJob with
    | some job => .ok (jobTotalCompletions job)
    | none => .ok 0

/-- The metadata of `service` when its configured replicas are `configured`. -/
def metadataWith (service : Service) (custom : CustomLabels) (configured : Gauge) :
    ServiceMetadata :=
  let spec := service.spec
  let stack := spec.labels.getD stackNamespaceLabel ""
  { stack
    service := shortServiceName stack spec.name
    serviceMode := serviceMode service
    customLabels := custom.labels.foldl
      (fun out label => out.insert label.sanitized (spec.labels.getD label.raw "")) ∅
    configuredReplicas := configured
    jobIteration := (service.jobStatus.map (·.jobIteration.index)).getD 0
    constraints := (spec.taskTemplate.placement.map (·.constraints)).getD []
    platforms := (spec.taskTemplate.placement.map (·.platforms)).getD []
    restartConditionNone :=
      (spec.taskTemplate.restartPolicy.map (·.condition == restartConditionNone)).getD false }

/-- Builds the metadata of `service`, with a value (or `""`) for every custom label. -/
def buildMetadata (service : Service) (custom : CustomLabels) : Except Panic ServiceMetadata :=
  (configuredReplicas service).map (metadataWith service custom)

/-- A replicated service carries `Replicas`. -/
def HasReplicas (service : Service) : Prop :=
  ∀ replicated, service.spec.mode.replicated = some replicated → replicated.replicas.isSome

theorem buildMetadata_ok {service : Service} {custom : CustomLabels} {metadata : ServiceMetadata}
    (h : buildMetadata service custom = .ok metadata) :
    ∃ configured, configuredReplicas service = .ok configured ∧
      metadata = metadataWith service custom configured := by
  unfold buildMetadata at h
  cases hconf : configuredReplicas service with
  | error panic => rw [hconf] at h; cases h
  | ok configured =>
    rw [hconf] at h
    exact ⟨configured, rfl, (Except.ok.inj h).symm⟩

/-- `buildMetadata` panics exactly for a replicated service without `Replicas`. -/
theorem buildMetadata_isOk_iff {service : Service} {custom : CustomLabels} :
    (∃ metadata, buildMetadata service custom = .ok metadata) ↔ HasReplicas service := by
  unfold buildMetadata configuredReplicas HasReplicas
  cases service.spec.mode.replicated with
  | none => cases service.spec.mode.replicatedJob <;> simp [Except.map]
  | some replicated =>
    obtain ⟨replicas⟩ := replicated
    cases replicas <;> simp [Except.map]

end SwarmExporter
