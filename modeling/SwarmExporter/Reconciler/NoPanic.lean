import SwarmExporter.Reconciler.Steps

/-!
# The label pipeline neither panics nor fails a build

The label map of every service for which `buildMetadata` returns has exactly the label names of the
per-service families, so `must` never sees a mismatch, a series is deleted under the key it was
written under, and the replicas-state build cannot fail.
-/

namespace SwarmExporter

open Lib
open Docker (Node Service)

/-- The families labelled with the identity of a service. -/
def identityDescs (custom : CustomLabels) : List Desc :=
  [(ReplicaGauges.new custom).desired.desc, (ReplicaGauges.new custom).schedulable.desc,
    (ServiceUpdateMetrics.new custom).started.desc, (ServiceUpdateMetrics.new custom).completed.desc,
    (ReplicasState.new custom).runningDesc, (ReplicasState.new custom).atDesiredDesc]

/-- The families with a `state` label besides. -/
def stateDescs (custom : CustomLabels) : List Desc :=
  [(ServiceUpdateMetrics.new custom).state.desc, (ReplicasState.new custom).stateDesc]

/-- Writing and deleting the series of `labels` work on one key. -/
def SameKey (vec : GaugeVec) (labels : Labels) : Prop :=
  ∃ key, (∀ value, vec.setWith labels value =
      .ok { vec with children := vec.children.insert key value }) ∧
    vec.deleteWith labels =
      (decide (key ∈ vec.children), { vec with children := vec.children.erase key })

theorem sameKey_of_fits {vec : GaugeVec} {labels : Labels} (h : vec.desc.Fits labels) :
    SameKey vec labels :=
  ⟨vec.desc.key labels, fun value => GaugeVec.setWith_of_fits h value, GaugeVec.deleteWith_of_fits h⟩

section Fits

variable {custom : CustomLabels} {metadata : ServiceMetadata}

theorem identityDescs_fits (accepted : custom.Accepted) (labelled : metadata.Labelled custom) :
    ∀ desc ∈ identityDescs custom, desc.Fits (labelsForMetadata metadata) := by
  obtain ⟨hdesired, hschedulable⟩ := replicaGauges_labelNames accepted
  have hupdate := serviceUpdate_fits accepted labelled
  have hreplicas := replicasState_fits accepted labelled
  simp only [identityDescs, List.forall_mem_cons, List.not_mem_nil, false_implies, implies_true,
    and_true]
  exact ⟨fits_of_perm accepted labelled (List.Perm.of_eq hdesired),
    fits_of_perm accepted labelled (List.Perm.of_eq hschedulable), hupdate.started, hupdate.completed,
    hreplicas.running, hreplicas.atDesired⟩

theorem stateDescs_fits (accepted : custom.Accepted) (labelled : metadata.Labelled custom)
    (state : String) :
    ∀ desc ∈ stateDescs custom, desc.Fits (cloneLabelsWithState (labelsForMetadata metadata) state) := by
  simp only [stateDescs, List.forall_mem_cons, List.not_mem_nil, false_implies, implies_true,
    and_true]
  exact ⟨(serviceUpdate_fits accepted labelled).state state,
    (replicasState_fits accepted labelled).state state⟩

/-- The labels no custom label can take: the four base labels, and `state` once it is added. -/
structure ReservedKept (metadata : ServiceMetadata) (labels : Labels) : Prop where
  stack : labels[labelStack]? = some metadata.stack
  service : labels[labelService]? = some metadata.service
  serviceMode : labels[labelServiceMode]? = some metadata.serviceMode.asStr
  displayName : labels[labelDisplayName]? = some (displayName metadata.stack metadata.service)

theorem labelsForMetadata_reservedKept (accepted : custom.Accepted)
    (labelled : metadata.Labelled custom) : ReservedKept metadata (labelsForMetadata metadata) := by
  constructor
  all_goals
    rw [getElem?_labelsForMetadata_base accepted labelled (by decide)]
    simp only [baseLabels, Std.ExtTreeMap.getElem?_insert, labelStack, labelService,
      labelServiceMode, labelDisplayName, Std.LawfulEqCmp.compare_eq_iff_eq]
    simp

/-- Adding a state keeps the other reserved labels. -/
theorem ReservedKept.withState {labels : Labels} (h : ReservedKept metadata labels) (state : String) :
    ReservedKept metadata (cloneLabelsWithState labels state) := by
  obtain ⟨hstack, hservice, hmode, hname⟩ := h
  constructor
  all_goals
    simp only [cloneLabelsWithState, Std.ExtTreeMap.getElem?_insert]
    rw [if_neg (by decide)]
    assumption

end Fits

/-- What the label map of `metadata` can be used for. -/
structure Pipeline [HostText] (config : Config) (service : Service) (metadata : ServiceMetadata) :
    Prop where
  /-- It has exactly the names of the families without a state. -/
  names : ∀ desc ∈ identityDescs config.custom, desc.Fits (labelsForMetadata metadata)
  /-- With a state it has exactly those of the families with one. -/
  stateNames : ∀ desc ∈ stateDescs config.custom, ∀ state,
    desc.Fits (cloneLabelsWithState (labelsForMetadata metadata) state)
  /-- A series is deleted under the key it was written under. -/
  sameKey : ∀ vec : GaugeVec, vec.desc ∈ identityDescs config.custom →
    SameKey vec (labelsForMetadata metadata)
  stateSameKey : ∀ vec : GaugeVec, vec.desc ∈ stateDescs config.custom → ∀ state,
    SameKey vec (cloneLabelsWithState (labelsForMetadata metadata) state)
  /-- No `must` of `applyService` or `applyNodes` panics. -/
  applyService : ∀ w, World.Reachable config w → ∀ nodes,
    ∃ r', Reconciler.applyService service nodes w.reconciler = .ok () r'
  applyNodes : ∀ w, World.Reachable config w → ∀ nodes visit,
    ∃ r', Reconciler.applyNodes nodes visit w.reconciler = .ok () r'
  /-- No custom label overwrites a reserved one. -/
  reserved : ReservedKept metadata (labelsForMetadata metadata) ∧
    labelState ∉ labelsForMetadata metadata
  stateReserved : ∀ state,
    ReservedKept metadata (cloneLabelsWithState (labelsForMetadata metadata) state) ∧
      (cloneLabelsWithState (labelsForMetadata metadata) state)[labelState]? = some state

/-- Counters whose labels are those of services, as `pollReplicasState` builds them. -/
def FromServices (custom : CustomLabels) (counters : ServiceCounter) : Prop :=
  ∀ (id : String) (counter : TaskCounter), counters[id]? = some counter →
    ∃ service metadata, buildMetadata service custom = .ok metadata ∧
      counter.labels = labelsForMetadata metadata

theorem update_ok_of_fromServices {custom : CustomLabels} (accepted : custom.Accepted)
    {counters : ServiceCounter} (h : FromServices custom counters)
    (published : Option (Map String BuiltFamily)) (visit : List String) :
    ∃ families, ReplicasState.update { ReplicasState.new custom with current := published } counters
      visit = .ok families := by
  have hfits : ∀ (id : String) (counter : TaskCounter), counters[id]? = some counter →
      ReplicasState.Fits { ReplicasState.new custom with current := published } counter.labels := by
    intro id counter hcounter
    obtain ⟨service, metadata, hmetadata, hlabels⟩ := h id counter hcounter
    obtain ⟨hsanitized, hstate, hrunning, hatDesired⟩ :=
      replicasState_fits accepted (labelled_of_buildMetadata hmetadata)
    rw [hlabels]
    exact ⟨hsanitized, hstate, hrunning, hatDesired⟩
  unfold ReplicasState.update
  rw [ReplicasState.build_ok hfits]
  exact ⟨_, rfl⟩

/-- **The label pipeline neither panics nor fails a build**, for every accepted list of `--label` names
and every service for which `buildMetadata` returns. -/
theorem label_pipeline_total [HostText] (config : Config) (service : Service)
    (metadata : ServiceMetadata) (h : buildMetadata service config.custom = .ok metadata) :
    Pipeline config service metadata ∧
      ∀ counters, FromServices config.custom counters → ∀ published visit, ∃ families,
        ReplicasState.update { ReplicasState.new config.custom with current := published } counters
          visit = .ok families := by
  have accepted : config.custom.Accepted := accepted_of_validateCustomLabels config.accepted
  have labelled := labelled_of_buildMetadata h
  have hnames := identityDescs_fits accepted labelled
  have hstateNames := fun state => stateDescs_fits accepted labelled state
  have hreserved := labelsForMetadata_reservedKept accepted labelled
  constructor
  · constructor
    · exact hnames
    · exact fun desc hdesc state => hstateNames state desc hdesc
    · exact fun vec hvec => sameKey_of_fits (hnames vec.desc hvec)
    · exact fun vec hvec state => sameKey_of_fits (hstateNames state vec.desc hvec)
    · rintro w ⟨trace, hrun⟩ nodes
      rw [← hrun.customLabels] at h
      exact ⟨_, Reconciler.applyService_ok hrun.wired h nodes⟩
    · rintro w ⟨trace, hrun⟩ nodes visit
      exact ⟨_, Reconciler.applyNodes_ok hrun.wired nodes visit⟩
    · exact ⟨hreserved, state_notMem_labelsForMetadata accepted labelled⟩
    · exact fun state => ⟨hreserved.withState state, by simp [cloneLabelsWithState]⟩
  · exact fun counters hcounters published visit =>
      update_ok_of_fromServices accepted hcounters published visit

open Sample in
theorem label_pipeline_total_sample : ∃ metadata,
    buildMetadata (replicated "web" "web" 2) config.custom = .ok metadata ∧
      Pipeline config (replicated "web" "web" 2) metadata := by
  have h : buildMetadata (replicated "web" "web" 2) config.custom =
      .ok (metadataWith (replicated "web" "web" 2) config.custom 2) := by decide +kernel
  exact ⟨_, h, (label_pipeline_total config _ _ h).1⟩

end SwarmExporter
