import SwarmExporter.Collector.LabelPipeline
import SwarmExporter.Reconciler.Apply

/-!
# What the writes leave

The writes of the reconciler can panic in two places: `buildMetadata`, before anything is written,
and `must`, on a label set that does not fit its family. For a reconciler whose families were made
for accepted custom labels (`Families`) and whose cached metadata has a value for each of them
(`Wired`) the second never happens, and every write is a plain function of the reconciler:
`withService`, `removeService` and `withNodes`.
-/

namespace SwarmExporter

open Lib
open Docker (Node Service)

/-- The two replica series of a service, written. -/
def ReplicaGauges.put (gauges : ReplicaGauges) (metadata : ServiceMetadata) (counts : Gauge × Gauge) :
    ReplicaGauges :=
  { desired := gauges.desired.put (labelsForMetadata metadata) counts.1
    schedulable :=
      gauges.schedulable.put (labelsForMetadata metadata) (schedulableValue metadata counts.2) }

namespace Reconciler

/-! ## Families made for the custom labels -/

/-- The families are the ones `withPolicy` makes for the custom labels, which were accepted. -/
structure Families (r : Reconciler) : Prop where
  accepted : r.customLabels.Accepted
  desired : r.replicaGauges.desired.desc = (ReplicaGauges.new r.customLabels).desired.desc
  schedulable :
    r.replicaGauges.schedulable.desc = (ReplicaGauges.new r.customLabels).schedulable.desc
  updateState : r.serviceUpdate.state.desc = (ServiceUpdateMetrics.new r.customLabels).state.desc
  updateStarted :
    r.serviceUpdate.started.desc = (ServiceUpdateMetrics.new r.customLabels).started.desc
  updateCompleted :
    r.serviceUpdate.completed.desc = (ServiceUpdateMetrics.new r.customLabels).completed.desc
  taskState : r.replicasState.stateDesc = (ReplicasState.new r.customLabels).stateDesc
  running : r.replicasState.runningDesc = (ReplicasState.new r.customLabels).runningDesc
  atDesired : r.replicasState.atDesiredDesc = (ReplicasState.new r.customLabels).atDesiredDesc

namespace Families

variable {r : Reconciler} {metadata : ServiceMetadata}

theorem desired_fits (families : r.Families) (labelled : metadata.Labelled r.customLabels) :
    r.replicaGauges.desired.desc.Fits (labelsForMetadata metadata) := by
  rw [families.desired]
  exact fits_of_perm families.accepted labelled
    (List.Perm.of_eq (replicaGauges_labelNames families.accepted).1)

theorem schedulable_fits (families : r.Families) (labelled : metadata.Labelled r.customLabels) :
    r.replicaGauges.schedulable.desc.Fits (labelsForMetadata metadata) := by
  rw [families.schedulable]
  exact fits_of_perm families.accepted labelled
    (List.Perm.of_eq (replicaGauges_labelNames families.accepted).2)

theorem update_fits (families : r.Families) (labelled : metadata.Labelled r.customLabels) :
    r.serviceUpdate.Fits (labelsForMetadata metadata) := by
  obtain ⟨hstate, hstarted, hcompleted⟩ := serviceUpdate_fits families.accepted labelled
  refine ⟨fun state => ?_, ?_, ?_⟩
  · rw [families.updateState]
    exact hstate state
  · rw [families.updateStarted]
    exact hstarted
  · rw [families.updateCompleted]
    exact hcompleted

theorem replicas_fits (families : r.Families) (labelled : metadata.Labelled r.customLabels) :
    r.replicasState.Fits (labelsForMetadata metadata) := by
  obtain ⟨hsanitized, hstate, hrunning, hatDesired⟩ := replicasState_fits families.accepted labelled
  refine ⟨hsanitized, fun state => ?_, ?_, ?_⟩
  · rw [families.taskState]
    exact hstate state
  · rw [families.running]
    exact hrunning
  · rw [families.atDesired]
    exact hatDesired

end Families

/-- The families fit, and so does the label map of every cached service. -/
structure Wired (r : Reconciler) : Prop where
  families : r.Families
  labelled : ∀ (id : String) (metadata : ServiceMetadata), r.metadata[id]? = some metadata →
    metadata.Labelled r.customLabels

theorem withPolicy_wired {custom : CustomLabels} (accepted : custom.Accepted)
    (policy : ReconcilerPolicy) (now : Timestamp) : (withPolicy custom policy now).Wired where
  families := ⟨accepted, rfl, rfl, rfl, rfl, rfl, rfl, rfl, rfl⟩
  labelled := by simp [withPolicy]

/-- `Wired` reads the descriptors, the custom labels and the metadata only. -/
theorem Wired.congr {r r' : Reconciler} (h : r.Wired) (hcustom : r'.customLabels = r.customLabels)
    (hdesired : r'.replicaGauges.desired.desc = r.replicaGauges.desired.desc)
    (hschedulable : r'.replicaGauges.schedulable.desc = r.replicaGauges.schedulable.desc)
    (hstate : r'.serviceUpdate.state.desc = r.serviceUpdate.state.desc)
    (hstarted : r'.serviceUpdate.started.desc = r.serviceUpdate.started.desc)
    (hcompleted : r'.serviceUpdate.completed.desc = r.serviceUpdate.completed.desc)
    (hreplicas : r'.replicasState = r.replicasState)
    (hlabelled : ∀ (id : String) (metadata : ServiceMetadata), r'.metadata[id]? = some metadata →
      metadata.Labelled r.customLabels) : r'.Wired := by
  obtain ⟨hfamilies, -⟩ := h
  constructor
  · constructor
    all_goals first
      | rw [hcustom]; exact hfamilies.accepted
      | rw [hcustom, hdesired]; exact hfamilies.desired
      | rw [hcustom, hschedulable]; exact hfamilies.schedulable
      | rw [hcustom, hstate]; exact hfamilies.updateState
      | rw [hcustom, hstarted]; exact hfamilies.updateStarted
      | rw [hcustom, hcompleted]; exact hfamilies.updateCompleted
      | rw [hcustom, hreplicas]; exact hfamilies.taskState
      | rw [hcustom, hreplicas]; exact hfamilies.running
      | rw [hcustom, hreplicas]; exact hfamilies.atDesired
  · rw [hcustom]
    exact hlabelled

/-! ## One service -/

theorem must_ok {write : ReplicaGauges → Except LabelsMismatch ReplicaGauges} {r : Reconciler}
    {gauges : ReplicaGauges} (h : write r.replicaGauges = .ok gauges) :
    must write r = .ok () { r with replicaGauges := gauges } := by
  unfold must
  rw [h]

theorem mustUpdate_ok {r : Reconciler} (service : Service) {metadata : ServiceMetadata}
    (h : r.serviceUpdate.Fits (labelsForMetadata metadata)) :
    mustUpdate service metadata r =
      .ok () { r with serviceUpdate := r.serviceUpdate.updated service metadata } := by
  unfold mustUpdate
  rw [ServiceUpdateMetrics.updateForService_of_fits service h]

theorem setReplicas_ok {r : Reconciler} {metadata : ServiceMetadata} (counts : Gauge × Gauge)
    (hdesired : r.replicaGauges.desired.desc.Fits (labelsForMetadata metadata))
    (hschedulable : r.replicaGauges.schedulable.desc.Fits (labelsForMetadata metadata)) :
    setReplicas metadata counts r =
      .ok () { r with replicaGauges := r.replicaGauges.put metadata counts } := by
  have hset : r.replicaGauges.setDesired metadata counts.1 =
      .ok { r.replicaGauges with
        desired := r.replicaGauges.desired.put (labelsForMetadata metadata) counts.1 } := by
    unfold ReplicaGauges.setDesired
    rw [GaugeVec.setWith_of_fits hdesired]
    rfl
  unfold setReplicas
  rw [bind_ok (must_ok hset)]
  refine must_ok ?_
  unfold ReplicaGauges.setSchedulable
  rw [@GaugeVec.setWith_of_fits r.replicaGauges.schedulable _ hschedulable]
  rfl

/-- What `applyService` leaves for a service with `metadata`. -/
def withService [HostText] (r : Reconciler) (service : Service) (nodes : List Node)
    (metadata : ServiceMetadata) : Reconciler :=
  let cleaned := r.deleteOldIdentity service.id metadata
  let counts := replicaCounts metadata nodes
  let stored := { metadata with desiredReplicas := counts.1 }
  { cleaned with
    metadata := r.metadata.insert service.id stored
    replicaGauges := cleaned.replicaGauges.put stored counts
    serviceUpdate := cleaned.serviceUpdate.updated service stored
    state := r.state.bumpServiceGeneration service.id (some true) }

section Deleting

variable (r : Reconciler) (metadata : ServiceMetadata)

/-- `deleteServiceSeries` writes the families only. -/
theorem deleteServiceSeries_eq :
    ∃ replicaGauges serviceUpdate,
      r.deleteServiceSeries metadata = { r with replicaGauges, serviceUpdate } ∧
      replicaGauges.desired.desc = r.replicaGauges.desired.desc ∧
      replicaGauges.schedulable.desc = r.replicaGauges.schedulable.desc ∧
      serviceUpdate.state.desc = r.serviceUpdate.state.desc ∧
      serviceUpdate.started.desc = r.serviceUpdate.started.desc ∧
      serviceUpdate.completed.desc = r.serviceUpdate.completed.desc :=
  ⟨_, _, rfl, by simp, by simp, by simp, by simp, by simp⟩

theorem deleteOldIdentity_eq (id : String) :
    ∃ replicaGauges serviceUpdate,
      r.deleteOldIdentity id metadata = { r with replicaGauges, serviceUpdate } ∧
      replicaGauges.desired.desc = r.replicaGauges.desired.desc ∧
      replicaGauges.schedulable.desc = r.replicaGauges.schedulable.desc ∧
      serviceUpdate.state.desc = r.serviceUpdate.state.desc ∧
      serviceUpdate.started.desc = r.serviceUpdate.started.desc ∧
      serviceUpdate.completed.desc = r.serviceUpdate.completed.desc := by
  unfold deleteOldIdentity
  split
  · split
    · exact deleteServiceSeries_eq r _
    · exact ⟨_, _, rfl, rfl, rfl, rfl, rfl, rfl⟩
  · exact ⟨_, _, rfl, rfl, rfl, rfl, rfl, rfl⟩

end Deleting

variable [HostText] {r : Reconciler}

section WithService

variable (r) (service : Service) (nodes : List Node) (metadata : ServiceMetadata)

theorem withService_metadata : (r.withService service nodes metadata).metadata =
    r.metadata.insert service.id
      { metadata with desiredReplicas := (replicaCounts metadata nodes).1 } := rfl

theorem withService_nodes : (r.withService service nodes metadata).nodes = r.nodes := by
  obtain ⟨gauges, update, hcleaned, -⟩ := deleteOldIdentity_eq r metadata service.id
  simp only [withService, hcleaned]

theorem withService_state : (r.withService service nodes metadata).state =
    r.state.bumpServiceGeneration service.id (some true) := rfl

theorem withService_desired : (r.withService service nodes metadata).replicaGauges.desired =
    (r.deleteOldIdentity service.id metadata).replicaGauges.desired.put (labelsForMetadata metadata)
      (replicaCounts metadata nodes).1 := rfl

theorem withService_schedulable : (r.withService service nodes metadata).replicaGauges.schedulable =
    (r.deleteOldIdentity service.id metadata).replicaGauges.schedulable.put
      (labelsForMetadata metadata)
      (ReplicaGauges.schedulableValue metadata (replicaCounts metadata nodes).2) := rfl

theorem withService_serviceUpdate : (r.withService service nodes metadata).serviceUpdate =
    (r.deleteOldIdentity service.id metadata).serviceUpdate.updated service metadata := rfl

end WithService

/-- **`applyService` either panics before its first write or makes all of them.** -/
theorem applyService_ok (wired : r.Wired) {service : Service} {metadata : ServiceMetadata}
    (h : buildMetadata service r.customLabels = .ok metadata) (nodes : List Node) :
    applyService service nodes r = .ok () (r.withService service nodes metadata) := by
  have labelled := labelled_of_buildMetadata h
  obtain ⟨gauges, update, hcleaned, hdesired, hschedulable, hstate, hstarted, hcompleted⟩ :=
    deleteOldIdentity_eq r metadata service.id
  have hbuild : buildOrPanic service r = .ok metadata r := by
    unfold buildOrPanic
    rw [h]
  have hfitsDesired : gauges.desired.desc.Fits (labelsForMetadata metadata) :=
    hdesired ▸ wired.families.desired_fits labelled
  have hfitsSchedulable : gauges.schedulable.desc.Fits (labelsForMetadata metadata) :=
    hschedulable ▸ wired.families.schedulable_fits labelled
  have hfitsUpdate : update.Fits (labelsForMetadata metadata) := by
    obtain ⟨fitsState, fitsStarted, fitsCompleted⟩ := wired.families.update_fits labelled
    exact ⟨fun state => hstate ▸ fitsState state, hstarted ▸ fitsStarted, hcompleted ▸ fitsCompleted⟩
  unfold applyService
  rw [bind_ok hbuild]
  rw [bind_modify, hcleaned, bind_modify, bind_ok (setReplicas_ok _ hfitsDesired hfitsSchedulable),
    bind_ok (mustUpdate_ok service hfitsUpdate)]
  simp only [withService, hcleaned]
  rfl

/-- A panic of `buildMetadata` leaves everything as it was. -/
theorem applyService_panic {service : Service} {panic : Panic}
    (h : buildMetadata service r.customLabels = .error panic) (nodes : List Node) :
    applyService service nodes r = .error panic r := by
  have hbuild : buildOrPanic service r = .error panic r := by
    unfold buildOrPanic
    rw [h]
  unfold applyService
  exact bind_error hbuild

theorem withService_wired (wired : r.Wired) {service : Service} {metadata : ServiceMetadata}
    (labelled : metadata.Labelled r.customLabels) (nodes : List Node) :
    (r.withService service nodes metadata).Wired := by
  obtain ⟨gauges, update, hcleaned, hdesired, hschedulable, hstate, hstarted, hcompleted⟩ :=
    deleteOldIdentity_eq r metadata service.id
  unfold withService
  rw [hcleaned]
  refine wired.congr rfl hdesired hschedulable hstate hstarted hcompleted rfl ?_
  intro id cached hcached
  rw [Std.ExtTreeMap.getElem?_insert] at hcached
  split at hcached
  · cases hcached
    exact labelled
  · exact wired.labelled id cached hcached

omit [HostText] in
theorem removeService_wired (wired : r.Wired) (id : String) : (r.removeService id).Wired := by
  unfold removeService
  cases hcached : r.metadata[id]? with
  | none => exact wired.congr rfl rfl rfl rfl rfl rfl rfl wired.labelled
  | some metadata =>
    obtain ⟨gauges, update, hdeleted, hdesired, hschedulable, hstate, hstarted, hcompleted⟩ :=
      deleteServiceSeries_eq r metadata
    simp only [hdeleted]
    refine wired.congr rfl hdesired hschedulable hstate hstarted hcompleted rfl ?_
    intro other cached hother
    simp only [modifyState, Std.ExtTreeMap.getElem?_erase] at hother
    split at hother
    · cases hother
    · exact wired.labelled other cached hother

/-! ## A node list -/

/-- What `recountService` leaves. -/
def recounted (nodes : List Node) (all : Map String ServiceMetadata) (r : Reconciler)
    (serviceId : String) : Reconciler :=
  match all[serviceId]? with
  | none => r
  | some metadata =>
    { r with
      metadata := r.metadata.modify serviceId
        ({ · with desiredReplicas := (replicaCounts metadata nodes).1 })
      replicaGauges := r.replicaGauges.put metadata (replicaCounts metadata nodes) }

/-- The reconciler with the node list replaced, before the counts are recomputed. -/
def replaceNodes (r : Reconciler) (nodes : List Node) : Reconciler :=
  { r with nodes, nodesByState := r.nodesByState.updateFromSlice nodes }

/-- What `applyNodes` leaves. -/
def withNodes (r : Reconciler) (nodes : List Node) (visit : List String) : Reconciler :=
  (visit.foldl (recounted nodes r.metadata) (r.replaceNodes nodes)).modifyState fun state =>
    { state with nodeGeneration := state.nodeGeneration + 1 }

theorem recounted_wired (wired : r.Wired) (nodes : List Node) (all : Map String ServiceMetadata)
    (id : String) : (recounted nodes all r id).Wired := by
  unfold recounted
  split
  · exact wired
  · refine wired.congr rfl rfl rfl rfl rfl rfl rfl ?_
    intro other cached hother
    simp only [Std.ExtTreeMap.getElem?_modify] at hother
    split at hother
    · obtain ⟨old, hold, rfl⟩ := Option.map_eq_some_iff.1 hother
      exact wired.labelled _ old hold
    · exact wired.labelled other cached hother

theorem foldl_recounted_wired (wired : r.Wired) (nodes : List Node)
    (all : Map String ServiceMetadata) (visit : List String) :
    (visit.foldl (recounted nodes all) r).Wired := by
  induction visit generalizing r with
  | nil => exact wired
  | cons id visit ih => exact ih (recounted_wired wired nodes all id)

omit [HostText] in
theorem replaceNodes_wired (wired : r.Wired) (nodes : List Node) : (r.replaceNodes nodes).Wired :=
  wired.congr rfl rfl rfl rfl rfl rfl rfl wired.labelled

theorem withNodes_wired (wired : r.Wired) (nodes : List Node) (visit : List String) :
    (r.withNodes nodes visit).Wired := by
  have h := foldl_recounted_wired (replaceNodes_wired wired nodes) nodes r.metadata visit
  exact h.congr rfl rfl rfl rfl rfl rfl rfl h.labelled

@[simp] theorem recounted_customLabels (nodes : List Node) (all : Map String ServiceMetadata)
    (id : String) : (recounted nodes all r id).customLabels = r.customLabels := by
  unfold recounted
  split <;> rfl

/-- **`applyNodes` never panics.** -/
theorem applyNodes_ok (wired : r.Wired) (nodes : List Node) (visit : List String) :
    applyNodes nodes visit r = .ok () (r.withNodes nodes visit) := by
  have hbody : ∀ id ∈ visit, ∀ current : Reconciler,
      current.Wired ∧ current.customLabels = r.customLabels →
      recountService nodes r.metadata id current = .ok () (recounted nodes r.metadata current id) ∧
        (recounted nodes r.metadata current id).Wired ∧
        (recounted nodes r.metadata current id).customLabels = r.customLabels := by
    rintro id - current ⟨hcurrent, hcustom⟩
    refine ⟨?_, recounted_wired hcurrent _ _ _, by rw [recounted_customLabels, hcustom]⟩
    unfold recountService recounted
    cases hmetadata : r.metadata[id]? with
    | none => rfl
    | some metadata =>
      have labelled : metadata.Labelled current.customLabels :=
        hcustom ▸ wired.labelled id metadata hmetadata
      simp only [bind_modify]
      exact setReplicas_ok _ (hcurrent.families.desired_fits labelled)
        (hcurrent.families.schedulable_fits labelled)
  unfold applyNodes
  rw [bind_modify]
  have hget : (get : EStateM Panic Reconciler Reconciler) (r.replaceNodes nodes) =
      .ok (r.replaceNodes nodes) (r.replaceNodes nodes) := rfl
  refine (bind_ok hget).trans ?_
  refine (bind_ok (forM_ok (recounted nodes r.metadata)
    (fun current => current.Wired ∧ current.customLabels = r.customLabels) visit
    ⟨replaceNodes_wired wired nodes, rfl⟩ hbody)).trans ?_
  rfl

/-! ## What the writes leave alone -/

theorem withService_frame (r : Reconciler) (service : Service) (nodes : List Node)
    (metadata : ServiceMetadata) :
    (r.withService service nodes metadata).ready = r.ready ∧
      (r.withService service nodes metadata).metrics = r.metrics ∧
      (r.withService service nodes metadata).lastPublished = r.lastPublished ∧
      (r.withService service nodes metadata).pollRejections = r.pollRejections ∧
      (r.withService service nodes metadata).replicasState = r.replicasState := by
  obtain ⟨gauges, update, hcleaned, -⟩ := deleteOldIdentity_eq r metadata service.id
  simp only [withService, hcleaned, and_self]

omit [HostText] in
theorem removeService_frame (r : Reconciler) (id : String) :
    (r.removeService id).state = r.state.forgetService id ∧ (r.removeService id).ready = r.ready ∧
      (r.removeService id).metrics = r.metrics ∧
      (r.removeService id).lastPublished = r.lastPublished ∧
      (r.removeService id).pollRejections = r.pollRejections ∧
      (r.removeService id).replicasState = r.replicasState := by
  unfold removeService
  split <;> exact ⟨rfl, rfl, rfl, rfl, rfl, rfl⟩

theorem recounted_frame (nodes : List Node) (all : Map String ServiceMetadata) (r : Reconciler)
    (id : String) :
    (recounted nodes all r id).state = r.state ∧ (recounted nodes all r id).ready = r.ready ∧
      (recounted nodes all r id).metrics = r.metrics ∧
      (recounted nodes all r id).lastPublished = r.lastPublished ∧
      (recounted nodes all r id).pollRejections = r.pollRejections ∧
      (recounted nodes all r id).replicasState = r.replicasState := by
  unfold recounted
  split <;> exact ⟨rfl, rfl, rfl, rfl, rfl, rfl⟩

theorem withNodes_frame (r : Reconciler) (nodes : List Node) (visit : List String) :
    (r.withNodes nodes visit).state =
        { r.state with nodeGeneration := r.state.nodeGeneration + 1 } ∧
      (r.withNodes nodes visit).ready = r.ready ∧ (r.withNodes nodes visit).metrics = r.metrics ∧
      (r.withNodes nodes visit).lastPublished = r.lastPublished ∧
      (r.withNodes nodes visit).pollRejections = r.pollRejections ∧
      (r.withNodes nodes visit).replicasState = r.replicasState := by
  have hfold : ∀ (visit : List String) (start : Reconciler) (all : Map String ServiceMetadata),
      (visit.foldl (recounted nodes all) start).state = start.state ∧
        (visit.foldl (recounted nodes all) start).ready = start.ready ∧
        (visit.foldl (recounted nodes all) start).metrics = start.metrics ∧
        (visit.foldl (recounted nodes all) start).lastPublished = start.lastPublished ∧
        (visit.foldl (recounted nodes all) start).pollRejections = start.pollRejections ∧
        (visit.foldl (recounted nodes all) start).replicasState = start.replicasState := by
    intro visit
    induction visit with
    | nil => exact fun _ _ => ⟨rfl, rfl, rfl, rfl, rfl, rfl⟩
    | cons id visit ih =>
      intro start all
      rw [List.foldl_cons]
      obtain ⟨hstate, hready, hmetrics, hlast, hrejections, hreplicas⟩ :=
        ih (recounted nodes all start id) all
      obtain ⟨hstate', hready', hmetrics', hlast', hrejections', hreplicas'⟩ :=
        recounted_frame nodes all start id
      exact ⟨hstate.trans hstate', hready.trans hready', hmetrics.trans hmetrics',
        hlast.trans hlast', hrejections.trans hrejections', hreplicas.trans hreplicas'⟩
  obtain ⟨hstate, hready, hmetrics, hlast, hrejections, hreplicas⟩ :=
    hfold visit (r.replaceNodes nodes) r.metadata
  refine ⟨?_, hready, hmetrics, hlast, hrejections, hreplicas⟩
  simp only [withNodes, modifyState]
  rw [hstate]
  rfl

omit [HostText] in
theorem removeService_metadata (r : Reconciler) (id : String) :
    (r.removeService id).metadata = r.metadata.erase id := by
  unfold removeService
  cases hcached : r.metadata[id]? with
  | some metadata => rfl
  | none =>
    exact (erase_eq_self (notMem_iff_getElem?.2 hcached)).symm

end Reconciler

end SwarmExporter
