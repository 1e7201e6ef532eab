import SwarmExporter.Reconciler.Series

/-!
# The series of one identity

The five per-service families are written and deleted an identity at a time. `seriesAt` is what they
hold under one identity: `applyService` fills it for the identity of the service, and both it and
`removeService` empty it where a cached service `holds` it under the id they are called with, whoever
wrote it last.
-/

namespace SwarmExporter

open Lib
open Docker (Node Service)

/-- What the per-service families hold under one identity. -/
@[ext] structure ServiceSeries where
  desired : Option Gauge
  schedulable : Option Gauge
  state : UpdateState → Option Gauge
  started : Option Gauge
  completed : Option Gauge

namespace ServiceSeries

def empty : ServiceSeries := ⟨none, none, fun _ => none, none, none⟩

/-- All the series of `service`, with the counts that `nodes` give it. -/
def full [HostText] (service : Service) (metadata : ServiceMetadata) (nodes : List Node) :
    ServiceSeries :=
  { desired := some (replicaCounts metadata nodes).1
    schedulable := some (Reconciler.schedulableReplicas metadata nodes)
    state := fun state => some (ServiceUpdateMetrics.stateValue service state)
    started := some (ServiceUpdateMetrics.startedSeconds service)
    completed := some (ServiceUpdateMetrics.completedSeconds service) }

end ServiceSeries

/-! ## Keys and identities -/

section Keys

variable {custom : CustomLabels} {first second : ServiceMetadata}

/-- The state label can be read off a label set, and the identity too. -/
theorem cloneLabelsWithState_inj (accepted : custom.Accepted) (hfirst : first.Labelled custom)
    (hsecond : second.Labelled custom) {state state' : String}
    (h : cloneLabelsWithState (labelsForMetadata first) state =
      cloneLabelsWithState (labelsForMetadata second) state') :
    labelsForMetadata first = labelsForMetadata second ∧ state = state' := by
  obtain ⟨hstate, hrest⟩ := insert_inj h
  rw [erase_eq_self (state_notMem_labelsForMetadata accepted hfirst),
    erase_eq_self (state_notMem_labelsForMetadata accepted hsecond)] at hrest
  exact ⟨hrest, hstate⟩

end Keys

namespace Reconciler

variable {r : Reconciler} {metadata other : ServiceMetadata}

/-- What the five families hold under `labels`. -/
def seriesAt (r : Reconciler) (labels : Labels) : ServiceSeries :=
  { desired := r.replicaGauges.desired.children[r.replicaGauges.desired.desc.key labels]?
    schedulable := r.replicaGauges.schedulable.children[r.replicaGauges.schedulable.desc.key labels]?
    state := fun state => r.serviceUpdate.state.children[r.serviceUpdate.stateKey labels state]?
    started := r.serviceUpdate.started.children[r.serviceUpdate.started.desc.key labels]?
    completed := r.serviceUpdate.completed.children[r.serviceUpdate.completed.desc.key labels]? }

/-- Whether `id` is cached with the identity `labels`. -/
def holds (r : Reconciler) (id : String) (labels : Labels) : Bool :=
  r.metadata[id]?.any fun cached => labelsForMetadata cached = labels

theorem holds_eq_true {id : String} {labels : Labels} : r.holds id labels = true ↔
    ∃ cached, r.metadata[id]? = some cached ∧ labelsForMetadata cached = labels := by
  unfold holds
  rw [Option.any_eq_true]
  simp

section Vec

variable {vec : GaugeVec} (hmetadata : vec.desc.Fits (labelsForMetadata metadata))
  (hother : vec.desc.Fits (labelsForMetadata other))

include hmetadata hother

/-- Two services have one key exactly if they have one identity. -/
theorem key_eq_iff : vec.desc.key (labelsForMetadata other) = vec.desc.key (labelsForMetadata metadata) ↔
    labelsForMetadata metadata = labelsForMetadata other := by
  constructor
  · exact fun h => hmetadata.key_inj hother h.symm
  · exact fun h => by rw [h]

theorem getElem?_drop_identity :
    (vec.drop (labelsForMetadata metadata)).children[vec.desc.key (labelsForMetadata other)]? =
      if labelsForMetadata metadata = labelsForMetadata other then none
      else vec.children[vec.desc.key (labelsForMetadata other)]? := by
  simp only [GaugeVec.getElem?_drop, key_eq_iff hmetadata hother]

theorem getElem?_put_identity (value : Gauge) :
    (vec.put (labelsForMetadata metadata) value).children[vec.desc.key (labelsForMetadata other)]? =
      if labelsForMetadata metadata = labelsForMetadata other then some value
      else vec.children[vec.desc.key (labelsForMetadata other)]? := by
  simp only [GaugeVec.getElem?_put, key_eq_iff hmetadata hother]

end Vec

section Identity

variable (wired : r.Wired) (hmetadata : metadata.Labelled r.customLabels)
  (hother : other.Labelled r.customLabels)

include wired hmetadata hother

/-- The state series of another identity have other keys. -/
theorem stateKey_ne (hne : labelsForMetadata metadata ≠ labelsForMetadata other) (state : UpdateState) :
    ¬∃ state', r.serviceUpdate.stateKey (labelsForMetadata other) state =
      r.serviceUpdate.stateKey (labelsForMetadata metadata) state' := by
  rintro ⟨state', hkey⟩
  have hlabels := ((wired.families.update_fits hother).state state.asStr).key_inj
    ((wired.families.update_fits hmetadata).state state'.asStr) hkey
  exact hne (cloneLabelsWithState_inj wired.families.accepted hother hmetadata hlabels).1.symm

theorem seriesAt_deleteServiceSeries :
    (r.deleteServiceSeries metadata).seriesAt (labelsForMetadata other) =
      if labelsForMetadata metadata = labelsForMetadata other then .empty
      else r.seriesAt (labelsForMetadata other) := by
  have hdesired := getElem?_drop_identity (wired.families.desired_fits hmetadata)
    (wired.families.desired_fits hother)
  have hschedulable := getElem?_drop_identity (wired.families.schedulable_fits hmetadata)
    (wired.families.schedulable_fits hother)
  have hstarted := getElem?_drop_identity (wired.families.update_fits hmetadata).started
    (wired.families.update_fits hother).started
  have hcompleted := getElem?_drop_identity (wired.families.update_fits hmetadata).completed
    (wired.families.update_fits hother).completed
  rw [deleteServiceSeries_of_labelled wired.families hmetadata]
  by_cases heq : labelsForMetadata metadata = labelsForMetadata other
  · rw [if_pos heq] at hdesired hschedulable hstarted hcompleted ⊢
    refine ServiceSeries.ext hdesired hschedulable (funext fun state => ?_) hstarted hcompleted
    have hstate := @ServiceUpdateMetrics.getElem?_cleared_state_own r.serviceUpdate metadata state
    rwa [heq] at hstate
  · rw [if_neg heq] at hdesired hschedulable hstarted hcompleted ⊢
    refine ServiceSeries.ext hdesired hschedulable (funext fun state => ?_) hstarted hcompleted
    exact ServiceUpdateMetrics.getElem?_cleared_state_other
      (stateKey_ne wired hmetadata hother heq state)

omit hmetadata in
/-- Removing a service empties the identity it is cached with. -/
theorem seriesAt_removeService (id : String) :
    (r.removeService id).seriesAt (labelsForMetadata other) =
      if r.holds id (labelsForMetadata other) then .empty
      else r.seriesAt (labelsForMetadata other) := by
  unfold removeService holds
  cases hcached : r.metadata[id]? with
  | none => rfl
  | some cached =>
    have hdeleted := seriesAt_deleteServiceSeries wired (wired.labelled id cached hcached) hother
    simp only [Option.any_some, decide_eq_true_eq]
    exact hdeleted

omit hmetadata in
theorem seriesAt_deleteOldIdentity (id : String)
    (hne : labelsForMetadata metadata ≠ labelsForMetadata other) :
    (r.deleteOldIdentity id metadata).seriesAt (labelsForMetadata other) =
      if r.holds id (labelsForMetadata other) then .empty
      else r.seriesAt (labelsForMetadata other) := by
  unfold deleteOldIdentity holds
  cases hcached : r.metadata[id]? with
  | none => rfl
  | some cached =>
    have hdeleted := seriesAt_deleteServiceSeries wired (wired.labelled id cached hcached) hother
    simp only [Option.any_some, decide_eq_true_eq]
    by_cases hlabels : labelsForMetadata cached = labelsForMetadata metadata
    · rw [if_neg (not_not.2 hlabels), if_neg (fun heq => hne (hlabels.symm.trans heq))]
    · rw [if_pos hlabels]
      exact hdeleted

end Identity

/-- Deleting the old identity of a service keeps the wiring. -/
theorem deleteOldIdentity_wired (wired : r.Wired) (id : String) (metadata : ServiceMetadata) :
    (r.deleteOldIdentity id metadata).Wired ∧
      (r.deleteOldIdentity id metadata).customLabels = r.customLabels := by
  obtain ⟨gauges, update, hcleaned, hdesired, hschedulable, hstate, hstarted, hcompleted⟩ :=
    deleteOldIdentity_eq r metadata id
  rw [hcleaned]
  exact ⟨wired.congr rfl hdesired hschedulable hstate hstarted hcompleted rfl wired.labelled, rfl⟩

section Apply

variable [HostText] (wired : r.Wired) (hmetadata : metadata.Labelled r.customLabels)
  (hother : other.Labelled r.customLabels) (service : Service) (nodes : List Node)

include wired hmetadata hother

/-- The five families written for `service`. -/
theorem seriesAt_put {r' : Reconciler}
    (hgauges : r'.replicaGauges = r.replicaGauges.put metadata (replicaCounts metadata nodes))
    (hupdate : r'.serviceUpdate = r.serviceUpdate.updated service metadata) :
    r'.seriesAt (labelsForMetadata other) =
      if labelsForMetadata metadata = labelsForMetadata other then .full service metadata nodes
      else r.seriesAt (labelsForMetadata other) := by
  have hdesired := getElem?_put_identity (wired.families.desired_fits hmetadata)
    (wired.families.desired_fits hother) (replicaCounts metadata nodes).1
  have hschedulable := getElem?_put_identity (wired.families.schedulable_fits hmetadata)
    (wired.families.schedulable_fits hother) (schedulableReplicas metadata nodes)
  have hstarted := getElem?_put_identity (wired.families.update_fits hmetadata).started
    (wired.families.update_fits hother).started (ServiceUpdateMetrics.startedSeconds service)
  have hcompleted := getElem?_put_identity (wired.families.update_fits hmetadata).completed
    (wired.families.update_fits hother).completed (ServiceUpdateMetrics.completedSeconds service)
  unfold seriesAt
  rw [hgauges, hupdate]
  by_cases heq : labelsForMetadata metadata = labelsForMetadata other
  · rw [if_pos heq] at hdesired hschedulable hstarted hcompleted ⊢
    refine ServiceSeries.ext hdesired hschedulable (funext fun state => ?_) hstarted hcompleted
    have hstate := ServiceUpdateMetrics.getElem?_updated_state_own
      (wired.families.update_fits hmetadata) service state
    rwa [heq] at hstate
  · rw [if_neg heq] at hdesired hschedulable hstarted hcompleted ⊢
    refine ServiceSeries.ext hdesired hschedulable (funext fun state => ?_) hstarted hcompleted
    exact ServiceUpdateMetrics.getElem?_updated_state_other service
      (stateKey_ne wired hmetadata hother heq state)

/-- **Applying a service** fills its identity, and empties another one if the service was cached with
it. -/
theorem seriesAt_withService :
    (r.withService service nodes metadata).seriesAt (labelsForMetadata other) =
      if labelsForMetadata metadata = labelsForMetadata other then .full service metadata nodes
      else if r.holds service.id (labelsForMetadata other) then .empty
      else r.seriesAt (labelsForMetadata other) := by
  obtain ⟨hcleaned, hcustom⟩ := deleteOldIdentity_wired wired service.id metadata
  have hput : (r.withService service nodes metadata).seriesAt (labelsForMetadata other) =
      if labelsForMetadata metadata = labelsForMetadata other then .full service metadata nodes
      else (r.deleteOldIdentity service.id metadata).seriesAt (labelsForMetadata other) :=
    seriesAt_put hcleaned (hcustom ▸ hmetadata) (hcustom ▸ hother) service nodes rfl rfl
  rw [hput]
  by_cases heq : labelsForMetadata metadata = labelsForMetadata other
  · rw [if_pos heq, if_pos heq]
  · rw [if_neg heq, if_neg heq, seriesAt_deleteOldIdentity wired hother service.id heq]

end Apply

end Reconciler

end SwarmExporter
