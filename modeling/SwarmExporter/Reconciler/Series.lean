import SwarmExporter.Reconciler.Steps

/-!
# No orphan series

The per-service families are keyed by label identity, the caches by service id. `SeriesInv` ties them
together: every series belongs to a cached service, whose counts are those of the cached nodes and
whose value it holds. Three operations write what it is about, and each is one lemma here: a service
applied (`withService_seriesInv`), removed (`removeService_seriesInv`), and the nodes replaced
(`withNodes_seriesInv`). Two cached services may share an identity; the series then holds the value of
one of them.
-/

namespace SwarmExporter

open Lib
open Docker (Node Service)

/-- Every series of `children` is one of a cached service, as `of` relates the two. -/
def Backed (metadata : Map String ServiceMetadata) (children : Map (List String) Gauge)
    (of : ServiceMetadata → List String → Gauge → Prop) : Prop :=
  ∀ key value, children[key]? = some value →
    ∃ (id : String) (cached : ServiceMetadata), metadata[id]? = some cached ∧ of cached key value

namespace Backed

variable {metadata : Map String ServiceMetadata} {children children' : Map (List String) Gauge}
  {of : ServiceMetadata → List String → Gauge → Prop} {id : String}

/-- `id` is cached anew; a series left from before is not one of its previous identity. -/
theorem insert (h : Backed metadata children of) {new : ServiceMetadata}
    (hchildren : ∀ key value, children'[key]? = some value → of new key value ∨
      (children[key]? = some value ∧
        ∀ previous, metadata[id]? = some previous → ¬of previous key value)) :
    Backed (metadata.insert id new) children' of := by
  intro key value hvalue
  rcases hchildren key value hvalue with hnew | ⟨hold, hprevious⟩
  · exact ⟨id, new, by simp, hnew⟩
  · obtain ⟨other, cached, hcached, hof⟩ := h key value hold
    have hne : id ≠ other := by
      rintro rfl
      exact hprevious cached hcached hof
    exact ⟨other, cached, by simp [Std.ExtTreeMap.getElem?_insert, hne, hcached], hof⟩

theorem erase (h : Backed metadata children of)
    (hchildren : ∀ key value, children'[key]? = some value → children[key]? = some value ∧
        ∀ previous, metadata[id]? = some previous → ¬of previous key value) :
    Backed (metadata.erase id) children' of := by
  intro key value hvalue
  obtain ⟨hold, hprevious⟩ := hchildren key value hvalue
  obtain ⟨other, cached, hcached, hof⟩ := h key value hold
  have hne : id ≠ other := by
    rintro rfl
    exact hprevious cached hcached hof
  exact ⟨other, cached, by simp [Std.ExtTreeMap.getElem?_erase, hne, hcached], hof⟩

end Backed

/-- The key of a service's series in a family with the identity as its labels. -/
def identityKey (desc : Desc) (metadata : ServiceMetadata) : List String :=
  desc.key (labelsForMetadata metadata)

/-- The keys of its series in the state family. -/
def IsStateKey (desc : Desc) (metadata : ServiceMetadata) (key : List String) : Prop :=
  ∃ state : UpdateState,
    key = desc.key (cloneLabelsWithState (labelsForMetadata metadata) state.asStr)

namespace Reconciler

variable {r : Reconciler}

/-! ## Deleting the series of an identity -/

/-- What `deleteServiceSeries` leaves when the label sets fit. -/
theorem deleteServiceSeries_of_labelled (families : r.Families) {metadata : ServiceMetadata}
    (labelled : metadata.Labelled r.customLabels) :
    r.deleteServiceSeries metadata = { r with
      replicaGauges :=
        { desired := r.replicaGauges.desired.drop (labelsForMetadata metadata)
          schedulable := r.replicaGauges.schedulable.drop (labelsForMetadata metadata) }
      serviceUpdate := r.serviceUpdate.cleared metadata } := by
  simp only [deleteServiceSeries, GaugeVec.deleteWith_of_fits (families.desired_fits labelled),
    GaugeVec.deleteWith_of_fits (families.schedulable_fits labelled),
    ServiceUpdateMetrics.clear_of_fits (families.update_fits labelled)]

/-- `children'` has no series that `children` lacks, and none under a key that is `gone`. -/
def Trims (children children' : Map (List String) Gauge) (gone : List String → Prop) : Prop :=
  ∀ key value, children'[key]? = some value → children[key]? = some value ∧ ¬gone key

/-- `cleaned` has the series of `r` without those of the services that are `gone`. -/
structure Cleans (r cleaned : Reconciler) (gone : ServiceMetadata → Prop) : Prop where
  desired : Trims r.replicaGauges.desired.children cleaned.replicaGauges.desired.children
    fun key => ∃ m, gone m ∧ key = identityKey r.replicaGauges.desired.desc m
  schedulable : Trims r.replicaGauges.schedulable.children cleaned.replicaGauges.schedulable.children
    fun key => ∃ m, gone m ∧ key = identityKey r.replicaGauges.schedulable.desc m
  state : Trims r.serviceUpdate.state.children cleaned.serviceUpdate.state.children
    fun key => ∃ m, gone m ∧ IsStateKey r.serviceUpdate.state.desc m key
  started : Trims r.serviceUpdate.started.children cleaned.serviceUpdate.started.children
    fun key => ∃ m, gone m ∧ key = identityKey r.serviceUpdate.started.desc m
  completed : Trims r.serviceUpdate.completed.children cleaned.serviceUpdate.completed.children
    fun key => ∃ m, gone m ∧ key = identityKey r.serviceUpdate.completed.desc m

theorem trims_drop (vec : GaugeVec) (metadata : ServiceMetadata) :
    Trims vec.children (vec.drop (labelsForMetadata metadata)).children
      fun key => ∃ m, m = metadata ∧ key = identityKey vec.desc m := by
  intro key value h
  rw [GaugeVec.getElem?_drop] at h
  split at h
  · cases h
  · rename_i hkey
    refine ⟨h, ?_⟩
    rintro ⟨_, rfl, hgone⟩
    exact hkey hgone

theorem trims_cleared (metrics : ServiceUpdateMetrics) (metadata : ServiceMetadata) :
    Trims metrics.state.children (metrics.cleared metadata).state.children
      fun key => ∃ m, m = metadata ∧ IsStateKey metrics.state.desc m key := by
  intro key value h
  by_cases hkey : IsStateKey metrics.state.desc metadata key
  · obtain ⟨state, rfl⟩ := hkey
    have hnone := @ServiceUpdateMetrics.getElem?_cleared_state_own metrics metadata state
    rw [ServiceUpdateMetrics.stateKey, h] at hnone
    cases hnone
  · rw [ServiceUpdateMetrics.getElem?_cleared_state_other hkey] at h
    refine ⟨h, ?_⟩
    rintro ⟨_, rfl, hgone⟩
    exact hkey hgone

theorem deleteServiceSeries_cleans (families : r.Families) {metadata : ServiceMetadata}
    (labelled : metadata.Labelled r.customLabels) :
    Cleans r (r.deleteServiceSeries metadata) (· = metadata) := by
  rw [deleteServiceSeries_of_labelled families labelled]
  exact ⟨trims_drop _ _, trims_drop _ _, trims_cleared _ _, trims_drop _ _, trims_drop _ _⟩

theorem Cleans.refl (r : Reconciler) {gone : ServiceMetadata → Prop} (h : ∀ metadata, ¬gone metadata) :
    Cleans r r gone := by
  constructor
  all_goals
    refine fun _ _ hvalue => ⟨hvalue, ?_⟩
    rintro ⟨metadata, hgone, -⟩
    exact h metadata hgone

theorem Trims.mono {children children' : Map (List String) Gauge} {gone gone' : List String → Prop}
    (h : Trims children children' gone) (hgone : ∀ key, gone' key → gone key) :
    Trims children children' gone' :=
  fun key value hvalue => (h key value hvalue).imp_right fun hne hg => hne (hgone key hg)

theorem Cleans.mono {cleaned : Reconciler} {gone gone' : ServiceMetadata → Prop}
    (h : Cleans r cleaned gone) (hgone : ∀ metadata, gone' metadata → gone metadata) :
    Cleans r cleaned gone' := by
  have hkeys : ∀ (keyed : ServiceMetadata → List String → Prop) (key : List String),
      (∃ m, gone' m ∧ keyed m key) → ∃ m, gone m ∧ keyed m key :=
    fun _ _ ⟨m, hm, hkey⟩ => ⟨m, hgone m hm, hkey⟩
  exact ⟨h.desired.mono (hkeys _), h.schedulable.mono (hkeys _), h.state.mono (hkeys _),
    h.started.mono (hkeys _), h.completed.mono (hkeys _)⟩

/-- `deleteOldIdentity` deletes the series of the service's previous identity, if it is another. -/
theorem deleteOldIdentity_cleans (wired : r.Wired) (id : String) (metadata : ServiceMetadata) :
    Cleans r (r.deleteOldIdentity id metadata) fun previous =>
      r.metadata[id]? = some previous ∧ labelsForMetadata previous ≠ labelsForMetadata metadata := by
  unfold deleteOldIdentity
  cases hcached : r.metadata[id]? with
  | none => exact .refl r fun previous h => by simp at h
  | some cached =>
    simp only
    split
    · refine (deleteServiceSeries_cleans wired.families (wired.labelled id cached hcached)).mono ?_
      rintro previous ⟨hprevious, -⟩
      exact (Option.some.inj hprevious).symm
    · rename_i hsame
      refine .refl r ?_
      rintro previous ⟨hprevious, hne⟩
      obtain rfl := Option.some.inj hprevious
      exact hsame hne

/-- A family trimmed of a service's previous identity and then written under its new one: a series is
the new one, or an old one of another identity than the service had. -/
theorem put_of_trims {vec cleaned : GaugeVec} {previous : Option ServiceMetadata}
    {metadata : ServiceMetadata} {value : Gauge} (hdesc : cleaned.desc = vec.desc)
    (h : Trims vec.children cleaned.children fun key => ∃ m, (previous = some m ∧
      labelsForMetadata m ≠ labelsForMetadata metadata) ∧ key = identityKey vec.desc m)
    {key : List String} {found : Gauge}
    (hfound : (cleaned.put (labelsForMetadata metadata) value).children[key]? = some found) :
    key = identityKey vec.desc metadata ∧ found = value ∨ vec.children[key]? = some found ∧
      ∀ m, previous = some m → key ≠ identityKey vec.desc m := by
  rw [GaugeVec.getElem?_put, hdesc] at hfound
  split at hfound
  · rename_i hkey
    exact .inl ⟨hkey, (Option.some.inj hfound).symm⟩
  · rename_i hkey
    obtain ⟨hold, hgone⟩ := h key found hfound
    refine .inr ⟨hold, fun m hm heq => ?_⟩
    by_cases hlabels : labelsForMetadata m = labelsForMetadata metadata
    · exact hkey (heq.trans (by rw [identityKey, hlabels]))
    · exact hgone ⟨m, ⟨hm, hlabels⟩, heq⟩

/-- The same for the state family. -/
theorem updated_of_trims {metrics cleaned : ServiceUpdateMetrics} {previous : Option ServiceMetadata}
    {metadata : ServiceMetadata} {service : Service} (hdesc : cleaned.state.desc = metrics.state.desc)
    (h : Trims metrics.state.children cleaned.state.children fun key => ∃ m, (previous = some m ∧
      labelsForMetadata m ≠ labelsForMetadata metadata) ∧ IsStateKey metrics.state.desc m key)
    {key : List String} {found : Gauge}
    (hfound : (cleaned.updated service metadata).state.children[key]? = some found) :
    IsStateKey metrics.state.desc metadata key ∨ metrics.state.children[key]? = some found ∧
      ∀ m, previous = some m → ¬IsStateKey metrics.state.desc m key := by
  by_cases hkey : IsStateKey metrics.state.desc metadata key
  · exact .inl hkey
  · have hother : ¬∃ state, key = cleaned.stateKey (labelsForMetadata metadata) state := by
      rw [← hdesc] at hkey
      exact hkey
    rw [ServiceUpdateMetrics.getElem?_updated_state_other service hother] at hfound
    obtain ⟨hold, hgone⟩ := h key found hfound
    refine .inr ⟨hold, fun m hm hstate => ?_⟩
    by_cases hlabels : labelsForMetadata m = labelsForMetadata metadata
    · exact hkey (by rwa [IsStateKey, ← hlabels])
    · exact hgone ⟨m, ⟨hm, hlabels⟩, hstate⟩

/-! ## The invariant -/

variable [HostText]

/-- The schedulable replicas of a service, as exported. -/
def schedulableReplicas (metadata : ServiceMetadata) (nodes : List Node) : Gauge :=
  ReplicaGauges.schedulableValue metadata (replicaCounts metadata nodes).2

/-- **Every series is of a cached service and holds its value.** -/
structure SeriesInv (r : Reconciler) : Prop where
  desired : Backed r.metadata r.replicaGauges.desired.children fun metadata key value =>
    key = identityKey r.replicaGauges.desired.desc metadata ∧ value = metadata.desiredReplicas
  schedulable : Backed r.metadata r.replicaGauges.schedulable.children fun metadata key value =>
    key = identityKey r.replicaGauges.schedulable.desc metadata ∧
      value = schedulableReplicas metadata r.nodes
  state : Backed r.metadata r.serviceUpdate.state.children fun metadata key _ =>
    IsStateKey r.serviceUpdate.state.desc metadata key
  started : Backed r.metadata r.serviceUpdate.started.children fun metadata key _ =>
    key = identityKey r.serviceUpdate.started.desc metadata
  completed : Backed r.metadata r.serviceUpdate.completed.children fun metadata key _ =>
    key = identityKey r.serviceUpdate.completed.desc metadata
  replicas : ∀ (id : String) (metadata : ServiceMetadata), r.metadata[id]? = some metadata →
    metadata.desiredReplicas = (replicaCounts metadata r.nodes).1

theorem SeriesInv.of_eq {r' : Reconciler} (inv : r.SeriesInv)
    (h : (r'.metadata, r'.nodes, r'.replicaGauges, r'.serviceUpdate) =
      (r.metadata, r.nodes, r.replicaGauges, r.serviceUpdate)) : r'.SeriesInv := by
  simp only [Prod.mk.injEq] at h
  obtain ⟨hmetadata, hnodes, hgauges, hupdate⟩ := h
  obtain ⟨hdesired, hschedulable, hstate, hstarted, hcompleted, hreplicas⟩ := inv
  constructor <;> simp only [hmetadata, hnodes, hgauges, hupdate] <;> assumption

theorem withPolicy_seriesInv (custom : CustomLabels) (policy : ReconcilerPolicy) (now : Timestamp) :
    (withPolicy custom policy now).SeriesInv := by
  constructor <;> simp [withPolicy, Backed, ReplicaGauges.new, ServiceUpdateMetrics.new, GaugeVec.new]

/-! ## The three writes -/

theorem withService_seriesInv (wired : r.Wired) (inv : r.SeriesInv) (service : Service)
    (metadata : ServiceMetadata) : (r.withService service r.nodes metadata).SeriesInv := by
  have hcleans := deleteOldIdentity_cleans wired service.id metadata
  obtain ⟨gauges, update, hcleaned, hdesired, hschedulable, hstate, hstarted, hcompleted⟩ :=
    deleteOldIdentity_eq r metadata service.id
  rw [hcleaned] at hcleans
  constructor
  · simp only [withService_metadata, withService_desired, GaugeVec.put_desc, hcleaned, hdesired]
    refine inv.desired.insert fun key value hvalue => ?_
    rcases put_of_trims hdesired hcleans.desired hvalue with hnew | ⟨hold, hne⟩
    · exact .inl hnew
    · exact .inr ⟨hold, fun previous hprevious hof => hne previous hprevious hof.1⟩
  · simp only [withService_metadata, withService_schedulable, withService_nodes, GaugeVec.put_desc,
      hcleaned, hschedulable]
    refine inv.schedulable.insert fun key value hvalue => ?_
    rcases put_of_trims hschedulable hcleans.schedulable hvalue with hnew | ⟨hold, hne⟩
    · exact .inl hnew
    · exact .inr ⟨hold, fun previous hprevious hof => hne previous hprevious hof.1⟩
  · simp only [withService_metadata, withService_serviceUpdate, hcleaned]
    have hdesc : (update.updated service metadata).state.desc = r.serviceUpdate.state.desc := hstate
    rw [hdesc]
    exact inv.state.insert fun key value hvalue => updated_of_trims hstate hcleans.state hvalue
  · simp only [withService_metadata, withService_serviceUpdate, hcleaned]
    have hdesc : (update.updated service metadata).started.desc = r.serviceUpdate.started.desc :=
      hstarted
    rw [hdesc]
    refine inv.started.insert fun key value hvalue => ?_
    exact (put_of_trims hstarted hcleans.started hvalue).imp_left And.left
  · simp only [withService_metadata, withService_serviceUpdate, hcleaned]
    have hdesc : (update.updated service metadata).completed.desc = r.serviceUpdate.completed.desc :=
      hcompleted
    rw [hdesc]
    refine inv.completed.insert fun key value hvalue => ?_
    exact (put_of_trims hcompleted hcleans.completed hvalue).imp_left And.left
  · intro id cached hcached
    rw [withService_metadata, Std.ExtTreeMap.getElem?_insert] at hcached
    rw [withService_nodes]
    split at hcached
    · cases hcached
      rfl
    · exact inv.replicas id cached hcached

theorem removeService_seriesInv (wired : r.Wired) (inv : r.SeriesInv) (id : String) :
    (r.removeService id).SeriesInv := by
  cases hcached : r.metadata[id]? with
  | none => exact inv.of_eq (by simp [removeService, hcached, modifyState])
  | some metadata =>
    have hcleans := deleteServiceSeries_cleans wired.families (wired.labelled id metadata hcached)
    obtain ⟨gauges, update, hdeleted, hdesired, hschedulable, hstate, hstarted, hcompleted⟩ :=
      deleteServiceSeries_eq r metadata
    have hprevious : ∀ previous, r.metadata[id]? = some previous → previous = metadata := by
      intro previous hprevious
      rw [hcached] at hprevious
      exact (Option.some.inj hprevious).symm
    rw [hdeleted] at hcleans
    simp only [removeService, hcached, hdeleted, modifyState]
    constructor
    · rw [hdesired]
      refine inv.desired.erase fun key value hvalue => (hcleans.desired key value hvalue).imp_right ?_
      exact fun hgone previous hprev hof => hgone ⟨previous, hprevious previous hprev, hof.1⟩
    · rw [hschedulable]
      refine inv.schedulable.erase fun key value hvalue =>
        (hcleans.schedulable key value hvalue).imp_right ?_
      exact fun hgone previous hprev hof => hgone ⟨previous, hprevious previous hprev, hof.1⟩
    · rw [hstate]
      refine inv.state.erase fun key value hvalue => (hcleans.state key value hvalue).imp_right ?_
      exact fun hgone previous hprev hof => hgone ⟨previous, hprevious previous hprev, hof⟩
    · rw [hstarted]
      refine inv.started.erase fun key value hvalue => (hcleans.started key value hvalue).imp_right ?_
      exact fun hgone previous hprev hof => hgone ⟨previous, hprevious previous hprev, hof⟩
    · rw [hcompleted]
      refine inv.completed.erase fun key value hvalue =>
        (hcleans.completed key value hvalue).imp_right ?_
      exact fun hgone previous hprev hof => hgone ⟨previous, hprevious previous hprev, hof⟩
    · intro other cached hother
      rw [Std.ExtTreeMap.getElem?_erase] at hother
      split at hother
      · cases hother
      · exact inv.replicas other cached hother

/-! ## Recounting from a node list -/

/-- `metadata` with the desired replicas that `nodes` give. -/
def recount (nodes : List Node) (metadata : ServiceMetadata) : ServiceMetadata :=
  { metadata with desiredReplicas := (replicaCounts metadata nodes).1 }

/-- A family recounted for the services `done`: a series is one of theirs with its new value, or it is
as it was and of no such service. -/
def RecountsVec (metadata : Map String ServiceMetadata) (done : List String) (vec vec' : GaugeVec)
    (count : ServiceMetadata → Gauge) : Prop :=
  ∀ key value, vec'.children[key]? = some value →
    (∃ id ∈ done, ∃ m : ServiceMetadata, metadata[id]? = some m ∧
      key = identityKey vec.desc m ∧ value = count m) ∨
    vec.children[key]? = some value ∧ ∀ id ∈ done, ∀ m : ServiceMetadata, metadata[id]? = some m →
      key ≠ identityKey vec.desc m

omit [HostText] in
theorem RecountsVec.put {metadata : Map String ServiceMetadata} {done : List String}
    {vec vec' : GaugeVec} {count : ServiceMetadata → Gauge}
    (h : RecountsVec metadata done vec vec' count) (hdesc : vec'.desc = vec.desc) {id : String}
    {m : ServiceMetadata} (hm : metadata[id]? = some m) :
    RecountsVec metadata (done ++ [id]) vec (vec'.put (labelsForMetadata m) (count m)) count := by
  intro key value hvalue
  rw [GaugeVec.getElem?_put, hdesc] at hvalue
  split at hvalue
  · rename_i hkey
    exact .inl ⟨id, by simp, m, hm, hkey, (Option.some.inj hvalue).symm⟩
  · rename_i hkey
    rcases h key value hvalue with ⟨other, hother, hrest⟩ | ⟨hold, hne⟩
    · exact .inl ⟨other, List.mem_append_left _ hother, hrest⟩
    · refine .inr ⟨hold, fun other hother cached hcached => ?_⟩
      rcases List.mem_append.1 hother with hother | hother
      · exact hne other hother cached hcached
      · obtain rfl := List.mem_singleton.1 hother
        rw [hm] at hcached
        cases hcached
        exact hkey

/-- `current` is `start` recounted from `nodes` for the services `done`. -/
structure Recounted (nodes : List Node) (start : Reconciler) (done : List String)
    (current : Reconciler) : Prop where
  metadata : ∀ id : String, current.metadata[id]? =
    if id ∈ done then start.metadata[id]?.map (recount nodes) else start.metadata[id]?
  desired : RecountsVec start.metadata done start.replicaGauges.desired current.replicaGauges.desired
    fun m => (replicaCounts m nodes).1
  schedulable : RecountsVec start.metadata done start.replicaGauges.schedulable
    current.replicaGauges.schedulable (schedulableReplicas · nodes)
  desiredDesc : current.replicaGauges.desired.desc = start.replicaGauges.desired.desc
  schedulableDesc : current.replicaGauges.schedulable.desc = start.replicaGauges.schedulable.desc
  serviceUpdate : current.serviceUpdate = start.serviceUpdate

theorem Recounted.step {nodes : List Node} {start current : Reconciler} {done : List String}
    (h : Recounted nodes start done current) {id : String} (hfresh : id ∉ done) :
    Recounted nodes start (done ++ [id]) (recounted nodes start.metadata current id) := by
  unfold recounted
  cases hm : start.metadata[id]? with
  | none =>
    refine ⟨fun other => ?_, ?_, ?_, h.desiredDesc, h.schedulableDesc, h.serviceUpdate⟩
    · rw [h.metadata]
      grind
    · intro key value hvalue
      rcases h.desired key value hvalue with ⟨other, hother, hrest⟩ | ⟨hold, hne⟩
      · exact .inl ⟨other, List.mem_append_left _ hother, hrest⟩
      · exact .inr ⟨hold, fun other hother m hcached => hne other (by grind) m hcached⟩
    · intro key value hvalue
      rcases h.schedulable key value hvalue with ⟨other, hother, hrest⟩ | ⟨hold, hne⟩
      · exact .inl ⟨other, List.mem_append_left _ hother, hrest⟩
      · exact .inr ⟨hold, fun other hother m hcached => hne other (by grind) m hcached⟩
  | some m =>
    refine ⟨fun other => ?_, h.desired.put h.desiredDesc hm, h.schedulable.put h.schedulableDesc hm,
      h.desiredDesc, h.schedulableDesc, h.serviceUpdate⟩
    simp only [Std.ExtTreeMap.getElem?_modify, h.metadata, Std.LawfulEqCmp.compare_eq_iff_eq]
    by_cases hid : id = other
    · subst hid
      simp [hfresh, hm, recount]
    · have hdone : other ∈ done ++ [id] ↔ other ∈ done := by simp [Ne.symm hid]
      simp [hid, hdone]

theorem Recounted.foldl {nodes : List Node} {start current : Reconciler} {done : List String}
    (h : Recounted nodes start done current) (visit : List String) (hnodup : (done ++ visit).Nodup) :
    Recounted nodes start (done ++ visit) (visit.foldl (recounted nodes start.metadata) current) := by
  induction visit generalizing done current with
  | nil => simpa using h
  | cons id visit ih =>
    rw [List.foldl_cons, List.append_cons]
    rw [List.append_cons] at hnodup
    refine ih (h.step ?_) hnodup
    have := List.nodup_append.1 (List.nodup_append.1 hnodup).1
    exact fun hmem => this.2.2 id hmem id (by simp) rfl

/-- The caches after a node list: every cached service recounted. -/
theorem withNodes_recounted {nodes : List Node} {visit : List String}
    (hvisit : Enumerates visit r.metadata) :
    Recounted nodes (r.replaceNodes nodes) visit
      (visit.foldl (recounted nodes r.metadata) (r.replaceNodes nodes)) := by
  have hstart : Recounted nodes (r.replaceNodes nodes) [] (r.replaceNodes nodes) :=
    ⟨by simp, fun _ _ h => .inr ⟨h, by simp⟩, fun _ _ h => .inr ⟨h, by simp⟩, rfl, rfl, rfl⟩
  exact hstart.foldl visit (by simpa using hvisit.1)

theorem withNodes_metadata {nodes : List Node} {visit : List String}
    (hvisit : Enumerates visit r.metadata) :
    (r.withNodes nodes visit).metadata = r.metadata.map fun _ => recount nodes := by
  apply Std.ExtTreeMap.ext_getElem?
  intro id
  have hrecounted : Recounted nodes _ _ _ := withNodes_recounted hvisit
  have hmetadata := hrecounted.metadata id
  rw [Std.ExtTreeMap.getElem?_map]
  refine hmetadata.trans ?_
  split
  · rfl
  · rename_i hid
    have hnone : r.metadata[id]? = none := notMem_iff_getElem?.1 (mt (hvisit.2 id).2 hid)
    have hstart : (r.replaceNodes nodes).metadata[id]? = none := hnone
    rw [hstart, hnone]
    rfl

theorem withNodes_seriesInv (inv : r.SeriesInv) {nodes : List Node} {visit : List String}
    (hvisit : Enumerates visit r.metadata) : (r.withNodes nodes visit).SeriesInv := by
  have hmetadata : (r.withNodes nodes visit).metadata = _ := withNodes_metadata hvisit
  have hnodes := withNodes_nodes r nodes visit
  have hcached : ∀ (id : String) (m : ServiceMetadata), r.metadata[id]? = some m →
      (r.withNodes nodes visit).metadata[id]? = some (recount nodes m) := by
    intro id m hm
    rw [hmetadata, Std.ExtTreeMap.getElem?_map, hm]
    rfl
  have hrecounted : Recounted nodes _ _ _ := withNodes_recounted hvisit
  -- A series no service was recounted for would be of no cached service.
  have hall : ∀ (id : String) (m : ServiceMetadata), r.metadata[id]? = some m → id ∈ visit :=
    fun id m hm => (hvisit.2 id).2 (mem_iff_getElem?.2 ⟨m, hm⟩)
  obtain ⟨-, hdesired, hschedulable, hdesiredDesc, hschedulableDesc, hupdate⟩ := hrecounted
  constructor
  · intro key value hvalue
    have hdesc : (r.withNodes nodes visit).replicaGauges.desired.desc =
      r.replicaGauges.desired.desc := hdesiredDesc
    rw [hdesc]
    rcases hdesired key value hvalue with ⟨id, -, m, hm, hkey, hcount⟩ | ⟨hold, hne⟩
    · exact ⟨id, _, hcached id m hm, hkey, hcount⟩
    · obtain ⟨id, m, hm, hkey, -⟩ := inv.desired key value hold
      exact absurd hkey (hne id (hall id m hm) m hm)
  · intro key value hvalue
    have hdesc : (r.withNodes nodes visit).replicaGauges.schedulable.desc =
      r.replicaGauges.schedulable.desc := hschedulableDesc
    rw [hdesc, hnodes]
    rcases hschedulable key value hvalue with ⟨id, -, m, hm, hkey, hcount⟩ | ⟨hold, hne⟩
    · exact ⟨id, _, hcached id m hm, hkey, hcount⟩
    · obtain ⟨id, m, hm, hkey, -⟩ := inv.schedulable key value hold
      exact absurd hkey (hne id (hall id m hm) m hm)
  all_goals
    have hsame : (r.withNodes nodes visit).serviceUpdate = r.serviceUpdate := hupdate
  · intro key value hvalue
    rw [hsame] at hvalue ⊢
    obtain ⟨id, m, hm, hkey⟩ := inv.state key value hvalue
    exact ⟨id, _, hcached id m hm, hkey⟩
  · intro key value hvalue
    rw [hsame] at hvalue ⊢
    obtain ⟨id, m, hm, hkey⟩ := inv.started key value hvalue
    exact ⟨id, _, hcached id m hm, hkey⟩
  · intro key value hvalue
    rw [hsame] at hvalue ⊢
    obtain ⟨id, m, hm, hkey⟩ := inv.completed key value hvalue
    exact ⟨id, _, hcached id m hm, hkey⟩
  · intro id m hm
    rw [hmetadata, Std.ExtTreeMap.getElem?_map] at hm
    obtain ⟨old, -, rfl⟩ := Option.map_eq_some_iff.1 hm
    rw [hnodes]
    rfl

/-- **Every operation keeps the series backed.** -/
theorem perform_seriesInv {r' : Reconciler} {op : Op} (wired : r.Wired) (inv : r.SeriesInv)
    (h : perform r op = some r') : r'.SeriesInv := by
  cases op with
  | applyNodes nodes visit =>
    simp only [perform, Option.ite_none_right_eq_some, Option.some.injEq] at h
    obtain ⟨hvisit, rfl⟩ := h
    exact withNodes_seriesInv inv hvisit
  | applyService service =>
    simp only [perform] at h
    split at h
    · cases h
      exact withService_seriesInv wired inv service _
    · cases h
  | removeService id =>
    cases h
    exact removeService_seriesInv wired inv id
  | enqueueEvent event now timestamp =>
    cases h
    unfold enqueueEvent
    split <;> exact inv.of_eq rfl
  | _ =>
    cases h
    exact inv.of_eq rfl

end Reconciler

theorem World.Runs.seriesInv [HostText] {config : Config} {trace : List (Step World Action)} {w : World}
    (h : Runs config trace w) : w.reconciler.SeriesInv :=
  h.invariant Reconciler.SeriesInv (Reconciler.withPolicy_seriesInv _ _ _)
    fun _ _ _ => Reconciler.perform_seriesInv

/-- **No orphan or wrong-valued series**: in every reachable world, whatever was applied, removed,
relabelled, refused or cut short by a panic before, each series of the five per-service families is of
a cached service and holds the value the cached metadata and nodes give it. -/
theorem reachable_series_backed [HostText] {config : Config} {w : World}
    (h : World.Reachable config w) : w.reconciler.SeriesInv := by
  obtain ⟨_, hrun⟩ := h
  exact hrun.seriesInv

open Sample in
/-- After a resync and the removal of one of its two services. -/
theorem reachable_series_backed_sample : ∃ w, World.Reachable config w ∧
    w.reconciler.metadata.keys = ["web"] ∧ w.reconciler.replicaGauges.desired.children.size = 1 ∧
    w.reconciler.SeriesInv := by
  let gone : Docker.CallError := ⟨"service inspect job", ⟨.notFound, ""⟩⟩
  let acts : List Action :=
    resyncCycle [replicated "web" "web" 2, everywhere "agent" "agent"] [] ["web", "agent"] ++
      [.enqueueEvent { kind := "service", actor := ⟨"agent"⟩ } 0 1000, .beginCycle 1000, .checkNodes,
        .checkResync 1000, .takeDueKeys, .startInspect, .inspected (.error gone) 1000, .endCycle]
  have hreplay : (replay World.step (World.init config) acts).any (fun result =>
      decide (result.2.reconciler.metadata.keys = ["web"] ∧
        result.2.reconciler.replicaGauges.desired.children.size = 1)) = true := by
    decide +kernel
  obtain ⟨trace, w, hrun, -, hcheck⟩ := exists_run_of_replay hreplay
  obtain ⟨hkeys, hsize⟩ := of_decide_eq_true hcheck
  exact ⟨w, ⟨trace, hrun⟩, hkeys, hsize, reachable_series_backed ⟨trace, hrun⟩⟩

end SwarmExporter
