import SwarmExporter.Collector.Published
import SwarmExporter.Collector.ServiceUpdate

/-!
# The label pipeline

A `--label` name is sanitized at startup, sanitized again when some of the families are built, and
once more on every label map. What makes these agree is that the accepted names are valid, distinct
and not reserved (`CustomLabels.Accepted`): sanitizing then changes nothing, the label map of a
service has the base names and the custom ones and no other (`mem_labelsForMetadata`), and it fits
every per-service family.
-/

namespace SwarmExporter

open Lib
open Docker (Service)

/-! ## The accepted names -/

/-- What `validateCustomLabels` guarantees of the names it accepts. -/
structure CustomLabels.Accepted (custom : CustomLabels) : Prop where
  valid : ∀ name ∈ custom.sanitizedNames, isValidLabelName name = true
  nodup : custom.sanitizedNames.Nodup
  notReserved : ∀ name ∈ custom.sanitizedNames, name ∉ reservedLabelNames

theorem map_sanitized_zipWith (rawKeys sanitized : List String)
    (h : sanitized.length ≤ rawKeys.length) :
    (List.zipWith CustomLabel.mk rawKeys sanitized).map (·.sanitized) = sanitized := by
  induction sanitized generalizing rawKeys with
  | nil => simp
  | cons name sanitized ih =>
    cases rawKeys with
    | nil => simp at h
    | cons raw rawKeys =>
      simp only [List.zipWith_cons_cons, List.map_cons, List.cons.injEq, true_and]
      exact ih rawKeys (Nat.le_of_succ_le_succ h)

/-- The accepted custom labels are the sanitized names, distinct and none of them reserved. -/
theorem validateCustomLabels_ok {rawKeys : List String} {labels : List CustomLabel}
    (h : validateCustomLabels rawKeys = .ok labels) :
    labels.map (·.sanitized) = sanitizeLabelNames rawKeys ∧ (sanitizeLabelNames rawKeys).Nodup ∧
      ∀ name ∈ sanitizeLabelNames rawKeys, name ∉ reservedLabelNames := by
  have hlength : (sanitizeLabelNames rawKeys).length = rawKeys.length := List.length_map _
  unfold validateCustomLabels validateCustomLabelCount validateAndSanitizeLabelNames at h
  split at h
  · cases h
  cases hnames : validateLabelNames [] (rawKeys.zip (sanitizeLabelNames rawKeys)) with
  | error error =>
    simp only [hnames] at h
    cases h
  | ok _ =>
    have hnodup := (validateLabelNames_eq_ok_iff.1 hnames).2.1
    rw [List.map_snd_zip hlength.le] at hnodup
    simp only [hnames, bind, Except.bind, Except.mapError, pure, Except.pure] at h
    split at h
    · cases h
    · rename_i hfind
      cases h
      refine ⟨map_sanitized_zipWith _ _ hlength.le, hnodup, fun name hname hreserved => ?_⟩
      have hnot := List.find?_eq_none.1 hfind name hname
      simp [hreserved] at hnot

theorem accepted_of_validateCustomLabels {rawKeys : List String} {labels : List CustomLabel}
    (h : validateCustomLabels rawKeys = .ok labels) : (CustomLabels.mk labels).Accepted := by
  obtain ⟨hnames, hnodup, hreserved⟩ := validateCustomLabels_ok h
  have heq : (CustomLabels.mk labels).sanitizedNames = sanitizeLabelNames rawKeys := hnames
  refine ⟨fun name hname => ?_, heq ▸ hnodup, heq ▸ hreserved⟩
  rw [heq] at hname
  obtain ⟨raw, -, rfl⟩ := List.mem_map.1 hname
  exact isValidLabelName_sanitizeName _

/-! ## Sanitizing again -/

theorem sanitizeLabelNames_of_valid {names : List String}
    (h : ∀ name ∈ names, isValidLabelName name = true) : sanitizeLabelNames names = names := by
  unfold sanitizeLabelNames
  conv_rhs => rw [← List.map_id names]
  exact List.map_congr_left fun name hname => sanitizeName_of_valid (h name hname)

theorem sanitizeMetricLabels_of_valid {labels : Labels}
    (h : ∀ name ∈ labels, isValidLabelName name = true) : sanitizeMetricLabels labels = labels := by
  have hkey : ∀ entry ∈ labels.toList, sanitizeName (bytesOf entry.1) = entry.1 := by
    rintro ⟨name, value⟩ hentry
    apply sanitizeName_of_valid
    exact h name (mem_iff_getElem?.2 ⟨value, Std.ExtTreeMap.mem_toList_iff_getElem?_eq_some.1 hentry⟩)
  have hfold : ∀ (entries : List (String × String)) (out : Labels),
      (∀ entry ∈ entries, sanitizeName (bytesOf entry.1) = entry.1) →
      entries.foldl (fun out entry => out.insert (sanitizeName (bytesOf entry.1)) entry.2) out =
        entries.foldl (fun out entry => out.insert entry.1 entry.2) out := by
    intro entries
    induction entries with
    | nil => intro _ _; rfl
    | cons entry entries ih =>
      intro out hentries
      rw [List.foldl_cons, List.foldl_cons, hentries entry List.mem_cons_self]
      exact ih _ fun e he => hentries e (List.mem_cons_of_mem _ he)
  unfold sanitizeMetricLabels
  rw [hfold _ _ hkey, foldl_insert_toList]

theorem isValidLabelName_of_base {name : String} (h : name ∈ baseLabelNames) :
    isValidLabelName name = true := by
  have hall : ∀ name ∈ baseLabelNames, isValidLabelName name = true := by decide +kernel
  exact hall name h

theorem mem_reservedLabelNames {name : String} :
    name ∈ reservedLabelNames ↔ name ∈ baseLabelNames ∨ name = labelState := by
  simp only [reservedLabelNames, baseLabelNames, List.mem_cons, List.not_mem_nil, or_false]
  tauto

/-! ## The label map of a service -/

/-- `metadata` has a value for exactly the custom labels. -/
def ServiceMetadata.Labelled (custom : CustomLabels) (metadata : ServiceMetadata) : Prop :=
  ∀ name, name ∈ metadata.customLabels ↔ name ∈ custom.sanitizedNames

/-- The label set of each service is that of its metadata, which has the custom labels. -/
def PollSnapshot.Labelled (custom : CustomLabels) (snapshot : PollSnapshot) : Prop :=
  ∀ (id : String) (service : PollService), snapshot.services[id]? = some service →
    service.labels = labelsForMetadata service.metadata ∧ service.metadata.Labelled custom

theorem mem_foldl_insert_sanitized (value : CustomLabel → String) (labels : List CustomLabel)
    (out : Labels) (name : String) :
    name ∈ labels.foldl (fun out label => out.insert label.sanitized (value label)) out ↔
      name ∈ out ∨ name ∈ labels.map (·.sanitized) := by
  induction labels generalizing out with
  | nil => simp
  | cons label labels ih =>
    rw [List.foldl_cons, ih, Std.ExtTreeMap.mem_insert]
    simp only [Std.LawfulEqCmp.compare_eq_iff_eq, List.map_cons, List.mem_cons]
    tauto

theorem labelled_of_buildMetadata {service : Service} {custom : CustomLabels}
    {metadata : ServiceMetadata} (h : buildMetadata service custom = .ok metadata) :
    metadata.Labelled custom := by
  obtain ⟨configured, -, rfl⟩ := buildMetadata_ok h
  intro name
  simp only [metadataWith, mem_foldl_insert_sanitized, Std.ExtTreeMap.not_mem_empty, false_or]
  rfl

/-- The base labels of `metadata`. -/
def baseLabels (metadata : ServiceMetadata) : Labels := (∅ : Labels)
  |>.insert labelStack metadata.stack
  |>.insert labelService metadata.service
  |>.insert labelServiceMode metadata.serviceMode.asStr
  |>.insert labelDisplayName (displayName metadata.stack metadata.service)

theorem mem_baseLabels {metadata : ServiceMetadata} {name : String} :
    name ∈ baseLabels metadata ↔ name ∈ baseLabelNames := by
  simp only [baseLabels, baseLabelNames, Std.ExtTreeMap.mem_insert,
    Std.LawfulEqCmp.compare_eq_iff_eq, Std.ExtTreeMap.not_mem_empty, or_false, List.mem_cons,
    List.not_mem_nil]
  grind

section Accepted

variable {custom : CustomLabels} {metadata : ServiceMetadata}

/-- A custom label is not one of the base labels. -/
theorem CustomLabels.Accepted.notMem_base (accepted : custom.Accepted) {name : String}
    (h : name ∈ custom.sanitizedNames) : name ∉ baseLabelNames :=
  fun hbase => accepted.notReserved name h (mem_reservedLabelNames.2 (.inl hbase))

theorem CustomLabels.Accepted.ne_state (accepted : custom.Accepted) {name : String}
    (h : name ∈ custom.sanitizedNames) : name ≠ labelState :=
  fun hstate => accepted.notReserved name h (mem_reservedLabelNames.2 (.inr hstate))

/-- The labels before the last sanitizing: the custom values over the base ones. -/
theorem getElem?_customOver (labelled : metadata.Labelled custom) (name : String) :
    (metadata.customLabels.toList.foldl (fun out entry => out.insert entry.1 entry.2)
        (baseLabels metadata))[name]? =
      if name ∈ custom.sanitizedNames then metadata.customLabels[name]?
      else (baseLabels metadata)[name]? := by
  have hkeys : metadata.customLabels.toList.map Prod.fst = metadata.customLabels.keys :=
    Std.ExtTreeMap.map_fst_toList_eq_keys
  split
  · rename_i hname
    obtain ⟨value, hvalue⟩ := mem_iff_getElem?.1 ((labelled name).2 hname)
    rw [hvalue]
    apply getElem?_foldl_insert_of_mem
    · rw [hkeys]
      exact Std.ExtTreeMap.nodup_keys
    · exact Std.ExtTreeMap.mem_toList_iff_getElem?_eq_some.2 hvalue
  · rename_i hname
    apply getElem?_foldl_insert_of_notMem
    rw [hkeys, Std.ExtTreeMap.mem_keys]
    exact mt (labelled name).1 hname

/-- The label map of a service: the custom values, and the base labels besides. -/
theorem getElem?_labelsForMetadata (accepted : custom.Accepted) (labelled : metadata.Labelled custom)
    (name : String) :
    (labelsForMetadata metadata)[name]? =
      if name ∈ custom.sanitizedNames then metadata.customLabels[name]?
      else (baseLabels metadata)[name]? := by
  rw [← getElem?_customOver labelled]
  unfold labelsForMetadata
  rw [sanitizeMetricLabels_of_valid]
  · rfl
  · intro name hname
    obtain ⟨value, hvalue⟩ := mem_iff_getElem?.1 hname
    rw [← baseLabels, getElem?_customOver labelled] at hvalue
    split at hvalue
    · exact accepted.valid name ‹_›
    · exact isValidLabelName_of_base (mem_baseLabels.1 (mem_iff_getElem?.2 ⟨value, hvalue⟩))

theorem mem_labelsForMetadata (accepted : custom.Accepted) (labelled : metadata.Labelled custom)
    (name : String) :
    name ∈ labelsForMetadata metadata ↔ name ∈ baseLabelNames ++ custom.sanitizedNames := by
  rw [mem_iff_getElem?, getElem?_labelsForMetadata accepted labelled, List.mem_append]
  split
  · rename_i hname
    simp only [hname, or_true, iff_true]
    exact mem_iff_getElem?.1 ((labelled name).2 hname)
  · rename_i hname
    simp only [hname, or_false]
    rw [← mem_iff_getElem?, mem_baseLabels]

/-- The state label is left for the families that have one. -/
theorem state_notMem_labelsForMetadata (accepted : custom.Accepted)
    (labelled : metadata.Labelled custom) : labelState ∉ labelsForMetadata metadata := by
  rw [mem_labelsForMetadata accepted labelled, List.mem_append]
  rintro (hbase | hcustom)
  · exact absurd hbase (by decide)
  · exact accepted.ne_state hcustom rfl

/-- No custom label takes the place of a base label. -/
theorem getElem?_labelsForMetadata_base (accepted : custom.Accepted)
    (labelled : metadata.Labelled custom) {name : String} (h : name ∈ baseLabelNames) :
    (labelsForMetadata metadata)[name]? = (baseLabels metadata)[name]? := by
  rw [getElem?_labelsForMetadata accepted labelled, if_neg]
  exact fun hname => accepted.notMem_base hname h

/-- Sanitizing a service's label map once more changes nothing. -/
theorem sanitizeMetricLabels_labelsForMetadata (accepted : custom.Accepted)
    (labelled : metadata.Labelled custom) :
    sanitizeMetricLabels (labelsForMetadata metadata) = labelsForMetadata metadata := by
  apply sanitizeMetricLabels_of_valid
  intro name hname
  rw [mem_labelsForMetadata accepted labelled, List.mem_append] at hname
  rcases hname with hname | hname
  · exact isValidLabelName_of_base hname
  · exact accepted.valid name hname

/-! ## Fitting the families -/

theorem nodup_base_append (accepted : custom.Accepted) :
    (baseLabelNames ++ custom.sanitizedNames).Nodup := by
  have hbase : baseLabelNames.Nodup := by decide
  refine List.nodup_append.2 ⟨hbase, accepted.nodup, ?_⟩
  rintro name hname other hother rfl
  exact accepted.notMem_base hother hname

theorem valid_base_append (accepted : custom.Accepted) :
    ∀ name ∈ baseLabelNames ++ custom.sanitizedNames, isValidLabelName name = true := by
  intro name hname
  rcases List.mem_append.1 hname with hname | hname
  · exact isValidLabelName_of_base hname
  · exact accepted.valid name hname

/-- A family with the base and the custom labels, in any order, is fit by every service. -/
theorem fits_of_perm (accepted : custom.Accepted) (labelled : metadata.Labelled custom) {desc : Desc}
    (h : desc.labelNames.Perm (baseLabelNames ++ custom.sanitizedNames)) :
    desc.Fits (labelsForMetadata metadata) := by
  refine ⟨h.nodup_iff.2 (nodup_base_append accepted), fun name => ?_⟩
  rw [mem_labelsForMetadata accepted labelled, h.mem_iff]

/-- One with `state` besides is fit once a state is added. -/
theorem fits_state_of_perm (accepted : custom.Accepted) (labelled : metadata.Labelled custom)
    {desc : Desc}
    (h : desc.labelNames.Perm (labelState :: (baseLabelNames ++ custom.sanitizedNames)))
    (state : String) : desc.Fits (cloneLabelsWithState (labelsForMetadata metadata) state) := by
  refine ⟨h.nodup_iff.2 (List.nodup_cons.2 ⟨fun hmem => ?_, nodup_base_append accepted⟩),
    fun name => ?_⟩
  · rcases List.mem_append.1 hmem with hbase | hcustom
    · exact absurd hbase (by decide)
    · exact accepted.ne_state hcustom rfl
  · rw [cloneLabelsWithState, Std.ExtTreeMap.mem_insert, mem_labelsForMetadata accepted labelled,
      h.mem_iff, List.mem_cons, Std.LawfulEqCmp.compare_eq_iff_eq, eq_comm]

theorem replicaGauges_labelNames (accepted : custom.Accepted) :
    (ReplicaGauges.new custom).desired.desc.labelNames = baseLabelNames ++ custom.sanitizedNames ∧
      (ReplicaGauges.new custom).schedulable.desc.labelNames =
        baseLabelNames ++ custom.sanitizedNames :=
  ⟨sanitizeLabelNames_of_valid (valid_base_append accepted),
    sanitizeLabelNames_of_valid (valid_base_append accepted)⟩

theorem serviceUpdate_fits (accepted : custom.Accepted) (labelled : metadata.Labelled custom) :
    (ServiceUpdateMetrics.new custom).Fits (labelsForMetadata metadata) where
  state := fits_state_of_perm accepted labelled (List.perm_append_singleton _ _)
  started := fits_of_perm accepted labelled (List.Perm.refl _)
  completed := fits_of_perm accepted labelled (List.Perm.refl _)

theorem replicasState_labelNames (accepted : custom.Accepted) :
    (ReplicasState.new custom).stateDesc.labelNames =
        baseLabelNames ++ [labelState] ++ custom.sanitizedNames ∧
      (ReplicasState.new custom).runningDesc.labelNames = baseLabelNames ++ custom.sanitizedNames ∧
      (ReplicasState.new custom).atDesiredDesc.labelNames =
        baseLabelNames ++ custom.sanitizedNames := by
  have hstate : ∀ name ∈ baseLabelNames ++ [labelState] ++ custom.sanitizedNames,
      isValidLabelName name = true := by
    intro name hname
    simp only [List.append_assoc, List.mem_append, List.mem_singleton] at hname
    rcases hname with hname | rfl | hname
    · exact isValidLabelName_of_base hname
    · decide +kernel
    · exact accepted.valid name hname
  have hplain := sanitizeLabelNames_of_valid (valid_base_append accepted)
  refine ⟨sanitizeLabelNames_of_valid hstate, ?_, ?_⟩ <;>
    simpa [ReplicasState.new] using hplain

end Accepted

/-! ## Building the replicas-state families -/

namespace ReplicasState

/-- `labels` is sanitized and fits the three families, the state one with any state. -/
structure Fits (families : ReplicasState) (labels : Labels) : Prop where
  sanitized : sanitizeMetricLabels labels = labels
  state : ∀ state, families.stateDesc.Fits (labels.insert labelState state)
  running : families.runningDesc.Fits labels
  atDesired : families.atDesiredDesc.Fits labels

theorem fits_of_mem_series {families : ReplicasState} {counter : TaskCounter}
    (h : families.Fits counter.labels) {entry : SeriesEntry} (hentry : entry ∈ families.series counter) :
    entry.desc.Fits entry.labels := by
  unfold series at hentry
  rw [h.sanitized, List.mem_append, List.mem_map] at hentry
  rcases hentry with ⟨state, -, rfl⟩ | hentry
  · exact h.state state
  · simp only [List.mem_cons, List.not_mem_nil, or_false] at hentry
    rcases hentry with rfl | rfl
    · exact h.running
    · exact h.atDesired

theorem buildCounter_error {families : ReplicasState} {counter : TaskCounter}
    (h : families.Fits counter.labels) (builder : SnapshotBuilder) :
    (families.buildCounter builder counter).error = builder.error := by
  rw [buildCounter_eq]
  exact SnapshotBuilder.foldl_setEntry_error fun entry => fits_of_mem_series h

/-- **A build of counters whose label sets fit never fails.** -/
theorem build_error {families : ReplicasState} {counters : ServiceCounter}
    (h : ∀ (id : String) (counter : TaskCounter), counters[id]? = some counter →
      families.Fits counter.labels)
    (visit : List String) : (families.build counters visit).error = none := by
  rw [build_eq]
  refine SnapshotBuilder.foldl_setEntry_error fun entry hentry => ?_
  obtain ⟨counter, hcounter, hentry⟩ := List.mem_flatMap.1 hentry
  obtain ⟨id, -, hcounter⟩ := List.mem_filterMap.1 hcounter
  exact fits_of_mem_series (h id counter hcounter) hentry

theorem build_ok {families : ReplicasState} {counters : ServiceCounter}
    (h : ∀ (id : String) (counter : TaskCounter), counters[id]? = some counter →
      families.Fits counter.labels)
    (visit : List String) :
    (families.build counters visit).build = .ok (families.build counters visit).families := by
  unfold SnapshotBuilder.build
  rw [build_error h visit]

end ReplicasState

theorem replicasState_fits {custom : CustomLabels} {metadata : ServiceMetadata}
    (accepted : custom.Accepted) (labelled : metadata.Labelled custom) :
    (ReplicasState.new custom).Fits (labelsForMetadata metadata) := by
  obtain ⟨hstate, hrunning, hatDesired⟩ := replicasState_labelNames accepted
  refine ⟨sanitizeMetricLabels_labelsForMetadata accepted labelled, fun state => ?_, ?_, ?_⟩
  · refine fits_state_of_perm accepted labelled ?_ state
    rw [hstate, List.append_assoc]
    exact List.perm_middle
  · exact fits_of_perm accepted labelled (List.Perm.of_eq hrunning)
  · exact fits_of_perm accepted labelled (List.Perm.of_eq hatDesired)

end SwarmExporter
