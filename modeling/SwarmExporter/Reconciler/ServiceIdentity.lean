import SwarmExporter.Collector.Published
import SwarmExporter.Reconciler.Identities
import SwarmExporter.Reconciler.NoPanic

/-!
# When two services share an identity

A service's name is unique, its label identity is not: the identity has the stack, a free-form label,
and the name without the `<stack>_` prefix. Two names collapse where one carries the prefix and the
other is what remains of it (`shortServiceName_eq_iff`); the identities are then the same if nothing
else tells the services apart (`labelsForMetadata_eq_iff`). In every other case the identities differ,
and neither service writes or deletes a series of the other.
-/

namespace SwarmExporter

open Lib
open Docker (Node Service)

/-! ## Names -/

theorem stripPrefix_eq_some_iff {pre text rest : String} :
    stripPrefix pre text = some rest ↔ text = pre ++ rest := by
  unfold stripPrefix
  split
  · rename_i hpre
    obtain ⟨tail, htail⟩ := List.isPrefixOf_iff_prefix.1 hpre
    have htext : text = pre ++ String.ofList tail := by
      rw [← String.toList_inj, String.toList_append, String.toList_ofList, htail]
    rw [← htail, List.drop_left, Option.some.injEq, htext, ← String.toList_inj, ← String.toList_inj,
      String.toList_append, String.toList_append, List.append_cancel_left_eq]
  · rename_i hpre
    simp only [reduceCtorEq, false_iff]
    rintro rfl
    exact hpre (List.isPrefixOf_iff_prefix.2 (by rw [String.toList_append]; exact List.prefix_append ..))

/-- `name` is `rest` behind the `<stack>_` prefix. -/
def Prefixed (stack rest name : String) : Prop := name = stack ++ ("_" ++ rest)

theorem Prefixed.inj {stack rest rest' name : String} (h : Prefixed stack rest name)
    (h' : Prefixed stack rest' name) : rest = rest' := by
  have heq := h.symm.trans h'
  simp only [← String.toList_inj, String.toList_append, List.append_cancel_left_eq] at heq
  exact String.toList_inj.1 heq

/-- A name is cut where it carries the prefix. -/
theorem shortServiceName_of_prefixed {stack rest name : String} (hstack : stack ≠ "")
    (h : Prefixed stack rest name) : shortServiceName stack name = rest := by
  unfold shortServiceName
  rw [if_neg (by simpa using hstack), stripPrefix_eq_some_iff.2 h, Option.bind_some,
    stripPrefix_eq_some_iff.2 rfl, Option.getD_some]

/-- Any other name is kept. -/
theorem shortServiceName_of_not_prefixed {stack name : String} (h : ¬∃ rest, Prefixed stack rest name) :
    shortServiceName stack name = name := by
  unfold shortServiceName
  split
  · rfl
  · cases hcut : (stripPrefix stack name).bind (stripPrefix "_") with
    | none => rfl
    | some rest =>
      obtain ⟨tail, htail, hrest⟩ := Option.bind_eq_some_iff.1 hcut
      rw [stripPrefix_eq_some_iff] at htail hrest
      subst hrest
      exact absurd ⟨rest, htail⟩ h

/-- `name` is the other service's name behind the prefix, and that one does not carry it itself. -/
def Collapses (stack short name : String) : Prop :=
  Prefixed stack short name ∧ ¬∃ rest, Prefixed stack rest short

/-- **When two names collapse.** -/
theorem shortServiceName_eq_iff {stack first second : String} (hne : first ≠ second) :
    shortServiceName stack first = shortServiceName stack second ↔
      stack ≠ "" ∧ (Collapses stack first second ∨ Collapses stack second first) := by
  by_cases hstack : stack = ""
  · subst hstack
    simpa [shortServiceName] using hne
  · simp only [ne_eq, hstack, not_false_eq_true, true_and]
    by_cases hfirst : ∃ rest, Prefixed stack rest first <;>
      by_cases hsecond : ∃ rest, Prefixed stack rest second
    · obtain ⟨rest, hrest⟩ := hfirst
      obtain ⟨rest', hrest'⟩ := hsecond
      rw [shortServiceName_of_prefixed hstack hrest, shortServiceName_of_prefixed hstack hrest']
      constructor
      · rintro rfl
        exact absurd (hrest.trans hrest'.symm) hne
      · rintro (⟨-, hnot⟩ | ⟨-, hnot⟩)
        · exact absurd ⟨rest, hrest⟩ hnot
        · exact absurd ⟨rest', hrest'⟩ hnot
    · obtain ⟨rest, hrest⟩ := hfirst
      rw [shortServiceName_of_prefixed hstack hrest, shortServiceName_of_not_prefixed hsecond]
      constructor
      · rintro rfl
        exact .inr ⟨hrest, hsecond⟩
      · rintro (⟨hstartsed, -⟩ | ⟨hstartsed, -⟩)
        · exact absurd ⟨first, hstartsed⟩ hsecond
        · exact hrest.inj hstartsed
    · obtain ⟨rest, hrest⟩ := hsecond
      rw [shortServiceName_of_not_prefixed hfirst, shortServiceName_of_prefixed hstack hrest]
      constructor
      · rintro rfl
        exact .inl ⟨hrest, hfirst⟩
      · rintro (⟨hstartsed, -⟩ | ⟨hstartsed, -⟩)
        · exact (hrest.inj hstartsed).symm
        · exact absurd ⟨second, hstartsed⟩ hfirst
    · rw [shortServiceName_of_not_prefixed hfirst, shortServiceName_of_not_prefixed hsecond]
      constructor
      · exact fun heq => absurd heq hne
      · rintro (⟨hstartsed, -⟩ | ⟨hstartsed, -⟩)
        · exact absurd ⟨first, hstartsed⟩ hsecond
        · exact absurd ⟨second, hstartsed⟩ hfirst

/-! ## Identities -/

section Identities

variable {custom : CustomLabels} {built built' : ServiceMetadata}

/-- The identity is the stack, the name, the mode and the custom values. -/
theorem labelsForMetadata_eq_iff (accepted : custom.Accepted) (hbuilt : built.Labelled custom)
    (hbuilt' : built'.Labelled custom) :
    labelsForMetadata built = labelsForMetadata built' ↔ built.stack = built'.stack ∧
      built.service = built'.service ∧ built.serviceMode = built'.serviceMode ∧
      built.customLabels = built'.customLabels := by
  constructor
  · intro h
    have hget : ∀ name : String, (labelsForMetadata built)[name]? = (labelsForMetadata built')[name]? :=
      fun name => by rw [h]
    obtain ⟨hstack, hservice, hmode, -⟩ := labelsForMetadata_reservedKept accepted hbuilt
    obtain ⟨hstack', hservice', hmode', -⟩ := labelsForMetadata_reservedKept accepted hbuilt'
    rw [h] at hstack hservice hmode
    refine ⟨Option.some.inj (hstack.symm.trans hstack'), Option.some.inj (hservice.symm.trans hservice'),
      Mode.asStr_inj.1 (Option.some.inj (hmode.symm.trans hmode')), ?_⟩
    · apply Std.ExtTreeMap.ext_getElem?
      intro name
      by_cases hname : name ∈ custom.sanitizedNames
      · have := hget name
        rwa [getElem?_labelsForMetadata accepted hbuilt, getElem?_labelsForMetadata accepted hbuilt',
          if_pos hname, if_pos hname] at this
      · rw [notMem_iff_getElem?.1 (mt (hbuilt name).1 hname),
          notMem_iff_getElem?.1 (mt (hbuilt' name).1 hname)]
  · rintro ⟨hstack, hservice, hmode, hcustom⟩
    simp only [labelsForMetadata, hstack, hservice, hmode, hcustom]

/-- The custom values of two services are the same label by label. -/
theorem customLabels_eq_iff (accepted : custom.Accepted) (first second : Service)
    (configured configured' : Gauge) :
    (metadataWith first custom configured).customLabels =
        (metadataWith second custom configured').customLabels ↔
      ∀ label ∈ custom.labels,
        first.spec.labels.getD label.raw "" = second.spec.labels.getD label.raw "" := by
  have hget : ∀ (service : Service) (configured : Gauge), ∀ label ∈ custom.labels,
      (metadataWith service custom configured).customLabels[label.sanitized]? =
        some (service.spec.labels.getD label.raw "") := by
    intro service configured label hlabel
    have hentries := @getElem?_foldl_insert_of_mem _ _ _ _ _
      (custom.labels.map fun label => (label.sanitized, service.spec.labels.getD label.raw ""))
    rw [List.map_map] at hentries
    have := hentries accepted.nodup ∅ (List.mem_map_of_mem hlabel)
    rw [List.foldl_map] at this
    exact this
  constructor
  · intro h label hlabel
    have hfirst := hget first configured label hlabel
    rw [h, hget second configured' label hlabel] at hfirst
    exact (Option.some.inj hfirst).symm
  · intro h
    simp only [metadataWith]
    refine List.foldl_ext _ _ _ fun out label hlabel => ?_
    rw [h label hlabel]

end Identities

/-- The stack `service` is labelled with. -/
def stackOf (service : Service) : String := service.spec.labels.getD stackNamespaceLabel ""

/-- Nothing but the `<stack>_` prefix tells the two services apart. -/
structure SharesIdentity (custom : CustomLabels) (first second : Service) : Prop where
  stack : stackOf first = stackOf second
  stacked : stackOf first ≠ ""
  names : Collapses (stackOf first) first.spec.name second.spec.name ∨
    Collapses (stackOf first) second.spec.name first.spec.name
  mode : serviceMode first = serviceMode second
  custom : ∀ label ∈ custom.labels,
    first.spec.labels.getD label.raw "" = second.spec.labels.getD label.raw ""

theorem sharesIdentity_iff {custom : CustomLabels} (accepted : custom.Accepted) {first second : Service}
    (hnames : first.spec.name ≠ second.spec.name) {built built' : ServiceMetadata}
    (hbuilt : buildMetadata first custom = .ok built)
    (hbuilt' : buildMetadata second custom = .ok built') :
    labelsForMetadata built = labelsForMetadata built' ↔ SharesIdentity custom first second := by
  rw [labelsForMetadata_eq_iff accepted (labelled_of_buildMetadata hbuilt)
    (labelled_of_buildMetadata hbuilt')]
  obtain ⟨configured, -, rfl⟩ := buildMetadata_ok hbuilt
  obtain ⟨configured', -, rfl⟩ := buildMetadata_ok hbuilt'
  rw [customLabels_eq_iff accepted]
  constructor
  · rintro ⟨hstack, hservice, hmode, hcustom⟩
    have hstacks : stackOf first = stackOf second := hstack
    have hshort : shortServiceName (stackOf first) first.spec.name =
        shortServiceName (stackOf second) second.spec.name := hservice
    rw [← hstacks] at hshort
    obtain ⟨hstacked, hcollapse⟩ := (shortServiceName_eq_iff hnames).1 hshort
    exact ⟨hstacks, hstacked, hcollapse, hmode, hcustom⟩
  · rintro ⟨hstack, hstacked, hcollapse, hmode, hcustom⟩
    refine ⟨hstack, ?_, hmode, hcustom⟩
    have hshort := (shortServiceName_eq_iff hnames).2 ⟨hstacked, hcollapse⟩
    have hstacks : stackOf second = stackOf first := hstack.symm
    simp only [metadataWith]
    rwa [← stackOf, ← stackOf, hstacks]

/-! ## Series of different identities -/

namespace Reconciler

variable {r : Reconciler} {service : Service} {built other : ServiceMetadata}

/-- A service that is cached with the identity it has, or not at all, holds no other. -/
theorem holds_eq_false (hne : labelsForMetadata built ≠ labelsForMetadata other)
    (hcached : ∀ cached, r.metadata[service.id]? = some cached →
      labelsForMetadata cached = labelsForMetadata built) :
    r.holds service.id (labelsForMetadata other) = false := by
  rw [Bool.eq_false_iff, Ne, holds_eq_true]
  rintro ⟨cached, hfound, hlabels⟩
  exact hne ((hcached cached hfound).symm.trans hlabels)

variable (wired : r.Wired) (hne : labelsForMetadata built ≠ labelsForMetadata other)
  (hother : other.Labelled r.customLabels)
  (hcached : ∀ cached, r.metadata[service.id]? = some cached →
    labelsForMetadata cached = labelsForMetadata built)

include wired hne hother hcached

/-- Applying it leaves the series of every other identity alone. -/
theorem applyService_keeps_other [HostText] (hbuilt : buildMetadata service r.customLabels = .ok built)
    (nodes : List Node) : ∃ r', applyService service nodes r = .ok () r' ∧
      r'.seriesAt (labelsForMetadata other) = r.seriesAt (labelsForMetadata other) := by
  refine ⟨_, applyService_ok wired hbuilt nodes, ?_⟩
  rw [seriesAt_withService wired (labelled_of_buildMetadata hbuilt) hother, if_neg hne,
    holds_eq_false hne hcached]
  rfl

/-- So does removing it. -/
theorem removeService_keeps_other :
    (r.removeService service.id).seriesAt (labelsForMetadata other) =
      r.seriesAt (labelsForMetadata other) := by
  rw [seriesAt_removeService wired hother, holds_eq_false hne hcached]
  rfl

end Reconciler

namespace ReplicasState

variable {custom : CustomLabels} {built other : ServiceMetadata} {counter counter' : TaskCounter}

/-- A label set one of the series of a counter is written under. -/
theorem mem_series_iff {families : ReplicasState} (hfits : families.Fits counter.labels)
    {entry : SeriesEntry} : entry ∈ families.series counter ↔
      (∃ state ∈ knownTaskStates, entry =
        ⟨families.stateDesc, counter.labels.insert labelState state, counter.state state⟩) ∨
      entry = ⟨families.runningDesc, counter.labels, counter.state taskStateRunning⟩ ∨
      entry = ⟨families.atDesiredDesc, counter.labels, atDesired counter.labels counter⟩ := by
  simp only [series, hfits.sanitized, List.mem_append, List.mem_map, List.mem_cons, List.not_mem_nil,
    or_false]
  grind

/-- Counters of different identities have no series in common. -/
theorem not_names_of_ne (accepted : custom.Accepted) (hbuilt : built.Labelled custom)
    (hother : other.Labelled custom) (hne : labelsForMetadata built ≠ labelsForMetadata other)
    (hcounter : counter.labels = labelsForMetadata built)
    (hcounter' : counter'.labels = labelsForMetadata other) {entry entry' : SeriesEntry}
    (hentry : entry ∈ (ReplicasState.new custom).series counter)
    (hentry' : entry' ∈ (ReplicasState.new custom).series counter') :
    ¬entry.Names entry'.desc.name (entry'.desc.values entry'.labels) := by
  rintro ⟨hname, hvalues⟩
  have hfits := replicasState_fits accepted hbuilt
  have hfits' := replicasState_fits accepted hother
  rw [mem_series_iff (hcounter ▸ hfits), hcounter] at hentry
  rw [mem_series_iff (hcounter' ▸ hfits'), hcounter'] at hentry'
  -- The families have different names, so the two series are of one family.
  rcases hentry with ⟨state, -, rfl⟩ | rfl | rfl
  · rcases hentry' with ⟨state', -, rfl⟩ | rfl | rfl
    · rw [(hfits.state state).values_eq, (hfits'.state state').values_eq] at hvalues
      have hlabels := (hfits'.state state').key_inj (hfits.state state) hvalues
      exact hne (cloneLabelsWithState_inj accepted hother hbuilt hlabels).1.symm
    · simp [ReplicasState.new] at hname
    · simp [ReplicasState.new] at hname
  · rcases hentry' with ⟨state', -, rfl⟩ | rfl | rfl
    · simp [ReplicasState.new] at hname
    · rw [hfits.running.values_eq, hfits'.running.values_eq] at hvalues
      exact hne (hfits'.running.key_inj hfits.running hvalues).symm
    · simp [ReplicasState.new] at hname
  · rcases hentry' with ⟨state', -, rfl⟩ | rfl | rfl
    · simp [ReplicasState.new] at hname
    · simp [ReplicasState.new] at hname
    · rw [hfits.atDesired.values_eq, hfits'.atDesired.values_eq] at hvalues
      exact hne (hfits'.atDesired.key_inj hfits.atDesired hvalues).symm

/-- Building one counter leaves the series of the other as they are. -/
theorem buildCounter_keeps_other (accepted : custom.Accepted) (hbuilt : built.Labelled custom)
    (hother : other.Labelled custom) (hne : labelsForMetadata built ≠ labelsForMetadata other)
    (hcounter : counter.labels = labelsForMetadata built)
    (hcounter' : counter'.labels = labelsForMetadata other) {builder : SnapshotBuilder}
    (hbuilder : builder.error = none) {entry : SeriesEntry}
    (hentry : entry ∈ (ReplicasState.new custom).series counter') :
    seriesValue ((ReplicasState.new custom).buildCounter builder counter).families entry.desc.name
        (entry.desc.values entry.labels) =
      seriesValue builder.families entry.desc.name (entry.desc.values entry.labels) := by
  have hfits : (ReplicasState.new custom).Fits counter.labels :=
    hcounter ▸ replicasState_fits accepted hbuilt
  have herror := (buildCounter_error hfits builder).trans hbuilder
  rw [buildCounter_eq] at herror ⊢
  apply SnapshotBuilder.seriesValue_foldl_of_not_names herror
  exact fun written hwritten => not_names_of_ne accepted hbuilt hother hne hcounter hcounter' hwritten hentry

end ReplicasState

/-- **When two services have one identity.** Two services with different names have one identity exactly
if nothing but the `<stack>_` prefix of their common stack tells them apart. Otherwise, in every
reachable world, applying or removing one of them, cached with the identity it has or not at all, leaves
the per-service series of the other alone, and so does its part of a replicas-state snapshot. -/
theorem service_identity_iff [HostText] (config : Config) {first second : Service}
    (hnames : first.spec.name ≠ second.spec.name) {built built' : ServiceMetadata}
    (hbuilt : buildMetadata first config.custom = .ok built)
    (hbuilt' : buildMetadata second config.custom = .ok built') :
    (labelsForMetadata built = labelsForMetadata built' ↔
      SharesIdentity config.custom first second) ∧
    (¬SharesIdentity config.custom first second →
      (∀ (w : World) (nodes : List Node), World.Reachable config w →
        (∀ cached, w.reconciler.metadata[first.id]? = some cached →
          labelsForMetadata cached = labelsForMetadata built) →
        (∃ r', Reconciler.applyService first nodes w.reconciler = .ok () r' ∧
          r'.seriesAt (labelsForMetadata built') =
            w.reconciler.seriesAt (labelsForMetadata built')) ∧
        (w.reconciler.removeService first.id).seriesAt (labelsForMetadata built') =
          w.reconciler.seriesAt (labelsForMetadata built')) ∧
      ∀ (builder : SnapshotBuilder) (counter counter' : TaskCounter), builder.error = none →
        counter.labels = labelsForMetadata built → counter'.labels = labelsForMetadata built' →
        ∀ entry ∈ (ReplicasState.new config.custom).series counter',
          seriesValue ((ReplicasState.new config.custom).buildCounter builder counter).families
              entry.desc.name (entry.desc.values entry.labels) =
            seriesValue builder.families entry.desc.name (entry.desc.values entry.labels)) := by
  have accepted := accepted_of_validateCustomLabels config.accepted
  have hiff := sharesIdentity_iff accepted hnames hbuilt hbuilt'
  refine ⟨hiff, fun hshares => ⟨?_, ?_⟩⟩
  · intro w nodes hreachable hcached
    obtain ⟨trace, hrun⟩ := hreachable
    have wired := World.Runs.wired hrun
    have hcustom := World.Runs.customLabels hrun
    have hother : built'.Labelled w.reconciler.customLabels :=
      hcustom ▸ labelled_of_buildMetadata hbuilt'
    refine ⟨?_, ?_⟩
    · exact Reconciler.applyService_keeps_other wired (mt hiff.1 hshares) hother hcached
        (by rwa [hcustom]) nodes
    · exact Reconciler.removeService_keeps_other wired (mt hiff.1 hshares) hother hcached
  · intro builder counter counter' hbuilder hcounter hcounter' entry hentry
    exact ReplicasState.buildCounter_keeps_other accepted (labelled_of_buildMetadata hbuilt)
      (labelled_of_buildMetadata hbuilt') (mt hiff.1 hshares) hcounter hcounter' hbuilder hentry

namespace Sample

/-- A replicated service of the stack `shop`. -/
def ofShop (id name : String) : Service :=
  { id
    spec :=
      { name
        labels := (∅ : Labels).insert stackNamespaceLabel "shop"
        mode := { replicated := some ⟨some 1⟩ } } }

end Sample

open Sample in
/-- `web` and `shop_api` of the stack `shop`. -/
theorem service_identity_iff_sample : ∃ built built',
    buildMetadata (ofShop "a" "web") config.custom = .ok built ∧
    buildMetadata (ofShop "b" "shop_api") config.custom = .ok built' ∧
    labelsForMetadata built ≠ labelsForMetadata built' := by
  refine ⟨_, _, rfl, rfl, fun heq => ?_⟩
  have hshares := (@service_identity_iff _ config (ofShop "a" "web") (ofShop "b" "shop_api") (by decide)
    _ _ rfl rfl).1.1 heq
  have hnames := hshares.names
  unfold Collapses Prefixed at hnames
  rcases hnames with ⟨hname, -⟩ | ⟨hname, -⟩
  · exact absurd hname (by decide +kernel)
  · exact absurd hname (by decide +kernel)

open Sample in
/-- `web` and `shop_web` of the stack `shop`: two names and one identity. -/
theorem services_share_identity : ∃ built built',
    (ofShop "a" "web").spec.name ≠ (ofShop "b" "shop_web").spec.name ∧
    buildMetadata (ofShop "a" "web") config.custom = .ok built ∧
    buildMetadata (ofShop "b" "shop_web") config.custom = .ok built' ∧
    labelsForMetadata built = labelsForMetadata built' :=
  ⟨_, _, by decide, rfl, rfl, by decide +kernel⟩

end SwarmExporter
