import SwarmExporter.Reconciler.Identities

/-!
# What a completed resync leaves

A resync applies the listed services one after the other, each of which deletes the identity the
service was cached with, and then removes the cached services that were not listed, which deletes
theirs. Both go by identity. A series just written is therefore deleted again when its identity is also
that of another cached service which comes later in the list, or which is not listed at all: a service
that was removed and created anew under the same name loses its series. Where no identity is taken over
in this way (`Undisturbed`), and only there, the resync leaves what the lists say and nothing else
(`resync_exact_iff`).
-/

namespace SwarmExporter

open Lib
open Docker (CallError Node Service)

namespace Reconciler

variable [HostText] {r r' : Reconciler} {services : List Service} {nodes : List Node}
  {visit ids : List String}

/-! ## A list of services applied -/

/-- `r'` is `r` with `services` applied: they are cached with the counts of the node list, and an
identity none of them has is emptied if one of them was cached with it. -/
structure Applied (r : Reconciler) (services : List Service) (r' : Reconciler) : Prop where
  wired : r'.Wired
  customLabels : r'.customLabels = r.customLabels
  nodes : r'.nodes = r.nodes
  cached : ∀ service ∈ services, ∃ built, buildMetadata service r.customLabels = .ok built ∧
    r'.metadata[service.id]? = some (recount r.nodes built)
  uncached : ∀ id, id ∉ services.map (·.id) → r'.metadata[id]? = r.metadata[id]?
  seriesAt : ∀ other : ServiceMetadata, other.Labelled r.customLabels →
    (∀ service ∈ services, ∀ built, buildMetadata service r.customLabels = .ok built →
      labelsForMetadata built ≠ labelsForMetadata other) →
    r'.seriesAt (labelsForMetadata other) =
      if services.any fun service => r.holds service.id (labelsForMetadata other) then .empty
      else r.seriesAt (labelsForMetadata other)

omit [HostText] in
/-- Who holds an identity is read off the cache. -/
theorem any_holds_congr {α : Type} {items : List α} (id : α → String)
    (h : ∀ item ∈ items, r'.metadata[id item]? = r.metadata[id item]?) (labels : Labels) :
    (items.any fun item => r'.holds (id item) labels) =
      items.any fun item => r.holds (id item) labels := by
  rw [Bool.eq_iff_iff, List.any_eq_true, List.any_eq_true]
  refine exists_congr fun item => and_congr_right fun hitem => ?_
  rw [holds, holds, h item hitem]

theorem performs_applyServices (wired : r.Wired) (hids : (services.map (·.id)).Nodup)
    (h : Performs r (services.map .applyService) r') : Applied r services r' := by
  induction services generalizing r with
  | nil =>
    obtain rfl := Performs.eq_of_nil h
    exact ⟨wired, rfl, rfl, by simp, fun _ _ => rfl, fun other _ _ => by simp⟩
  | cons service services ih =>
    obtain ⟨r₁, hperform, hrest⟩ := Performs.of_cons h
    have wired₁ := perform_wired wired hperform
    have hcustom₁ := perform_customLabels hperform
    simp only [perform] at hperform
    split at hperform
    · rename_i built hbuilt
      cases hperform
      rw [List.map_cons, List.nodup_cons] at hids
      obtain ⟨hfresh, hids⟩ := hids
      obtain ⟨hwired, hcustom, hnodes, hcached, huncached, hseries⟩ := ih wired₁ hids hrest
      have hother : ∀ id, id ≠ service.id →
          (r.withService service r.nodes built).metadata[id]? = r.metadata[id]? := by
        intro id hid
        rw [withService_metadata, Std.ExtTreeMap.getElem?_insert, if_neg]
        rw [Std.LawfulEqCmp.compare_eq_iff_eq]
        exact Ne.symm hid
      rw [withService_nodes] at hnodes hcached
      rw [hcustom₁] at hcustom hcached hseries
      refine ⟨hwired, hcustom, hnodes, ?_, ?_, ?_⟩
      · intro found hfound
        rcases List.mem_cons.1 hfound with rfl | hfound
        · refine ⟨built, hbuilt, (huncached _ hfresh).trans ?_⟩
          rw [withService_metadata, Std.ExtTreeMap.getElem?_insert_self]
          rfl
        · exact hcached found hfound
      · intro id hid
        rw [List.map_cons, List.mem_cons, not_or] at hid
        rw [huncached id hid.2, hother id hid.1]
      · intro other hlabelled hne
        rw [hseries other hlabelled fun found hfound => hne found (List.mem_cons_of_mem _ hfound),
          seriesAt_withService wired (labelled_of_buildMetadata hbuilt) hlabelled,
          if_neg (hne service (List.mem_cons_self ..) built hbuilt), List.any_cons]
        have hrestIds : ∀ found ∈ services,
            (r.withService service r.nodes built).metadata[found.id]? = r.metadata[found.id]? := by
          intro found hfound
          refine hother found.id fun heq => hfresh ?_
          rw [← heq]
          exact List.mem_map_of_mem hfound
        rw [any_holds_congr Service.id hrestIds]
        cases r.holds service.id (labelsForMetadata other) <;> simp
    · cases hperform

/-! ## A list of services removed -/

/-- `r'` is `r` with the services `ids` removed: an identity one of them was cached with is emptied. -/
structure Removed (r : Reconciler) (ids : List String) (r' : Reconciler) : Prop where
  wired : r'.Wired
  customLabels : r'.customLabels = r.customLabels
  nodes : r'.nodes = r.nodes
  metadata : ∀ id : String, r'.metadata[id]? = if id ∈ ids then none else r.metadata[id]?
  seriesAt : ∀ other : ServiceMetadata, other.Labelled r.customLabels →
    r'.seriesAt (labelsForMetadata other) =
      if ids.any fun id => r.holds id (labelsForMetadata other) then .empty
      else r.seriesAt (labelsForMetadata other)

theorem performs_removeServices (wired : r.Wired) (hids : ids.Nodup)
    (h : Performs r (ids.map .removeService) r') : Removed r ids r' := by
  induction ids generalizing r with
  | nil =>
    obtain rfl := Performs.eq_of_nil h
    exact ⟨wired, rfl, rfl, by simp, fun other _ => by simp⟩
  | cons id ids ih =>
    obtain ⟨r₁, hperform, hrest⟩ := Performs.of_cons h
    have wired₁ := perform_wired wired hperform
    have hcustom₁ := perform_customLabels hperform
    cases hperform
    obtain ⟨hfresh, hids⟩ := List.nodup_cons.1 hids
    obtain ⟨hwired, hcustom, hnodes, hmetadata, hseries⟩ := ih wired₁ hids hrest
    have hother : ∀ found, found ≠ id → (r.removeService id).metadata[found]? = r.metadata[found]? := by
      intro found hfound
      rw [removeService_metadata, Std.ExtTreeMap.getElem?_erase, if_neg]
      rw [Std.LawfulEqCmp.compare_eq_iff_eq]
      exact Ne.symm hfound
    rw [removeService_nodes] at hnodes
    rw [hcustom₁] at hcustom hseries
    refine ⟨hwired, hcustom, hnodes, fun found => ?_, fun other hlabelled => ?_⟩
    · rw [hmetadata]
      by_cases heq : found = id
      · subst heq
        rw [if_neg hfresh, if_pos (List.mem_cons_self ..), removeService_metadata,
          Std.ExtTreeMap.getElem?_erase_self]
      · rw [hother found heq]
        simp [heq]
    · rw [hseries other hlabelled, seriesAt_removeService wired hlabelled, List.any_cons]
      have hrestIds : ∀ found ∈ ids,
          (r.removeService id).metadata[found]? = r.metadata[found]? := by
        intro found hfound
        exact hother found fun heq => hfresh (heq ▸ hfound)
      rw [any_holds_congr (fun id => id) hrestIds]
      cases r.holds id (labelsForMetadata other) <;> simp

/-! ## The whole pass -/

/-- A write that returns. -/
def Returns (inv : Reconciler → Prop) (write : Write) : Prop :=
  ∀ r, inv r → ∃ r', write r = .ok () r' ∧ inv r'

omit [HostText] in
theorem forM_returns {inv : Reconciler → Prop} {writes : List Write}
    (h : ∀ write ∈ writes, Returns inv write) : Returns inv (forM writes id) := by
  induction writes with
  | nil => exact fun r hr => ⟨r, rfl, hr⟩
  | cons write writes ih =>
    intro r hr
    obtain ⟨r₁, hwrite, hr₁⟩ := h write (List.mem_cons_self ..) r hr
    obtain ⟨r₂, hrest, hr₂⟩ := ih (fun other hother => h other (List.mem_cons_of_mem _ hother)) r₁ hr₁
    refine ⟨r₂, ?_, hr₂⟩
    rw [List.forM_cons]
    exact (bind_ok hwrite).trans hrest

/-- The pass does not panic where every replicated service carries `Replicas`. -/
theorem applyLists_returns (hreplicas : ∀ service ∈ services, HasReplicas service) :
    Returns Wired (applyLists services nodes visit ids none) := by
  apply forM_returns
  intro write hwrite r wired
  simp only [resyncCalls, List.mem_append, List.mem_cons, List.mem_map, List.not_mem_nil,
    or_false] at hwrite
  rcases hwrite with ((rfl | ⟨service, hservice, rfl⟩) | ⟨id, -, rfl⟩) | rfl
  · exact ⟨_, applyNodes_ok wired nodes visit, withNodes_wired wired nodes visit⟩
  · obtain ⟨built, hbuilt⟩ := buildMetadata_isOk_iff.2 (hreplicas service hservice)
    exact ⟨_, applyService_ok wired hbuilt nodes,
      withService_wired wired (labelled_of_buildMetadata hbuilt) nodes⟩
  · exact ⟨_, rfl, removeService_wired wired id⟩
  · exact ⟨_, rfl, wired.of_eq rfl rfl⟩

/-- The listed services: their ids and identities are distinct. -/
structure WellListed (custom : CustomLabels) (services : List Service) : Prop where
  ids : (services.map (·.id)).Nodup
  identities : services.Pairwise fun first second => ∀ built built',
    buildMetadata first custom = .ok built → buildMetadata second custom = .ok built' →
    labelsForMetadata built ≠ labelsForMetadata built'
  replicas : ∀ service ∈ services, HasReplicas service

/-- Another cached service has the identity `built` that `service` is listed with, and is neither
`service` nor listed before it. -/
def Disturbs (r : Reconciler) (before : List Service) (service : Service) (built : ServiceMetadata) :
    Prop :=
  ∃ (id : String) (cached : ServiceMetadata), r.metadata[id]? = some cached ∧
    labelsForMetadata cached = labelsForMetadata built ∧ id ≠ service.id ∧ id ∉ before.map (·.id)

/-- The caches and series after a pass over `services` and `listed` from `r`. -/
structure Passed (r : Reconciler) (services : List Service) (listed : List Node) (r' : Reconciler) :
    Prop where
  wired : r'.Wired
  customLabels : r'.customLabels = r.customLabels
  nodes : r'.nodes = listed
  metadata : ∀ (id : String) (m : ServiceMetadata), r'.metadata[id]? = some m ↔
    ∃ service ∈ services, service.id = id ∧
      ∃ built, buildMetadata service r.customLabels = .ok built ∧ m = recount listed built
  kept : ∀ before service after built, services = before ++ service :: after →
    buildMetadata service r.customLabels = .ok built → ¬r.Disturbs before service built →
    r'.seriesAt (labelsForMetadata built) = .full service built listed
  lost : ∀ before service after built, services = before ++ service :: after →
    buildMetadata service r.customLabels = .ok built → r.Disturbs before service built →
    r'.seriesAt (labelsForMetadata built) = .empty

/-- The series of a listed service once all services are applied. -/
theorem seriesAt_of_listed {custom : CustomLabels} (wired : r.Wired) (hcustom : r.customLabels = custom)
    {before after : List Service} {service : Service} {built : ServiceMetadata}
    (hlisted : WellListed custom (before ++ service :: after))
    (hbuilt : buildMetadata service custom = .ok built)
    (h : Performs r ((before ++ service :: after).map .applyService) r') :
    r'.seriesAt (labelsForMetadata built) =
      if after.any fun other => r.holds other.id (labelsForMetadata built) then .empty
      else .full service built r.nodes := by
  subst hcustom
  obtain ⟨hids, hidentities, -⟩ := hlisted
  rw [List.map_append, List.map_cons, List.nodup_append, List.nodup_cons] at hids
  obtain ⟨hbeforeIds, ⟨hserviceId, hafterIds⟩, hdisjoint⟩ := hids
  obtain ⟨-, hlater, -⟩ := List.pairwise_append.1 hidentities
  obtain ⟨hlater, -⟩ := List.pairwise_cons.1 hlater
  rw [List.map_append, List.map_cons] at h
  obtain ⟨r₁, hbefore, hrest⟩ := Performs.of_append h
  obtain ⟨r₂, hservice, hafter⟩ := Performs.of_cons hrest
  obtain ⟨wired₁, hcustom₁, hnodes₁, -, huncached₁, -⟩ := performs_applyServices wired hbeforeIds hbefore
  have wired₂ := perform_wired wired₁ hservice
  have hcustom₂ := perform_customLabels hservice
  have hlabelled := labelled_of_buildMetadata hbuilt
  simp only [perform, hcustom₁, hbuilt, Option.some.injEq] at hservice
  subst hservice
  have happlied := performs_applyServices wired₂ hafterIds hafter
  rw [happlied.seriesAt built (by rwa [hcustom₂, hcustom₁]),
    seriesAt_withService wired₁ (hcustom₁ ▸ hlabelled) (hcustom₁ ▸ hlabelled), if_pos rfl, hnodes₁]
  · have hafterCached : ∀ other ∈ after, (r₁.withService service r.nodes built).metadata[other.id]? =
        r.metadata[other.id]? := by
      intro other hother
      have hmem : other.id ∈ after.map (·.id) := List.mem_map_of_mem hother
      rw [withService_metadata, Std.ExtTreeMap.getElem?_insert, if_neg]
      · refine huncached₁ other.id fun hbefore => ?_
        exact hdisjoint other.id hbefore other.id (List.mem_cons_of_mem _ hmem) rfl
      · rw [Std.LawfulEqCmp.compare_eq_iff_eq]
        intro heq
        exact hserviceId (heq ▸ hmem)
    rw [any_holds_congr Service.id hafterCached]
  · intro other hother built' hbuilt'
    rw [hcustom₂, hcustom₁] at hbuilt'
    exact Ne.symm (hlater other hother built built' hbuilt hbuilt')

theorem holds_withNodes (hvisit : Enumerates visit r.metadata) (id : String) (labels : Labels) :
    (r.withNodes nodes visit).holds id labels = r.holds id labels := by
  unfold holds
  rw [withNodes_metadata hvisit, Std.ExtTreeMap.getElem?_map]
  cases r.metadata[id]? with
  | none => rfl
  | some cached => rfl

omit [HostText] in
/-- Who disturbs a listed service is not listed, or listed after it. -/
theorem disturbs_iff {before after : List Service} {service : Service} {built : ServiceMetadata}
    {unlisted : List String} (hids : ((before ++ service :: after).map (·.id)).Nodup)
    (hunlisted : ∀ id, id ∈ unlisted ↔
      id ∈ r.metadata ∧ id ∉ (before ++ service :: after).map (·.id)) :
    r.Disturbs before service built ↔
      (unlisted.any fun id => r.holds id (labelsForMetadata built)) = true ∨
        (after.any fun other => r.holds other.id (labelsForMetadata built)) = true := by
  rw [List.any_eq_true, List.any_eq_true]
  rw [List.map_append, List.map_cons, List.nodup_append, List.nodup_cons] at hids
  obtain ⟨-, ⟨hserviceId, -⟩, hdisjoint⟩ := hids
  simp only [List.map_append, List.map_cons, List.mem_append, List.mem_cons, not_or] at hunlisted
  constructor
  · rintro ⟨id, cached, hcached, hlabels, hne, hbefore⟩
    have hholds : r.holds id (labelsForMetadata built) = true := holds_eq_true.2 ⟨cached, hcached, hlabels⟩
    by_cases hafter : id ∈ after.map (·.id)
    · obtain ⟨other, hother, rfl⟩ := List.mem_map.1 hafter
      exact .inr ⟨other, hother, hholds⟩
    · exact .inl ⟨id, (hunlisted id).2 ⟨mem_iff_getElem?.2 ⟨cached, hcached⟩, hbefore, hne, hafter⟩,
        hholds⟩
  · rintro (⟨id, hid, hholds⟩ | ⟨other, hother, hholds⟩)
    · obtain ⟨-, hbefore, hne, -⟩ := (hunlisted id).1 hid
      obtain ⟨cached, hcached, hlabels⟩ := holds_eq_true.1 hholds
      exact ⟨id, cached, hcached, hlabels, hne, hbefore⟩
    · have hmem : other.id ∈ after.map (·.id) := List.mem_map_of_mem hother
      obtain ⟨cached, hcached, hlabels⟩ := holds_eq_true.1 hholds
      refine ⟨other.id, cached, hcached, hlabels, fun heq => hserviceId (heq ▸ hmem), fun hbefore => ?_⟩
      exact hdisjoint other.id hbefore other.id (List.mem_cons_of_mem _ hmem) rfl

section Pass

-- The services are applied from the new node list, and the unlisted ones removed then.
variable {r₂ r₃ : Reconciler} {unlisted : List String} (wired : r.Wired)
  (hlisted : WellListed r.customLabels services) (hvisit : Enumerates visit r.metadata)
  (hunlisted : ∀ id, id ∈ unlisted ↔ id ∈ r.metadata ∧ id ∉ services.map (·.id))
  (hservices : Performs (r.withNodes nodes visit) (services.map .applyService) r₂)
  (hremoved : Removed r₂ unlisted r₃)

include wired hlisted hvisit hunlisted hservices hremoved

omit wired hservices in
theorem pass_metadata (happlied : Applied (r.withNodes nodes visit) services r₂)
    (hcustom : (r.withNodes nodes visit).customLabels = r.customLabels) (id : String)
    (m : ServiceMetadata) : r₃.metadata[id]? = some m ↔
      ∃ service ∈ services, service.id = id ∧
        ∃ built, buildMetadata service r.customLabels = .ok built ∧ m = recount nodes built := by
  rw [hremoved.metadata]
  by_cases hid : id ∈ services.map (·.id)
  · rw [if_neg fun hmem => ((hunlisted id).1 hmem).2 hid]
    obtain ⟨service, hservice, rfl⟩ := List.mem_map.1 hid
    obtain ⟨built, hbuilt, hcached⟩ := happlied.cached service hservice
    rw [hcustom] at hbuilt
    rw [hcached, withNodes_nodes, Option.some.injEq]
    constructor
    · rintro rfl
      exact ⟨service, hservice, rfl, built, hbuilt, rfl⟩
    · rintro ⟨found, hfound, hfoundId, built', hbuilt', rfl⟩
      obtain rfl := List.inj_on_of_nodup_map hlisted.ids hfound hservice hfoundId
      rw [hbuilt] at hbuilt'
      cases hbuilt'
      rfl
  · have hnone : (if id ∈ unlisted then none else r₂.metadata[id]?) = none := by
      by_cases hmem : id ∈ unlisted
      · exact if_pos hmem
      · have huncached : r.metadata[id]? = none :=
          notMem_iff_getElem?.1 fun hcached => hmem ((hunlisted id).2 ⟨hcached, hid⟩)
        rw [if_neg hmem, happlied.uncached id hid, withNodes_metadata hvisit,
          Std.ExtTreeMap.getElem?_map, huncached]
        rfl
    rw [hnone]
    constructor
    · intro hm
      cases hm
    · rintro ⟨service, hservice, rfl, -⟩
      exact absurd (List.mem_map_of_mem hservice) hid

theorem pass_seriesAt (happlied : Applied (r.withNodes nodes visit) services r₂)
    (hcustom : (r.withNodes nodes visit).customLabels = r.customLabels) {before after : List Service}
    {service : Service} {built : ServiceMetadata} (hsplit : services = before ++ service :: after)
    (hbuilt : buildMetadata service r.customLabels = .ok built) :
    r₃.seriesAt (labelsForMetadata built) =
      if unlisted.any fun id => r.holds id (labelsForMetadata built) then .empty
      else if after.any fun other => r.holds other.id (labelsForMetadata built) then .empty
      else .full service built nodes := by
  subst hsplit
  have hkept : ∀ id ∈ unlisted, r₂.metadata[id]? = (r.withNodes nodes visit).metadata[id]? :=
    fun id hid => happlied.uncached id ((hunlisted id).1 hid).2
  have hlabelled : built.Labelled r₂.customLabels := by
    rw [happlied.customLabels, hcustom]
    exact labelled_of_buildMetadata hbuilt
  rw [hremoved.seriesAt built hlabelled, any_holds_congr (fun id => id) hkept,
    seriesAt_of_listed (withNodes_wired wired nodes visit) hcustom hlisted hbuilt hservices,
    withNodes_nodes]
  simp only [holds_withNodes hvisit]

end Pass

/-- **What the calls of a pass leave.** -/
theorem performs_passed (wired : r.Wired) (hlisted : WellListed r.customLabels services)
    (hvisit : Enumerates visit r.metadata) (hids : ids.Nodup)
    (hread : ∀ id, id ∈ ids ↔ id ∈ r.metadata ∨ id ∈ services.map (·.id))
    (h : Performs r (resyncOps services nodes visit ids) r') : Passed r services nodes r' := by
  unfold resyncOps at h
  rw [List.append_assoc, List.cons_append] at h
  obtain ⟨r₁, hnodes, hcalls⟩ := Performs.of_cons h
  obtain ⟨r₂, hservices, hrest⟩ := Performs.of_append hcalls
  obtain ⟨r₃, hremovals, hprune⟩ := Performs.of_append hrest
  obtain ⟨r₄, hprune, hlast⟩ := Performs.of_cons hprune
  have hcustom := perform_customLabels hnodes
  simp only [perform, hvisit, if_true, Option.some.injEq] at hnodes
  subst hnodes
  cases hprune
  obtain rfl := Performs.eq_of_nil hlast
  have hunlisted : ∀ id, id ∈ ids.filter (fun id => id ∉ services.map (·.id)) ↔
      id ∈ r.metadata ∧ id ∉ services.map (·.id) := by
    intro id
    rw [List.mem_filter, hread, decide_eq_true_eq]
    tauto
  have happlied := performs_applyServices (withNodes_wired wired nodes visit) hlisted.ids hservices
  have hremoved := performs_removeServices happlied.wired (hids.filter _) hremovals
  have hmetadata := pass_metadata hlisted hvisit hunlisted hremoved happlied hcustom
  refine ⟨hremoved.wired.of_eq rfl rfl, ?_, ?_, hmetadata, ?_, ?_⟩
  · exact hremoved.customLabels.trans (happlied.customLabels.trans hcustom)
  · exact hremoved.nodes.trans (happlied.nodes.trans (withNodes_nodes r nodes visit))
  · intro before service after built hsplit hbuilt hdisturbs
    have hseries := pass_seriesAt wired hlisted hvisit hunlisted hservices hremoved happlied hcustom
      hsplit hbuilt
    subst hsplit
    rw [disturbs_iff hlisted.ids hunlisted, not_or] at hdisturbs
    exact hseries.trans ((if_neg hdisturbs.1).trans (if_neg hdisturbs.2))
  · intro before service after built hsplit hbuilt hdisturbs
    have hseries := pass_seriesAt wired hlisted hvisit hunlisted hservices hremoved happlied hcustom
      hsplit hbuilt
    subst hsplit
    refine hseries.trans ?_
    rcases (disturbs_iff hlisted.ids hunlisted).1 hdisturbs with hany | hany
    · exact if_pos hany
    · rw [if_pos hany, ite_self]

/-! ## Exactly what the lists say -/

/-- A family has exactly the series of the listed services, as `of` relates the two. -/
def Shows (custom : CustomLabels) (services : List Service) (children : Map (List String) Gauge)
    (of : Service → ServiceMetadata → List String → Gauge → Prop) : Prop :=
  ∀ key value, children[key]? = some value ↔ ∃ service ∈ services,
    ∃ built, buildMetadata service custom = .ok built ∧ of service built key value

/-- The caches are those of the lists, and the families have exactly the series of the listed services,
with the values the lists give them. -/
structure Exact (r : Reconciler) (services : List Service) (listed : List Node) : Prop where
  nodes : r.nodes = listed
  metadata : ∀ (id : String) (m : ServiceMetadata), r.metadata[id]? = some m ↔
    ∃ service ∈ services, service.id = id ∧
      ∃ built, buildMetadata service r.customLabels = .ok built ∧ m = recount listed built
  desired : Shows r.customLabels services r.replicaGauges.desired.children fun _ built key value =>
    key = identityKey r.replicaGauges.desired.desc built ∧ value = (replicaCounts built listed).1
  schedulable : Shows r.customLabels services r.replicaGauges.schedulable.children
    fun _ built key value => key = identityKey r.replicaGauges.schedulable.desc built ∧
      value = schedulableReplicas built listed
  state : Shows r.customLabels services r.serviceUpdate.state.children
    fun service built key value => ∃ state : UpdateState,
      key = r.serviceUpdate.stateKey (labelsForMetadata built) state ∧
      value = ServiceUpdateMetrics.stateValue service state
  started : Shows r.customLabels services r.serviceUpdate.started.children
    fun service built key value => key = identityKey r.serviceUpdate.started.desc built ∧
      value = ServiceUpdateMetrics.startedSeconds service
  completed : Shows r.customLabels services r.serviceUpdate.completed.children
    fun service built key value => key = identityKey r.serviceUpdate.completed.desc built ∧
      value = ServiceUpdateMetrics.completedSeconds service

/-- No listed service is disturbed. -/
def Undisturbed (r : Reconciler) (services : List Service) : Prop :=
  ∀ before service after built, services = before ++ service :: after →
    buildMetadata service r.customLabels = .ok built → ¬r.Disturbs before service built

section Shows

variable {custom : CustomLabels} {metadata : Map String ServiceMetadata}
  (hcached : ∀ (id : String) (m : ServiceMetadata), metadata[id]? = some m →
    ∃ service ∈ services, ∃ built, buildMetadata service custom = .ok built ∧
      labelsForMetadata m = labelsForMetadata built)

omit [HostText]
include hcached

/-- A family whose series are those of cached services shows the lists as soon as every listed service
has its own. -/
theorem shows_of_backed {children : Map (List String) Gauge} (keys : Labels → List String → Prop)
    {of : Service → ServiceMetadata → List String → Gauge → Prop}
    (hbacked : Backed metadata children fun cached key _ => keys (labelsForMetadata cached) key)
    (hown : ∀ service ∈ services, ∀ built, buildMetadata service custom = .ok built →
      (∀ key, keys (labelsForMetadata built) key →
        ∃ value, children[key]? = some value ∧ of service built key value) ∧
      ∀ key value, of service built key value → children[key]? = some value) :
    Shows custom services children of := by
  intro key value
  constructor
  · intro hvalue
    obtain ⟨id, cached, hmem, hkeys⟩ := hbacked key value hvalue
    obtain ⟨service, hservice, built, hbuilt, hlabels⟩ := hcached id cached hmem
    rw [hlabels] at hkeys
    obtain ⟨found, hfound, hof⟩ := (hown service hservice built hbuilt).1 key hkeys
    rw [hvalue] at hfound
    cases hfound
    exact ⟨service, hservice, built, hbuilt, hof⟩
  · rintro ⟨service, hservice, built, hbuilt, hof⟩
    exact (hown service hservice built hbuilt).2 key value hof

/-- The same for a family with one series per service. -/
theorem shows_identity {vec : GaugeVec} {value : Service → ServiceMetadata → Gauge}
    (hbacked : Backed metadata vec.children fun cached key _ => key = identityKey vec.desc cached)
    (hown : ∀ service ∈ services, ∀ built, buildMetadata service custom = .ok built →
      vec.children[vec.desc.key (labelsForMetadata built)]? = some (value service built)) :
    Shows custom services vec.children fun service built key found =>
      key = identityKey vec.desc built ∧ found = value service built := by
  refine shows_of_backed hcached (fun labels key => key = vec.desc.key labels) hbacked ?_
  intro service hservice built hbuilt
  constructor
  · rintro key rfl
    exact ⟨_, hown service hservice built hbuilt, rfl, rfl⟩
  · rintro key found ⟨rfl, rfl⟩
    exact hown service hservice built hbuilt

end Shows

/-- Where the listed services are cached and the series of each are there, the result is exact. -/
theorem exact_of_full (inv : r'.SeriesInv) (hnodes : r'.nodes = nodes)
    (hmetadata : ∀ (id : String) (m : ServiceMetadata), r'.metadata[id]? = some m ↔
      ∃ service ∈ services, service.id = id ∧
        ∃ built, buildMetadata service r'.customLabels = .ok built ∧ m = recount nodes built)
    (hfull : ∀ service ∈ services, ∀ built, buildMetadata service r'.customLabels = .ok built →
      r'.seriesAt (labelsForMetadata built) = .full service built nodes) :
    r'.Exact services nodes := by
  have hcached : ∀ (id : String) (m : ServiceMetadata), r'.metadata[id]? = some m →
      ∃ service ∈ services, ∃ built, buildMetadata service r'.customLabels = .ok built ∧
        labelsForMetadata m = labelsForMetadata built := by
    intro id m hm
    obtain ⟨service, hservice, -, built, hbuilt, rfl⟩ := (hmetadata id m).1 hm
    exact ⟨service, hservice, built, hbuilt, rfl⟩
  refine ⟨hnodes, hmetadata, ?_, ?_, ?_, ?_, ?_⟩
  · refine shows_identity hcached ?_ fun service hservice built hbuilt => ?_
    · intro key value hvalue
      obtain ⟨id, cached, hmem, hkey, -⟩ := inv.desired key value hvalue
      exact ⟨id, cached, hmem, hkey⟩
    · exact congrArg ServiceSeries.desired (hfull service hservice built hbuilt)
  · refine shows_identity hcached ?_ fun service hservice built hbuilt => ?_
    · intro key value hvalue
      obtain ⟨id, cached, hmem, hkey, -⟩ := inv.schedulable key value hvalue
      exact ⟨id, cached, hmem, hkey⟩
    · exact congrArg ServiceSeries.schedulable (hfull service hservice built hbuilt)
  · refine shows_of_backed hcached
      (fun labels key => ∃ state, key = r'.serviceUpdate.stateKey labels state) inv.state ?_
    intro service hservice built hbuilt
    have hstate : ∀ state, r'.serviceUpdate.state.children[
        r'.serviceUpdate.stateKey (labelsForMetadata built) state]? =
        some (ServiceUpdateMetrics.stateValue service state) := fun state =>
      congrFun (congrArg ServiceSeries.state (hfull service hservice built hbuilt)) state
    constructor
    · rintro key ⟨state, rfl⟩
      exact ⟨_, hstate state, state, rfl, rfl⟩
    · rintro key value ⟨state, rfl, rfl⟩
      exact hstate state
  · refine shows_identity hcached inv.started fun service hservice built hbuilt => ?_
    exact congrArg ServiceSeries.started (hfull service hservice built hbuilt)
  · refine shows_identity hcached inv.completed fun service hservice built hbuilt => ?_
    exact congrArg ServiceSeries.completed (hfull service hservice built hbuilt)

/-- **A pass is exact where no listed service is disturbed, and only there.** -/
theorem passed_exact_iff (inv : r'.SeriesInv) (hpassed : Passed r services nodes r') :
    r'.Exact services nodes ↔ r.Undisturbed services := by
  constructor
  · intro hexact before service after built hsplit hbuilt hdisturbs
    have hlost := hpassed.lost before service after built hsplit hbuilt hdisturbs
    have hservice : service ∈ services := by
      rw [hsplit]
      simp
    rw [← hpassed.customLabels] at hbuilt
    have hdesired := (hexact.desired _ _).2 ⟨service, hservice, built, hbuilt, rfl, rfl⟩
    have hnone : r'.replicaGauges.desired.children[
        identityKey r'.replicaGauges.desired.desc built]? = none :=
      congrArg ServiceSeries.desired hlost
    rw [hnone] at hdesired
    cases hdesired
  · intro hundisturbed
    obtain ⟨-, hcustom, hnodes, hmetadata, hkept, -⟩ := hpassed
    rw [← hcustom] at hmetadata
    refine exact_of_full inv hnodes hmetadata fun service hservice built hbuilt => ?_
    rw [hcustom] at hbuilt
    obtain ⟨before, after, hsplit⟩ := List.append_of_mem hservice
    exact hkept before service after built hsplit hbuilt
      (hundisturbed before service after built hsplit hbuilt)

/-- Two reconcilers with the same caches and the same per-service families. -/
structure Agrees (r r' : Reconciler) : Prop where
  nodes : r.nodes = r'.nodes
  metadata : r.metadata = r'.metadata
  replicaGauges : r.replicaGauges = r'.replicaGauges
  serviceUpdate : r.serviceUpdate = r'.serviceUpdate

omit [HostText] in
/-- A family is determined by what it shows. -/
theorem vec_eq_of_shows {custom : CustomLabels} {vec vec' : GaugeVec}
    {of : Service → ServiceMetadata → List String → Gauge → Prop} (hdesc : vec.desc = vec'.desc)
    (h : Shows custom services vec.children of) (h' : Shows custom services vec'.children of) :
    vec = vec' := by
  have hchildren : vec.children = vec'.children := by
    apply Std.ExtTreeMap.ext_getElem?
    intro key
    rw [Option.ext_iff]
    exact fun value => (h key value).trans (h' key value).symm
  cases vec
  cases vec'
  simp only at hdesc hchildren
  rw [hdesc, hchildren]

/-- The lists determine the caches and the families. -/
theorem Exact.agrees {s : Reconciler} (hr : r.Exact services nodes) (hs : s.Exact services nodes)
    (wired : r.Wired) (wired' : s.Wired) (hcustom : r.customLabels = s.customLabels) : r.Agrees s := by
  have hfamilies := wired.families
  have hfamilies' := wired'.families
  have hdesc : r.replicaGauges.desired.desc = s.replicaGauges.desired.desc := by
    rw [hfamilies.desired, hfamilies'.desired, hcustom]
  have hdesc' : r.replicaGauges.schedulable.desc = s.replicaGauges.schedulable.desc := by
    rw [hfamilies.schedulable, hfamilies'.schedulable, hcustom]
  have hstate : r.serviceUpdate.state.desc = s.serviceUpdate.state.desc := by
    rw [hfamilies.updateState, hfamilies'.updateState, hcustom]
  have hstarted : r.serviceUpdate.started.desc = s.serviceUpdate.started.desc := by
    rw [hfamilies.updateStarted, hfamilies'.updateStarted, hcustom]
  have hcompleted : r.serviceUpdate.completed.desc = s.serviceUpdate.completed.desc := by
    rw [hfamilies.updateCompleted, hfamilies'.updateCompleted, hcustom]
  obtain ⟨hrNodes, hrMetadata, hrDesired, hrSchedulable, hrState, hrStarted, hrCompleted⟩ := hr
  obtain ⟨hsNodes, hsMetadata, hsDesired, hsSchedulable, hsState, hsStarted, hsCompleted⟩ := hs
  simp only [ServiceUpdateMetrics.stateKey] at hrState hsState
  rw [← hcustom] at hsMetadata hsDesired hsSchedulable hsState hsStarted hsCompleted
  rw [← hdesc] at hsDesired
  rw [← hdesc'] at hsSchedulable
  rw [← hstate] at hsState
  rw [← hstarted] at hsStarted
  rw [← hcompleted] at hsCompleted
  refine ⟨hrNodes.trans hsNodes.symm, ?_, ?_, ?_⟩
  · apply Std.ExtTreeMap.ext_getElem?
    intro id
    rw [Option.ext_iff]
    exact fun m => (hrMetadata id m).trans (hsMetadata id m).symm
  · have hvec := vec_eq_of_shows hdesc hrDesired hsDesired
    have hvec' := vec_eq_of_shows hdesc' hrSchedulable hsSchedulable
    cases hgauges : r.replicaGauges
    cases hgauges' : s.replicaGauges
    simp only [hgauges, hgauges'] at hvec hvec'
    rw [hvec, hvec']
  · have hvec := vec_eq_of_shows hstate hrState hsState
    have hvec' := vec_eq_of_shows hstarted hrStarted hsStarted
    have hvec'' := vec_eq_of_shows hcompleted hrCompleted hsCompleted
    cases hupdate : r.serviceUpdate
    cases hupdate' : s.serviceUpdate
    simp only [hupdate, hupdate'] at hvec hvec' hvec''
    rw [hvec, hvec', hvec'']

/-- What agrees with an exact reconciler is exact. -/
theorem Agrees.exact {s : Reconciler} (h : r.Agrees s) (hcustom : r.customLabels = s.customLabels)
    (hs : s.Exact services nodes) : r.Exact services nodes := by
  obtain ⟨hnodes, hmetadata, hgauges, hupdate⟩ := h
  obtain ⟨hsNodes, hsMetadata, hsDesired, hsSchedulable, hsState, hsStarted, hsCompleted⟩ := hs
  rw [← hcustom] at hsMetadata hsDesired hsSchedulable hsState hsStarted hsCompleted
  rw [← hmetadata] at hsMetadata
  rw [← hgauges] at hsDesired hsSchedulable
  rw [← hupdate] at hsState hsStarted hsCompleted
  exact ⟨hnodes.trans hsNodes, hsMetadata, hsDesired, hsSchedulable, hsState, hsStarted, hsCompleted⟩

end Reconciler

namespace World

open Reconciler (WellListed Passed)

section Steps

variable [HostText] {config : Config} {w w' : World} {pass : Pass} {services : List Service}
  {nodes : List Node} {visit ids : List String} {timestamp : Timestamp}

/-- What a resync leaves once its lists arrived. -/
theorem resync_passed (wired : w.reconciler.Wired)
    (hlisted : WellListed w.reconciler.customLabels services)
    (hphase : w.phase = .resyncNodesListing pass services)
    (hstep : w.step (.resyncNodesListed (.ok nodes) visit ids none timestamp) = some w') :
    Passed w.reconciler services nodes w'.reconciler := by
  simp only [step, cycleStep, hphase, Option.ite_none_right_eq_some, Option.some.injEq] at hstep
  obtain ⟨⟨hvisit, ⟨hids, hread⟩, -⟩, rfl⟩ := hstep
  obtain ⟨r', hlists, -⟩ := @Reconciler.applyLists_returns _ _ nodes visit ids hlisted.replicas
    w.reconciler wired
  have hops := Reconciler.applyLists_ops wired hvisit services nodes ids none
  rw [hlists] at hops
  have hpassed := Reconciler.performs_passed wired hlisted hvisit hids hread hops.2
  have hwrite : Reconciler.resyncListed services (.ok nodes) visit ids none pass.target pass.passStart
      w.instant timestamp w.reconciler =
      .ok () (r'.completeResync pass.target pass.passStart w.instant timestamp) := bind_ok hlists
  simp only [Reconciler.recovered, hwrite]
  obtain ⟨hwired, hcustom, hnodes, hmetadata, hkept, hlost⟩ := hpassed
  exact ⟨hwired.of_eq rfl rfl, hcustom, hnodes, hmetadata, hkept, hlost⟩

/-- Whatever was cached before, the pass is exact where no listed service is disturbed, and only
there. -/
theorem resync_passed_exact_iff (h : Reachable config w) (hlisted : WellListed config.custom services)
    (hphase : w.phase = .resyncNodesListing pass services)
    (hstep : w.step (.resyncNodesListed (.ok nodes) visit ids none timestamp) = some w') :
    w'.reconciler.Exact services nodes ↔ w.reconciler.Undisturbed services := by
  obtain ⟨trace, hrun⟩ := h
  rw [← Runs.customLabels hrun] at hlisted
  have hpassed := resync_passed (Runs.wired hrun) hlisted hphase hstep
  exact Reconciler.passed_exact_iff (Runs.seriesInv (hrun.snoc hstep)) hpassed

/-- **When a completed resync does not depend on the history.** The result of a resync whose services
have distinct ids and identities is exactly what its lists say, and so what a first resync on the same
lists leaves, if and only if no other cached service which is not listed, or listed later, has the
identity of a listed one. -/
theorem resync_exact_iff (h : Reachable config w) (hlisted : WellListed config.custom services)
    (hphase : w.phase = .resyncNodesListing pass services)
    (hstep : w.step (.resyncNodesListed (.ok nodes) visit ids none timestamp) = some w') :
    (w'.reconciler.Exact services nodes ↔ w.reconciler.Undisturbed services) ∧
      ∀ (fresh fresh' : World) (pass' : Pass) (visit' ids' : List String) (timestamp' : Timestamp),
        Reachable config fresh → fresh.reconciler.metadata = ∅ →
        fresh.phase = .resyncNodesListing pass' services →
        fresh.step (.resyncNodesListed (.ok nodes) visit' ids' none timestamp') = some fresh' →
        (w'.reconciler.Agrees fresh'.reconciler ↔ w.reconciler.Undisturbed services) := by
  have hiff := resync_passed_exact_iff h hlisted hphase hstep
  refine ⟨hiff, ?_⟩
  intro fresh fresh' pass' visit' ids' timestamp' hfresh hempty hphase' hstep'
  have hexact : fresh'.reconciler.Exact services nodes := by
    refine (resync_passed_exact_iff hfresh hlisted hphase' hstep').2 ?_
    rintro before service after built - - ⟨id, cached, hcached, -⟩
    rw [hempty] at hcached
    simp at hcached
  obtain ⟨trace, hrun⟩ := h
  obtain ⟨trace', hrun'⟩ := hfresh
  have hwired := Runs.wired (hrun.snoc hstep)
  have hwired' := Runs.wired (hrun'.snoc hstep')
  have hcustom : w'.reconciler.customLabels = fresh'.reconciler.customLabels := by
    rw [Runs.customLabels (hrun.snoc hstep), Runs.customLabels (hrun'.snoc hstep')]
  constructor
  · exact fun hagrees => hiff.1 (hagrees.exact hcustom hexact)
  · exact fun hundisturbed => (hiff.2 hundisturbed).agrees hexact hwired hwired' hcustom

end Steps

/-- Whether `services` are listed while exactly `ids` are cached. -/
def listing (services : List Service) (ids : List String) (st : Step World Action) : Bool :=
  match st.pre.phase with
  | .resyncNodesListing _ listed =>
    decide (listed = services) && decide (st.pre.reconciler.metadata.keys = ids)
  | _ => false

theorem exists_of_listing {services : List Service} {ids : List String} {st : Step World Action}
    (h : listing services ids st = true) :
    ∃ pass, st.pre.phase = .resyncNodesListing pass services ∧ st.pre.reconciler.metadata.keys = ids := by
  unfold listing at h
  split at h
  · rename_i pass listed hphase
    obtain ⟨hlisted, hkeys⟩ := Bool.and_eq_true_iff.1 h
    obtain rfl := of_decide_eq_true hlisted
    exact ⟨pass, hphase, of_decide_eq_true hkeys⟩
  · cases h

open Sample in
theorem wellListed_replicated (id name : String) (replicas : Nat) :
    WellListed config.custom [replicated id name replicas] := by
  refine ⟨by simp, by simp, ?_⟩
  intro service hservice mode hmode
  obtain rfl := List.mem_singleton.1 hservice
  cases hmode
  rfl

open Sample in
/-- A service that is scaled between two resyncs. -/
theorem resync_exact_iff_sample : ∃ w w', Reachable config w ∧
    w.step (.resyncNodesListed (.ok [node]) ["a"] ["a"] none 1000) = some w' ∧
    w'.reconciler.Exact [replicated "a" "web" 3] [node] := by
  let acts : List Action := resyncCycle [replicated "a" "web" 2] [] ["a"] ++
    [.requestResync 1000, .beginCycle 1000, .checkNodes, .checkResync 1000,
      .servicesListed (.ok [replicated "a" "web" 3])]
  have hreplay : (replay step (init config)
      (acts ++ [.resyncNodesListed (.ok [node]) ["a"] ["a"] none 1000])).any (fun result =>
        result.1.getLast?.any (listing [replicated "a" "web" 3] ["a"])) = true := by
    decide +kernel
  obtain ⟨trace, st, hrun, hstep, hact, hcheck⟩ := exists_last_of_replay hreplay
  obtain ⟨pass, hphase, hkeys⟩ := exists_of_listing hcheck
  rw [hact] at hstep
  refine ⟨st.pre, st.post, ⟨trace, hrun⟩, hstep, ?_⟩
  refine (resync_exact_iff ⟨trace, hrun⟩ (wellListed_replicated ..) hphase hstep).1.2 ?_
  rintro before service after built hsplit - ⟨id, cached, hcached, -, hne, -⟩
  have hid : id ∈ st.pre.reconciler.metadata.keys :=
    Std.ExtTreeMap.mem_keys.2 (mem_iff_getElem?.2 ⟨cached, hcached⟩)
  rw [hkeys, List.mem_singleton] at hid
  have hservice : service ∈ [replicated "a" "web" 3] := by
    rw [hsplit]
    simp
  obtain rfl := List.mem_singleton.1 hservice
  exact hne hid

open Sample in
/-- A service that is removed and created anew under its name between two resyncs: it is cached, and has
no series. -/
theorem resync_loses_recreated : ∃ w w' pass, Reachable config w ∧
    w.phase = .resyncNodesListing pass [replicated "b" "web" 2] ∧
    WellListed config.custom [replicated "b" "web" 2] ∧
    w.step (.resyncNodesListed (.ok [node]) ["a"] ["a", "b"] none 1000) = some w' ∧
    "b" ∈ w'.reconciler.metadata ∧ w'.reconciler.replicaGauges.desired.children = ∅ ∧
    ¬w'.reconciler.Exact [replicated "b" "web" 2] [node] := by
  let acts : List Action := resyncCycle [replicated "a" "web" 2] [] ["a"] ++
    [.requestResync 1000, .beginCycle 1000, .checkNodes, .checkResync 1000,
      .servicesListed (.ok [replicated "b" "web" 2])]
  have hreplay : (replay step (init config)
      (acts ++ [.resyncNodesListed (.ok [node]) ["a"] ["a", "b"] none 1000])).any (fun result =>
        result.1.getLast?.any fun st => listing [replicated "b" "web" 2] ["a"] st &&
          decide ("b" ∈ st.post.reconciler.metadata) &&
          decide (st.post.reconciler.replicaGauges.desired.children = ∅)) = true := by
    decide +kernel
  obtain ⟨trace, st, hrun, hstep, hact, hcheck⟩ := exists_last_of_replay hreplay
  simp only [Bool.and_eq_true, decide_eq_true_eq] at hcheck
  obtain ⟨⟨hlisting, hcached⟩, hempty⟩ := hcheck
  obtain ⟨pass, hphase, -⟩ := exists_of_listing hlisting
  rw [hact] at hstep
  refine ⟨st.pre, st.post, pass, ⟨trace, hrun⟩, hphase, wellListed_replicated .., hstep, hcached,
    hempty, fun hexact => ?_⟩
  have hreplicas := (wellListed_replicated "b" "web" 2).replicas _ (List.mem_singleton.2 rfl)
  obtain ⟨built, hbuilt⟩ := buildMetadata_isOk_iff.2 hreplicas
  have hseries := (hexact.desired _ _).2 ⟨_, List.mem_singleton.2 rfl, built, hbuilt, rfl, rfl⟩
  rw [hempty] at hseries
  simp at hseries

end World

end SwarmExporter
