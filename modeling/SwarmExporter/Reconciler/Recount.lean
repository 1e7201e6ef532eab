import Mathlib.Data.List.Pairwise
import SwarmExporter.Reconciler.Resync

/-!
# Recounting is reapplying

A node event never looks at a service's spec: `applyNodes` recomputes the counts of every service from
the metadata cached when the spec was last applied. Nothing is lost by that. Applying a list of
services leaves what the services and the node list say (`applyServices_exact`), recounting it from
another node list leaves what the services and the new list say (`withNodes_exact`), and these
determine the caches and the families. So services applied against one node list and recounted from
another are the services applied against the other at once, in any order and however the cache is
iterated (`recount_agrees_reapply`).
-/

namespace SwarmExporter

open Lib
open Docker (Node Service)

namespace Reconciler

variable [HostText] {r : Reconciler} {services : List Service} {nodes before : List Node}
  {visit : List String}

/-- Applies every service of a list, with counts computed from `nodes`. -/
def applyServices (services : List Service) (nodes : List Node) : Write :=
  forM services (applyService · nodes)

/-! ## The services of a list, applied -/

omit [HostText] in
/-- In a well-formed list a service is known by its identity. -/
theorem WellListed.eq_of_labels_eq {custom : CustomLabels} (hlisted : WellListed custom services)
    {first second : Service} (hfirst : first ∈ services) (hsecond : second ∈ services)
    {built built' : ServiceMetadata} (hbuilt : buildMetadata first custom = .ok built)
    (hbuilt' : buildMetadata second custom = .ok built')
    (hlabels : labelsForMetadata built = labelsForMetadata built') : first = second := by
  by_contra hne
  have hsymm : Std.Symm fun first second : Service => ∀ built built',
      buildMetadata first custom = .ok built → buildMetadata second custom = .ok built' →
      labelsForMetadata built ≠ labelsForMetadata built' :=
    ⟨fun _ _ h built built' hbuilt hbuilt' => (h built' built hbuilt' hbuilt).symm⟩
  exact hlisted.identities.forall hfirst hsecond hne built built' hbuilt hbuilt' hlabels

omit [HostText] in
theorem WellListed.perm {custom : CustomLabels} {listed : List Service}
    (hlisted : WellListed custom services) (hperm : listed.Perm services) :
    WellListed custom listed := by
  refine ⟨(hperm.map _).nodup_iff.2 hlisted.ids, ?_, fun service hservice =>
    hlisted.replicas service (hperm.mem_iff.1 hservice)⟩
  refine (hperm.pairwise_iff ?_).2 hlisted.identities
  exact fun h built built' hbuilt hbuilt' => (h built' built hbuilt' hbuilt).symm

/-- `applyServices` returns, and performs its operations in order. -/
theorem applyServices_performs (wired : r.Wired) (hreplicas : ∀ service ∈ services, HasReplicas service) :
    ∃ r', applyServices services r.nodes r = .ok () r' ∧ Performs r (services.map .applyService) r' := by
  induction services generalizing r with
  | nil => exact ⟨r, rfl, .nil⟩
  | cons service services ih =>
    obtain ⟨built, hbuilt⟩ : ∃ built, buildMetadata service r.customLabels = .ok built :=
      buildMetadata_isOk_iff.2 (hreplicas service (List.mem_cons_self ..))
    have hperform : perform r (.applyService service) = some (r.withService service r.nodes built) := by
      simp only [perform, hbuilt]
    obtain ⟨r', hrest, hperforms⟩ := ih (perform_wired wired hperform)
      fun other hother => hreplicas other (List.mem_cons_of_mem _ hother)
    rw [withService_nodes] at hrest
    refine ⟨r', ?_, hperforms.cons hperform⟩
    unfold applyServices
    rw [List.forM_cons]
    exact (bind_ok (applyService_ok wired hbuilt r.nodes)).trans hrest

/-- **Applying a list of services to an empty cache** leaves what the list says. -/
theorem applyServices_exact (wired : r.Wired) (inv : r.SeriesInv) (hempty : r.metadata = ∅)
    (hlisted : WellListed r.customLabels services) :
    ∃ r', applyServices services r.nodes r = .ok () r' ∧ r'.Wired ∧ r'.SeriesInv ∧
      r'.customLabels = r.customLabels ∧ r'.Exact services r.nodes := by
  obtain ⟨r', hreturns, hperforms⟩ := applyServices_performs wired hlisted.replicas
  have happlied := performs_applyServices wired hlisted.ids hperforms
  obtain ⟨wired', inv'⟩ : r'.Wired ∧ r'.SeriesInv :=
    hperforms.invariant (fun r => r.Wired ∧ r.SeriesInv) ⟨wired, inv⟩ fun _ _ _ hr h =>
      ⟨perform_wired hr.1 h, perform_seriesInv hr.1 hr.2 h⟩
  refine ⟨r', hreturns, wired', inv', happlied.customLabels, ?_⟩
  refine exact_of_full inv' happlied.nodes ?_ ?_
  · rw [happlied.customLabels]
    intro id m
    constructor
    · intro hm
      by_cases hid : id ∈ services.map (·.id)
      · obtain ⟨service, hservice, rfl⟩ := List.mem_map.1 hid
        obtain ⟨built, hbuilt, hcached⟩ := happlied.cached service hservice
        rw [hcached] at hm
        exact ⟨service, hservice, rfl, built, hbuilt, (Option.some.inj hm).symm⟩
      · rw [happlied.uncached id hid, hempty] at hm
        simp at hm
    · rintro ⟨service, hservice, rfl, built, hbuilt, rfl⟩
      obtain ⟨built', hbuilt', hcached⟩ := happlied.cached service hservice
      rw [hbuilt] at hbuilt'
      cases hbuilt'
      exact hcached
  · intro service hservice built hbuilt
    rw [happlied.customLabels] at hbuilt
    obtain ⟨first, after, rfl⟩ := List.append_of_mem hservice
    rw [seriesAt_of_listed wired rfl hlisted hbuilt hperforms]
    simp [holds, hempty]

/-! ## The counts of the services, recomputed -/

/-- Recounting a family keeps the keys it has. -/
theorem foldl_recounted_keys (nodes : List Node) (all : Map String ServiceMetadata)
    (visit : List String) (r : Reconciler) (key : List String) :
    (key ∈ r.replicaGauges.desired.children →
      key ∈ (visit.foldl (recounted nodes all) r).replicaGauges.desired.children) ∧
    (key ∈ r.replicaGauges.schedulable.children →
      key ∈ (visit.foldl (recounted nodes all) r).replicaGauges.schedulable.children) := by
  induction visit generalizing r with
  | nil => exact ⟨id, id⟩
  | cons id visit ih =>
    obtain ⟨hdesired, hschedulable⟩ := ih (recounted nodes all r id)
    rw [List.foldl_cons]
    refine ⟨fun hkey => hdesired ?_, fun hkey => hschedulable ?_⟩
    all_goals
      unfold recounted
      split
      · exact hkey
      · exact Std.ExtTreeMap.mem_insert.2 (.inr hkey)

section Recounted

variable {vec vec' : GaugeVec} {metadata : Map String ServiceMetadata} {custom : CustomLabels}
  {count count' : ServiceMetadata → Gauge}

omit [HostText] in
/-- A family that shows the listed services, recounted: it keeps its keys, and each series is of a
cached service with its new value. -/
theorem shows_of_keys (hlisted : WellListed custom services) (hdesc : vec'.desc = vec.desc)
    (hfits : ∀ built : ServiceMetadata, built.Labelled custom → vec.desc.Fits (labelsForMetadata built))
    (hshows : Shows custom services vec.children fun _ built key value =>
      key = identityKey vec.desc built ∧ value = count built)
    (hkeys : ∀ key, key ∈ vec.children → key ∈ vec'.children)
    (hvalues : ∀ key value, vec'.children[key]? = some value → ∃ service ∈ services,
      ∃ built, buildMetadata service custom = .ok built ∧ key = identityKey vec.desc built ∧
        value = count' built) :
    Shows custom services vec'.children fun _ built key value =>
      key = identityKey vec'.desc built ∧ value = count' built := by
  intro key value
  rw [hdesc]
  constructor
  · exact hvalues key value
  · rintro ⟨service, hservice, built, hbuilt, rfl, rfl⟩
    have hold := (hshows _ _).2 ⟨service, hservice, built, hbuilt, rfl, rfl⟩
    obtain ⟨found, hfound⟩ := mem_iff_getElem?.1 (hkeys _ (mem_iff_getElem?.2 ⟨_, hold⟩))
    obtain ⟨other, hother, built', hbuilt', hkey, rfl⟩ := hvalues _ _ hfound
    -- The series found under the key is the service's own: no other one has its identity.
    have hlabels := (hfits built (labelled_of_buildMetadata hbuilt)).key_inj
      (hfits built' (labelled_of_buildMetadata hbuilt')) hkey
    obtain rfl := hlisted.eq_of_labels_eq hservice hother hbuilt hbuilt' hlabels
    rw [hbuilt] at hbuilt'
    cases hbuilt'
    exact hfound

end Recounted

/-- **Recounting from a node list** leaves what the services and that list say. -/
theorem withNodes_exact (wired : r.Wired) (inv : r.SeriesInv)
    (hlisted : WellListed r.customLabels services) (hexact : r.Exact services before)
    (hvisit : Enumerates visit r.metadata) : (r.withNodes nodes visit).Exact services nodes := by
  have inv' : (r.withNodes nodes visit).SeriesInv := withNodes_seriesInv inv hvisit
  have hcustom : (r.withNodes nodes visit).customLabels = r.customLabels :=
    foldl_recounted_customLabels nodes r.metadata visit (r.replaceNodes nodes)
  have hrecounted : Recounted nodes _ _ _ := withNodes_recounted hvisit
  have hkeys := foldl_recounted_keys nodes r.metadata visit (r.replaceNodes nodes)
  obtain ⟨-, hmetadata, hdesired, hschedulable, hstate, hstarted, hcompleted⟩ := hexact
  have hmetadata' : ∀ (id : String) (m : ServiceMetadata),
      (r.withNodes nodes visit).metadata[id]? = some m ↔ ∃ service ∈ services, service.id = id ∧
        ∃ built, buildMetadata service r.customLabels = .ok built ∧ m = recount nodes built := by
    intro id m
    rw [withNodes_metadata hvisit, Std.ExtTreeMap.getElem?_map, Option.map_eq_some_iff]
    constructor
    · rintro ⟨cached, hcached, rfl⟩
      obtain ⟨service, hservice, hid, built, hbuilt, rfl⟩ := (hmetadata id cached).1 hcached
      exact ⟨service, hservice, hid, built, hbuilt, rfl⟩
    · rintro ⟨service, hservice, hid, built, hbuilt, rfl⟩
      exact ⟨_, (hmetadata id _).2 ⟨service, hservice, hid, built, hbuilt, rfl⟩, rfl⟩
  have hupdate : (r.withNodes nodes visit).serviceUpdate = r.serviceUpdate := hrecounted.serviceUpdate
  have hdesc : (r.withNodes nodes visit).replicaGauges.desired.desc = r.replicaGauges.desired.desc :=
    hrecounted.desiredDesc
  have hdesc' : (r.withNodes nodes visit).replicaGauges.schedulable.desc =
    r.replicaGauges.schedulable.desc := hrecounted.schedulableDesc
  refine ⟨withNodes_nodes r nodes visit, by rwa [hcustom], ?_, ?_, ?_, ?_, ?_⟩
  · rw [hcustom]
    refine shows_of_keys hlisted hdesc (fun _ => wired.families.desired_fits) hdesired
      (fun key => (hkeys key).1) fun key value hvalue => ?_
    obtain ⟨id, cached, hcached, hkey, rfl⟩ := inv'.desired key value hvalue
    obtain ⟨service, hservice, -, built, hbuilt, rfl⟩ := (hmetadata' id cached).1 hcached
    rw [hdesc] at hkey
    exact ⟨service, hservice, built, hbuilt, hkey, rfl⟩
  · rw [hcustom]
    refine shows_of_keys hlisted hdesc' (fun _ => wired.families.schedulable_fits) hschedulable
      (fun key => (hkeys key).2) fun key value hvalue => ?_
    obtain ⟨id, cached, hcached, hkey, rfl⟩ := inv'.schedulable key value hvalue
    obtain ⟨service, hservice, -, built, hbuilt, rfl⟩ := (hmetadata' id cached).1 hcached
    rw [hdesc'] at hkey
    refine ⟨service, hservice, built, hbuilt, hkey, ?_⟩
    rw [withNodes_nodes]
    rfl
  all_goals rwa [hcustom, hupdate]

/-! ## The two orders -/

/-- The reconciler with another node list in its cache, and nothing recomputed. -/
def setNodes (r : Reconciler) (nodes : List Node) : Reconciler := { r with nodes }

/-- Applying services does not look at the cached nodes. -/
theorem applyServices_setNodes (wired : r.Wired) (hreplicas : ∀ service ∈ services, HasReplicas service)
    {r' : Reconciler} (h : applyServices services nodes (r.setNodes before) = .ok () r') :
    ∃ applied, applyServices services nodes r = .ok () applied ∧ applied.setNodes before = r' := by
  induction services generalizing r with
  | nil =>
    cases h
    exact ⟨r, rfl, rfl⟩
  | cons service services ih =>
    obtain ⟨built, hbuilt⟩ : ∃ built, buildMetadata service r.customLabels = .ok built :=
      buildMetadata_isOk_iff.2 (hreplicas service (List.mem_cons_self ..))
    have wired' : (r.setNodes before).Wired := wired.of_eq rfl rfl
    have hset : (r.setNodes before).withService service nodes built =
        (r.withService service nodes built).setNodes before := by
      obtain ⟨gauges, update, hcleaned, -⟩ := deleteOldIdentity_eq r built service.id
      have hcleaned' : (r.setNodes before).deleteOldIdentity service.id built =
          (r.deleteOldIdentity service.id built).setNodes before := by
        unfold deleteOldIdentity setNodes
        grind [deleteServiceSeries]
      simp only [withService, hcleaned', hcleaned]
      rfl
    unfold applyServices at h
    rw [List.forM_cons, bind_ok (applyService_ok wired' hbuilt nodes), hset] at h
    obtain ⟨applied, hrest, heq⟩ := ih (withService_wired wired (labelled_of_buildMetadata hbuilt) nodes)
      (fun other hother => hreplicas other (List.mem_cons_of_mem _ hother)) h
    refine ⟨applied, ?_, heq⟩
    unfold applyServices
    rw [List.forM_cons]
    exact (bind_ok (applyService_ok wired hbuilt nodes)).trans hrest

/-- What is exact does not depend on the order of the list. -/
theorem Exact.perm {listed : List Service} (h : r.Exact listed nodes) (hperm : listed.Perm services) :
    r.Exact services nodes := by
  have hshows : ∀ {children of}, Shows r.customLabels listed children of →
      Shows r.customLabels services children of := by
    intro children of hshows key value
    simp only [hshows key value, hperm.mem_iff]
  obtain ⟨hnodes, hmetadata, hdesired, hschedulable, hstate, hstarted, hcompleted⟩ := h
  simp only [hperm.mem_iff] at hmetadata
  exact ⟨hnodes, hmetadata, hshows hdesired, hshows hschedulable, hshows hstate, hshows hstarted,
    hshows hcompleted⟩

end Reconciler

open Reconciler (WellListed)

/-- **Recounting from the cache is reapplying the specs.** From an empty reconciler, services with
distinct ids and identities are applied against one node list and recounted from another, in any order
of the cache; or the other node list comes first and the services, in any order, are applied against
it. Neither panics, and they leave the same metadata cache, node cache and per-service families. -/
theorem recount_agrees_reapply [HostText] (config : Config) {services listed : List Service}
    (hlisted : WellListed config.custom services) (hperm : listed.Perm services)
    (before nodes : List Node) :
    ∃ applied reapplied,
      Reconciler.applyServices services before (World.init config).reconciler = .ok () applied ∧
      (∀ visit, Enumerates visit (World.init config).reconciler.metadata →
        (Reconciler.applyNodes nodes visit >>= fun _ => Reconciler.applyServices listed nodes)
          (World.init config).reconciler = .ok () reapplied) ∧
      ∀ visit, Enumerates visit applied.metadata → ∃ recounted,
        Reconciler.applyNodes nodes visit applied = .ok () recounted ∧
          recounted.Agrees reapplied := by
  let empty := (World.init config).reconciler
  have wired : empty.Wired := World.init_wired config
  have inv : empty.SeriesInv := Reconciler.withPolicy_seriesInv _ _ _
  -- The first order, as if the cache held the nodes the services are applied against.
  have inv₁ : (empty.setNodes before).SeriesInv := by
    constructor <;>
      simp [empty, World.init, Reconciler.setNodes, Reconciler.withPolicy, Backed, ReplicaGauges.new,
        ServiceUpdateMetrics.new, GaugeVec.new]
  obtain ⟨r₁, hreturns₁, wired₁, hinv₁, hcustom₁, hexact₁⟩ :=
    Reconciler.applyServices_exact (r := empty.setNodes before) (wired.of_eq rfl rfl) inv₁ rfl hlisted
  obtain ⟨applied, happlied, rfl⟩ :=
    Reconciler.applyServices_setNodes wired hlisted.replicas hreturns₁
  -- The second order: an empty cache has nothing to recount.
  obtain ⟨reapplied, hreapplied, wired₂, -, hcustom₂, hexact₂⟩ :=
    Reconciler.applyServices_exact (r := empty.withNodes nodes [])
      (Reconciler.withNodes_wired wired nodes [])
      (Reconciler.withNodes_seriesInv inv (enumerates_empty_iff.2 rfl)) rfl (hlisted.perm hperm)
  refine ⟨applied, reapplied, happlied, ?_, ?_⟩
  · intro visit hvisit
    obtain rfl : visit = [] := enumerates_empty_iff.1 hvisit
    exact (bind_ok (Reconciler.applyNodes_ok wired nodes [])).trans hreapplied
  · intro visit hvisit
    have wiredApplied : applied.Wired := wired₁.of_eq rfl rfl
    refine ⟨_, Reconciler.applyNodes_ok wiredApplied nodes visit, ?_⟩
    have hexact : ((applied.setNodes before).withNodes nodes visit).Exact services nodes :=
      Reconciler.withNodes_exact wired₁ hinv₁ (by rwa [hcustom₁]) hexact₁ hvisit
    have hcustom : (applied.withNodes nodes visit).customLabels = reapplied.customLabels := by
      rw [hcustom₂]
      exact (Reconciler.foldl_recounted_customLabels nodes _ visit _).trans hcustom₁
    exact hexact.agrees (hexact₂.perm hperm) (Reconciler.withNodes_wired wiredApplied nodes visit)
      wired₂ hcustom

/-- Whether `write` returns from `r` with a result that passes `check`. -/
def Write.leaves (write : Write) (r : Reconciler) (check : Reconciler → Bool) : Bool :=
  match write r with
  | .ok _ r' => check r'
  | .error _ _ => false

theorem Write.check_of_leaves {write : Write} {r r' : Reconciler} {check : Reconciler → Bool}
    (h : write.leaves r check = true) (hok : write r = .ok () r') : check r' = true := by
  unfold leaves at h
  rwa [hok] at h

open Sample in
/-- A replicated and a global service, applied with no nodes and recounted from one. -/
theorem recount_agrees_reapply_sample : ∃ applied reapplied recounted,
    Reconciler.applyServices [replicated "a" "web" 2, everywhere "b" "agent"] []
      (World.init config).reconciler = .ok () applied ∧
    applied.metadata["b"]?.map (·.desiredReplicas) = some 0 ∧
    Reconciler.applyNodes [node] ["b", "a"] applied = .ok () recounted ∧
    recounted.metadata["b"]?.map (·.desiredReplicas) = some 1 ∧ recounted.Agrees reapplied := by
  have hlisted : WellListed config.custom [replicated "a" "web" 2, everywhere "b" "agent"] := by
    refine ⟨by decide, ?_, ?_⟩
    · rw [List.pairwise_pair]
      intro built built' hbuilt hbuilt'
      cases hbuilt
      cases hbuilt'
      decide +kernel
    · intro service hservice mode hmode
      rcases List.mem_cons.1 hservice with rfl | hservice
      · cases hmode
        rfl
      · obtain rfl := List.mem_singleton.1 hservice
        cases hmode
  obtain ⟨applied, reapplied, happlied, -, hrecount⟩ :=
    recount_agrees_reapply config hlisted (List.Perm.refl _) [] [node]
  have hcheck : (Reconciler.applyServices [replicated "a" "web" 2, everywhere "b" "agent"] []: Write).leaves
      (World.init config).reconciler (fun applied => decide (Enumerates ["b", "a"] applied.metadata ∧
        applied.metadata["b"]?.map (·.desiredReplicas) = some 0) &&
        Write.leaves (Reconciler.applyNodes [node] ["b", "a"]) applied fun recounted =>
          decide (recounted.metadata["b"]?.map (·.desiredReplicas) = some 1)) = true := by
    decide +kernel
  obtain ⟨hbefore, hafter⟩ := Bool.and_eq_true_iff.1 (Write.check_of_leaves hcheck happlied)
  obtain ⟨hvisit, hzero⟩ := of_decide_eq_true hbefore
  obtain ⟨recounted, hrecounted, hagrees⟩ := hrecount _ hvisit
  have hone := of_decide_eq_true (Write.check_of_leaves hafter hrecounted)
  exact ⟨applied, reapplied, recounted, happlied, hzero, hrecounted, hone, hagrees⟩

end SwarmExporter
