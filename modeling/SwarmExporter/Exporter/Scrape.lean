import SwarmExporter.Collector.ContainerSeries
import SwarmExporter.Exporter.Steps
import SwarmExporter.Exposition
import SwarmExporter.Reconciler.NodeCounts
import SwarmExporter.Reconciler.Staleness

/-!
# The scrape of a running exporter

A scrape may come at any time. In every state of a run the families about the cluster are written
well-formed: no family, series or label comes twice, every label name is valid and in its place, and the
text does not depend on the order of any `HashMap` (`scrape_well_formed`). The gauges with labels have only
series of cached services (`SeriesInv`), and the published sets are what a builder made (`Shaped`).
-/

namespace SwarmExporter

open Lib
open Docker (Node)

/-! ## Proper descriptors -/

namespace CustomLabels.Accepted

variable {custom : CustomLabels}

theorem nodup_state_append (accepted : custom.Accepted) :
    (labelState :: (baseLabelNames ++ custom.sanitizedNames)).Nodup := by
  refine List.nodup_cons.2 ⟨fun hmem => ?_, nodup_base_append accepted⟩
  rcases List.mem_append.1 hmem with hbase | hcustom
  · exact absurd hbase (by decide)
  · exact accepted.ne_state hcustom rfl

theorem proper_of_perm (accepted : custom.Accepted) {desc : Desc}
    (h : desc.labelNames.Perm (baseLabelNames ++ custom.sanitizedNames)) : desc.Proper :=
  ⟨h.nodup_iff.2 (nodup_base_append accepted),
    fun name hname => valid_base_append accepted name (h.mem_iff.1 hname)⟩

theorem proper_state_of_perm (accepted : custom.Accepted) {desc : Desc}
    (h : desc.labelNames.Perm (labelState :: (baseLabelNames ++ custom.sanitizedNames))) :
    desc.Proper := by
  refine ⟨h.nodup_iff.2 (nodup_state_append accepted), fun name hname => ?_⟩
  rcases List.mem_cons.1 (h.mem_iff.1 hname) with rfl | hname
  · decide +kernel
  · exact valid_base_append accepted name hname

end CustomLabels.Accepted

/-! ## The published sets are in shape -/

def ReplicasState.descs (families : ReplicasState) : List Desc :=
  [families.stateDesc, families.runningDesc, families.atDesiredDesc]

theorem ReplicasState.build_shaped {families : ReplicasState} (hapart : Apart families.descs)
    (counters : ServiceCounter) (visit : List String) :
    Shaped families.descs (families.build counters visit).families := by
  rw [build_eq]
  refine SnapshotBuilder.foldl_setEntry_shaped hapart (shaped_empty _) fun entry hentry => ?_
  obtain ⟨counter, -, hentry⟩ := List.mem_flatMap.1 hentry
  unfold series at hentry
  unfold descs
  rcases List.mem_append.1 hentry with hentry | hentry
  · obtain ⟨state, -, rfl⟩ := List.mem_map.1 hentry
    simp
  · rcases List.mem_cons.1 hentry with rfl | hentry
    · simp
    · obtain rfl := List.mem_singleton.1 hentry
      simp

theorem NodesByState.build_shaped (family : NodesByState) (nodes : List Node) :
    Shaped [family.desc] (family.build nodes).families := by
  rw [build_eq]
  refine SnapshotBuilder.foldl_setEntry_shaped (apart_singleton _) (shaped_empty _) ?_
  intro entry' hentry'
  obtain ⟨counts, -, rfl⟩ := List.mem_map.1 hentry'
  exact List.mem_singleton.2 rfl

theorem ContainersState.build_shaped (desc : Desc) (rows : List ContainerRow) :
    Shaped [desc] (buildContainersState desc rows).families := by
  unfold buildContainersState
  refine List.foldlRecOn (motive := fun builder : SnapshotBuilder => Shaped [desc] builder.families) rows
    (buildRow desc) (shaped_empty _) fun builder hbuilder row _ => ?_
  unfold buildRow
  exact List.foldlRecOn (motive := fun builder : SnapshotBuilder => Shaped [desc] builder.families) _ _
    hbuilder fun builder hbuilder state _ =>
      SnapshotBuilder.set_shaped (apart_singleton _) hbuilder (List.mem_singleton.2 rfl) _ _

theorem SnapshotBuilder.families_of_build {builder : SnapshotBuilder} {families : Map String BuiltFamily}
    (h : builder.build = .ok families) : families = builder.families := by
  unfold build at h
  split at h
  · cases h
  · exact (Except.ok.inj h).symm

/-! ## The gauges with labels -/

/-- A family whose series are those of cached services has a value for every label in each. -/
theorem Backed.length_eq {metadata : Map String ServiceMetadata} {children : Map (List String) Gauge}
    {of : ServiceMetadata → List String → Gauge → Prop} {length : Nat} (h : Backed metadata children of)
    (hof : ∀ cached key value, of cached key value → key.length = length) :
    ∀ values ∈ children, values.length = length := by
  intro values hvalues
  obtain ⟨value, hvalue⟩ := mem_iff_getElem?.1 hvalues
  obtain ⟨id, cached, -, hkey⟩ := h values value hvalue
  exact hof cached values value hkey

theorem length_identityKey (desc : Desc) (metadata : ServiceMetadata) :
    (identityKey desc metadata).length = desc.labelNames.length := List.length_map _

/-- **The gauges with labels are written well-formed.** -/
theorem Reconciler.gauges_wellFormed [HostText] {r : Reconciler} (families : r.Families)
    (inv : r.SeriesInv) : ∀ vec ∈ [r.replicaGauges.desired, r.replicaGauges.schedulable,
      r.serviceUpdate.state, r.serviceUpdate.started, r.serviceUpdate.completed],
    WellFormed [vec.desc] vec.encode := by
  have accepted := families.accepted
  have hreplicas := replicaGauges_labelNames accepted
  simp only [List.forall_mem_cons]
  refine ⟨?_, ?_, ?_, ?_, ?_, fun vec hvec => by cases hvec⟩
  · refine GaugeVec.encode_wellFormed ?_ (inv.desired.length_eq ?_)
    · rw [families.desired]
      exact accepted.proper_of_perm (List.Perm.of_eq hreplicas.1)
    · rintro cached _ _ ⟨rfl, -⟩
      exact length_identityKey _ _
  · refine GaugeVec.encode_wellFormed ?_ (inv.schedulable.length_eq ?_)
    · rw [families.schedulable]
      exact accepted.proper_of_perm (List.Perm.of_eq hreplicas.2)
    · rintro cached _ _ ⟨rfl, -⟩
      exact length_identityKey _ _
  · refine GaugeVec.encode_wellFormed ?_ (inv.state.length_eq ?_)
    · rw [families.updateState]
      exact accepted.proper_state_of_perm (List.perm_append_singleton _ _)
    · rintro cached _ _ ⟨state, rfl⟩
      exact List.length_map _
  · refine GaugeVec.encode_wellFormed ?_ (inv.started.length_eq ?_)
    · rw [families.updateStarted]
      exact accepted.proper_of_perm (List.Perm.refl _)
    · rintro cached _ _ rfl
      exact length_identityKey _ _
  · refine GaugeVec.encode_wellFormed ?_ (inv.completed.length_eq ?_)
    · rw [families.updateCompleted]
      exact accepted.proper_of_perm (List.Perm.refl _)
    · rintro cached _ _ rfl
      exact length_identityKey _ _

theorem Reconciler.Families.replicas_proper {r : Reconciler} (families : r.Families) :
    ∀ desc ∈ r.replicasState.descs, desc.Proper := by
  obtain ⟨hstate, hrunning, hatDesired⟩ := replicasState_labelNames families.accepted
  unfold ReplicasState.descs
  rw [families.taskState, families.running, families.atDesired]
  simp only [List.forall_mem_cons]
  refine ⟨?_, ?_, ?_, fun desc hdesc => by cases hdesc⟩
  · refine families.accepted.proper_state_of_perm ?_
    rw [hstate, List.append_assoc]
    exact List.perm_middle
  · exact families.accepted.proper_of_perm (List.Perm.of_eq hrunning)
  · exact families.accepted.proper_of_perm (List.Perm.of_eq hatDesired)

theorem NodesByState.desc_proper : ∀ desc ∈ [NodesByState.new.desc], desc.Proper := by
  intro desc hdesc
  obtain rfl := List.mem_singleton.1 hdesc
  exact ⟨by decide, by decide +kernel⟩

theorem ContainersState.desc_proper : ∀ desc ∈ [containerStateDesc], desc.Proper := by
  intro desc hdesc
  obtain rfl := List.mem_singleton.1 hdesc
  constructor
  · rw [containerStateDesc_labelNames]
    decide
  · rw [containerStateDesc_labelNames]
    exact fun name => isValidLabelName_of_container

section Reachable

variable [HostText] {config : Config} {trace : List (Step World Action)} {w : World}

/-- What the polls publish is in shape in every reachable world. -/
theorem World.Runs.replicasState_shaped (h : Runs config trace w) :
    ∀ families, w.reconciler.replicasState.current = some families →
      Shaped w.reconciler.replicasState.descs families := by
  refine Run.history (fun _ w => ∀ families, w.reconciler.replicasState.current = some families →
    Shaped w.reconciler.replicasState.descs families) ?_ ?_ h
  · intro families hnone
    cases hnone
  · intro trace w action w' hrun hshaped hstep families hfamilies
    cases happlied : isApplied ⟨w, action, w'⟩ with
    | false =>
      have hsame := (step_unpublished (Runs.wired hrun) hstep happlied).replicasState
      rw [hsame] at hfamilies ⊢
      exact hshaped families hfamilies
    | true =>
      obtain ⟨snapshot, counters, timestamp, visit, hact, hbuilds⟩ := exists_of_isApplied happlied
      obtain rfl : action = .applyPollCounts snapshot counters timestamp visit := hact
      obtain ⟨built, hbuilt, hcurrent⟩ := (applied_step hstep hbuilds).1.built
      rw [hcurrent] at hfamilies
      obtain rfl := Option.some.inj hfamilies
      rw [SnapshotBuilder.families_of_build hbuilt]
      refine ReplicasState.build_shaped ?_ _ _
      have hfamilies := (step_wired (Runs.wired hrun) hstep).families
      unfold ReplicasState.descs Apart
      rw [hfamilies.taskState, hfamilies.running, hfamilies.atDesired]
      show ["swarm_task_replicas_state", "swarm_service_running_replicas",
        "swarm_service_at_desired"].Nodup
      decide

theorem World.Runs.nodesByState_shaped (h : Runs config trace w) :
    ∀ families, w.reconciler.nodesByState.current = some families →
      Shaped [NodesByState.new.desc] families := by
  intro families hfamilies
  rw [SnapshotBuilder.families_of_build ((Runs.showsNodes h).built families hfamilies)]
  exact NodesByState.build_shaped _ _

end Reachable

namespace Exporter

/-- The sets in the order in which the `HashMap`s of their builds handed them over. -/
structure Orders where
  replicas : Option (List BuiltFamily)
  nodes : Option (List BuiltFamily)
  containers : Option (List BuiltFamily)

/-- The published container set, when there is one. -/
def containerSet (e : Exporter) : Option (Map String BuiltFamily) := e.poller.containers.bind (·.current)

structure Orders.Of (orders : Orders) (e : Exporter) : Prop where
  replicas : HandsOver e.system.world.reconciler.replicasState.current orders.replicas
  nodes : HandsOver e.system.world.reconciler.nodesByState.current orders.nodes
  containers : HandsOver e.containerSet orders.containers

/-- The families about the cluster, in the order of their registration. -/
def scrape (e : Exporter) (orders : Orders) : List EncodedFamily :=
  let r := e.system.world.reconciler
  [r.replicaGauges.desired.encode, r.replicaGauges.schedulable.encode,
    encodePublished orders.replicas, encodePublished orders.nodes, r.serviceUpdate.state.encode,
    r.serviceUpdate.started.encode, r.serviceUpdate.completed.encode,
    encodePublished orders.containers].flatten

/-- Their descriptors, in the same order. -/
def descs (e : Exporter) : List Desc :=
  let r := e.system.world.reconciler
  [[r.replicaGauges.desired.desc], [r.replicaGauges.schedulable.desc], r.replicasState.descs,
    [NodesByState.new.desc], [r.serviceUpdate.state.desc], [r.serviceUpdate.started.desc],
    [r.serviceUpdate.completed.desc], [containerStateDesc]].flatten

section Runs

variable [HostText] {settings : Settings} {trace : List (Step Exporter ExporterAction)} {e : Exporter}

/-- The descriptors have distinct names in every state of a run. -/
theorem Runs.descs_apart (h : Runs settings trace e) : Apart e.descs := by
  obtain ⟨worldTrace, hworld⟩ := h.world
  have families := (World.Runs.wired hworld).families
  simp only [Apart, descs, ReplicasState.descs, families.desired, families.schedulable,
    families.taskState, families.running, families.atDesired, families.updateState,
    families.updateStarted, families.updateCompleted]
  show ["swarm_service_desired_replicas", "swarm_service_schedulable_replicas",
    "swarm_task_replicas_state", "swarm_service_running_replicas", "swarm_service_at_desired",
    "swarm_cluster_nodes_by_state", "swarm_service_update_state_info",
    "swarm_service_update_started_timestamp_seconds",
    "swarm_service_update_completed_timestamp_seconds", "swarm_container_state"].Nodup
  decide

/-- The container set is in shape in every state of a run. -/
theorem Runs.containerSet_shaped (h : Runs settings trace e) :
    ∀ families, e.containerSet = some families → Shaped [containerStateDesc] families := by
  have hstate : ∀ containers, e.poller.containers = some containers →
      containers.desc = containerStateDesc ∧
        ∀ families, containers.current = some families → Shaped [containerStateDesc] families := by
    refine h.invariant (fun e => ∀ containers, e.poller.containers = some containers →
      containers.desc = containerStateDesc ∧
        ∀ families, containers.current = some families → Shaped [containerStateDesc] families) ?_ ?_
    · intro containers hcontainers
      simp only [init] at hcontainers
      split at hcontainers
      · cases hcontainers
        exact ⟨rfl, fun families hnone => by cases hnone⟩
      · cases hcontainers
    · intro e action e' hinv hstep
      cases action with
      | system action =>
        obtain ⟨system, -, -, rfl⟩ := step_system hstep
        exact hinv
      | poller action =>
        obtain ⟨poller, calls, world, hmoves, -, rfl⟩ := step_poller hstep
        cases hmoves with
        | @publishes containers listed outside rows _ hcontainers =>
          intro updated hupdated
          cases hupdated
          obtain ⟨hdesc, hshaped⟩ := hinv containers hcontainers
          unfold ContainersState.update
          split
          · exact ⟨hdesc, hshaped⟩
          · split
            · rename_i built hbuilt
              refine ⟨hdesc, fun families hfamilies => ?_⟩
              cases hfamilies
              rw [SnapshotBuilder.families_of_build hbuilt, hdesc]
              exact ContainersState.build_shaped _ _
            · exact ⟨hdesc, hshaped⟩
        | begins =>
          unfold Poller.pollOnce
          split <;> exact hinv
        | _ => exact hinv
  intro families hfamilies
  obtain ⟨containers, hcontainers, hcurrent⟩ := Option.bind_eq_some_iff.1 hfamilies
  exact (hstate containers hcontainers).2 families hcurrent

/-- **Every scrape is well-formed.** In every state of a run, whatever the order the `HashMap`s of the
last builds had, no family about the cluster is written twice, each has series, no series is written twice,
and the labels of every series are those of the descriptor of its family, which has its name alone, valid,
distinct and in name order; another order gives the same text. -/
theorem scrape_well_formed {orders orders' : Orders} (h : Runs settings trace e)
    (horders : orders.Of e) (horders' : orders'.Of e) :
    WellFormed e.descs (e.scrape orders) ∧ Apart e.descs ∧ e.scrape orders = e.scrape orders' := by
  obtain ⟨worldTrace, hworld⟩ := h.world
  have families := (World.Runs.wired hworld).families
  have inv := World.Runs.seriesInv hworld
  have hreplicas := World.Runs.replicasState_shaped hworld
  have hnodes := World.Runs.nodesByState_shaped hworld
  have hcontainers := h.containerSet_shaped
  refine ⟨?_, h.descs_apart, ?_⟩
  · have hgauges := Reconciler.gauges_wellFormed families inv
    simp only [List.forall_mem_cons] at hgauges
    obtain ⟨hdesired, hschedulable, hstate, hstarted, hcompleted, -⟩ := hgauges
    have htasks := encodePublished_wellFormed families.replicas_proper hreplicas horders.replicas
    have hcluster := encodePublished_wellFormed NodesByState.desc_proper hnodes horders.nodes
    have hcontainer :=
      encodePublished_wellFormed ContainersState.desc_proper hcontainers horders.containers
    apply wellFormed_flatten _ h.descs_apart
    exact .cons hdesired (.cons hschedulable (.cons htasks (.cons hcluster (.cons hstate
      (.cons hstarted (.cons hcompleted (.cons hcontainer .nil)))))))
  · unfold scrape
    simp only [encodePublished_perm hreplicas horders.replicas horders'.replicas,
      encodePublished_perm hnodes horders.nodes horders'.nodes,
      encodePublished_perm hcontainers horders.containers horders'.containers]

end Runs

/-- The sets in the order of their names. -/
def Orders.byName (e : Exporter) : Orders :=
  let listed (current : Option (Map String BuiltFamily)) := current.map fun families =>
    families.toList.map Prod.snd
  { replicas := listed e.system.world.reconciler.replicasState.current
    nodes := listed e.system.world.reconciler.nodesByState.current
    containers := listed e.containerSet }

theorem Orders.byName_of (e : Exporter) : (Orders.byName e).Of e := by
  have hlisted : ∀ current : Option (Map String BuiltFamily),
      HandsOver current (current.map fun families => families.toList.map Prod.snd) := by
    intro current
    cases current with
    | none => trivial
    | some families => exact List.Perm.refl _
  exact ⟨hlisted _, hlisted _, hlisted _⟩

open Sample in
/-- After the first poll of one service. -/
theorem scrape_well_formed_sample : ∃ trace e, Runs settings trace e ∧
    e.system.world.reconciler.replicasState.current.isSome = true ∧
    e.system.world.reconciler.nodesByState.current.isSome = true ∧
    WellFormed e.descs (e.scrape (Orders.byName e)) := by
  have hreplay : (replay step (init settings) (firstResync ++ .poller .ready :: emptyPoll)).any
      (fun result => result.2.system.world.reconciler.replicasState.current.isSome &&
        result.2.system.world.reconciler.nodesByState.current.isSome) = true := by
    decide +kernel
  obtain ⟨trace, e, hrun, -, hcheck⟩ := exists_run_of_replay hreplay
  obtain ⟨hreplicas, hnodes⟩ := Bool.and_eq_true_iff.1 hcheck
  have horders := Orders.byName_of e
  exact ⟨trace, e, hrun, hreplicas, hnodes, (scrape_well_formed hrun horders horders).1⟩

end Exporter

end SwarmExporter
