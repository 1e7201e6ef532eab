import SwarmExporter.Collector.Published
import SwarmExporter.Reconciler.Generations
import SwarmExporter.Reconciler.Steps

/-!
# The published node counts

`swarm_cluster_nodes_by_state` is rebuilt whole from every node list, so it agrees with the cached nodes
in every reachable world (`node_counts_exact`): a combination of role, availability and status has the
number of nodes that report it, and no series when none does. The build cannot fail, since every node
gives one value for each of the three names.
-/

namespace SwarmExporter

open Lib
open Docker (Node)

/-- The combination a node is counted under. -/
def nodeKey (node : Node) : List String := [node.spec.role, node.spec.availability, node.status.state]

namespace NodesByState

/-- The counts `build` sets the series from. -/
def counted (nodes : List Node) : Map (List String) Nat :=
  nodes.foldl (fun counts node => counts.insert (nodeKey node) (counts.getD (nodeKey node) 0 + 1)) ∅

theorem getElem?_counted (nodes : List Node) (key : List String) :
    (counted nodes)[key]? =
      if nodes.countP (nodeKey · = key) = 0 then none else some (nodes.countP (nodeKey · = key)) := by
  induction nodes using List.reverseRecOn with
  | nil => simp [counted]
  | append_singleton nodes node ih =>
    have hsnoc : counted (nodes ++ [node]) =
        (counted nodes).insert (nodeKey node) ((counted nodes).getD (nodeKey node) 0 + 1) := by
      simp [counted]
    rw [hsnoc, Std.ExtTreeMap.getElem?_insert, List.countP_append]
    by_cases hkey : nodeKey node = key
    · have hcount : (counted nodes).getD (nodeKey node) 0 = nodes.countP (nodeKey · = key) := by
        rw [Std.ExtTreeMap.getD_eq_getD_getElem?, hkey, ih]
        split
        · rename_i hzero
          rw [hzero, Option.getD_none]
        · rfl
      rw [hcount]
      simp [hkey]
    · simp [hkey, ih]

/-- The series of one combination. -/
def entry (desc : Desc) (counts : List String × Nat) : SeriesEntry :=
  ⟨desc, (["role", "availability", "status"].zip counts.1).foldl
    (fun out pair => out.insert pair.1 pair.2) ∅, counts.2⟩

theorem build_eq (family : NodesByState) (nodes : List Node) :
    family.build nodes =
      ((counted nodes).toList.map (entry family.desc)).foldl SnapshotBuilder.setEntry {} := by
  rw [List.foldl_map]
  unfold build
  refine List.foldl_ext _ _ _ fun builder counts _ => ?_
  simp only [SnapshotBuilder.setEntry, SnapshotBuilder.set, entry, foldl_insert_toList]

theorem entry_labels (desc : Desc) (role availability status : String) (count : Nat) :
    (entry desc ([role, availability, status], count)).labels =
      (((∅ : Labels).insert "role" role).insert "availability" availability).insert "status" status :=
  rfl

theorem entry_fits (role availability status : String) (count : Nat) :
    new.desc.Fits (entry new.desc ([role, availability, status], count)).labels := by
  refine ⟨show ["role", "availability", "status"].Nodup by decide, fun name => ?_⟩
  rw [entry_labels]
  show _ ↔ name ∈ ["role", "availability", "status"]
  simp only [Std.ExtTreeMap.mem_insert, Std.ExtTreeMap.not_mem_empty, or_false,
    Std.LawfulEqCmp.compare_eq_iff_eq, List.mem_cons, List.not_mem_nil]
  grind

theorem entry_values (role availability status : String) (count : Nat) :
    new.desc.values (entry new.desc ([role, availability, status], count)).labels =
      [role, availability, status] := by
  rw [entry_labels]
  simp [Desc.values, new, Std.ExtTreeMap.getElem?_insert]

/-- A combination that is counted is one of some node. -/
theorem exists_of_mem_counted {nodes : List Node} {key : List String} {count : Nat}
    (h : (key, count) ∈ (counted nodes).toList) :
    (∃ role availability status, key = [role, availability, status]) ∧
      nodes.countP (nodeKey · = key) ≠ 0 ∧ count = nodes.countP (nodeKey · = key) := by
  rw [Std.ExtTreeMap.mem_toList_iff_getElem?_eq_some, getElem?_counted] at h
  split at h
  · cases h
  · rename_i hcount
    obtain ⟨node, -, hnode⟩ := List.countP_pos_iff.1 (Nat.pos_of_ne_zero hcount)
    refine ⟨⟨_, _, _, (of_decide_eq_true hnode).symm⟩, hcount, (Option.some.inj h).symm⟩

/-- **The build succeeds and holds exactly the counts**, for the combinations some node has. -/
theorem build_exact (nodes : List Node) :
    ∃ built, (new.build nodes).build = .ok built ∧ ∀ name values,
      seriesValue built name values =
        if name = new.desc.name ∧ nodes.countP (nodeKey · = values) ≠ 0
        then some (nodes.countP (nodeKey · = values) : Gauge) else none := by
  have hentry : ∀ entry' ∈ (counted nodes).toList.map (entry new.desc),
      ∃ role availability status, entry' =
          entry new.desc ([role, availability, status],
            nodes.countP (nodeKey · = [role, availability, status])) ∧
        nodes.countP (nodeKey · = [role, availability, status]) ≠ 0 := by
    intro entry' hentry'
    obtain ⟨⟨key, count⟩, hmem, rfl⟩ := List.mem_map.1 hentry'
    obtain ⟨⟨role, availability, status, rfl⟩, hcount, rfl⟩ := exists_of_mem_counted hmem
    exact ⟨role, availability, status, rfl, hcount⟩
  have herror : (new.build nodes).error = none := by
    rw [build_eq]
    refine SnapshotBuilder.foldl_setEntry_error fun entry' hmem => ?_
    obtain ⟨role, availability, status, rfl, -⟩ := hentry entry' hmem
    exact entry_fits role availability status _
  refine ⟨(new.build nodes).families, by simp [SnapshotBuilder.build, herror], fun name values => ?_⟩
  rw [build_eq] at herror ⊢
  split
  · rename_i hseries
    obtain ⟨rfl, hcount⟩ := hseries
    obtain ⟨node, -, hnode⟩ := List.countP_pos_iff.1 (Nat.pos_of_ne_zero hcount)
    obtain rfl : nodeKey node = values := of_decide_eq_true hnode
    refine SnapshotBuilder.seriesValue_foldl_setEntry herror ?_ ?_
    · refine ⟨_, List.mem_map_of_mem (Std.ExtTreeMap.mem_toList_iff_getElem?_eq_some.2
        (show (counted nodes)[nodeKey node]? = some _ by rw [getElem?_counted, if_neg hcount])), rfl, ?_⟩
      exact (entry_values _ _ _ _).symm
    · rintro entry' hmem ⟨-, hvalues⟩
      obtain ⟨role, availability, status, rfl, -⟩ := hentry entry' hmem
      rw [hvalues.trans (entry_values role availability status _)]
      rfl
  · rename_i hseries
    rw [SnapshotBuilder.seriesValue_foldl_of_not_names herror]
    · simp [seriesValue]
    · rintro entry' hmem ⟨rfl, rfl⟩
      obtain ⟨role, availability, status, rfl, hcount⟩ := hentry entry' hmem
      rw [show (entry new.desc ([role, availability, status], _)).desc = new.desc from rfl,
        entry_values] at hseries
      exact hseries ⟨rfl, hcount⟩

end NodesByState

namespace Reconciler

variable [HostText] {r r' : Reconciler}

/-- The family shows the cached nodes; before the first node list there is nothing to show. -/
structure ShowsNodes (r : Reconciler) : Prop where
  desc : r.nodesByState.desc = NodesByState.new.desc
  unset : r.nodesByState.current = none → r.nodes = []
  built : ∀ families, r.nodesByState.current = some families →
    (NodesByState.new.build r.nodes).build = .ok families

omit [HostText] in
theorem ShowsNodes.of_eq (h : r.ShowsNodes)
    (heq : r'.nodesByState = r.nodesByState ∧ r'.nodes = r.nodes) : r'.ShowsNodes := by
  obtain ⟨hfamily, hnodes⟩ := heq
  obtain ⟨hdesc, hunset, hbuilt⟩ := h
  constructor <;> rw [hfamily]
  · exact hdesc
  · rw [hnodes]
    exact hunset
  · rw [hnodes]
    exact hbuilt

omit [HostText] in
/-- A new node list is shown whatever was before it. -/
theorem replaceNodes_showsNodes (h : r.ShowsNodes) (nodes : List Node) :
    (r.replaceNodes nodes).ShowsNodes := by
  have hsame : r.nodesByState.build nodes = NodesByState.new.build nodes := by
    unfold NodesByState.build
    rw [h.desc]
  obtain ⟨families, hfamilies, -⟩ := NodesByState.build_exact nodes
  have hupdate : r.nodesByState.updateFromSlice nodes =
      { r.nodesByState with current := some families } := by
    unfold NodesByState.updateFromSlice
    rw [hsame, hfamilies]
  refine ⟨?_, ?_, ?_⟩
  · rw [replaceNodes, hupdate]
    exact h.desc
  · rw [replaceNodes, hupdate]
    intro hnone
    cases hnone
  · rw [replaceNodes, hupdate]
    rintro _ ⟨⟩
    exact hfamilies

theorem foldl_recounted_nodesByState (nodes : List Node) (all : Map String ServiceMetadata)
    (visit : List String) (r : Reconciler) :
    (visit.foldl (recounted nodes all) r).nodesByState = r.nodesByState := by
  induction visit generalizing r with
  | nil => rfl
  | cons id visit ih =>
    rw [List.foldl_cons, ih]
    unfold recounted
    split <;> rfl

/-- **Every operation keeps the family in step with the cached nodes.** -/
theorem perform_showsNodes {op : Op} (h : r.ShowsNodes) (hperform : perform r op = some r') :
    r'.ShowsNodes := by
  cases op with
  | applyNodes nodes visit =>
    simp only [perform, Option.ite_none_right_eq_some, Option.some.injEq] at hperform
    obtain ⟨-, rfl⟩ := hperform
    exact (replaceNodes_showsNodes h nodes).of_eq
      ⟨foldl_recounted_nodesByState nodes r.metadata visit _,
        foldl_recounted_nodes nodes r.metadata visit _⟩
  | applyService service =>
    obtain ⟨metadata, -, rfl⟩ := perform_applyService hperform
    obtain ⟨gauges, update, hcleaned, -⟩ := deleteOldIdentity_eq r metadata service.id
    refine h.of_eq ⟨?_, withService_nodes ..⟩
    simp only [withService, hcleaned]
  | enqueueEvent event now timestamp =>
    cases hperform
    refine h.of_eq ?_
    unfold enqueueEvent
    split <;> exact ⟨rfl, rfl⟩
  | removeService id =>
    cases hperform
    refine h.of_eq ?_
    unfold removeService
    split <;> exact ⟨rfl, rfl⟩
  | _ =>
    cases hperform
    exact h.of_eq ⟨rfl, rfl⟩

end Reconciler

theorem World.Runs.showsNodes [HostText] {config : Config} {trace : List (Step World Action)}
    {w : World} (h : Runs config trace w) : w.reconciler.ShowsNodes :=
  h.invariant Reconciler.ShowsNodes
    ⟨rfl, fun _ => rfl, fun families hnone => by cases hnone⟩
    fun _ _ _ _ => Reconciler.perform_showsNodes

/-- **The node counts are exact.** In every reachable world, whatever lists failed or were cut short by a
panic before, the family holds for each combination of role, availability and status the number of cached
nodes that report it, no series for one that none reports, and no other series; with nothing published
yet, no node is cached. -/
theorem World.node_counts_exact [HostText] {config : Config} {w : World} (h : Reachable config w) :
    (w.reconciler.nodesByState.current = none → w.reconciler.nodes = []) ∧
    ∀ families, w.reconciler.nodesByState.current = some families → ∀ name values,
      seriesValue families name values =
        if name = "swarm_cluster_nodes_by_state" ∧
            w.reconciler.nodes.countP (nodeKey · = values) ≠ 0
        then some (w.reconciler.nodes.countP (nodeKey · = values) : Gauge) else none := by
  obtain ⟨trace, hrun⟩ := h
  have hshows := hrun.showsNodes
  refine ⟨hshows.unset, fun families hfamilies name values => ?_⟩
  obtain ⟨built, hbuilt, hexact⟩ := NodesByState.build_exact w.reconciler.nodes
  obtain rfl : families = built := by
    rw [hshows.built families hfamilies] at hbuilt
    exact Except.ok.inj hbuilt
  exact hexact name values

open Sample in
theorem World.node_counts_exact_sample : ∃ w families, Reachable config w ∧
    w.reconciler.nodesByState.current = some families ∧
    seriesValue families "swarm_cluster_nodes_by_state" ["manager", "active", "ready"] = some 1 := by
  have hreplay : (replay step (init config) (resyncCycle [] [] [])).any (fun result =>
      result.2.reconciler.nodesByState.current.isSome &&
        decide (result.2.reconciler.nodes = [node])) = true := by
    decide +kernel
  obtain ⟨trace, w, hrun, -, hcheck⟩ := exists_run_of_replay hreplay
  obtain ⟨hsome, hnodes⟩ := Bool.and_eq_true_iff.1 hcheck
  obtain ⟨families, hfamilies⟩ := Option.isSome_iff_exists.1 hsome
  refine ⟨w, families, ⟨trace, hrun⟩, hfamilies, ?_⟩
  rw [(node_counts_exact ⟨trace, hrun⟩).2 families hfamilies, of_decide_eq_true hnodes]
  rfl

end SwarmExporter
