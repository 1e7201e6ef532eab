import SwarmExporter.Reconciler.World
import SwarmExporter.Reconciler.Writes

/-!
# The operations a step is made of

A step of the world changes the reconciler by a few operations in a row, each of them one call of the
source that takes the lock or writes the caches. `perform` is the reconciler after one of them, and
`step_ops` says of every step of the world which operations it is a run of. An invariant of the
reconciler is then shown once per operation; a resync that panics halfway is a shorter run.
-/

namespace SwarmExporter

open Lib
open Docker (CallError Event Node Service)

/-- One call that changes the reconciler. -/
inductive Op where
  | enqueueEvent (event : Event) (now : Instant) (timestamp : Timestamp)
  | markServiceDirty (serviceId : String) (now : Instant) (timestamp : Timestamp)
  | requestResync (timestamp : Timestamp)
  | setNodesDirty (dirty : Bool)
  | takeDueKeys (now : Instant)
  | retryService (key : DueKey) (now : Instant) (timestamp : Timestamp)
  | applyNodes (nodes : List Node) (visit : List String)
  | applyService (service : Service)
  | removeService (serviceId : String)
  | pruneServiceGenerations
  | completeResync (target : Nat) (passStart : Timestamp) (now : Instant) (timestamp : Timestamp)
  | publish (built : Map String BuiltFamily) (published : ServiceCounter)
    (rejections : Map String Nat)
  | markPollOk (timestamp : Timestamp)
  /-- The counters of the metrics, and scheduling. -/
  | bookkeep (metrics : ExporterMetrics) (resyncNotBefore : Option Instant) (resyncBackoff : Duration)
    (nodesNotBefore : Option Instant) (nodesBackoff : Duration)

/-- Metrics and scheduling, which no decision about a service and no health check reads. -/
@[simp] def Op.isBookkeep : Op → Bool
  | .bookkeep .. => true
  | _ => false

/-- The operations that are not bookkeeping. -/
def essential (ops : List Op) : List Op := ops.filter (!·.isBookkeep)

@[simp] theorem essential_nil : essential [] = [] := rfl

@[simp] theorem essential_cons (op : Op) (ops : List Op) :
    essential (op :: ops) = if op.isBookkeep then essential ops else op :: essential ops := by
  cases h : op.isBookkeep <;> simp [essential, h, -Op.isBookkeep]

@[simp] theorem essential_append (ops ops' : List Op) :
    essential (ops ++ ops') = essential ops ++ essential ops' := List.filter_append _ _

theorem essential_eq_self {ops : List Op} (h : ∀ op ∈ ops, op.isBookkeep = false) :
    essential ops = ops :=
  List.filter_eq_self.2 fun op hop => by rw [h op hop, Bool.not_false]

/-- What holds of bookkeeping and of every other operation. -/
theorem forall_of_essential {ops : List Op} {P : Op → Prop} (hbook : ∀ op, op.isBookkeep = true → P op)
    (h : ∀ op ∈ essential ops, P op) : ∀ op ∈ ops, P op := by
  intro op hop
  by_cases hkind : op.isBookkeep = true
  · exact hbook op hkind
  · exact h op (List.mem_filter.2 ⟨hop, by simpa using hkind⟩)

theorem mem_of_mem_essential {op : Op} {ops : List Op} (h : op ∈ essential ops) : op ∈ ops :=
  List.mem_of_mem_filter h

namespace Reconciler

section Perform

variable [HostText]

/-- The reconciler after `op`. A call of `applyService` that panics is no operation: it changes
nothing. -/
def perform (r : Reconciler) : Op → Option Reconciler
  | .enqueueEvent event now timestamp => some (r.enqueueEvent event now timestamp)
  | .markServiceDirty id now timestamp => some (r.modifyState (·.markServiceDirty id now timestamp))
  | .requestResync timestamp => some (r.modifyState (·.requestResync timestamp))
  | .setNodesDirty dirty => some (r.modifyState ({ · with nodesDirty := dirty }))
  | .takeDueKeys now => some (r.modifyState fun state => (state.takeDueKeys now).2)
  | .retryService key now timestamp =>
    some (r.modifyState (·.retryService r.retryDelays key now timestamp))
  | .applyNodes nodes visit =>
    if Enumerates visit r.metadata then some (r.withNodes nodes visit) else none
  | .applyService service =>
    match buildMetadata service r.customLabels with
    | .ok metadata => some (r.withService service r.nodes metadata)
    | .error _ => none
  | .removeService id => some (r.removeService id)
  | .pruneServiceGenerations => some (r.modifyState (·.pruneServiceGenerations))
  | .completeResync target passStart now timestamp =>
    some (r.completeResync target passStart now timestamp)
  | .publish built published rejections =>
    some { r with
      replicasState := { r.replicasState with current := some built }
      lastPublished := published
      pollRejections := rejections }
  | .markPollOk timestamp =>
    some { r with
      metrics := { r.metrics with timestamps := r.metrics.timestamps.markPollOk timestamp } }
  | .bookkeep metrics resyncNotBefore resyncBackoff nodesNotBefore nodesBackoff =>
    some { r with
      metrics := { metrics with timestamps := r.metrics.timestamps }
      resyncNotBefore, resyncBackoff, nodesNotBefore, nodesBackoff }

/-- The bookkeeping that leads to `r`. -/
@[simp] def bookkeeping (r : Reconciler) : Op :=
  .bookkeep r.metrics r.resyncNotBefore r.resyncBackoff r.nodesNotBefore r.nodesBackoff

/-- `ops`, one after the other, lead from `r` to `r'`. -/
def Performs (r : Reconciler) (ops : List Op) (r' : Reconciler) : Prop :=
  ∃ trace, Run perform r trace r' ∧ trace.map (·.act) = ops

namespace Performs

variable {r r' r'' : Reconciler} {op : Op} {ops ops' : List Op}

theorem nil : Performs r [] r := ⟨[], .nil, rfl⟩

theorem single (h : perform r op = some r') : Performs r [op] r' := ⟨_, .single h, rfl⟩

theorem append (h : Performs r ops r') (h' : Performs r' ops' r'') :
    Performs r (ops ++ ops') r'' := by
  obtain ⟨trace, hrun, rfl⟩ := h
  obtain ⟨trace', hrun', rfl⟩ := h'
  exact ⟨_, hrun.append hrun', List.map_append⟩

theorem cons (h' : Performs r' ops r'') (h : perform r op = some r') : Performs r (op :: ops) r'' :=
  (single h).append h'

/-- What every operation keeps, a run of them keeps. -/
theorem invariant (inv : Reconciler → Prop) (hr : inv r)
    (hop : ∀ r op r', inv r → perform r op = some r' → inv r') (h : Performs r ops r') : inv r' := by
  obtain ⟨_, hrun, -⟩ := h
  exact hrun.invariant inv hr hop

/-- The same for a relation between the ends, over the operations that occur. -/
theorem induct (rel : Reconciler → Prop) (hr : rel r)
    (hop : ∀ op ∈ ops, ∀ r r', rel r → perform r op = some r' → rel r') (h : Performs r ops r') :
    rel r' := by
  obtain ⟨trace, hrun, rfl⟩ := h
  induction hrun with
  | nil => exact hr
  | snoc hrun hstep ih =>
    refine hop _ (by simp) _ _ (ih fun op hmem => hop op ?_) hstep
    rw [List.map_append]
    exact List.mem_append_left _ hmem

theorem eq_of_nil (h : Performs r [] r') : r = r' := by
  obtain ⟨trace, hrun, htrace⟩ := h
  obtain rfl := List.map_eq_nil_iff.1 htrace
  exact hrun.eq_of_nil

theorem of_append (h : Performs r (ops ++ ops') r'') :
    ∃ r', Performs r ops r' ∧ Performs r' ops' r'' := by
  obtain ⟨full, hrun, hfull⟩ := h
  obtain ⟨trace, trace', rfl, hops, hops'⟩ := List.map_eq_append_iff.1 hfull
  obtain ⟨r', hfirst, hsecond⟩ := hrun.of_append
  exact ⟨r', ⟨trace, hfirst, hops⟩, trace', hsecond, hops'⟩

theorem of_cons (h : Performs r (op :: ops) r'') :
    ∃ r', perform r op = some r' ∧ Performs r' ops r'' := by
  obtain ⟨r', ⟨trace, hrun, htrace⟩, hrest⟩ := of_append (show Performs r ([op] ++ ops) r'' from h)
  obtain ⟨st, rfl, hst⟩ := List.map_eq_singleton_iff.1 htrace
  obtain ⟨hnil, hstep, rfl⟩ := Run.of_snoc (show Run perform r ([] ++ [st]) r' from hrun)
  obtain rfl := hnil.eq_of_nil
  exact ⟨st.post, hst ▸ hstep, hrest⟩

/-- The part of a run whose operations, bookkeeping apart, are the first ones. -/
theorem of_essential_append {first second : List Op} (h : Performs r ops r'')
    (hops : essential ops = first ++ second) :
    ∃ r' before after, Performs r before r' ∧ essential before = first ∧
      Performs r' after r'' ∧ essential after = second := by
  obtain ⟨before, after, rfl, hfirst, hsecond⟩ := List.filter_eq_append_iff.1 hops
  obtain ⟨r', hbefore, hafter⟩ := of_append h
  exact ⟨r', before, after, hbefore, hfirst, hafter, hsecond⟩

/-- The first operation of a run that is no bookkeeping. -/
theorem of_essential_cons {rest : List Op} (h : Performs r ops r'')
    (hops : essential ops = op :: rest) :
    ∃ before middle book after, Performs r book before ∧ essential book = [] ∧
      perform before op = some middle ∧ Performs middle after r'' ∧ essential after = rest := by
  obtain ⟨book, after, rfl, hbook, -, hrest⟩ := List.filter_eq_cons_iff.1 hops
  obtain ⟨before, hbefore, hafter⟩ := of_append h
  obtain ⟨middle, hop, hafter⟩ := of_cons hafter
  exact ⟨before, middle, book, after, hbefore, List.filter_eq_nil_iff.2 hbook, hop, hafter, hrest⟩

/-- Bookkeeping changes the counters of the metrics and the scheduling only. -/
theorem bookkept (h : Performs r ops r') (hops : essential ops = []) :
    ∃ metrics resyncNotBefore resyncBackoff nodesNotBefore nodesBackoff,
      perform r (.bookkeep metrics resyncNotBefore resyncBackoff nodesNotBefore nodesBackoff) =
        some r' := by
  refine h.induct (fun current => ∃ metrics resyncNotBefore resyncBackoff nodesNotBefore nodesBackoff,
      perform r (.bookkeep metrics resyncNotBefore resyncBackoff nodesNotBefore nodesBackoff) =
        some current)
    ⟨r.metrics, r.resyncNotBefore, r.resyncBackoff, r.nodesNotBefore, r.nodesBackoff, rfl⟩ ?_
  rintro op hop current next ⟨metrics, _, _, _, _, hcurrent⟩ hnext
  cases op with
  | bookkeep metrics' notBefore backoff nodesNotBefore nodesBackoff =>
    cases hcurrent
    cases hnext
    exact ⟨_, _, _, _, _, rfl⟩
  | _ => exact absurd rfl (List.filter_eq_nil_iff.1 hops _ hop)

end Performs

/-! ## The wiring survives every operation -/

omit [HostText] in
/-- A reconciler that differs in what `Wired` does not read. -/
theorem Wired.of_eq {r r' : Reconciler} (wired : r.Wired)
    (h : (r'.customLabels, r'.replicaGauges, r'.serviceUpdate, r'.metadata) =
      (r.customLabels, r.replicaGauges, r.serviceUpdate, r.metadata))
    (hreplicas : { r'.replicasState with current := none } =
      { r.replicasState with current := none }) : r'.Wired := by
  obtain ⟨⟨haccepted, hdesired, hschedulable, hstate, hstarted, hcompleted, htask, hrunning,
    hatDesired⟩, hlabelled⟩ := wired
  simp only [Prod.mk.injEq] at h
  simp only [ReplicasState.mk.injEq] at hreplicas
  obtain ⟨hcustom, hgauges, hupdate, hmetadata⟩ := h
  obtain ⟨htask', hrunning', hatDesired', -⟩ := hreplicas
  constructor
  · constructor <;> simp only [hcustom, hgauges, hupdate, htask', hrunning', hatDesired'] <;>
      assumption
  · rw [hcustom, hmetadata]
    exact hlabelled

theorem perform_wired {r r' : Reconciler} {op : Op} (wired : r.Wired)
    (h : perform r op = some r') : r'.Wired := by
  cases op with
  | applyNodes nodes visit =>
    simp only [perform, Option.ite_none_right_eq_some, Option.some.injEq] at h
    obtain ⟨-, rfl⟩ := h
    exact withNodes_wired wired nodes visit
  | applyService service =>
    simp only [perform] at h
    split at h
    · rename_i metadata hmetadata
      cases h
      exact withService_wired wired (labelled_of_buildMetadata hmetadata) _
    · cases h
  | removeService id =>
    cases h
    exact removeService_wired wired id
  | enqueueEvent event now timestamp =>
    cases h
    unfold enqueueEvent
    split <;> exact wired.of_eq rfl rfl
  | _ =>
    cases h
    exact wired.of_eq rfl rfl

theorem foldl_recounted_customLabels (nodes : List Node) (all : Map String ServiceMetadata)
    (visit : List String) (r : Reconciler) :
    (visit.foldl (recounted nodes all) r).customLabels = r.customLabels := by
  induction visit generalizing r with
  | nil => rfl
  | cons id visit ih => rw [List.foldl_cons, ih, recounted_customLabels]

/-- The custom labels never change. -/
theorem perform_customLabels {r r' : Reconciler} {op : Op} (h : perform r op = some r') :
    r'.customLabels = r.customLabels := by
  cases op with
  | applyNodes nodes visit =>
    simp only [perform, Option.ite_none_right_eq_some, Option.some.injEq] at h
    obtain ⟨-, rfl⟩ := h
    exact foldl_recounted_customLabels nodes r.metadata visit (r.replaceNodes nodes)
  | applyService service =>
    simp only [perform] at h
    split at h
    · rename_i metadata _
      cases h
      obtain ⟨_, _, hcleaned, -⟩ := deleteOldIdentity_eq r metadata service.id
      simp only [withService, hcleaned]
    · cases h
  | removeService id =>
    cases h
    unfold removeService
    split <;> rfl
  | enqueueEvent event now timestamp =>
    cases h
    unfold enqueueEvent
    split <;> rfl
  | _ =>
    cases h
    rfl

/-! ## The calls of a resync -/

/-- The operations of a resync that is not cut short, but for its completion. -/
def resyncOps (services : List Service) (nodes : List Node) (visit ids : List String) : List Op :=
  .applyNodes nodes visit :: services.map .applyService ++
    (ids.filter fun id => id ∉ services.map (·.id)).map .removeService ++ [.pruneServiceGenerations]

omit [HostText] in
theorem isBookkeep_of_mem_resyncOps {services : List Service} {nodes : List Node}
    {visit ids : List String} {op : Op} (h : op ∈ resyncOps services nodes visit ids) :
    op.isBookkeep = false := by
  simp only [resyncOps, List.mem_append, List.mem_cons, List.mem_map, List.not_mem_nil] at h
  rcases h with ((rfl | ⟨service, -, rfl⟩) | ⟨id, -, rfl⟩) | rfl | h
  · rfl
  · rfl
  · rfl
  · rfl
  · exact h.elim

/-- `write` performs `op` where `inv` holds, or panics and changes nothing. -/
def Simulates (inv : Reconciler → Prop) (write : Write) (op : Op) : Prop :=
  ∀ r, inv r → (∃ r', write r = .ok () r' ∧ perform r op = some r' ∧ inv r') ∨
    ∃ panic, write r = .error panic r

/-- A list of writes performs its operations in order, up to the first panic. -/
theorem forM_simulates {inv : Reconciler → Prop} {writes : List Write} {ops : List Op}
    (h : List.Forall₂ (Simulates inv) writes ops) {r : Reconciler} (hr : inv r) :
    match (forM writes id : Write) r with
    | .ok _ r' => Performs r ops r' ∧ inv r'
    | .error _ r' => ∃ done, done <+: ops ∧ Performs r done r' := by
  induction h generalizing r with
  | nil => exact ⟨.nil, hr⟩
  | @cons write op writes ops hwrite hrest ih =>
    rw [List.forM_cons]
    rcases hwrite r hr with ⟨r', hok, hperform, hr'⟩ | ⟨panic, herror⟩
    · have hbind : (id write >>= fun _ => forM writes id) r = (forM writes id : Write) r' := bind_ok hok
      rw [hbind]
      have hrest := ih hr'
      revert hrest
      cases (forM writes id : Write) r' with
      | ok _ last => exact fun hrest => ⟨hrest.1.cons hperform, hrest.2⟩
      | error _ last =>
        rintro ⟨done, hpre, hdone⟩
        exact ⟨op :: done, List.cons_prefix_cons.2 ⟨rfl, hpre⟩, hdone.cons hperform⟩
    · have hbind : (id write >>= fun _ => forM writes id) r = .error panic r := bind_error herror
      rw [hbind]
      exact ⟨[], List.nil_prefix, .nil⟩

/-- Being wired, with the node list of the pass. -/
def Listed (nodes : List Node) (r : Reconciler) : Prop := r.Wired ∧ r.nodes = nodes

omit [HostText] in
theorem removeService_nodes (r : Reconciler) (id : String) : (r.removeService id).nodes = r.nodes := by
  unfold removeService
  split <;> rfl

theorem simulates_applyService (service : Service) (nodes : List Node) :
    Simulates (Listed nodes) (applyService service nodes) (.applyService service) := by
  rintro r ⟨wired, rfl⟩
  cases hmetadata : buildMetadata service r.customLabels with
  | error panic => exact .inr ⟨panic, applyService_panic hmetadata _⟩
  | ok metadata =>
    refine .inl ⟨_, applyService_ok wired hmetadata _, by simp [perform, hmetadata],
      withService_wired wired (labelled_of_buildMetadata hmetadata) _, withService_nodes _ _ _ _⟩

theorem simulates_removeService (nodes : List Node) (id : String) :
    Simulates (Listed nodes) (modify (·.removeService id)) (.removeService id) := by
  rintro r ⟨wired, rfl⟩
  exact .inl ⟨_, rfl, rfl, removeService_wired wired id, removeService_nodes r id⟩

theorem simulates_prune (nodes : List Node) :
    Simulates (Listed nodes) (modify (·.modifyState (·.pruneServiceGenerations)))
      .pruneServiceGenerations := by
  rintro r ⟨wired, rfl⟩
  exact .inl ⟨_, rfl, rfl, wired.of_eq rfl rfl, rfl⟩

@[simp] theorem recounted_nodes (nodes : List Node) (all : Map String ServiceMetadata)
    (r : Reconciler) (id : String) : (recounted nodes all r id).nodes = r.nodes := by
  unfold recounted
  split <;> rfl

theorem foldl_recounted_nodes (nodes : List Node) (all : Map String ServiceMetadata)
    (visit : List String) (r : Reconciler) : (visit.foldl (recounted nodes all) r).nodes = r.nodes := by
  induction visit generalizing r with
  | nil => rfl
  | cons id visit ih => rw [List.foldl_cons, ih, recounted_nodes]

@[simp] theorem withNodes_nodes (r : Reconciler) (nodes : List Node) (visit : List String) :
    (r.withNodes nodes visit).nodes = nodes :=
  foldl_recounted_nodes nodes r.metadata visit (r.replaceNodes nodes)

/-- The calls after the node list, and their operations. -/
theorem forall₂_calls (services : List Service) (nodes : List Node) (ids : List String) :
    List.Forall₂ (Simulates (Listed nodes))
      (services.map (applyService · nodes) ++
        (ids.map fun id => modify (·.removeService id)) ++
          [modify (·.modifyState (·.pruneServiceGenerations))])
      (services.map .applyService ++ ids.map .removeService ++ [.pruneServiceGenerations]) := by
  refine List.rel_append (List.rel_append ?_ ?_) (.cons (simulates_prune nodes) .nil)
  · rw [List.forall₂_map_left_iff, List.forall₂_map_right_iff, List.forall₂_same]
    exact fun service _ => simulates_applyService service nodes
  · rw [List.forall₂_map_left_iff, List.forall₂_map_right_iff, List.forall₂_same]
    exact fun id _ => simulates_removeService nodes id

/-- The first `count` calls of a resync. -/
theorem forM_take_ops {r : Reconciler} (wired : r.Wired) {visit : List String}
    (hvisit : Enumerates visit r.metadata) (services : List Service) (nodes : List Node)
    (ids : List String) (count : Nat) :
    match (forM ((resyncCalls services nodes visit ids).take count) id : Write) r with
    | .ok _ r' => Performs r ((resyncOps services nodes visit ids).take count) r'
    | .error _ r' => ∃ done, done <+: resyncOps services nodes visit ids ∧ Performs r done r' := by
  cases count with
  | zero => exact .nil
  | succ count =>
    have hnodes := applyNodes_ok wired nodes visit
    have hperform : perform r (.applyNodes nodes visit) = some (r.withNodes nodes visit) := by
      simp [perform, hvisit]
    have hcalls := forM_simulates
      (List.forall₂_take count (forall₂_calls services nodes (ids.filter fun id =>
        id ∉ services.map (·.id)))) (r := r.withNodes nodes visit)
      ⟨withNodes_wired wired nodes visit, withNodes_nodes r nodes visit⟩
    unfold resyncCalls resyncOps
    simp only [List.cons_append, List.take_succ_cons, List.forM_cons]
    rw [show (id (applyNodes nodes visit) >>= fun _ => _) r = _ from bind_ok hnodes]
    generalize (forM (List.take count _) id : Write) (r.withNodes nodes visit) = result at hcalls ⊢
    cases result with
    | ok _ r' => exact hcalls.1.cons hperform
    | error _ r' =>
      obtain ⟨done, hpre, hdone⟩ := hcalls
      exact ⟨_, List.cons_prefix_cons.2 ⟨rfl, hpre.trans (List.take_prefix _ _)⟩,
        hdone.cons hperform⟩

/-- **What a resync writes is a run of its operations, and of the first few of them when it
panics.** -/
theorem applyLists_ops {r : Reconciler} (wired : r.Wired) {visit : List String}
    (hvisit : Enumerates visit r.metadata) (services : List Service) (nodes : List Node)
    (ids : List String) (fault : Option Nat) :
    match applyLists services nodes visit ids fault r with
    | .ok _ r' => fault = none ∧ Performs r (resyncOps services nodes visit ids) r'
    | .error _ r' => ∃ done, done <+: resyncOps services nodes visit ids ∧ Performs r done r' := by
  cases fault with
  | none =>
    have hcalls := forM_take_ops wired hvisit services nodes ids
      (resyncCalls services nodes visit ids).length
    have hlength : (resyncOps services nodes visit ids).length =
        (resyncCalls services nodes visit ids).length := by
      simp [resyncOps, resyncCalls]
    rw [List.take_length, ← hlength, List.take_length] at hcalls
    simp only [applyLists]
    generalize (forM (resyncCalls services nodes visit ids) id : Write) r = result at hcalls ⊢
    cases result with
    | ok _ r' => exact ⟨trivial, hcalls⟩
    | error _ r' => exact hcalls
  | some count =>
    have hcalls := forM_take_ops wired hvisit services nodes ids count
    simp only [applyLists]
    cases hrun : (forM ((resyncCalls services nodes visit ids).take count) id : Write) r with
    | ok _ r' =>
      rw [hrun] at hcalls
      rw [bind_ok hrun]
      exact ⟨_, List.take_prefix _ _, hcalls⟩
    | error panic r' =>
      rw [hrun] at hcalls
      rw [bind_error hrun]
      exact hcalls

end Perform

end Reconciler

end SwarmExporter
