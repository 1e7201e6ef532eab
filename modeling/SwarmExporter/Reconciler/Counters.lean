import SwarmExporter.Reconciler.Steps

/-!
# The resync counters

`resyncRequested` counts the calls of `requestResync`, the one of the start included; a completed pass
moves `resyncCompleted` to the number of requests raised before it read its target. Steps touch the
counters in two ways only (`step_resync`): they raise requests (`Raises`), or they complete a pass.
-/

namespace SwarmExporter

open Lib
open Docker (CallError Event Node Service)

/-- What the health check reads of the lock, and the epoch. -/
structure Resyncs where
  requested : Nat
  completed : Nat
  since : Option Timestamp
  epoch : Nat
  deriving DecidableEq

namespace State

/-- The resync counters of the state. -/
def resyncs (state : State) : Resyncs :=
  ⟨state.resyncRequested, state.resyncCompleted, state.resyncOutstandingSince, state.epoch⟩

@[simp] theorem resyncs_bumpServiceGeneration (state : State) (id : String) (cached : Option Bool) :
    (state.bumpServiceGeneration id cached).resyncs = state.resyncs := rfl

@[simp] theorem resyncs_pruneServiceGenerations (state : State) :
    state.pruneServiceGenerations.resyncs = state.resyncs := rfl

@[simp] theorem resyncs_overflow (state : State) (timestamp : Timestamp) :
    (state.overflow timestamp).resyncs = (state.requestResync timestamp).resyncs := rfl

@[simp] theorem resyncs_forgetService (state : State) (id : String) :
    (state.forgetService id).resyncs = state.resyncs := by
  unfold forgetService
  split <;> rfl

@[simp] theorem resyncs_takeDueKeys (state : State) (now : Instant) :
    (state.takeDueKeys now).2.resyncs = state.resyncs := by
  unfold takeDueKeys
  split <;> rfl

theorem requestResync_congr {state state' : State} (h : state.resyncs = state'.resyncs)
    (timestamp : Timestamp) :
    (state.requestResync timestamp).resyncs = (state'.requestResync timestamp).resyncs := by
  simp only [resyncs, Resyncs.mk.injEq] at h
  obtain ⟨hrequested, hcompleted, hsince, hepoch⟩ := h
  simp [resyncs, requestResync, hrequested, hcompleted, hsince, hepoch]

theorem completeResync_congr {state state' : State} (h : state.resyncs = state'.resyncs)
    (target : Nat) (passStart : Timestamp) :
    (state.completeResync target passStart).resyncs =
      (state'.completeResync target passStart).resyncs := by
  simp only [resyncs, Resyncs.mk.injEq] at h
  obtain ⟨hrequested, hcompleted, hsince, hepoch⟩ := h
  simp [resyncs, completeResync, hrequested, hcompleted, hepoch]

theorem resyncs_queueKey (state : State) (id : String) (pending : PendingKey)
    (timestamp : Timestamp) :
    (state.queueKey id pending timestamp).resyncs = state.resyncs ∨
      (state.queueKey id pending timestamp).resyncs = (state.requestResync timestamp).resyncs := by
  unfold queueKey
  split
  · exact .inr rfl
  · exact .inl rfl

theorem resyncs_markServiceDirty (state : State) (id : String) (now : Instant)
    (timestamp : Timestamp) :
    (state.markServiceDirty id now timestamp).resyncs = state.resyncs ∨
      (state.markServiceDirty id now timestamp).resyncs =
        (state.requestResync timestamp).resyncs := by
  unfold markServiceDirty
  simp only
  split
  · exact .inl rfl
  · rcases resyncs_queueKey (state.bumpServiceGeneration id none) id ⟨0, now⟩ timestamp with h | h
    · exact .inl h
    · exact .inr (h.trans (requestResync_congr rfl timestamp))

theorem resyncs_retryService (state : State) (delays : List Duration) (key : DueKey) (now : Instant)
    (timestamp : Timestamp) :
    (state.retryService delays key now timestamp).resyncs = state.resyncs ∨
      (state.retryService delays key now timestamp).resyncs =
        (state.requestResync timestamp).resyncs := by
  unfold retryService
  split
  · exact .inl rfl
  · split
    · exact .inr rfl
    · exact resyncs_queueKey state _ _ timestamp

theorem resyncs_enqueueEvent (state : State) (event : Event) (now : Instant) (timestamp : Timestamp) :
    (state.enqueueEvent event now timestamp).resyncs = state.resyncs ∨
      (state.enqueueEvent event now timestamp).resyncs =
        (state.requestResync timestamp).resyncs := by
  unfold enqueueEvent
  split
  · exact .inl rfl
  · split
    · exact .inl rfl
    · split
      · exact resyncs_markServiceDirty state _ now timestamp
      · exact .inl rfl

end State

/-! ## Raising requests -/

/-- From `before` to `after` only requests were raised, each with a clock reading that satisfies
`reads`: the first of them after a completed one starts the outstanding time. -/
structure Raises (reads : Timestamp → Prop) (before after : Resyncs) : Prop where
  completed : after.completed = before.completed
  requested : before.requested ≤ after.requested
  epoch : after.epoch + before.requested = before.epoch + after.requested
  same : after.requested = before.requested → after.since = before.since
  kept : before.requested ≠ before.completed → after.since = before.since
  started : before.requested = before.completed → before.requested < after.requested →
    ∃ timestamp, reads timestamp ∧ after.since = some timestamp

namespace Raises

variable {reads : Timestamp → Prop} {before middle after : Resyncs}

theorem refl (reads : Timestamp → Prop) (before : Resyncs) : Raises reads before before :=
  ⟨rfl, le_rfl, rfl, fun _ => rfl, fun _ => rfl, fun _ h => (lt_irrefl _ h).elim⟩

theorem request {state : State} {timestamp : Timestamp} (h : reads timestamp) :
    Raises reads state.resyncs (state.requestResync timestamp).resyncs := by
  refine ⟨rfl, Nat.le_succ _, ?_, fun heq => ?_, fun hne => ?_, fun heq _ => ⟨timestamp, h, ?_⟩⟩
  · show state.epoch + 1 + state.resyncRequested = state.epoch + (state.resyncRequested + 1)
    omega
  · exact absurd heq (Nat.succ_ne_self _)
  · exact if_neg hne
  · exact if_pos heq

theorem trans (hcounted : before.completed ≤ before.requested) (h : Raises reads before middle)
    (h' : Raises reads middle after) : Raises reads before after := by
  obtain ⟨hcompleted, hrequested, hepoch, hsame, hkept, hstarted⟩ := h
  obtain ⟨hcompleted', hrequested', hepoch', hsame', hkept', hstarted'⟩ := h'
  refine ⟨hcompleted'.trans hcompleted, hrequested.trans hrequested', by omega, ?_, ?_, ?_⟩
  · intro heq
    rw [hsame' (by omega), hsame (by omega)]
  · intro hne
    rw [hkept' (by omega), hkept hne]
  · intro heq hlt
    by_cases hfirst : before.requested < middle.requested
    · obtain ⟨timestamp, hreads, hsince⟩ := hstarted heq hfirst
      exact ⟨timestamp, hreads, (hkept' (by omega)).trans hsince⟩
    · obtain ⟨timestamp, hreads, hsince⟩ := hstarted' (by omega) (by omega)
      exact ⟨timestamp, hreads, hsince⟩

theorem counted (h : Raises reads before after) (hcounted : before.completed ≤ before.requested) :
    after.completed ≤ after.requested := by
  rw [h.completed]
  exact hcounted.trans h.requested

end Raises

/-! ## Operations and steps -/

/-- The clock reading an operation takes to the lock. -/
def Op.stamp : Op → Option Timestamp
  | .enqueueEvent _ _ timestamp => some timestamp
  | .markServiceDirty _ _ timestamp => some timestamp
  | .requestResync timestamp => some timestamp
  | .retryService _ _ timestamp => some timestamp
  | _ => none

def Op.completes : Op → Bool
  | .completeResync .. => true
  | _ => false

/-- An operation on the caches, that leaves the queue, the clock readings and the resync counters
alone. -/
def Op.isPlain : Op → Bool
  | .applyNodes .. => true
  | .applyService _ => true
  | .removeService _ => true
  | .pruneServiceGenerations => true
  | .setNodesDirty dirty => dirty
  | _ => false

theorem Op.plain {op : Op} (h : op.isPlain = true) : op.completes = false ∧ op.stamp = none := by
  cases op <;> first | exact ⟨rfl, rfl⟩ | cases h

theorem Op.completes_of_isBookkeep {op : Op} (h : op.isBookkeep = true) :
    op.completes = false ∧ op.stamp = none := by
  cases op <;> first | exact ⟨rfl, rfl⟩ | cases h

namespace Reconciler

variable [HostText] {r r' : Reconciler}

/-- The counters, the ready flag and the success time of a reconciler. -/
def SameSuccess (r r' : Reconciler) : Prop :=
  r'.ready = r.ready ∧ r'.metrics.timestamps.resyncSuccess = r.metrics.timestamps.resyncSuccess

/-- An operation other than the completion of a pass raises one request at most. -/
theorem perform_resyncs {op : Op} (h : perform r op = some r') (hop : op.completes = false) :
    (r'.state.resyncs = r.state.resyncs ∨
      ∃ timestamp, op.stamp = some timestamp ∧
        r'.state.resyncs = (r.state.requestResync timestamp).resyncs) ∧ SameSuccess r r' := by
  have hcases : ∀ {after : Resyncs} {timestamp : Timestamp}, op.stamp = some timestamp →
      (after = r.state.resyncs ∨ after = (r.state.requestResync timestamp).resyncs) →
      after = r.state.resyncs ∨ ∃ timestamp, op.stamp = some timestamp ∧
        after = (r.state.requestResync timestamp).resyncs := by
    rintro after timestamp hts (h | h)
    · exact .inl h
    · exact .inr ⟨timestamp, hts, h⟩
  cases op with
  | enqueueEvent event now timestamp =>
    cases h
    unfold enqueueEvent
    split
    · exact ⟨.inl rfl, rfl, rfl⟩
    · exact ⟨hcases rfl (State.resyncs_enqueueEvent _ _ _ _), rfl, rfl⟩
  | markServiceDirty id now timestamp =>
    cases h
    exact ⟨hcases rfl (State.resyncs_markServiceDirty _ _ _ _), rfl, rfl⟩
  | requestResync timestamp =>
    cases h
    exact ⟨hcases rfl (.inr rfl), rfl, rfl⟩
  | retryService key now timestamp =>
    cases h
    exact ⟨hcases rfl (State.resyncs_retryService _ _ _ _ _), rfl, rfl⟩
  | takeDueKeys now =>
    cases h
    exact ⟨.inl (State.resyncs_takeDueKeys _ _), rfl, rfl⟩
  | applyNodes nodes visit =>
    simp only [perform, Option.ite_none_right_eq_some, Option.some.injEq] at h
    obtain ⟨-, rfl⟩ := h
    obtain ⟨hstate, hready, hmetrics, -⟩ := withNodes_frame r nodes visit
    exact ⟨.inl (by rw [hstate]; rfl), hready, by rw [hmetrics]⟩
  | applyService service =>
    simp only [perform] at h
    split at h
    · rename_i metadata _
      cases h
      obtain ⟨hready, hmetrics, -⟩ := withService_frame r service r.nodes metadata
      exact ⟨.inl rfl, hready, by rw [hmetrics]⟩
    · cases h
  | removeService id =>
    cases h
    obtain ⟨hstate, hready, hmetrics, -⟩ := removeService_frame r id
    exact ⟨.inl (by rw [hstate, State.resyncs_forgetService]), hready, by rw [hmetrics]⟩
  | completeResync => cases hop
  | _ =>
    cases h
    exact ⟨.inl rfl, rfl, rfl⟩

omit [HostText] in
/-- The readings of `op`, if it is no bookkeeping; bookkeeping has none. -/
theorem kind_of_essential {ops : List Op} {reads : Timestamp → Prop}
    (hops : ∀ op ∈ essential ops, op.completes = false ∧
      ∀ timestamp, op.stamp = some timestamp → reads timestamp) {op : Op} (hop : op ∈ ops) :
    op.completes = false ∧ ∀ timestamp, op.stamp = some timestamp → reads timestamp := by
  refine forall_of_essential (fun op hbook => ?_) hops op hop
  obtain ⟨hcompletes, hstamp⟩ := Op.completes_of_isBookkeep hbook
  refine ⟨hcompletes, fun timestamp h => ?_⟩
  rw [hstamp] at h
  cases h

theorem performs_raises {ops : List Op} {reads : Timestamp → Prop} (h : Performs r ops r')
    (hcounted : r.state.resyncs.completed ≤ r.state.resyncs.requested)
    (hops : ∀ op ∈ essential ops, op.completes = false ∧
      ∀ timestamp, op.stamp = some timestamp → reads timestamp) :
    Raises reads r.state.resyncs r'.state.resyncs ∧ SameSuccess r r' := by
  refine h.induct (fun current => Raises reads r.state.resyncs current.state.resyncs ∧
    SameSuccess r current) ⟨.refl reads _, rfl, rfl⟩ ?_
  rintro op hop current next ⟨hraises, hready, hsuccess⟩ hperform
  obtain ⟨hcompletes, hstamp⟩ := kind_of_essential hops hop
  obtain ⟨hsame | ⟨timestamp, hts, hrequest⟩, hready', hsuccess'⟩ :=
    perform_resyncs hperform hcompletes
  · exact ⟨hsame ▸ hraises, hready'.trans hready, hsuccess'.trans hsuccess⟩
  · rw [hrequest]
    exact ⟨hraises.trans hcounted (.request (hstamp timestamp hts)), hready'.trans hready,
      hsuccess'.trans hsuccess⟩

/-- Operations without a clock reading raise no request. -/
theorem performs_resyncs {ops : List Op} (h : Performs r ops r')
    (hops : ∀ op ∈ essential ops, op.completes = false ∧ op.stamp = none) :
    r'.state.resyncs = r.state.resyncs := by
  refine h.induct (fun current => current.state.resyncs = r.state.resyncs) rfl ?_
  intro op hop current next hcurrent hperform
  have hkind : ∀ op ∈ essential ops, op.completes = false ∧
      ∀ timestamp, op.stamp = some timestamp → False := fun op hop =>
    ⟨(hops op hop).1, fun timestamp hts => by simp [(hops op hop).2] at hts⟩
  obtain ⟨hcompletes, hstamp⟩ := kind_of_essential hkind hop
  obtain ⟨hsame | ⟨timestamp, hts, -⟩, -⟩ := perform_resyncs hperform hcompletes
  · exact hsame.trans hcurrent
  · exact (hstamp timestamp hts).elim

end Reconciler

/-- The clock reading of an action. -/
def Action.stamp : Action → Option Timestamp
  | .enqueueEvent _ _ timestamp => some timestamp
  | .requestResync timestamp => some timestamp
  | .applyPollCounts _ _ timestamp _ => some timestamp
  | .markPollOk _ timestamp => some timestamp
  | .beginCycle timestamp => some timestamp
  | .nodesListed _ _ timestamp => some timestamp
  | .checkResync passStart => some passStart
  | .resyncNodesListed _ _ _ _ timestamp => some timestamp
  | .inspected _ timestamp => some timestamp
  | .stepPanics timestamp => some timestamp
  | _ => none

namespace World

variable [HostText] {w w' : World} {action : Action}

theorem step_reads (h : w.step action = some w') {timestamp : Timestamp}
    (hstamp : action.stamp = some timestamp) : w.Reads timestamp := by
  cases action with
  | enqueueEvent event now reading =>
    cases hstamp
    simp only [step, Option.ite_none_right_eq_some] at h
    exact h.1.2
  | requestResync reading =>
    cases hstamp
    simp only [step, Option.ite_none_right_eq_some] at h
    exact h.1
  | applyPollCounts snapshot counters reading visit =>
    cases hstamp
    simp only [step, Option.ite_none_right_eq_some] at h
    exact h.1.2.2.2.1
  | markPollOk snapshot reading =>
    cases hstamp
    simp only [step, Option.ite_none_right_eq_some] at h
    exact h.1.2
  | beginCycle reading =>
    cases hstamp
    simp only [step, cycleStep] at h
    split at h
    · simp only [Option.ite_none_right_eq_some] at h
      exact h.1.2
    · cases h
  | nodesListed listed visit reading =>
    cases hstamp
    simp only [step, cycleStep] at h
    split at h
    · simp only [Option.ite_none_right_eq_some] at h
      exact h.1.2
    · cases h
  | checkResync reading =>
    cases hstamp
    simp only [step, cycleStep] at h
    split at h
    · simp only [Option.ite_none_right_eq_some] at h
      exact h.1
    · cases h
  | resyncNodesListed listed visit ids fault reading =>
    cases hstamp
    simp only [step, cycleStep] at h
    split at h
    · simp only [Option.ite_none_right_eq_some] at h
      exact h.1.2.2
    · cases h
  | inspected result reading =>
    cases hstamp
    simp only [step, cycleStep] at h
    split at h
    · simp only [Option.ite_none_right_eq_some] at h
      exact h.1
    · cases h
  | stepPanics reading =>
    cases hstamp
    simp only [step, cycleStep, Option.ite_none_right_eq_some] at h
    exact h.1
  | _ => cases hstamp

omit [HostText] in
theorem isPlain_of_mem_resyncOps {services : List Service} {nodes : List Node}
    {visit ids : List String} {op : Op} (h : op ∈ Reconciler.resyncOps services nodes visit ids) :
    op.isPlain = true := by
  simp only [Reconciler.resyncOps, List.mem_append, List.mem_cons, List.mem_map,
    List.not_mem_nil] at h
  rcases h with ((rfl | ⟨service, -, rfl⟩) | ⟨id, -, rfl⟩) | rfl | h
  · rfl
  · rfl
  · rfl
  · rfl
  · exact h.elim

/-- What an operation of a step tells about its action: its clock reading is the action's, only a
resync that was not cut short completes one, only a poller records its success, keys are taken and the
node flag is cleared where the cycle says so, and only a poll publishes. -/
structure MadeBy (w : World) (action : Action) (ops : List Op) (op : Op) : Prop where
  stamp : ∀ timestamp, op.stamp = some timestamp → action.stamp = some timestamp
  completes : op.completes = true → ∃ pass services nodes visit ids timestamp,
    w.phase = .resyncNodesListing pass services ∧
      action = .resyncNodesListed (.ok nodes) visit ids none timestamp ∧
      ops = Reconciler.resyncOps services nodes visit ids ++
        [.completeResync pass.target pass.passStart w.instant timestamp]
  marks : ∀ timestamp, op = .markPollOk timestamp → ∃ snapshot, action = .markPollOk snapshot timestamp
  takes : ∀ now, op = .takeDueKeys now → action = .takeDueKeys
  clears : op = .setNodesDirty false → action = .checkNodes
  publishes : ∀ built counters rejections, op = .publish built counters rejections →
    ∃ snapshot counted timestamp visit, action = .applyPollCounts snapshot counted timestamp visit

omit [HostText] in
theorem MadeBy.of_plain {ops : List Op} {op : Op} (h : op.isPlain = true) :
    MadeBy w action ops op where
  stamp timestamp hstamp := by simp [(Op.plain h).2] at hstamp
  completes hcompletes := by simp [(Op.plain h).1] at hcompletes
  marks timestamp hop := by
    subst hop
    cases h
  takes now hop := by
    subst hop
    cases h
  clears hop := by
    subst hop
    cases h
  publishes built counters rejections hop := by
    subst hop
    cases h

omit [HostText] in
/-- An operation that takes the action's clock reading to the lock. -/
theorem MadeBy.of_stamp {ops : List Op} {op : Op} {timestamp : Timestamp}
    (hstamp : op.stamp = some timestamp) (haction : action.stamp = some timestamp) :
    MadeBy w action ops op where
  stamp other h := haction.trans (hstamp.symm.trans h)
  completes h := by cases op <;> simp_all [Op.stamp, Op.completes]
  marks other h := by simp [h, Op.stamp] at hstamp
  takes now h := by simp [h, Op.stamp] at hstamp
  clears h := by simp [h, Op.stamp] at hstamp
  publishes built counters rejections h := by simp [h, Op.stamp] at hstamp

omit [HostText] in
theorem makes_madeBy {ops : List Op} (hmakes : w.Makes ops action) {op : Op} (hop : op ∈ ops) :
    MadeBy w action ops op := by
  cases action with
  | enqueueEvent event now reading =>
    obtain rfl := List.mem_singleton.1 (hmakes ▸ hop)
    exact .of_stamp rfl rfl
  | requestResync reading =>
    obtain rfl := List.mem_singleton.1 (hmakes ▸ hop)
    exact .of_stamp rfl rfl
  | applyPollCounts snapshot counters reading visit =>
    obtain ⟨published, rfl, hpublished⟩ := hmakes
    rcases List.mem_append.1 hop with hop | hop
    · obtain ⟨id, -, rfl⟩ := List.mem_map.1 hop
      exact .of_stamp rfl rfl
    · obtain ⟨_, _, _, rfl⟩ := hpublished op hop
      exact ⟨fun _ h => (by cases h), fun h => (by cases h), fun _ h => (by cases h),
        fun _ h => (by cases h), fun h => (by cases h),
        fun _ _ _ _ => ⟨snapshot, counters, reading, visit, rfl⟩⟩
  | markPollOk snapshot reading =>
    obtain rfl := List.mem_singleton.1 (hmakes ▸ hop)
    refine ⟨fun _ h => (by cases h), fun h => (by cases h), fun timestamp h => ⟨snapshot, ?_⟩,
      fun _ h => (by cases h), fun h => (by cases h), fun _ _ _ h => (by cases h)⟩
    cases h
    rfl
  | beginCycle reading =>
    rcases hmakes with rfl | rfl
    · cases hop
    · obtain rfl := List.mem_singleton.1 hop
      exact .of_stamp rfl rfl
  | checkNodes =>
    rcases hmakes with rfl | rfl
    · cases hop
    · obtain rfl := List.mem_singleton.1 hop
      exact ⟨fun _ h => (by cases h), fun h => (by cases h), fun _ h => (by cases h),
        fun _ h => (by cases h), fun _ => rfl, fun _ _ _ h => (by cases h)⟩
  | nodesListed listed visit reading =>
    cases listed with
    | ok nodes =>
      obtain rfl := List.mem_singleton.1 (hmakes ▸ hop)
      exact .of_plain rfl
    | error error =>
      obtain rfl := List.mem_singleton.1 (hmakes ▸ hop)
      exact .of_plain rfl
  | resyncNodesListed listed visit ids fault reading =>
    cases listed with
    | error error =>
      obtain rfl : ops = [] := hmakes
      cases hop
    | ok nodes =>
      obtain ⟨pass, services, hphase, ⟨rfl, rfl⟩ | ⟨done, hpre, rfl⟩⟩ := hmakes
      · rcases List.mem_append.1 hop with hmem | hmem
        · exact MadeBy.of_plain (isPlain_of_mem_resyncOps hmem)
        · obtain rfl := List.mem_singleton.1 hmem
          refine ⟨fun _ h => (by cases h), fun _ => ?_, fun _ h => (by cases h),
            fun _ h => (by cases h), fun h => (by cases h), fun _ _ _ h => (by cases h)⟩
          exact ⟨pass, services, nodes, visit, ids, reading, hphase, rfl, rfl⟩
      · rcases List.mem_append.1 hop with hmem | hmem
        · exact MadeBy.of_plain (isPlain_of_mem_resyncOps (hpre.subset hmem))
        · obtain rfl := List.mem_singleton.1 hmem
          exact .of_stamp rfl rfl
  | takeDueKeys =>
    obtain ⟨now, -, rfl⟩ := hmakes
    obtain rfl := List.mem_singleton.1 hop
    exact ⟨fun _ h => (by cases h), fun h => (by cases h), fun _ h => (by cases h), fun _ _ => rfl,
      fun h => (by cases h), fun _ _ _ h => (by cases h)⟩
  | inspected result reading =>
    cases result with
    | ok service =>
      rcases hmakes with rfl | rfl
      · obtain rfl := List.mem_singleton.1 hop
        exact .of_plain rfl
      · obtain rfl := List.mem_singleton.1 hop
        exact .of_stamp rfl rfl
    | error error =>
      obtain ⟨key, keys, -, rfl⟩ := hmakes
      obtain rfl := List.mem_singleton.1 hop
      split
      · exact .of_plain rfl
      · exact .of_stamp rfl rfl
  | stepPanics reading =>
    obtain rfl := List.mem_singleton.1 (hmakes ▸ hop)
    exact .of_stamp rfl rfl
  | _ =>
    obtain rfl : ops = [] := hmakes
    cases hop

/-- The step that completes a pass. -/
def Completes (w : World) (action : Action) (w' : World) : Prop :=
  ∃ pass services nodes visit ids timestamp, w.phase = .resyncNodesListing pass services ∧
    action = .resyncNodesListed (.ok nodes) visit ids none timestamp ∧ w.Reads timestamp ∧
    (∃ ops, Reconciler.Performs w.reconciler ops w'.reconciler ∧
      essential ops = Reconciler.resyncOps services nodes visit ids ++
        [.completeResync pass.target pass.passStart w.instant timestamp]) ∧
    w'.reconciler.state.resyncs =
      (w.reconciler.state.completeResync pass.target pass.passStart).resyncs ∧
    w'.reconciler.ready = true ∧
    w'.reconciler.metrics.timestamps.resyncSuccess = unixNanos timestamp

/-- A step that makes the operations of a pass to its end completes it. -/
theorem completes_of_ops {ops : List Op} {pass : Pass} {services : List Service} {nodes : List Node}
    {visit ids : List String} {timestamp : Timestamp}
    (hphase : w.phase = .resyncNodesListing pass services)
    (haction : action = .resyncNodesListed (.ok nodes) visit ids none timestamp)
    (hreads : w.Reads timestamp) (hperforms : Reconciler.Performs w.reconciler ops w'.reconciler)
    (hops : essential ops = Reconciler.resyncOps services nodes visit ids ++
      [.completeResync pass.target pass.passStart w.instant timestamp]) : w.Completes action w' := by
  refine ⟨pass, services, nodes, visit, ids, timestamp, hphase, haction, hreads,
    ⟨ops, hperforms, hops⟩, ?_⟩
  obtain ⟨listed, before, after, hbefore, hresync, hafter, hcomplete⟩ :=
    hperforms.of_essential_append hops
  obtain ⟨kept, completed, book, rest, hbook, hnone, hperform, hrest, hdone⟩ :=
    hafter.of_essential_cons hcomplete
  have hlisted := Reconciler.performs_resyncs hbefore fun op hop =>
    Op.plain (isPlain_of_mem_resyncOps (hresync ▸ hop))
  obtain ⟨_, _, _, _, _, hkept⟩ := hbook.bookkept hnone
  obtain ⟨_, _, _, _, _, hlast⟩ := hrest.bookkept hdone
  simp only [Reconciler.perform, Option.some.injEq] at hkept hperform hlast
  refine ⟨?_, ?_, ?_⟩
  · rw [← hlast, ← hperform, ← hkept]
    exact State.completeResync_congr hlisted _ _
  · rw [← hlast, ← hperform]
    rfl
  · rw [← hlast, ← hperform]
    rfl

/-- **A step raises requests, or it completes a pass.** -/
theorem step_resync (wired : w.reconciler.Wired)
    (hcounted : w.reconciler.state.resyncCompleted ≤ w.reconciler.state.resyncRequested)
    (h : w.step action = some w') :
    Raises w.Reads w.reconciler.state.resyncs w'.reconciler.state.resyncs ∧
        Reconciler.SameSuccess w.reconciler w'.reconciler ∨
      w.Completes action w' := by
  obtain ⟨ops, hperforms, hmakes⟩ := step_ops wired h
  by_cases hnone : ∀ op ∈ essential ops, op.completes = false
  · refine .inl (Reconciler.performs_raises hperforms hcounted fun op hop => ⟨hnone op hop, ?_⟩)
    exact fun timestamp hstamp => step_reads h ((makes_madeBy hmakes hop).stamp timestamp hstamp)
  · simp only [not_forall, Bool.not_eq_false] at hnone
    obtain ⟨op, hop, hcompletes⟩ := hnone
    obtain ⟨pass, services, nodes, visit, ids, timestamp, hphase, rfl, hops⟩ :=
      (makes_madeBy hmakes hop).completes hcompletes
    exact .inr (completes_of_ops hphase rfl (step_reads h rfl) hperforms hops)

end World

end SwarmExporter
