import SwarmExporter.Reconciler.Judging

/-!
# The operations of every step

`World.Makes` lists, for each action, the operations its step consists of, bookkeeping apart;
`step_ops` is the proof. With it an invariant of the reconciler needs one argument per operation
(`reachable_induct`), and what happened to a service between two states can be read off the actions
in between.
-/

namespace SwarmExporter

open Lib
open Docker (CallError Event Node Service)

/-- The steps of the reconciler's cycle, as against those of the event side and the pollers. -/
def Action.isCycle : Action → Bool
  | .tick .. => false
  | .cancel => false
  | .enqueueEvent .. => false
  | .requestResync .. => false
  | .buildPollSnapshot => false
  | .applyPollCounts .. => false
  | .markPollOk .. => false
  | _ => true

namespace World

open Reconciler (Performs perform resyncOps)

/-- `ops` are the operations `action` makes from `w`. -/
def Makes (w : World) (ops : List Op) : Action → Prop
  | .enqueueEvent event now timestamp => ops = [.enqueueEvent event now timestamp]
  | .requestResync timestamp => ops = [.requestResync timestamp]
  | .applyPollCounts snapshot _ timestamp _ =>
    ∃ published, ops =
      (snapshot.serviceIds.filter (w.reconciler.drops snapshot)).map
        (.markServiceDirty · w.instant timestamp) ++ published ∧
      ∀ op ∈ published, ∃ built counters rejections, op = .publish built counters rejections
  | .beginCycle timestamp => ops = [] ∨ ops = [.requestResync timestamp]
  | .checkNodes => ops = [] ∨ ops = [.setNodesDirty false]
  | .nodesListed (.ok nodes) visit _ => ops = [.applyNodes nodes visit]
  | .nodesListed (.error _) _ _ => ops = [.setNodesDirty true]
  | .resyncNodesListed (.ok nodes) visit ids fault timestamp =>
    ∃ pass services, w.phase = .resyncNodesListing pass services ∧
      (fault = none ∧ ops = resyncOps services nodes visit ids ++
          [.completeResync pass.target pass.passStart w.instant timestamp] ∨
        ∃ done, done <+: resyncOps services nodes visit ids ∧
          ops = done ++ [.requestResync timestamp])
  | .takeDueKeys => ∃ now, w.phase = .keysCheck now ∧ ops = [.takeDueKeys now]
  | .inspected (.ok service) timestamp =>
    ops = [.applyService service] ∨ ops = [.requestResync timestamp]
  | .inspected (.error error) timestamp =>
    ∃ key keys, w.phase = .inspecting key keys ∧
      ops = [if error.source.isNotFound then .removeService key.serviceId
        else .retryService key w.instant timestamp]
  | .stepPanics timestamp => ops = [.requestResync timestamp]
  | .markPollOk _ timestamp => ops = [.markPollOk timestamp]
  | _ => ops = []

variable [HostText]

theorem bookkeeping_ops {r r' : Reconciler} (h : perform r r'.bookkeeping = some r') :
    ∃ ops, Performs r ops r' ∧ essential ops = [] :=
  ⟨[r'.bookkeeping], .single h, rfl⟩

/-- The operations of a recovered panic. -/
theorem afterPanic_ops (r : Reconciler) (resyncStep : Bool) (now : Instant) (timestamp : Timestamp) :
    ∃ ops, Performs r ops (r.afterPanic resyncStep now timestamp) ∧
      essential ops = [.requestResync timestamp] := by
  let counted : Reconciler :=
    if resyncStep then
      { r with metrics := { r.metrics with resyncFailures := r.metrics.resyncFailures + 1 } }
    else r
  let requested := counted.modifyState (·.requestResync timestamp)
  have hcount : perform r counted.bookkeeping = some counted := by
    unfold counted
    cases resyncStep <;> rfl
  refine ⟨[counted.bookkeeping, .requestResync timestamp,
    (r.afterPanic resyncStep now timestamp).bookkeeping], ?_, rfl⟩
  have hrequest : perform counted (.requestResync timestamp) = some requested := rfl
  exact ((Performs.single rfl).cons hrequest).cons hcount

/-- A recovered step performs what it wrote, or what it wrote before it panicked and then the
operations of a panic. -/
theorem recovered_ops {r : Reconciler} {write : Write} {resyncStep : Bool} {now : Instant}
    {timestamp : Timestamp} (made : List Op → Prop)
    (h : match write r with
      | .ok _ r' => ∃ ops, Performs r ops r' ∧ made (essential ops)
      | .error _ r' => ∃ ops, Performs r ops r' ∧
        made (essential ops ++ [.requestResync timestamp])) :
    ∃ ops, Performs r ops (r.recovered write resyncStep now timestamp) ∧ made (essential ops) := by
  unfold Reconciler.recovered
  cases hwrite : write r with
  | ok _ r' =>
    rw [hwrite] at h
    exact h
  | error _ r' =>
    rw [hwrite] at h
    obtain ⟨ops, hperforms, hmade⟩ := h
    obtain ⟨after, hafter, hpanic⟩ := afterPanic_ops r' resyncStep now timestamp
    refine ⟨ops ++ after, hperforms.append hafter, ?_⟩
    rw [essential_append, hpanic]
    exact hmade

section Answers

variable {w : World} {r : Reconciler} {timestamp : Timestamp}

/-- What a write makes, as `recovered_ops` asks for it. -/
def WriteMakes (w : World) (write : Write) (action : Action) (timestamp : Timestamp) : Prop :=
  match write w.reconciler with
  | .ok _ r' => ∃ ops, Performs w.reconciler ops r' ∧ w.Makes (essential ops) action
  | .error _ r' => ∃ ops, Performs w.reconciler ops r' ∧
    w.Makes (essential ops ++ [.requestResync timestamp]) action

theorem nodesListed_makes (wired : w.reconciler.Wired) {visit : List String}
    (hvisit : Enumerates visit w.reconciler.metadata) (listed : Except CallError (List Node)) :
    w.WriteMakes (Reconciler.nodesListed listed visit w.instant) (.nodesListed listed visit timestamp)
      timestamp := by
  unfold WriteMakes
  cases listed with
  | ok nodes =>
    let nodesApplied := w.reconciler.withNodes nodes visit
    let refreshed : Reconciler := { nodesApplied with nodesBackoff := nodesApplied.backoffInitial }
    have hnodes : perform w.reconciler (.applyNodes nodes visit) = some nodesApplied := by
      simp [perform, hvisit, nodesApplied]
    have hwrite : Reconciler.nodesListed (.ok nodes) visit w.instant w.reconciler =
        .ok () refreshed := bind_ok (Reconciler.applyNodes_ok wired nodes visit)
    rw [hwrite]
    exact ⟨[.applyNodes nodes visit, refreshed.bookkeeping], (Performs.single rfl).cons hnodes, rfl⟩
  | error error =>
    let flagged := w.reconciler.modifyState ({ · with nodesDirty := true })
    have hflag : perform w.reconciler (.setNodesDirty true) = some flagged := rfl
    exact ⟨[.setNodesDirty true, (w.reconciler.nodesFailed w.instant).bookkeeping],
      (Performs.single rfl).cons hflag, rfl⟩

theorem resyncListed_makes (wired : w.reconciler.Wired) {visit : List String}
    (hvisit : Enumerates visit w.reconciler.metadata) {pass : Pass} {services : List Service}
    (hphase : w.phase = .resyncNodesListing pass services) (listed : Except CallError (List Node))
    (ids : List String) (fault : Option Nat) :
    w.WriteMakes (Reconciler.resyncListed services listed visit ids fault pass.target pass.passStart
      w.instant timestamp) (.resyncNodesListed listed visit ids fault timestamp) timestamp := by
  unfold WriteMakes
  cases listed with
  | error error => exact bookkeeping_ops rfl
  | ok nodes =>
    have hlists := Reconciler.applyLists_ops wired hvisit services nodes ids fault
    unfold Reconciler.resyncListed
    simp only
    cases hrun : Reconciler.applyLists services nodes visit ids fault w.reconciler with
    | ok _ r' =>
      rw [hrun] at hlists
      obtain ⟨hfault, hperforms⟩ := hlists
      rw [bind_ok hrun]
      refine ⟨_ ++ [.completeResync pass.target pass.passStart w.instant timestamp],
        hperforms.append (.single rfl), pass, services, hphase, .inl ⟨hfault, ?_⟩⟩
      rw [essential_append, essential_eq_self fun op => Reconciler.isBookkeep_of_mem_resyncOps]
      rfl
    | error panic r' =>
      rw [hrun] at hlists
      obtain ⟨done, hpre, hperforms⟩ := hlists
      rw [bind_error hrun]
      refine ⟨done, hperforms, pass, services, hphase, .inr ⟨done, hpre, ?_⟩⟩
      rw [essential_eq_self fun op hop => Reconciler.isBookkeep_of_mem_resyncOps (hpre.subset hop)]

theorem serviceInspected_makes (wired : w.reconciler.Wired) {key : DueKey} {keys : List DueKey}
    (hphase : w.phase = .inspecting key keys) (result : Except CallError Service) :
    w.WriteMakes (Reconciler.serviceInspected key result w.instant timestamp)
      (.inspected result timestamp) timestamp := by
  unfold WriteMakes
  cases result with
  | ok service =>
    have hget : Reconciler.serviceInspected key (.ok service) w.instant timestamp w.reconciler =
        Reconciler.applyService service w.reconciler.nodes w.reconciler := rfl
    rw [hget]
    cases hmetadata : buildMetadata service w.reconciler.customLabels with
    | ok metadata =>
      rw [Reconciler.applyService_ok wired hmetadata]
      exact ⟨[.applyService service], .single (by simp [perform, hmetadata]), .inl rfl⟩
    | error panic =>
      rw [Reconciler.applyService_panic hmetadata]
      exact ⟨[], .nil, .inr rfl⟩
  | error error =>
    unfold Reconciler.serviceInspected
    by_cases hfound : error.source.isNotFound = true
    · simp only [hfound, ↓reduceIte]
      refine ⟨[.removeService key.serviceId], .single rfl, key, keys, hphase, ?_⟩
      simp [hfound]
    · simp only [hfound]
      refine ⟨[.retryService key w.instant timestamp], .single rfl, key, keys, hphase, ?_⟩
      simp [hfound]

end Answers

/-- **Every step of the world is a run of the operations its action makes.** -/
theorem step_ops {w w' : World} {action : Action} (wired : w.reconciler.Wired)
    (h : w.step action = some w') :
    ∃ ops, Performs w.reconciler ops w'.reconciler ∧ w.Makes (essential ops) action := by
  cases action with
  | tick clock instant =>
    simp only [step, Option.ite_none_right_eq_some, Option.some.injEq] at h
    obtain ⟨-, rfl⟩ := h
    exact ⟨[], .nil, rfl⟩
  | cancel =>
    cases h
    exact ⟨[], .nil, rfl⟩
  | enqueueEvent event now timestamp =>
    simp only [step, Option.ite_none_right_eq_some, Option.some.injEq] at h
    obtain ⟨-, rfl⟩ := h
    exact ⟨[.enqueueEvent event now timestamp], .single rfl, rfl⟩
  | requestResync timestamp =>
    simp only [step, Option.ite_none_right_eq_some, Option.some.injEq] at h
    obtain ⟨-, rfl⟩ := h
    exact ⟨[.requestResync timestamp], .single rfl, rfl⟩
  | buildPollSnapshot =>
    simp only [step, Option.ite_none_right_eq_some, Option.some.injEq] at h
    obtain ⟨-, rfl⟩ := h
    exact ⟨[], .nil, rfl⟩
  | applyPollCounts snapshot counters timestamp visit =>
    simp only [step, Option.ite_none_right_eq_some, Option.some.injEq] at h
    obtain ⟨-, rfl⟩ := h
    exact Reconciler.applyPollCounts_ops _ _ _ _ _ _
  | markPollOk snapshot timestamp =>
    simp only [step, Option.ite_none_right_eq_some, Option.some.injEq] at h
    obtain ⟨-, rfl⟩ := h
    exact ⟨[.markPollOk timestamp], .single rfl, rfl⟩
  | beginCycle timestamp =>
    simp only [step, cycleStep] at h
    split at h
    · simp only [Option.ite_none_right_eq_some, Option.some.injEq] at h
      obtain ⟨-, rfl⟩ := h
      unfold Reconciler.requestPeriodic
      split
      · exact ⟨[.requestResync timestamp], .single rfl, .inr rfl⟩
      · exact ⟨[], .nil, .inl rfl⟩
    · cases h
  | checkNodes =>
    simp only [step, cycleStep] at h
    split at h
    · split at h
      · cases h
        exact ⟨[.setNodesDirty false], .single rfl, .inr rfl⟩
      · cases h
        exact ⟨[], .nil, .inl rfl⟩
    · cases h
  | nodesListed listed visit timestamp =>
    simp only [step, cycleStep] at h
    split at h
    · simp only [Option.ite_none_right_eq_some, Option.some.injEq] at h
      obtain ⟨⟨hvisit, -⟩, rfl⟩ := h
      refine recovered_ops (fun ops => w.Makes ops (.nodesListed listed visit timestamp)) ?_
      exact nodesListed_makes wired hvisit listed
    · cases h
  | checkResync passStart =>
    simp only [step, cycleStep] at h
    split at h
    · simp only [Option.ite_none_right_eq_some] at h
      obtain ⟨-, h⟩ := h
      split at h
      · cases h
        exact ⟨[], .nil, rfl⟩
      · cases h
        exact ⟨[], .nil, rfl⟩
    · cases h
  | servicesListed listed =>
    simp only [step, cycleStep] at h
    split at h
    · split at h
      · cases h
        exact ⟨[], .nil, rfl⟩
      · cases h
        exact bookkeeping_ops rfl
    · cases h
  | resyncNodesListed listed visit ids fault timestamp =>
    simp only [step, cycleStep] at h
    split at h
    · rename_i pass services hphase
      simp only [Option.ite_none_right_eq_some, Option.some.injEq] at h
      obtain ⟨⟨hvisit, -⟩, rfl⟩ := h
      refine recovered_ops
        (fun ops => w.Makes ops (.resyncNodesListed listed visit ids fault timestamp)) ?_
      exact resyncListed_makes wired hvisit hphase listed ids fault
    · cases h
  | takeDueKeys =>
    simp only [step, cycleStep] at h
    split at h
    · rename_i now hphase
      cases h
      exact ⟨[.takeDueKeys now], .single rfl, now, hphase, rfl⟩
    · cases h
  | startInspect =>
    simp only [step, cycleStep] at h
    split at h
    · simp only [Option.ite_none_right_eq_some, Option.some.injEq] at h
      obtain ⟨-, rfl⟩ := h
      exact ⟨[], .nil, rfl⟩
    · cases h
  | inspected result timestamp =>
    simp only [step, cycleStep] at h
    split at h
    · rename_i key keys hphase
      simp only [Option.ite_none_right_eq_some, Option.some.injEq] at h
      obtain ⟨-, rfl⟩ := h
      refine recovered_ops (fun ops => w.Makes ops (.inspected result timestamp)) ?_
      exact serviceInspected_makes wired hphase result
    · cases h
  | endCycle =>
    simp only [step, cycleStep] at h
    split at h
    · simp only [Option.ite_none_right_eq_some, Option.some.injEq] at h
      obtain ⟨-, rfl⟩ := h
      exact ⟨[], .nil, rfl⟩
    · cases h
  | stepPanics timestamp =>
    simp only [step, cycleStep, Option.ite_none_right_eq_some] at h
    obtain ⟨-, h⟩ := h
    split at h
    all_goals
      cases h
      try exact afterPanic_ops _ _ _ _
  | stepCancelled =>
    simp only [step, cycleStep, Option.ite_none_right_eq_some] at h
    obtain ⟨-, h⟩ := h
    split at h
    all_goals
      cases h
      try exact ⟨[], .nil, rfl⟩

/-- **What the answer to an inspect does**: the new spec, a recovered panic, a removal or a retry. -/
theorem inspected_cases {w w' : World} {key : DueKey} {keys : List DueKey}
    {result : Except CallError Service} {timestamp : Timestamp} (wired : w.reconciler.Wired)
    (hphase : w.phase = .inspecting key keys)
    (h : w.step (.inspected result timestamp) = some w') :
    (∃ service metadata, result = .ok service ∧
      buildMetadata service w.reconciler.customLabels = .ok metadata ∧
      w'.reconciler = w.reconciler.withService service w.reconciler.nodes metadata) ∨
    (∃ service panic, result = .ok service ∧
      buildMetadata service w.reconciler.customLabels = .error panic ∧
      w'.reconciler = w.reconciler.afterPanic false w.instant timestamp) ∨
    (∃ error, result = .error error ∧ error.source.isNotFound = true ∧
      w'.reconciler = w.reconciler.removeService key.serviceId) ∨
    (∃ error, result = .error error ∧ error.source.isNotFound = false ∧
      w'.reconciler = w.reconciler.modifyState
        (·.retryService w.reconciler.retryDelays key w.instant timestamp)) := by
  simp only [step, cycleStep, hphase, Option.ite_none_right_eq_some, Option.some.injEq] at h
  obtain ⟨-, rfl⟩ := h
  cases result with
  | ok service =>
    have hget : Reconciler.serviceInspected key (.ok service) w.instant timestamp w.reconciler =
        Reconciler.applyService service w.reconciler.nodes w.reconciler := rfl
    simp only [Reconciler.recovered, hget]
    cases hmetadata : buildMetadata service w.reconciler.customLabels with
    | ok metadata =>
      rw [Reconciler.applyService_ok wired hmetadata]
      exact .inl ⟨service, metadata, rfl, hmetadata, rfl⟩
    | error panic =>
      rw [Reconciler.applyService_panic hmetadata]
      exact .inr (.inl ⟨service, panic, rfl, hmetadata, rfl⟩)
  | error error =>
    simp only [Reconciler.recovered, Reconciler.serviceInspected]
    cases hfound : error.source.isNotFound with
    | true => exact .inr (.inr (.inl ⟨error, rfl, hfound, rfl⟩))
    | false => exact .inr (.inr (.inr ⟨error, rfl, hfound, rfl⟩))

/-- A cycle step changes the reconciler and the phase only. -/
theorem step_frame {w w' : World} {action : Action} (h : w.step action = some w')
    (hcycle : action.isCycle = true) : ∃ reconciler phase, w' = { w with reconciler, phase } := by
  have hstep : w.cycleStep action = some w' := by
    cases action <;> first | exact h | cases hcycle
  unfold cycleStep at hstep
  repeat' split at hstep
  all_goals
    cases hstep
    try exact ⟨_, _, rfl⟩

/-- The clocks do not run backwards, a cancellation stays, and only a cycle step moves the phase. -/
structure Advances (w : World) (action : Action) (w' : World) : Prop where
  start : w'.start = w.start
  clock : w.clock ≤ w'.clock
  instant : w.instant ≤ w'.instant
  cancelled : w.cancelled = true → w'.cancelled = true
  phase : action.isCycle = false → w'.phase = w.phase

theorem step_advances {w w' : World} {action : Action} (h : w.step action = some w') :
    Advances w action w' := by
  cases action with
  | tick clock instant =>
    simp only [step, Option.ite_none_right_eq_some, Option.some.injEq] at h
    obtain ⟨⟨hclock, hinstant⟩, rfl⟩ := h
    exact ⟨rfl, hclock, hinstant, id, fun _ => rfl⟩
  | cancel =>
    cases h
    exact ⟨rfl, le_rfl, le_rfl, fun _ => rfl, fun _ => rfl⟩
  | enqueueEvent event now timestamp =>
    simp only [step, Option.ite_none_right_eq_some, Option.some.injEq] at h
    obtain ⟨-, rfl⟩ := h
    exact ⟨rfl, le_rfl, le_rfl, id, fun _ => rfl⟩
  | requestResync timestamp =>
    simp only [step, Option.ite_none_right_eq_some, Option.some.injEq] at h
    obtain ⟨-, rfl⟩ := h
    exact ⟨rfl, le_rfl, le_rfl, id, fun _ => rfl⟩
  | buildPollSnapshot =>
    simp only [step, Option.ite_none_right_eq_some, Option.some.injEq] at h
    obtain ⟨-, rfl⟩ := h
    exact ⟨rfl, le_rfl, le_rfl, id, fun _ => rfl⟩
  | applyPollCounts snapshot counters timestamp visit =>
    simp only [step, Option.ite_none_right_eq_some, Option.some.injEq] at h
    obtain ⟨-, rfl⟩ := h
    exact ⟨rfl, le_rfl, le_rfl, id, fun _ => rfl⟩
  | markPollOk snapshot timestamp =>
    simp only [step, Option.ite_none_right_eq_some, Option.some.injEq] at h
    obtain ⟨-, rfl⟩ := h
    exact ⟨rfl, le_rfl, le_rfl, id, fun _ => rfl⟩
  | _ =>
    obtain ⟨reconciler, phase, rfl⟩ := step_frame h rfl
    exact ⟨rfl, le_rfl, le_rfl, id, fun hcycle => by cases hcycle⟩

/-! ## Invariants of the reconciler -/

theorem performs_wired {r r' : Reconciler} {ops : List Op} (wired : r.Wired)
    (h : Performs r ops r') : r'.Wired :=
  h.invariant Reconciler.Wired wired fun _ _ _ => Reconciler.perform_wired

theorem step_wired {w w' : World} {action : Action} (wired : w.reconciler.Wired)
    (h : w.step action = some w') : w'.reconciler.Wired := by
  obtain ⟨ops, hperforms, -⟩ := step_ops wired h
  exact performs_wired wired hperforms

omit [HostText] in
theorem init_wired (config : Config) : (init config).reconciler.Wired :=
  Reconciler.withPolicy_wired (accepted_of_validateCustomLabels config.accepted) _ _

theorem run_wired {w w' : World} {trace : List (Step World Action)} (wired : w.reconciler.Wired)
    (h : Run step w trace w') : w'.reconciler.Wired :=
  h.invariant (fun w => w.reconciler.Wired) wired fun _ _ _ => step_wired

theorem Runs.wired {config : Config} {trace : List (Step World Action)} {w : World}
    (h : Runs config trace w) : w.reconciler.Wired :=
  run_wired (init_wired config) h

/-- `op` is one of the operations the step `st` consists of. -/
def Ran (st : Step World Action) (op : Op) : Prop :=
  ∃ ops, Performs st.pre.reconciler ops st.post.reconciler ∧
    st.pre.Makes (essential ops) st.act ∧ op ∈ essential ops

/-- A run is a run of operations, each of one of its steps. -/
theorem run_ops {w w' : World} {trace : List (Step World Action)} (wired : w.reconciler.Wired)
    (h : Run step w trace w') :
    ∃ ops, Performs w.reconciler ops w'.reconciler ∧
      ∀ op ∈ essential ops, ∃ st ∈ trace, Ran st op := by
  refine Run.history (fun trace w' => ∃ ops, Performs w.reconciler ops w'.reconciler ∧
    ∀ op ∈ essential ops, ∃ st ∈ trace, Ran st op) ⟨[], .nil, by simp⟩ ?_ h
  rintro trace t action u hrun ⟨ops, hperforms, hran⟩ hstep
  obtain ⟨last, hlast, hmakes⟩ := step_ops (run_wired wired hrun) hstep
  refine ⟨ops ++ last, hperforms.append hlast, fun op hop => ?_⟩
  rw [essential_append] at hop
  rcases List.mem_append.1 hop with hop | hop
  · obtain ⟨st, hst, hop⟩ := hran op hop
    exact ⟨st, List.mem_append_left _ hst, hop⟩
  · exact ⟨⟨t, action, u⟩, List.mem_append_right _ (List.mem_singleton.2 rfl), last, hlast, hmakes, hop⟩

/-- An operation of one of the steps is among them. -/
theorem run_ops_of_ran {w w' : World} {trace : List (Step World Action)} {st : Step World Action}
    {op : Op} (wired : w.reconciler.Wired) (h : Run step w trace w') (hst : st ∈ trace)
    (hop : Ran st op) : ∃ ops, Performs w.reconciler ops w'.reconciler ∧ op ∈ ops := by
  obtain ⟨before, after, rfl⟩ := List.append_of_mem hst
  obtain ⟨hbefore, hstep, hafter⟩ := Run.of_mid h
  have hwired := run_wired wired hbefore
  obtain ⟨first, hfirst, -⟩ := run_ops wired hbefore
  obtain ⟨middle, hmiddle, -, hmem⟩ := hop
  obtain ⟨last, hlast, -⟩ := run_ops (step_wired hwired hstep) hafter
  refine ⟨first ++ middle ++ last, (hfirst.append hmiddle).append hlast, ?_⟩
  exact List.mem_append_left _ (List.mem_append_right _ (mem_of_mem_essential hmem))

/-- What every operation keeps, every step keeps. -/
theorem step_invariant (inv : Reconciler → Prop)
    (hop : ∀ r op r', r.Wired → inv r → perform r op = some r' → inv r') {w w' : World}
    {action : Action} (wired : w.reconciler.Wired) (hinv : inv w.reconciler)
    (h : w.step action = some w') : inv w'.reconciler := by
  obtain ⟨ops, hperforms, -⟩ := step_ops wired h
  exact (hperforms.invariant (fun r => r.Wired ∧ inv r) ⟨wired, hinv⟩
    fun r op r' ⟨hwired, hr⟩ hperform =>
      ⟨Reconciler.perform_wired hwired hperform, hop r op r' hwired hr hperform⟩).2

/-- **The invariant rule**: what a new reconciler has and every operation keeps holds in every
reachable world. -/
theorem Runs.invariant (inv : Reconciler → Prop) {config : Config}
    (hinit : inv (.withPolicy config.custom config.policy config.clock))
    (hop : ∀ r op r', r.Wired → inv r → perform r op = some r' → inv r')
    {trace : List (Step World Action)} {w : World} (h : Runs config trace w) : inv w.reconciler :=
  (Run.invariant (fun w => w.reconciler.Wired ∧ inv w.reconciler)
    ⟨init_wired config, hinit⟩
    (fun _ _ _ ⟨hwired, hinv⟩ hstep =>
      ⟨step_wired hwired hstep, step_invariant inv hop hwired hinv hstep⟩) h).2

theorem Runs.customLabels {config : Config} {trace : List (Step World Action)} {w : World}
    (h : Runs config trace w) : w.reconciler.customLabels = config.custom :=
  h.invariant (fun r => r.customLabels = config.custom) rfl
    fun _ _ _ _ hr hperform => (Reconciler.perform_customLabels hperform).trans hr

end World

end SwarmExporter
