import SwarmExporter.Reconciler.Pending

/-!
# No update is lost

A dirty key leaves the queue in many ways: a cycle takes it, an overflow drops the whole set, its
inspect is applied, fails and is retried, runs out of retries, or panics. Each hands the obligation to
something else, and whatever raises a resync request takes over all of them: the request stays open
until a pass that listed after it completed. The same goes for the flag of the nodes.
-/

namespace SwarmExporter

open Lib
open Docker (CallError Event Node Service)

namespace World

/-- A request raised after the first `raised` ones is not completed. -/
def Outstanding (w : World) (raised : Nat) : Prop :=
  ∃ k, raised < k ∧ k ≤ w.reconciler.state.resyncRequested ∧ w.reconciler.state.resyncCompleted < k

/-- `st` starts the inspect of the first key of its batch. -/
def StartsInspect (key : DueKey) (keys : List DueKey) (st : Step World Action) : Prop :=
  st.act = .startInspect ∧ st.pre.phase = .batch (key :: keys)

/-- `st` starts a node list of its own, having cleared the flag. -/
def StartsNodes (st : Step World Action) : Prop :=
  st.act = .checkNodes ∧ ∃ now, st.post.phase = .nodesListing now

section Covered

variable [HostText]

/-- `st` applies the answer to the inspect of `id`: the spec of the service, or its removal. -/
def AppliesInspect (id : String) (st : Step World Action) : Prop :=
  ∃ ops, Reconciler.Performs st.pre.reconciler ops st.post.reconciler ∧
    ((∃ service timestamp, st.act = .inspected (.ok service) timestamp ∧ service.id = id ∧
        essential ops = [.applyService service]) ∨
      ∃ error timestamp, st.act = .inspected (.error error) timestamp ∧
        error.source.isNotFound = true ∧ essential ops = [.removeService id])

/-- An inspect of `id` was started and applied. -/
def InspectApplied (id : String) (trace : List (Step World Action)) : Prop :=
  ∃ before start waiting finish after key keys,
    trace = before ++ start :: waiting ++ finish :: after ∧ StartsInspect key keys start ∧
      key.serviceId = id ∧ finish.pre.phase = .inspecting key keys ∧ AppliesInspect id finish

/-- A node list was asked for on its own and applied. -/
def NodesApplied (trace : List (Step World Action)) : Prop :=
  ∃ before start waiting finish after nodes visit timestamp,
    trace = before ++ start :: waiting ++ finish :: after ∧ StartsNodes start ∧
      finish.act = .nodesListed (.ok nodes) visit timestamp ∧
      ∃ ops, Reconciler.Performs finish.pre.reconciler ops finish.post.reconciler ∧
        essential ops = [.applyNodes nodes visit]

/-- A pass listed services and nodes and applied both. -/
def PassApplied (trace : List (Step World Action)) : Prop :=
  ∃ before finish after listing, trace = before ++ finish :: after ∧
    CompletesPass before finish listing

/-- `id` is in the batch of the cycle and not reconciled yet; an inspect of it that is under way was
started within `after`. -/
def InBatch (id : String) (after : List (Step World Action)) : Phase → Prop
  | .batch keys => ∃ key ∈ keys, key.serviceId = id
  | .inspecting key keys => (∃ key ∈ keys, key.serviceId = id) ∨
      key.serviceId = id ∧ LastCycle (fun _ => StartsInspect key keys) after
  | _ => False

/-- What stands for an event of service `id` that came after `raised` requests and before the steps
`after`. -/
inductive ServiceCovered (id : String) (raised : Nat) (after : List (Step World Action)) (w : World) :
    Prop
  | pending (h : id ∈ w.reconciler.state.pendingSet)
  | batch (h : InBatch id after w.phase)
  | requested (h : w.Outstanding raised)
  | inspected (h : InspectApplied id after)
  | resynced (h : PassApplied after)

/-- What stands for a node event that came after `raised` requests and before the steps `after`. -/
inductive NodesCovered (raised : Nat) (after : List (Step World Action)) (w : World) : Prop
  | dirty (h : w.reconciler.state.nodesDirty = true)
  | listing (now : Instant) (hphase : w.phase = .nodesListing now)
    (h : LastCycle (fun _ => StartsNodes) after)
  | requested (h : w.Outstanding raised)
  | refreshed (h : NodesApplied after)
  | resynced (h : PassApplied after)

end Covered

section Steps

variable [HostText] {config : Config} {before after trace : List (Step World Action)}
  {w w' : World} {action : Action} {enq : Step World Action} {id : String}

/-! ## One step -/

theorem step_requested (wired : w.reconciler.Wired) (hcounted : w.Counted)
    (h : w.step action = some w') :
    w.reconciler.state.resyncRequested ≤ w'.reconciler.state.resyncRequested := by
  rcases step_resync wired hcounted.counted h with ⟨hraises, -⟩ | hcompletes
  · exact hraises.requested
  · obtain ⟨_, _, _, _, _, _, -, -, -, -, hresyncs, -⟩ := hcompletes
    simp only [State.resyncs, State.completeResync, Resyncs.mk.injEq] at hresyncs
    exact hresyncs.1.ge

/-- A step that raises a request leaves it open. -/
theorem outstanding_of_raised (wired : w.reconciler.Wired) (hcounted : w.Counted)
    (h : w.step action = some w') {raised : Nat} (hraised : raised ≤ w.reconciler.state.resyncRequested)
    (hlt : w.reconciler.state.resyncRequested < w'.reconciler.state.resyncRequested) :
    w'.Outstanding raised := by
  refine ⟨w'.reconciler.state.resyncRequested, hraised.trans_lt hlt, le_rfl, ?_⟩
  rcases step_resync wired hcounted.counted h with ⟨hraises, -⟩ | hcompletes
  · have hcompleted : w'.reconciler.state.resyncCompleted = w.reconciler.state.resyncCompleted :=
      hraises.completed
    have hcount := hcounted.counted
    omega
  · obtain ⟨_, _, _, _, _, _, -, -, -, -, hresyncs, -⟩ := hcompletes
    simp only [State.resyncs, State.completeResync, Resyncs.mk.injEq] at hresyncs
    omega

theorem step_keepsPending (wired : w.reconciler.Wired) (h : w.step action = some w')
    (htake : action ≠ .takeDueKeys) :
    w.reconciler.state.KeepsPending w'.reconciler.state := by
  obtain ⟨ops, hperforms, hmakes⟩ := step_ops wired h
  refine hperforms.induct (fun r => w.reconciler.state.KeepsPending r.state) (.of_eq rfl rfl) ?_
  intro op hop current next hcurrent hperform
  refine hcurrent.trans (Reconciler.perform_keepsPending hperform ?_)
  rintro now rfl
  exact htake ((makes_madeBy hmakes (List.mem_filter.2 ⟨hop, rfl⟩)).takes now rfl)

theorem step_nodesDirty (wired : w.reconciler.Wired) (h : w.step action = some w')
    (hcheck : action ≠ .checkNodes) (hdirty : w.reconciler.state.nodesDirty = true) :
    w'.reconciler.state.nodesDirty = true := by
  obtain ⟨ops, hperforms, hmakes⟩ := step_ops wired h
  refine hperforms.induct (fun r => r.state.nodesDirty = true) hdirty ?_
  intro op hop current next hcurrent hperform
  refine Reconciler.perform_nodesDirty hperform ?_ hcurrent
  rintro rfl
  exact hcheck ((makes_madeBy hmakes (List.mem_filter.2 ⟨hop, rfl⟩)).clears rfl)

/-- A recovered panic raises a request. -/
theorem requested_of_essential {r r' : Reconciler} {ops : List Op} {timestamp : Timestamp}
    (h : Reconciler.Performs r ops r') (hops : essential ops = [.requestResync timestamp]) :
    r.state.resyncRequested < r'.state.resyncRequested := by
  obtain ⟨first, last, hfirst, hperform, hlast⟩ := h.of_essential_singleton hops
  cases hperform
  rw [hlast, ← hfirst]
  exact first.state.requestResync_raises timestamp

/-- The batch goes on with its first key, or is over. -/
theorem step_batch {keys : List DueKey} (hphase : w.phase = .batch keys) (h : w.step action = some w')
    (hcycle : action.isCycle = true) :
    (∃ key rest, keys = key :: rest ∧ action = .startInspect ∧ w'.phase = .inspecting key rest) ∨
      keys = [] ∨ w.cancelled = true := by
  have hmoves := step_moves h hcycle
  rw [hphase] at hmoves
  generalize w'.phase = phase at hmoves
  cases hmoves with
  | inspects => exact .inl ⟨_, _, rfl, rfl, rfl⟩
  | finishes hdone => exact .inr hdone
  | ends hpass => cases hpass

/-- The inspect under way is answered, panics, or is cancelled. -/
theorem step_inspecting {key : DueKey} {keys : List DueKey} (hphase : w.phase = .inspecting key keys)
    (h : w.step action = some w') (hcycle : action.isCycle = true) :
    w'.phase = .batch keys ∧ ((∃ result timestamp, action = .inspected result timestamp) ∨
      (∃ timestamp, action = .stepPanics timestamp) ∨ w.cancelled = true) := by
  have hmoves := step_moves h hcycle
  rw [hphase] at hmoves
  generalize w'.phase = phase at hmoves
  cases hmoves with
  | answers hanswer => exact ⟨rfl, hanswer⟩
  | ends hpass => cases hpass

/-- So is the node list. -/
theorem step_nodesListing {now : Instant} (hphase : w.phase = .nodesListing now)
    (h : w.step action = some w') (hcycle : action.isCycle = true) :
    (∃ listed visit timestamp, action = .nodesListed listed visit timestamp) ∨
      (∃ timestamp, action = .stepPanics timestamp) ∨ w.cancelled = true := by
  have hmoves := step_moves h hcycle
  rw [hphase] at hmoves
  generalize w'.phase = phase at hmoves
  cases hmoves with
  | refreshes hanswer => exact hanswer
  | ends hpass => cases hpass

theorem InspectApplied.extend (h : InspectApplied id after) (st : Step World Action) :
    InspectApplied id (after ++ [st]) := by
  obtain ⟨before, start, waiting, finish, later, key, keys, rfl, happlied⟩ := h
  exact ⟨before, start, waiting, finish, later ++ [st], key, keys, by simp, happlied⟩

theorem NodesApplied.extend (h : NodesApplied after) (st : Step World Action) :
    NodesApplied (after ++ [st]) := by
  obtain ⟨before, start, waiting, finish, later, nodes, visit, timestamp, rfl, happlied⟩ := h
  exact ⟨before, start, waiting, finish, later ++ [st], nodes, visit, timestamp, by simp, happlied⟩

theorem PassApplied.extend (h : PassApplied after) (st : Step World Action) :
    PassApplied (after ++ [st]) := by
  obtain ⟨before, finish, later, listing, rfl, hpass⟩ := h
  exact ⟨before, finish, later ++ [st], listing, by simp, hpass⟩

/-- No step lowers the number of requests. -/
theorem requested_step (w : World) (action : Action) (w' : World)
    (hinv : w.reconciler.Wired ∧ w.Counted) (h : w.step action = some w') :
    (w'.reconciler.Wired ∧ w'.Counted) ∧
      w.reconciler.state.resyncRequested ≤ w'.reconciler.state.resyncRequested :=
  ⟨⟨step_wired hinv.1 h, step_counted hinv.1 hinv.2 h⟩, step_requested hinv.1 hinv.2 h⟩

/-- The requests raised by the time of a step are not more than those of a later world. -/
theorem raised_le (hrun : Runs config (before ++ enq :: after) w) :
    enq.pre.reconciler.state.resyncRequested ≤ w.reconciler.state.resyncRequested := by
  obtain ⟨hbefore, hstep, hafter⟩ := Run.of_mid hrun
  obtain ⟨hinv, hle⟩ := requested_step _ _ _ ⟨Runs.wired hbefore, Runs.counted hbefore⟩ hstep
  exact hle.trans (hafter.monotone (fun w => w.reconciler.state.resyncRequested)
    (fun w => w.reconciler.Wired ∧ w.Counted) hinv requested_step).2

/-- **An open request stays open until a pass that listed after the event completes.** -/
theorem outstanding_step (hrun : Runs config (before ++ enq :: after) w)
    (h : w.step action = some w')
    (hopen : w.Outstanding enq.pre.reconciler.state.resyncRequested) :
    w'.Outstanding enq.pre.reconciler.state.resyncRequested ∨
      PassApplied (after ++ [⟨w, action, w'⟩]) := by
  obtain ⟨k, hraised, hrequested, hcompleted⟩ := hopen
  have hle := step_requested (Runs.wired hrun) (Runs.counted hrun) h
  rcases step_completesPass hrun h with ⟨hkeeps, -⟩ | ⟨listing, hpass⟩
  · refine .inl ⟨k, hraised, hrequested.trans hle, ?_⟩
    rw [hkeeps]
    exact hcompleted
  · by_cases hserved : listing.pre.reconciler.state.resyncRequested < k
    · refine .inl ⟨k, hraised, hrequested.trans hle, ?_⟩
      rw [hpass.completed]
      exact hserved
    · -- The pass read its target after the event, so both of its calls started after it.
      obtain ⟨pass, services, nodes, visit, ids, timestamp, prior, waiting, listed, waiting', htrace,
        hstarts, hlisted, hfinish, hops⟩ := hpass.passed
      have hlt : enq.pre.reconciler.state.resyncRequested <
          listing.pre.reconciler.state.resyncRequested := by omega
      rw [List.append_assoc, List.cons_append] at htrace
      obtain ⟨between, rfl, rfl⟩ := Run.later_of_lt (fun w => w.reconciler.state.resyncRequested)
        (fun w => w.reconciler.Wired ∧ w.Counted) ⟨init_wired config, Runs.counted .nil⟩
        requested_step hrun htrace hlt
      refine .inr ⟨_, _, [], listing, rfl, ⟨pass, services, nodes, visit, ids, timestamp, between,
        waiting, listed, waiting', ?_, hstarts, hlisted, hfinish, hops⟩, hpass.completed⟩
      simp

/-- Docker answers an inspect with the service it was asked for. -/
def AnswersOwnId (st : Step World Action) : Prop :=
  ∀ service timestamp key keys, st.act = .inspected (.ok service) timestamp →
    st.pre.phase = .inspecting key keys → service.id = key.serviceId

/-- An answered inspect is applied, or its key is queued again, or a request is raised. -/
theorem inspected_step {key : DueKey} {keys : List DueKey} {result : Except CallError Service}
    {timestamp : Timestamp} (wired : w.reconciler.Wired)
    (h : w.step (.inspected result timestamp) = some w') (hphase : w.phase = .inspecting key keys)
    (hdocker : AnswersOwnId ⟨w, .inspected result timestamp, w'⟩) :
    w.reconciler.state.Queues w'.reconciler.state key.serviceId ∨
      AppliesInspect key.serviceId ⟨w, .inspected result timestamp, w'⟩ := by
  obtain ⟨ops, hperforms, hmakes⟩ := step_ops wired h
  cases result with
  | ok service =>
    rcases hmakes with hops | hops
    · have hid := hdocker service timestamp key keys rfl hphase
      exact .inr ⟨ops, hperforms, .inl ⟨service, timestamp, rfl, hid, hops⟩⟩
    · exact .inl (.inr (requested_of_essential hperforms hops))
  | error error =>
    obtain ⟨key', keys', hphase', hops⟩ := hmakes
    rw [hphase] at hphase'
    cases hphase'
    by_cases hfound : error.source.isNotFound = true
    · rw [if_pos hfound] at hops
      exact .inr ⟨ops, hperforms, .inr ⟨error, timestamp, rfl, hfound, hops⟩⟩
    · rw [if_neg hfound] at hops
      obtain ⟨first, last, hfirst, hperform, hlast⟩ := hperforms.of_essential_singleton hops
      cases hperform
      have hqueues :=
        (first.state.retryService_keepsPending w.instant timestamp first.retryDelays key).2
      rw [hlast, ← hfirst]
      exact .inl hqueues

/-- A key of the batch stays in it, starts its inspect, or is handed over. -/
theorem inBatch_step (hrun : Runs config (before ++ enq :: after) w) (h : w.step action = some w')
    (hrunning : w.cancelled = false) (hdocker : AnswersOwnId ⟨w, action, w'⟩)
    (hbatch : InBatch id after w.phase) :
    ServiceCovered id enq.pre.reconciler.state.resyncRequested (after ++ [⟨w, action, w'⟩]) w' := by
  have wired := Runs.wired hrun
  have hraised : ∀ hlt : w.reconciler.state.resyncRequested < w'.reconciler.state.resyncRequested,
      ServiceCovered id enq.pre.reconciler.state.resyncRequested (after ++ [⟨w, action, w'⟩]) w' :=
    fun hlt => .requested (outstanding_of_raised wired (Runs.counted hrun) h (raised_le hrun) hlt)
  by_cases hcycle : action.isCycle = true
  · cases hphase : w.phase with
    | batch keys =>
      rw [hphase] at hbatch
      obtain ⟨key, hmem, rfl⟩ := hbatch
      rcases step_batch hphase h hcycle with ⟨first, rest, rfl, rfl, hnext⟩ | rfl | hcancelled
      · rcases List.mem_cons.1 hmem with rfl | hrest
        · refine .batch ?_
          rw [hnext]
          exact .inr ⟨rfl, .of_last ⟨rfl, hphase⟩⟩
        · refine .batch ?_
          rw [hnext]
          exact .inl ⟨key, hrest, rfl⟩
      · cases hmem
      · rw [hrunning] at hcancelled
        cases hcancelled
    | inspecting key keys =>
      rw [hphase] at hbatch
      obtain ⟨hnext, hact⟩ := step_inspecting hphase h hcycle
      rcases hbatch with hrest | ⟨rfl, prior, start, since, rfl, hstart, -⟩
      · refine .batch ?_
        rw [hnext]
        exact hrest
      · rcases hact with ⟨result, timestamp, rfl⟩ | ⟨timestamp, rfl⟩ | hcancelled
        · rcases inspected_step wired h hphase hdocker with hqueued | happlied
          · rcases hqueued with hpending | hlt
            · exact .pending hpending
            · exact hraised hlt
          · refine .inspected ⟨prior, start, since, _, [], key, keys, ?_, hstart, rfl, hphase, happlied⟩
            rfl
        · obtain ⟨ops, hperforms, hops⟩ := step_ops wired h
          exact hraised (requested_of_essential hperforms hops)
        · rw [hrunning] at hcancelled
          cases hcancelled
    | _ =>
      rw [hphase] at hbatch
      exact hbatch.elim
  · rw [Bool.not_eq_true] at hcycle
    refine .batch ?_
    rw [step_phase h hcycle]
    cases hphase : w.phase with
    | batch keys =>
      rw [hphase] at hbatch
      exact hbatch
    | inspecting key keys =>
      rw [hphase] at hbatch
      exact hbatch.imp_right fun ⟨hid, hlast⟩ => ⟨hid, hlast.extend hcycle⟩
    | _ =>
      rw [hphase] at hbatch
      exact hbatch.elim

/-- **Every step hands a service event on.** -/
theorem serviceCovered_step (hrun : Runs config (before ++ enq :: after) w)
    (h : w.step action = some w') (hrunning : w.cancelled = false)
    (hdocker : AnswersOwnId ⟨w, action, w'⟩)
    (hcovered : ServiceCovered id enq.pre.reconciler.state.resyncRequested after w) :
    ServiceCovered id enq.pre.reconciler.state.resyncRequested (after ++ [⟨w, action, w'⟩]) w' := by
  cases hcovered with
  | pending hpending =>
    by_cases htake : action = .takeDueKeys
    · subst htake
      simp only [step, cycleStep] at h
      split at h
      · rename_i now hphase
        cases h
        rcases w.reconciler.state.mem_takeDueKeys now hpending with hkept | htaken
        · exact .pending hkept
        · exact .batch htaken
      · cases h
    · rcases (step_keepsPending (Runs.wired hrun) h htake).kept with hkept | hlt
      · exact .pending (hkept id hpending)
      · exact .requested
          (outstanding_of_raised (Runs.wired hrun) (Runs.counted hrun) h (raised_le hrun) hlt)
  | batch hbatch => exact inBatch_step hrun h hrunning hdocker hbatch
  | requested hopen =>
    rcases outstanding_step hrun h hopen with hopen' | hpass
    · exact .requested hopen'
    · exact .resynced hpass
  | inspected happlied => exact .inspected (happlied.extend _)
  | resynced hpass => exact .resynced (hpass.extend _)

/-- **Every step hands a node event on.** -/
theorem nodesCovered_step (hrun : Runs config (before ++ enq :: after) w)
    (h : w.step action = some w') (hrunning : w.cancelled = false)
    (hcovered : NodesCovered enq.pre.reconciler.state.resyncRequested after w) :
    NodesCovered enq.pre.reconciler.state.resyncRequested (after ++ [⟨w, action, w'⟩]) w' := by
  have wired := Runs.wired hrun
  cases hcovered with
  | dirty hdirty =>
    by_cases hcheck : action = .checkNodes
    · subst hcheck
      have hcycle : Action.isCycle .checkNodes = true := rfl
      cases hphase : w'.phase with
      | nodesListing now => exact .listing now hphase (.of_last ⟨rfl, now, hphase⟩)
      | _ =>
        -- Nothing was due: the flag stays.
        refine .dirty ?_
        simp only [step, cycleStep] at h
        split at h
        · split at h
          · cases h
            cases hphase
          · cases h
            exact hdirty
        · cases h
    · exact .dirty (step_nodesDirty wired h hcheck hdirty)
  | listing now hphase hlast =>
    by_cases hcycle : action.isCycle = true
    · rcases step_nodesListing hphase h hcycle with ⟨listed, visit, timestamp, rfl⟩ | ⟨timestamp, rfl⟩ |
        hcancelled
      · obtain ⟨ops, hperforms, hmakes⟩ := step_ops wired h
        cases listed with
        | ok nodes =>
          obtain ⟨prior, start, since, rfl, hstart, -⟩ := hlast
          exact .refreshed ⟨prior, start, since, _, [], nodes, visit, timestamp, rfl, hstart, rfl, ops,
            hperforms, hmakes⟩
        | error error =>
          obtain ⟨first, last, -, hperform, hstate⟩ := hperforms.of_essential_singleton hmakes
          cases hperform
          refine .dirty ?_
          rw [hstate]
          rfl
      · obtain ⟨ops, hperforms, hops⟩ := step_ops wired h
        exact .requested (outstanding_of_raised wired (Runs.counted hrun) h (raised_le hrun)
          (requested_of_essential hperforms hops))
      · rw [hrunning] at hcancelled
        cases hcancelled
    · rw [Bool.not_eq_true] at hcycle
      exact .listing now ((step_phase h hcycle).trans hphase) (hlast.extend hcycle)
  | requested hopen =>
    rcases outstanding_step hrun h hopen with hopen' | hpass
    · exact .requested hopen'
    · exact .resynced hpass
  | refreshed happlied => exact .refreshed (happlied.extend _)
  | resynced hpass => exact .resynced (hpass.extend _)

/-! ## Whole runs -/

theorem step_cancelled (h : w.step action = some w') (hrunning : w'.cancelled = false) :
    w.cancelled = false := by
  by_contra hcancelled
  rw [Bool.not_eq_false] at hcancelled
  rw [(step_advances h).cancelled hcancelled] at hrunning
  cases hrunning

/-- The event itself queues its service, or drops the set for a resync. -/
theorem enqueued_service {event : Event} {now : Instant} {timestamp : Timestamp}
    (hrun : Runs config before enq.pre) (hstep : enq.pre.step enq.act = some enq.post)
    (henq : enq.act = .enqueueEvent event now timestamp) (hid : event.actor.id ≠ "")
    (hkind : event.kind = State.eventTypeService) :
    ServiceCovered event.actor.id enq.pre.reconciler.state.resyncRequested [] enq.post := by
  have hqueues : enq.pre.reconciler.state.Queues enq.post.reconciler.state event.actor.id := by
    have h := hstep
    rw [henq] at h
    simp only [step, Option.ite_none_right_eq_some, Option.some.injEq] at h
    obtain ⟨-, hpost⟩ := h
    rw [← hpost]
    have hempty : event.actor.id.isEmpty = false := by simpa using hid
    have hnode : event.kind ≠ State.eventTypeNode := by
      rw [hkind]
      decide
    simp only [Reconciler.enqueueEvent, State.enqueueEvent, hempty, Bool.false_eq_true, if_false,
      Reconciler.modifyState, if_neg hnode, if_pos hkind]
    exact (enq.pre.reconciler.state.markServiceDirty_keepsPending _ now timestamp).2
  rcases hqueues with hpending | hlt
  · exact .pending hpending
  · exact .requested
      (outstanding_of_raised (Runs.wired hrun) (Runs.counted hrun) hstep le_rfl hlt)

theorem enqueued_node {event : Event} {now : Instant} {timestamp : Timestamp}
    (hstep : enq.pre.step enq.act = some enq.post)
    (henq : enq.act = .enqueueEvent event now timestamp) (hid : event.actor.id ≠ "")
    (hkind : event.kind = State.eventTypeNode) :
    NodesCovered enq.pre.reconciler.state.resyncRequested [] enq.post := by
  refine .dirty ?_
  have h := hstep
  rw [henq] at h
  simp only [step, Option.ite_none_right_eq_some, Option.some.injEq] at h
  obtain ⟨-, hpost⟩ := h
  rw [← hpost]
  have hempty : event.actor.id.isEmpty = false := by simpa using hid
  simp only [Reconciler.enqueueEvent, State.enqueueEvent, hempty, Bool.false_eq_true, if_false,
    Reconciler.modifyState, if_pos hkind]
  rfl

/-- **No lost update.** Let Docker answer every inspect with the service it was asked for, and nothing
be shut down. Then for every event of the run, whatever came after it: a service event's key is queued,
or in the batch of the cycle with no inspect of it started before the event, or a resync request raised
at or after the event is open, or an inspect of the service or a pass, both started after the event, has
been applied. Likewise for a node event, with the flag of the nodes and the node list. -/
theorem no_lost_update (h : Runs config trace w) (hrunning : w.cancelled = false)
    (hdocker : ∀ st ∈ trace, AnswersOwnId st) (htrace : trace = before ++ enq :: after)
    {event : Event} {now : Instant} {timestamp : Timestamp}
    (henq : enq.act = .enqueueEvent event now timestamp) (hid : event.actor.id ≠ "") :
    (event.kind = State.eventTypeService →
      ServiceCovered event.actor.id enq.pre.reconciler.state.resyncRequested after w) ∧
    (event.kind = State.eventTypeNode →
      NodesCovered enq.pre.reconciler.state.resyncRequested after w) := by
  subst htrace
  obtain ⟨hbefore, hstep, hafter⟩ := Run.of_mid h
  have hfull : ∀ {after' u}, Run step enq.post after' u → Runs config (before ++ enq :: after') u := by
    intro after' u hrun
    have happend := (hbefore.snoc hstep).append hrun
    rwa [List.append_assoc, List.singleton_append] at happend
  have hdocker' : ∀ st ∈ after, AnswersOwnId st := fun st hst =>
    hdocker st (List.mem_append_right _ (List.mem_cons_of_mem _ hst))
  constructor
  · intro hkind
    have hinv := Run.history (fun after' u => u.cancelled = false → (∀ st ∈ after', AnswersOwnId st) →
        ServiceCovered event.actor.id enq.pre.reconciler.state.resyncRequested after' u)
      (fun _ _ => enqueued_service hbefore hstep henq hid hkind)
      (fun after' t action u hrun hcovered hs hu hanswers => by
        have ht := step_cancelled hs hu
        have hprior := hcovered ht fun st hst => hanswers st (List.mem_append_left _ hst)
        exact serviceCovered_step (hfull hrun) hs ht
          (hanswers _ (List.mem_append_right _ (List.mem_singleton.2 rfl))) hprior) hafter
    exact hinv hrunning hdocker'
  · intro hkind
    have hinv := Run.history (fun after' u => u.cancelled = false →
        NodesCovered enq.pre.reconciler.state.resyncRequested after' u)
      (fun _ => enqueued_node hstep henq hid hkind)
      (fun after' t action u hrun hcovered hs hu => by
        have ht := step_cancelled hs hu
        exact nodesCovered_step (hfull hrun) hs ht (hcovered ht)) hafter
    exact hinv hrunning

end Steps

/-- Whether an inspect of the step answers with the service it was asked for. -/
def ownId (st : Step World Action) : Bool :=
  match st.act, st.pre.phase with
  | .inspected (.ok service) _, .inspecting key _ => service.id == key.serviceId
  | _, _ => true

open Sample in
/-- The key of an event left the queue, and its inspect was applied. -/
theorem no_lost_update_sample : ∃ trace w before enq after, Runs config trace w ∧
    trace = before ++ enq :: after ∧ "web" ∉ w.reconciler.state.pendingSet ∧
    ServiceCovered "web" enq.pre.reconciler.state.resyncRequested after w := by
  let event : Event := { kind := "service", actor := ⟨"web"⟩ }
  let acts : List Action := [.beginCycle 1000, .checkNodes, .checkResync 1000, .takeDueKeys,
    .startInspect, .inspected (.ok (replicated "web" "web" 3)) 1000]
  have hreplay : (replay step (init config)
      (resyncCycle [replicated "web" "web" 2] [] ["web"] ++ .enqueueEvent event 0 1000 :: acts)).any
      (fun result => decide (result.2.cancelled = false ∧
        "web" ∉ result.2.reconciler.state.pendingSet ∧ result.1.all ownId = true)) = true := by
    decide +kernel
  obtain ⟨trace, w, hrun, hacts, hcheck⟩ := exists_run_of_replay hreplay
  obtain ⟨hrunning, htaken, hown⟩ := of_decide_eq_true hcheck
  obtain ⟨before, rest, htrace, -, hrest⟩ := List.map_eq_append_iff.1 hacts
  obtain ⟨enq, after, rfl, henq, -⟩ := List.map_eq_cons_iff.1 hrest
  have hdocker : ∀ st ∈ trace, AnswersOwnId st := by
    intro st hst service timestamp key keys hact hphase
    have hsame := List.all_eq_true.1 hown st hst
    simp only [ownId, hact, hphase, beq_iff_eq] at hsame
    exact hsame
  exact ⟨trace, w, before, enq, after, hrun, htrace, htaken,
    (no_lost_update hrun hrunning hdocker htrace henq (by decide)).1 rfl⟩

end World

end SwarmExporter
