import SwarmExporter.Reconciler.Counters

/-!
# The calls in flight and the passes that complete

A phase that waits for Docker was entered by the step that started the call, and only steps of other
tasks ran since (`InFlight`). A completed pass is therefore two calls, both started after the pass read
its target and both answered before it was applied; nothing else moves `resyncCompleted`.
-/

namespace SwarmExporter

open Lib
open Docker (CallError Event Node Service)

/-- The pass a resync in progress belongs to. -/
def Phase.pass? : Phase → Option Pass
  | .servicesListing pass => some pass
  | .resyncNodesListing pass _ => some pass
  | _ => none

namespace World

/-- `call prior st` holds of the last cycle step `st` of the trace, `prior` being the trace before
it. -/
def LastCycle (call : List (Step World Action) → Step World Action → Prop)
    (trace : List (Step World Action)) : Prop :=
  ∃ prior st since, trace = prior ++ st :: since ∧ call prior st ∧
    ∀ other ∈ since, other.act.isCycle = false

theorem LastCycle.of_last {call : List (Step World Action) → Step World Action → Prop}
    {trace : List (Step World Action)} {st : Step World Action} (h : call trace st) :
    LastCycle call (trace ++ [st]) :=
  ⟨trace, st, [], rfl, h, by simp⟩

theorem LastCycle.extend {call : List (Step World Action) → Step World Action → Prop}
    {trace : List (Step World Action)} {st : Step World Action} (h : LastCycle call trace)
    (hst : st.act.isCycle = false) : LastCycle call (trace ++ [st]) := by
  obtain ⟨prior, last, since, rfl, hcall, hsince⟩ := h
  refine ⟨prior, last, since ++ [st], by simp, hcall, fun other hother => ?_⟩
  rcases List.mem_append.1 hother with hmem | hmem
  · exact hsince other hmem
  · obtain rfl := List.mem_singleton.1 hmem
    exact hst

/-- `st` reads the target of `pass` and starts its service list. -/
def StartsPass (pass : Pass) (st : Step World Action) : Prop :=
  st.act = .checkResync pass.passStart ∧ st.post.phase = .servicesListing pass ∧
    st.pre.reconciler.state.resyncRequested = pass.target

/-- `st` takes the services listed for the pass and starts its node list. -/
def ListsServices (services : List Service) (prior : List (Step World Action))
    (st : Step World Action) (pass : Pass) : Prop :=
  st.act = .servicesListed (.ok services) ∧ LastCycle (fun _ => StartsPass pass) prior

/-- The call a phase waits for was started by the last cycle step. -/
def InFlight (trace : List (Step World Action)) : Phase → Prop
  | .nodesListing _ => LastCycle (fun _ st => st.act = .checkNodes ∧
      st.post.reconciler.state.nodesDirty = false) trace
  | .servicesListing pass => LastCycle (fun _ => StartsPass pass) trace
  | .resyncNodesListing pass services =>
    LastCycle (fun prior st => ListsServices services prior st pass) trace
  | .inspecting key keys => LastCycle (fun _ st => st.act = .startInspect ∧
      st.pre.phase = .batch (key :: keys)) trace
  | _ => True

section Steps

variable [HostText] {w w' : World} {action : Action}

/-- Only a cycle step moves the phase. -/
theorem step_phase (h : w.step action = some w') (hcycle : action.isCycle = false) :
    w'.phase = w.phase :=
  (step_advances h).phase hcycle

/-- What a cycle step from `w` to `w'` does to the phase: where it came from and leads to, and what it
checked or wrote on the way. -/
inductive Moves (w w' : World) : Action → Phase → Phase → Prop
  | begins {timestamp : Timestamp} : w.cancelled = false →
      Moves w w' (.beginCycle timestamp) .idle (.nodesCheck w.instant)
  | asksNodes {now : Instant} :
      w'.reconciler = w.reconciler.modifyState ({ · with nodesDirty := false }) →
      Moves w w' .checkNodes (.nodesCheck now) (.nodesListing now)
  | skipsNodes {now : Instant} : Moves w w' .checkNodes (.nodesCheck now) (.resyncCheck now)
  | refreshes {action : Action} {now : Instant} :
      (∃ listed visit timestamp, action = .nodesListed listed visit timestamp) ∨
        (∃ timestamp, action = .stepPanics timestamp) ∨ w.cancelled = true →
      Moves w w' action (.nodesListing now) (.resyncCheck now)
  | starts {now : Instant} {passStart : Timestamp} : w.reconciler.resyncDue now = true →
      w'.reconciler = w.reconciler → Moves w w' (.checkResync passStart) (.resyncCheck now)
        (.servicesListing ⟨now, passStart, w.reconciler.state.resyncRequested⟩)
  | skipsResync {passStart : Timestamp} {now : Instant} :
      Moves w w' (.checkResync passStart) (.resyncCheck now) (.keysCheck now)
  | listsNodes {pass : Pass} {services : List Service} : w'.reconciler = w.reconciler →
      Moves w w' (.servicesListed (.ok services)) (.servicesListing pass)
        (.resyncNodesListing pass services)
  | ends {action : Action} {phase : Phase} {pass : Pass} : phase.pass? = some pass →
      Moves w w' action phase (.keysCheck pass.now)
  | takes {now : Instant} {keys : List DueKey} : Moves w w' .takeDueKeys (.keysCheck now) (.batch keys)
  | inspects {key : DueKey} {keys : List DueKey} : w'.reconciler = w.reconciler →
      Moves w w' .startInspect (.batch (key :: keys)) (.inspecting key keys)
  | answers {action : Action} {key : DueKey} {keys : List DueKey} :
      (∃ result timestamp, action = .inspected result timestamp) ∨
        (∃ timestamp, action = .stepPanics timestamp) ∨ w.cancelled = true →
      Moves w w' action (.inspecting key keys) (.batch keys)
  | finishes {keys : List DueKey} : keys = [] ∨ w.cancelled = true →
      Moves w w' .endCycle (.batch keys) .idle

theorem step_moves (h : w.step action = some w') (hcycle : action.isCycle = true) :
    Moves w w' action w.phase w'.phase := by
  cases action with
  | beginCycle timestamp =>
    simp only [step, cycleStep] at h
    split at h
    · rename_i hphase
      simp only [Option.ite_none_right_eq_some, Option.some.injEq] at h
      obtain ⟨⟨hcancelled, -⟩, rfl⟩ := h
      rw [hphase]
      exact .begins hcancelled
    · cases h
  | checkNodes =>
    simp only [step, cycleStep] at h
    split at h
    · rename_i now hphase
      rw [hphase]
      split at h
      · cases h
        exact .asksNodes rfl
      · cases h
        exact .skipsNodes
    · cases h
  | nodesListed listed visit timestamp =>
    simp only [step, cycleStep] at h
    split at h
    · rename_i now hphase
      simp only [Option.ite_none_right_eq_some, Option.some.injEq] at h
      obtain ⟨-, rfl⟩ := h
      rw [hphase]
      exact .refreshes (.inl ⟨listed, visit, timestamp, rfl⟩)
    · cases h
  | checkResync passStart =>
    simp only [step, cycleStep] at h
    split at h
    · rename_i now hphase
      simp only [Option.ite_none_right_eq_some] at h
      obtain ⟨-, h⟩ := h
      rw [hphase]
      split at h
      · rename_i hdue
        cases h
        exact .starts hdue rfl
      · cases h
        exact .skipsResync
    · cases h
  | servicesListed listed =>
    simp only [step, cycleStep] at h
    split at h
    · rename_i pass hphase
      rw [hphase]
      split at h
      · cases h
        exact .listsNodes rfl
      · cases h
        exact .ends rfl
    · cases h
  | resyncNodesListed listed visit ids fault timestamp =>
    simp only [step, cycleStep] at h
    split at h
    · rename_i pass services hphase
      simp only [Option.ite_none_right_eq_some, Option.some.injEq] at h
      obtain ⟨-, rfl⟩ := h
      rw [hphase]
      exact .ends rfl
    · cases h
  | takeDueKeys =>
    simp only [step, cycleStep] at h
    split at h
    · rename_i now hphase
      cases h
      rw [hphase]
      exact .takes
    · cases h
  | startInspect =>
    simp only [step, cycleStep] at h
    split at h
    · rename_i key keys hphase
      simp only [Option.ite_none_right_eq_some, Option.some.injEq] at h
      obtain ⟨-, rfl⟩ := h
      rw [hphase]
      exact .inspects rfl
    · cases h
  | inspected result timestamp =>
    simp only [step, cycleStep] at h
    split at h
    · rename_i key keys hphase
      simp only [Option.ite_none_right_eq_some, Option.some.injEq] at h
      obtain ⟨-, rfl⟩ := h
      rw [hphase]
      exact .answers (.inl ⟨result, timestamp, rfl⟩)
    · cases h
  | endCycle =>
    simp only [step, cycleStep] at h
    split at h
    · rename_i keys hphase
      simp only [Option.ite_none_right_eq_some, Option.some.injEq] at h
      obtain ⟨hdone, rfl⟩ := h
      rw [hphase]
      exact .finishes hdone
    · cases h
  | stepPanics timestamp =>
    simp only [step, cycleStep, Option.ite_none_right_eq_some] at h
    obtain ⟨-, h⟩ := h
    split at h
    · rename_i now hphase
      cases h
      rw [hphase]
      exact .refreshes (.inr (.inl ⟨timestamp, rfl⟩))
    · rename_i pass hphase
      cases h
      rw [hphase]
      exact .ends rfl
    · rename_i pass services hphase
      cases h
      rw [hphase]
      exact .ends rfl
    · rename_i key keys hphase
      cases h
      rw [hphase]
      exact .answers (.inr (.inl ⟨timestamp, rfl⟩))
    · cases h
  | stepCancelled =>
    simp only [step, cycleStep, Option.ite_none_right_eq_some] at h
    obtain ⟨hcancelled, h⟩ := h
    split at h
    · rename_i now hphase
      cases h
      rw [hphase]
      exact .refreshes (.inr (.inr hcancelled))
    · rename_i pass hphase
      cases h
      rw [hphase]
      exact .ends rfl
    · rename_i pass services hphase
      cases h
      rw [hphase]
      exact .ends rfl
    · rename_i key keys hphase
      cases h
      rw [hphase]
      exact .answers (.inr (.inr hcancelled))
    · cases h
  | _ => cases hcycle

/-- What a cycle step that starts a call to Docker did. -/
def Starts (w : World) (action : Action) (w' : World) : Phase → Prop
  | .nodesListing now => action = .checkNodes ∧ w.phase = .nodesCheck now ∧
      w'.reconciler = w.reconciler.modifyState ({ · with nodesDirty := false })
  | .servicesListing pass => action = .checkResync pass.passStart ∧
      pass.target = w.reconciler.state.resyncRequested ∧ w'.reconciler = w.reconciler
  | .resyncNodesListing pass services => action = .servicesListed (.ok services) ∧
      w.phase = .servicesListing pass ∧ w'.reconciler = w.reconciler
  | .inspecting key keys => action = .startInspect ∧ w.phase = .batch (key :: keys) ∧
      w'.reconciler = w.reconciler
  | _ => True

theorem step_starts (h : w.step action = some w') (hcycle : action.isCycle = true) :
    Starts w action w' w'.phase := by
  have hmoves := step_moves h hcycle
  generalize hpre : w.phase = phase at hmoves
  generalize w'.phase = phase' at hmoves
  cases hmoves with
  | asksNodes hreconciler => exact ⟨rfl, hpre, hreconciler⟩
  | starts _ hreconciler => exact ⟨rfl, rfl, hreconciler⟩
  | listsNodes hreconciler => exact ⟨rfl, hpre, hreconciler⟩
  | inspects hreconciler => exact ⟨rfl, hpre, hreconciler⟩
  | _ => trivial

omit [HostText] in
theorem InFlight.extend {trace : List (Step World Action)} {st : Step World Action} {phase : Phase}
    (h : InFlight trace phase) (hst : st.act.isCycle = false) : InFlight (trace ++ [st]) phase := by
  cases phase with
  | nodesListing now => exact LastCycle.extend h hst
  | servicesListing pass => exact LastCycle.extend h hst
  | resyncNodesListing pass services => exact LastCycle.extend h hst
  | inspecting key keys => exact LastCycle.extend h hst
  | _ => trivial

/-- **What a phase waits for was asked for by the last cycle step.** -/
theorem Runs.inFlight {config : Config} {trace : List (Step World Action)}
    (h : Runs config trace w) : InFlight trace w.phase := by
  refine Run.history (fun trace w => InFlight trace w.phase)
    (show InFlight [] (init config).phase from trivial) ?_ h
  intro trace w action w' _ hinv hstep
  by_cases hcycle : action.isCycle = true
  · have hstarts := step_starts hstep hcycle
    cases hphase : w'.phase with
    | nodesListing now =>
      rw [hphase] at hstarts
      obtain ⟨rfl, -, hreconciler⟩ := hstarts
      exact .of_last ⟨rfl, by rw [hreconciler]; rfl⟩
    | servicesListing pass =>
      rw [hphase] at hstarts
      obtain ⟨rfl, htarget, -⟩ := hstarts
      exact .of_last ⟨rfl, hphase, htarget.symm⟩
    | resyncNodesListing pass services =>
      rw [hphase] at hstarts
      obtain ⟨rfl, hlisting, -⟩ := hstarts
      rw [hlisting] at hinv
      exact .of_last ⟨rfl, hinv⟩
    | inspecting key keys =>
      rw [hphase] at hstarts
      obtain ⟨rfl, hbatch, -⟩ := hstarts
      exact .of_last ⟨rfl, hbatch⟩
    | _ => trivial
  · rw [Bool.not_eq_true] at hcycle
    rw [step_phase hstep hcycle]
    exact hinv.extend hcycle

/-! ## The counters along a run -/

/-- No more requests are completed than raised, and the target of the pass in progress lies between. -/
structure Counted (w : World) : Prop where
  counted : w.reconciler.state.resyncCompleted ≤ w.reconciler.state.resyncRequested
  target : ∀ pass, w.phase.pass? = some pass →
    w.reconciler.state.resyncCompleted ≤ pass.target ∧
      pass.target ≤ w.reconciler.state.resyncRequested

/-- A pass in progress was so before, or this step read its target. -/
theorem step_pass (h : w.step action = some w') {pass : Pass} (hpass : w'.phase.pass? = some pass) :
    w.phase.pass? = some pass ∨ action = .checkResync pass.passStart ∧
      pass.target = w.reconciler.state.resyncRequested ∧ w'.reconciler = w.reconciler := by
  by_cases hcycle : action.isCycle = true
  · have hstarts := step_starts h hcycle
    cases hphase : w'.phase with
    | servicesListing started =>
      rw [hphase] at hstarts hpass
      obtain rfl : started = pass := Option.some.inj hpass
      exact .inr hstarts
    | resyncNodesListing started services =>
      rw [hphase] at hstarts hpass
      obtain rfl : started = pass := Option.some.inj hpass
      rw [hstarts.2.1]
      exact .inl rfl
    | _ =>
      rw [hphase] at hpass
      cases hpass
  · rw [Bool.not_eq_true] at hcycle
    rw [step_phase h hcycle] at hpass
    exact .inl hpass

theorem step_counted (wired : w.reconciler.Wired) (hinv : w.Counted) (h : w.step action = some w') :
    w'.Counted := by
  rcases step_resync wired hinv.counted h with ⟨hraises, -⟩ | hcompletes
  · refine ⟨hraises.counted hinv.counted, fun pass hpass => ?_⟩
    have hcompleted : w'.reconciler.state.resyncCompleted = w.reconciler.state.resyncCompleted :=
      hraises.completed
    have hrequested : w.reconciler.state.resyncRequested ≤ w'.reconciler.state.resyncRequested :=
      hraises.requested
    rcases step_pass h hpass with hbefore | ⟨-, htarget, hreconciler⟩
    · obtain ⟨hlow, hhigh⟩ := hinv.target pass hbefore
      omega
    · rw [hreconciler, htarget]
      exact ⟨hinv.counted, le_rfl⟩
  · obtain ⟨pass, services, nodes, visit, ids, timestamp, hphase, rfl, -, -, hresyncs, -⟩ := hcompletes
    simp only [State.resyncs, State.completeResync, Resyncs.mk.injEq] at hresyncs
    obtain ⟨hlow, hhigh⟩ := hinv.target pass (by rw [hphase]; rfl)
    have hcounted := hinv.counted
    refine ⟨by omega, fun other hother => ?_⟩
    rcases step_pass h hother with hbefore | ⟨hact, -⟩
    · rw [hphase] at hbefore
      obtain rfl : pass = other := Option.some.inj hbefore
      omega
    · cases hact

theorem Runs.counted {config : Config} {trace : List (Step World Action)}
    (h : Runs config trace w) : w.Counted := by
  refine Run.history (fun _ w => w.Counted) ?_ ?_ h
  · exact ⟨Nat.zero_le 1, fun pass hpass => by cases hpass⟩
  · intro trace w action w' hrun hinv hstep
    exact step_counted (Runs.wired hrun) hinv hstep

/-- The step that finishes a pass of which both lists were fully applied, after the trace `before`:
`listing` read the target and asked for the services, `listed` asked for the nodes. -/
structure CompletesPass (before : List (Step World Action)) (finish : Step World Action)
    (listing : Step World Action) : Prop where
  passed : ∃ pass services nodes visit ids timestamp prior waiting listed waiting',
    before = prior ++ listing :: waiting ++ listed :: waiting' ∧
    StartsPass pass listing ∧
    listed.act = .servicesListed (.ok services) ∧
    finish.act = .resyncNodesListed (.ok nodes) visit ids none timestamp ∧
    ∃ ops, Reconciler.Performs finish.pre.reconciler ops finish.post.reconciler ∧
      essential ops = Reconciler.resyncOps services nodes visit ids ++
        [.completeResync pass.target pass.passStart finish.pre.instant timestamp]
  completed : finish.post.reconciler.state.resyncCompleted =
    listing.pre.reconciler.state.resyncRequested

/-- What a pass that is not completed leaves alone. -/
def KeepsSuccess (st : Step World Action) : Prop :=
  st.post.reconciler.state.resyncCompleted = st.pre.reconciler.state.resyncCompleted ∧
    st.post.reconciler.ready = st.pre.reconciler.ready ∧
    st.post.reconciler.metrics.timestamps.resyncSuccess =
      st.pre.reconciler.metrics.timestamps.resyncSuccess

/-- **A step keeps what a completed resync moves, or it finishes a pass.** -/
theorem step_completesPass {config : Config} {before : List (Step World Action)}
    (hrun : Runs config before w) (h : w.step action = some w') :
    KeepsSuccess ⟨w, action, w'⟩ ∨ ∃ listing, CompletesPass before ⟨w, action, w'⟩ listing := by
  have hcounted := Runs.counted hrun
  rcases step_resync (Runs.wired hrun) hcounted.counted h with ⟨hraises, hready, hsuccess⟩ | hcompletes
  · exact .inl ⟨hraises.completed, hready, hsuccess⟩
  · obtain ⟨pass, services, nodes, visit, ids, timestamp, hphase, rfl, -, hops, hresyncs, -⟩ :=
      hcompletes
    have hflight := Runs.inFlight hrun
    rw [hphase] at hflight
    obtain ⟨prior', listed, waiting', rfl, ⟨hlisted, hlast⟩, -⟩ := hflight
    obtain ⟨prior, listing, waiting, rfl, hstarts, -⟩ := hlast
    obtain ⟨hlow, -⟩ := hcounted.target pass (by rw [hphase]; rfl)
    refine .inr ⟨listing, ⟨pass, services, nodes, visit, ids, timestamp, prior, waiting, listed,
      waiting', rfl, hstarts, hlisted, rfl, hops⟩, ?_⟩
    simp only [State.resyncs, State.completeResync, Resyncs.mk.injEq] at hresyncs
    rw [hstarts.2.2]
    exact hresyncs.2.1.trans (max_eq_right hlow)

/-- When `k` requests count as completed, a pass that listed after request `k` was completed. -/
theorem completed_passes {config : Config} {trace : List (Step World Action)} {w : World}
    (h : Runs config trace w) : ∀ k, 0 < k → k ≤ w.reconciler.state.resyncCompleted →
      ∃ before finish after listing, trace = before ++ finish :: after ∧
        CompletesPass before finish listing ∧
          k ≤ listing.pre.reconciler.state.resyncRequested := by
  refine Run.history (fun trace w => ∀ k, 0 < k → k ≤ w.reconciler.state.resyncCompleted →
    ∃ before finish after listing, trace = before ++ finish :: after ∧
      CompletesPass before finish listing ∧
        k ≤ listing.pre.reconciler.state.resyncRequested) ?_ ?_ h
  · intro k hpos hk
    exact absurd hk (Nat.not_le.2 hpos)
  · intro trace w action w' hrun hinv hstep k hpos hk
    rcases step_completesPass hrun hstep with hkeeps | ⟨listing, hpass⟩
    · have hcompleted := hkeeps.1
      obtain ⟨before, finish, after, listing, rfl, hpass, hlisting⟩ :=
        hinv k hpos (hcompleted ▸ hk)
      exact ⟨before, finish, after ++ [⟨w, action, w'⟩], listing, by simp, hpass, hlisting⟩
    · exact ⟨trace, ⟨w, action, w'⟩, [], listing, rfl, hpass, hpass.completed ▸ hk⟩

/-- **A request is only served by a pass that listed after it**: when `k` requests count as completed,
some pass asked for both of its lists after request `k` was raised, got them and applied them fully;
it moved the count to the requests raised before it read its target. A step that does not finish such
a pass moves neither the count nor the ready flag nor the time of the last success. -/
theorem request_served_by_later_pass {config : Config} {trace : List (Step World Action)} {w : World}
    (h : Runs config trace w) :
    (∀ k, 0 < k → k ≤ w.reconciler.state.resyncCompleted →
      ∃ before finish after listing, trace = before ++ finish :: after ∧
        CompletesPass before finish listing ∧ k ≤ listing.pre.reconciler.state.resyncRequested) ∧
    ∀ before st after, trace = before ++ st :: after →
      KeepsSuccess st ∨ ∃ listing, CompletesPass before st listing := by
  refine ⟨completed_passes h, ?_⟩
  rintro before st after rfl
  obtain ⟨hbefore, hstep, -⟩ := Run.of_mid h
  exact step_completesPass hbefore hstep

end Steps

open Sample in
/-- A second request lands while the first pass waits for its service list: it stays open. -/
theorem request_served_by_later_pass_sample : ∃ trace w, Runs config trace w ∧
    w.reconciler.state.resyncRequested = 2 ∧ w.reconciler.state.resyncCompleted = 1 ∧
    ∃ before finish after listing, trace = before ++ finish :: after ∧
      CompletesPass before finish listing ∧ 1 ≤ listing.pre.reconciler.state.resyncRequested := by
  let acts : List Action :=
    [.beginCycle 1000, .checkNodes, .checkResync 1000, .requestResync 1000,
      .servicesListed (.ok [replicated "web" "web" 2]),
      .resyncNodesListed (.ok [node]) [] ["web"] none 1000]
  have hreplay : (replay step (init config) acts).any (fun result =>
      decide (result.2.reconciler.state.resyncRequested = 2 ∧
        result.2.reconciler.state.resyncCompleted = 1)) = true := by
    decide +kernel
  obtain ⟨trace, w, hrun, -, hcheck⟩ := exists_run_of_replay hreplay
  obtain ⟨hrequested, hcompleted⟩ := of_decide_eq_true hcheck
  exact ⟨trace, w, hrun, hrequested, hcompleted,
    (request_served_by_later_pass hrun).1 1 Nat.one_pos hcompleted.ge⟩

end World

end SwarmExporter
