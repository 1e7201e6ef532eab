import Mathlib.Data.List.Dedup
import SwarmExporter.Reconciler.Memory

/-!
# Every cycle ends

`Phase.stepsLeft` bounds the steps a cycle still takes: a step of the cycle lowers it, whatever it was
answered, and the other tasks leave it alone. So a cycle is over after 72 steps of its own, and at each
of them it can go on: the reconciler takes any answer to the call it waits for (`step_answered`) and needs
nobody when it waits for none (`step_alone`). An answer comes, since every call has a deadline.
-/

namespace SwarmExporter

open Lib
open Docker (CallError Node Service)

/-- The steps a cycle may still take. -/
def Phase.stepsLeft : Phase → Nat
  | .idle => 0
  | .batch keys => 2 * keys.length + 1
  | .inspecting _ keys => 2 * keys.length + 2
  | .keysCheck _ => 66
  | .resyncNodesListing _ _ => 67
  | .servicesListing _ => 68
  | .resyncCheck _ => 69
  | .nodesListing _ => 70
  | .nodesCheck _ => 71

/-- An answer of Docker to a call of the reconciler. -/
inductive Reply where
  | nodes (listed : Except CallError (List Node))
  | services (listed : Except CallError (List Service))
  | service (result : Except CallError Service)

/-- The phase waits for a call that `reply` answers. -/
def Phase.Awaits : Phase → Reply → Prop
  | .nodesListing _, .nodes _ => True
  | .servicesListing _, .services _ => True
  | .resyncNodesListing _ _, .nodes _ => True
  | .inspecting _ _, .service _ => True
  | _, _ => False

/-- The phase waits for a call. -/
def Phase.awaits : Phase → Bool
  | .nodesListing _ => true
  | .servicesListing _ => true
  | .resyncNodesListing _ _ => true
  | .inspecting _ _ => true
  | _ => false

/-- The action brings `reply`. -/
def Action.Brings : Action → Reply → Prop
  | .nodesListed listed _ _, .nodes listed' => listed = listed'
  | .resyncNodesListed listed _ _ fault _, .nodes listed' => listed = listed' ∧ fault = none
  | .servicesListed listed, .services listed' => listed = listed'
  | .inspected result _, .service result' => result = result'
  | _, _ => False

def Action.beginsCycle : Action → Bool
  | .beginCycle _ => true
  | _ => false

namespace World

variable [HostText] {config : Config} {trace : List (Step World Action)} {w w' : World}
  {action : Action}

/-- **A step of the cycle brings it nearer to its end.** -/
theorem step_stepsLeft (hdirty : w.reconciler.DirtyInv) (h : w.step action = some w')
    (hbegins : action.beginsCycle = false) :
    w'.phase.stepsLeft + action.isCycle.toNat ≤ w.phase.stepsLeft := by
  by_cases hcycle : action.isCycle = true
  · rw [hcycle]
    have hmoves := step_moves h hcycle
    generalize hpre : w.phase = phase at hmoves
    generalize hpost : w'.phase = phase' at hmoves
    cases hmoves with
    | begins => cases hbegins
    | asksNodes => exact Nat.le_refl _
    | skipsNodes => exact Nat.le_succ _
    | refreshes => exact Nat.le_refl _
    | starts => exact Nat.le_refl _
    | skipsResync =>
      show 66 + 1 ≤ 69
      decide
    | listsNodes => exact Nat.le_refl _
    | ends hpass =>
      cases phase with
      | servicesListing pass =>
        show 66 + 1 ≤ 68
        decide
      | resyncNodesListing pass services =>
        show 66 + 1 ≤ 67
        decide
      | _ => cases hpass
    | takes =>
      rename_i now keys
      simp only [step, cycleStep, hpre, Option.some.injEq] at h
      subst h
      have hlength := State.length_takeDueKeys_le hdirty.pending now
      cases hpost
      show 2 * _ + 1 + 1 ≤ 66
      rw [serviceKeysPerCycle] at hlength
      omega
    | inspects =>
      simp only [Phase.stepsLeft, List.length_cons, Bool.toNat_true]
      omega
    | answers => exact Nat.le_refl _
    | finishes =>
      simp only [Phase.stepsLeft, Bool.toNat_true]
      omega
  · rw [step_phase h (by simpa using hcycle)]
    simp [hcycle]

omit [HostText] in
/-- The ids a resync reads can be read in some order. -/
theorem exists_readsIds (w : World) (services : List Service) : ∃ ids, w.ReadsIds services ids := by
  refine ⟨(w.reconciler.metadata.keys ++ services.map (·.id)).dedup, List.nodup_dedup _, fun id => ?_⟩
  rw [List.mem_dedup, List.mem_append, Std.ExtTreeMap.mem_keys]

/-- **Any answer to the call in progress is taken.** -/
theorem step_answered (hclock : w.start ≤ w.clock) {reply : Reply} (hawaits : w.phase.Awaits reply) :
    ∃ action, action.isCycle = true ∧ action.beginsCycle = false ∧ action.Brings reply ∧
      (w.step action).isSome = true := by
  have hreads : w.Reads w.clock := ⟨hclock, le_rfl⟩
  have hvisit := enumerates_keys w.reconciler.metadata
  cases hphase : w.phase with
  | nodesListing now =>
    rw [hphase] at hawaits
    cases reply with
    | nodes listed =>
      refine ⟨.nodesListed listed w.reconciler.metadata.keys w.clock, rfl, rfl, rfl, ?_⟩
      simp only [step, cycleStep, hphase, if_pos (And.intro hvisit hreads)]
      rfl
    | _ => cases hawaits
  | servicesListing pass =>
    rw [hphase] at hawaits
    cases reply with
    | services listed =>
      cases listed with
      | ok services =>
        refine ⟨.servicesListed (.ok services), rfl, rfl, rfl, ?_⟩
        simp only [step, cycleStep, hphase]
        rfl
      | error error =>
        refine ⟨.servicesListed (.error error), rfl, rfl, rfl, ?_⟩
        simp only [step, cycleStep, hphase]
        rfl
    | _ => cases hawaits
  | resyncNodesListing pass services =>
    rw [hphase] at hawaits
    cases reply with
    | nodes listed =>
      obtain ⟨ids, hids⟩ := exists_readsIds w services
      refine ⟨.resyncNodesListed listed w.reconciler.metadata.keys ids none w.clock, rfl, rfl,
        ⟨rfl, rfl⟩, ?_⟩
      simp only [step, cycleStep, hphase, if_pos (And.intro hvisit (And.intro hids hreads))]
      rfl
    | _ => cases hawaits
  | inspecting key keys =>
    rw [hphase] at hawaits
    cases reply with
    | service result =>
      refine ⟨.inspected result w.clock, rfl, rfl, rfl, ?_⟩
      simp only [step, cycleStep, hphase, if_pos hreads]
      rfl
    | _ => cases hawaits
  | _ =>
    rw [hphase] at hawaits
    cases reply <;> cases hawaits

/-- **Without a call in progress the cycle goes on by itself.** -/
theorem step_alone (hclock : w.start ≤ w.clock) (hidle : w.phase ≠ .idle)
    (hawaits : w.phase.awaits = false) :
    ∃ action, action.isCycle = true ∧ action.beginsCycle = false ∧ (w.step action).isSome = true := by
  have hreads : w.Reads w.clock := ⟨hclock, le_rfl⟩
  cases hphase : w.phase with
  | idle => exact absurd hphase hidle
  | nodesCheck now =>
    refine ⟨.checkNodes, rfl, rfl, ?_⟩
    simp only [step, cycleStep, hphase]
    split <;> rfl
  | resyncCheck now =>
    refine ⟨.checkResync w.clock, rfl, rfl, ?_⟩
    simp only [step, cycleStep, hphase, if_pos hreads]
    split <;> rfl
  | keysCheck now =>
    refine ⟨.takeDueKeys, rfl, rfl, ?_⟩
    simp only [step, cycleStep, hphase]
    rfl
  | batch keys =>
    by_cases hends : keys = [] ∨ w.cancelled = true
    · refine ⟨.endCycle, rfl, rfl, ?_⟩
      simp only [step, cycleStep, hphase, if_pos hends]
      rfl
    · obtain ⟨hkeys, halive⟩ := not_or.1 hends
      obtain ⟨key, rest, rfl⟩ := List.exists_cons_of_ne_nil hkeys
      refine ⟨.startInspect, rfl, rfl, ?_⟩
      simp only [step, cycleStep, hphase, if_pos (Bool.eq_false_of_not_eq_true halive)]
      rfl
  | _ =>
    rw [hphase] at hawaits
    cases hawaits

/-- The step takes the answer `docker` gives there, if its cycle waits for one. -/
def Heeds (docker : World → Reply) (st : Step World Action) : Prop :=
  st.act.isCycle = true ∧ (st.pre.phase.awaits = true → st.act.Brings (docker st.pre))

theorem Runs.start_le_clock (h : Runs config trace w) : w.start ≤ w.clock := by
  refine Run.invariant (fun w => w.start ≤ w.clock) (le_refl config.clock) ?_ h
  intro w action w' hle hstep
  have hadvances := step_advances hstep
  rw [hadvances.start]
  exact hle.trans hadvances.clock

/-- From any state the cycle can be brought to its end, whatever Docker answers. -/
theorem exists_end {docker : World → Reply}
    (hdocker : ∀ w : World, w.phase.awaits = true → w.phase.Awaits (docker w))
    (h : Runs config trace w) : ∃ rest w', Run step w rest w' ∧ w'.phase = .idle ∧
      rest.length ≤ w.phase.stepsLeft ∧ ∀ st ∈ rest, Heeds docker st := by
  have hnext : ∀ w : World, (∃ trace, Runs config trace w) → ¬w.phase = .idle →
      ∃ action next, w.step action = some next ∧ Heeds docker ⟨w, action, next⟩ ∧
        (∃ trace, Runs config trace next) ∧ next.phase.stepsLeft < w.phase.stepsLeft := by
    intro w hreached hbusy
    obtain ⟨trace, hrun⟩ := hreached
    obtain ⟨action, hcycle, hbegins, hbrings, hstep⟩ : ∃ action : Action, action.isCycle = true ∧
        action.beginsCycle = false ∧ (w.phase.awaits = true → action.Brings (docker w)) ∧
        (w.step action).isSome = true := by
      cases hawaits : w.phase.awaits with
      | true =>
        obtain ⟨action, hcycle, hbegins, hbrings, hstep⟩ :=
          step_answered (Runs.start_le_clock hrun) (hdocker w hawaits)
        exact ⟨action, hcycle, hbegins, fun _ => hbrings, hstep⟩
      | false =>
        obtain ⟨action, hcycle, hbegins, hstep⟩ := step_alone (Runs.start_le_clock hrun) hbusy hawaits
        exact ⟨action, hcycle, hbegins, (fun hawaits => by cases hawaits), hstep⟩
    obtain ⟨next, hnext⟩ := Option.isSome_iff_exists.1 hstep
    have hlower := step_stepsLeft (Runs.dirtyInv hrun) hnext hbegins
    rw [hcycle, Bool.toNat_true] at hlower
    exact ⟨action, next, hnext, ⟨hcycle, hbrings⟩, ⟨_, hrun.snoc hnext⟩, by omega⟩
  obtain ⟨rest, w', hrest, -, hend, hlength, hheeds⟩ :=
    Run.exists_done (fun w : World => w.phase.stepsLeft) (fun w => ∃ trace, Runs config trace w)
      (fun w => w.phase = .idle) (Heeds docker) hnext ⟨trace, h⟩
  exact ⟨rest, w', hrest, hend, hlength, hheeds⟩

/-- **Every cycle ends.** In every run a cycle has taken at most 72 steps of its own, the first included,
and together with those it may still take no more; and from every state, whatever Docker answers to the
calls it is still to make, at most that many steps lead to its end. Between two cycles the next one can
begin, unless the exporter is cancelled. -/
theorem cycle_ends (h : Runs config trace w) :
    (∀ older st recent, trace = older ++ st :: recent → st.act.beginsCycle = true →
      (∀ later ∈ recent, later.act.beginsCycle = false) →
      1 + recent.countP (·.act.isCycle) + w.phase.stepsLeft ≤ 72) ∧
    (∀ docker : World → Reply,
      (∀ w : World, w.phase.awaits = true → w.phase.Awaits (docker w)) →
      ∃ rest w', Run step w rest w' ∧ w'.phase = .idle ∧ rest.length ≤ w.phase.stepsLeft ∧
        ∀ st ∈ rest, Heeds docker st) ∧
    (w.phase = .idle → w.cancelled = false → (w.step (.beginCycle w.clock)).isSome = true) := by
  refine ⟨fun older st recent htrace hbegins hlater => ?_, fun docker hdocker => exists_end hdocker h,
    fun hidle halive => ?_⟩
  · subst htrace
    obtain ⟨hbefore, hstep, hrecent⟩ := Run.of_mid h
    have hstart : st.post.phase.stepsLeft = 71 := by
      cases hact : st.act with
      | beginCycle timestamp =>
        rw [hact] at hstep
        simp only [step, cycleStep] at hstep
        split at hstep
        · simp only [Option.ite_none_right_eq_some, Option.some.injEq] at hstep
          rw [← hstep.2]
          rfl
        · cases hstep
      | _ =>
        rw [hact] at hbegins
        cases hbegins
    have hbound : (∀ later ∈ recent, later.act.beginsCycle = false) →
        recent.countP (·.act.isCycle) + w.phase.stepsLeft ≤ 71 := by
      refine Run.history (fun recent w => (∀ later ∈ recent, later.act.beginsCycle = false) →
        recent.countP (·.act.isCycle) + w.phase.stepsLeft ≤ 71) (fun _ => by simp [hstart]) ?_ hrecent
      intro recent w action w' hrun hinv hnext hnone
      have hreached := (hbefore.snoc hstep).append hrun
      have hle := hinv fun later hmem => hnone later (List.mem_append_left _ hmem)
      have hlower := step_stepsLeft (Runs.dirtyInv hreached) hnext
        (hnone ⟨w, action, w'⟩ (by simp))
      rw [List.countP_append, List.countP_singleton]
      cases hcycle : action.isCycle <;> simp [hcycle] at hlower ⊢ <;> omega
    have hle := hbound hlater
    omega
  · have hreads : w.Reads w.clock := ⟨h.start_le_clock, le_rfl⟩
    simp only [step, cycleStep, hidle, if_pos (And.intro halive hreads)]
    rfl

end World

namespace Sample

/-- An engine that answers every call with an error. -/
def deadEngine (w : World) : Reply :=
  match w.phase with
  | .servicesListing _ => .services (.error timedOut)
  | .inspecting _ _ => .service (.error timedOut)
  | _ => .nodes (.error timedOut)

theorem deadEngine_awaits (w : World) (hawaits : w.phase.awaits = true) :
    w.phase.Awaits (deadEngine w) := by
  unfold deadEngine
  cases hphase : w.phase <;> first | trivial | (rw [hphase] at hawaits; cases hawaits)

end Sample

open Sample in
/-- The first cycle ends although no call succeeds. -/
theorem World.cycle_ends_sample : ∃ trace w rest w', Runs config trace w ∧
    w.phase.stepsLeft = 68 ∧ Run World.step w rest w' ∧ w'.phase = .idle ∧ rest.length ≤ 68 := by
  have hreplay : (replay World.step (init config)
      [.beginCycle 1000, .checkNodes, .checkResync 1000]).any
      (fun result => decide (result.2.phase.stepsLeft = 68)) = true := by
    decide +kernel
  obtain ⟨trace, w, hrun, -, hcheck⟩ := exists_run_of_replay hreplay
  have hleft := of_decide_eq_true hcheck
  obtain ⟨rest, w', hrest, hidle, hlength, -⟩ := (cycle_ends hrun).2.1 deadEngine deadEngine_awaits
  exact ⟨trace, w, rest, w', hrun, hleft, hrest, hidle, hleft ▸ hlength⟩

end SwarmExporter
