import SwarmExporter.Reconciler.RateLimit

/-!
# How far an outstanding resync is put off

A recovered panic schedules the next resync after the backoff, like a failed attempt does, and so puts
off one that is already outstanding: a service that panics again and again holds the resync back for as
long as it does. The resync is due at most the longest backoff after the last attempt or recovered
panic, and no other step moves it.
-/

namespace SwarmExporter

open Lib
open Docker (CallError Event Node Service)

namespace World

/-- The step raises the request with which a resync becomes outstanding. -/
def OpensPeriod (st : Step World Action) : Prop :=
  st.pre.reconciler.state.resyncRequested = st.pre.reconciler.state.resyncCompleted ∧
    st.post.reconciler.state.resyncCompleted < st.post.reconciler.state.resyncRequested

instance (st : Step World Action) : Decidable (OpensPeriod st) := inferInstanceAs (Decidable (_ ∧ _))

instance (st : Step World Action) : Decidable (EndsAttempt st) := inferInstanceAs (Decidable (_ ∧ _))

/-- The next resync is due at most the longest backoff after the start and the last step of the trace
that `marks`. -/
def DueWithin (marks : Step World Action → Prop) (config : Config) (trace : List (Step World Action))
    (w : World) : Prop :=
  ∀ time, config.instant ≤ time → (∀ st ∈ trace, marks st → st.pre.instant ≤ time) →
    ∀ notBefore, w.reconciler.resyncNotBefore = some notBefore →
      notBefore ≤ time + config.policy.backoffMax

section

variable [HostText] {config : Config} {trace : List (Step World Action)} {w w' : World}
  {action : Action}

theorem ends_of_completes (h : w.step action = some w') (hcompletes : w.Completes action w') :
    EndsAttempt ⟨w, action, w'⟩ := by
  obtain ⟨pass, services, nodes, visit, ids, timestamp, hphase, rfl, -⟩ := hcompletes
  have hmoves := step_moves h rfl
  simp only [hphase] at hmoves
  generalize hpost : w'.phase = phase at hmoves
  cases hmoves
  exact ⟨by rw [hphase]; rfl, by rw [hpost]; rfl⟩

/-- A step that neither ends an attempt nor panics leaves the next resync where it is. -/
theorem step_notBefore (wired : w.reconciler.Wired) (h : w.step action = some w')
    (hends : ¬EndsAttempt ⟨w, action, w'⟩) (hpanics : ¬PanicsInStep ⟨w, action, w'⟩) :
    w'.reconciler.resyncNotBefore = w.reconciler.resyncNotBefore := by
  obtain ⟨⟨hkept, -⟩, -⟩ | ⟨-, hfails | hpanicked⟩ | ⟨-, hcompletes⟩ := step_timing wired h
  · exact hkept
  · exact absurd hfails.1 hends
  · exact absurd hpanicked hpanics
  · refine absurd (ends_of_completes h hcompletes) hends

/-- The next resync is due within the longest backoff of the last attempt or panic. -/
theorem run_dueWithin (hpolicy : BacksOff config.policy) (h : Runs config trace w) :
    DueWithin (fun st => EndsAttempt st ∨ PanicsInStep st) config trace w := by
  refine Run.history (fun trace w =>
    DueWithin (fun st => EndsAttempt st ∨ PanicsInStep st) config trace w) ?_ ?_ h
  · intro time _ _ notBefore hnotBefore
    cases hnotBefore
  · intro trace w action w' hrun hinv hstep time hstart hmarks notBefore hnotBefore
    have hlast := hmarks ⟨w, action, w'⟩ (List.mem_append_right _ (List.mem_singleton.2 rfl))
    have hrange := (Runs.inRange hpolicy hrun).2
    obtain ⟨⟨hkept, -⟩, -⟩ | ⟨⟨hretry, -⟩, hmoved⟩ | ⟨⟨hreset, -⟩, -⟩ :=
      step_timing (Runs.wired hrun) hstep
    · refine hinv time hstart (fun st hst => ?_) notBefore (hkept ▸ hnotBefore)
      exact hmarks st (List.mem_append_left _ hst)
    · rw [hretry, Option.some.injEq] at hnotBefore
      have hinstant : w.instant ≤ time := hlast (hmoved.imp (fun hfails => hfails.1) id)
      rw [← hnotBefore]
      exact Nat.add_le_add hinstant hrange
    · rw [hreset] at hnotBefore
      cases hnotBefore

/-- **An outstanding resync is put off by attempts and panics only**: it is due at most the longest
backoff after the request that made it outstanding, the end of the last attempt and the last recovered
panic of a service or node step, whichever is latest. A step that neither ends an attempt nor panics
does not move it. -/
theorem outstanding_resync_due (h : Runs config trace w)
    (hordered : config.policy.backoffInitial ≤ config.policy.backoffMax)
    (hrange : config.policy.backoffMax ≤ Duration.max) :
    (w.reconciler.state.resyncCompleted < w.reconciler.state.resyncRequested →
      DueWithin (fun st => OpensPeriod st ∨ EndsAttempt st ∨ PanicsInStep st) config trace w) ∧
    ∀ st ∈ trace, ¬EndsAttempt st → ¬PanicsInStep st →
      st.post.reconciler.resyncNotBefore = st.pre.reconciler.resyncNotBefore := by
  constructor
  · intro _ time hstart hmarks
    exact run_dueWithin ⟨hordered, hrange⟩ h time hstart fun st hst hst' => hmarks st hst (.inr hst')
  · intro st hst hends hpanics
    obtain ⟨before, after, rfl⟩ := List.append_of_mem hst
    obtain ⟨hbefore, hstep, -⟩ := Run.of_mid h
    exact step_notBefore (Runs.wired hbefore) hstep hends hpanics

end

end World

namespace Sample

/-- A replicated service without a replica count: its inspect panics. -/
def unreadable (id : String) : Service :=
  { id, spec := { name := id, mode := { replicated := some ⟨none⟩ } } }

/-- One cycle over four keys, each inspect within its deadline: the first and the last one panic, the
others time out. -/
def panickingCycle : List Action :=
  resyncCycle [replicated "web" "web" 2] [] ["web"] ++
    ["a", "b", "c", "d"].map (fun id => .enqueueEvent (changed id) 0 1000) ++
    [.beginCycle 1000, .checkNodes, .checkResync 1000, .takeDueKeys,
      .startInspect, .inspected (.ok (unreadable "a")) 1000,
      .startInspect, .tick 1000 (Duration.fromSecs 15), .inspected (.error timedOut) 1000,
      .startInspect, .tick 1000 (Duration.fromSecs 30), .inspected (.error timedOut) 1000,
      .startInspect, .inspected (.ok (unreadable "d")) 1000]

end Sample

open Sample in
/-- The resync the first panic asked for is put off by the last one, to 31 seconds. -/
theorem World.outstanding_resync_due_sample :
    ∃ trace w, Runs config trace w ∧
      w.reconciler.state.resyncCompleted < w.reconciler.state.resyncRequested ∧
      w.reconciler.resyncNotBefore = some (Duration.fromSecs 31) ∧
      Duration.fromSecs 31 ≤ Duration.fromSecs 30 + config.policy.backoffMax := by
  have hreplay : (replay World.step (init config) panickingCycle).any (fun result =>
      decide (result.2.reconciler.state.resyncCompleted < result.2.reconciler.state.resyncRequested ∧
        result.2.reconciler.resyncNotBefore = some (Duration.fromSecs 31) ∧
        ∀ st ∈ result.1, st.pre.instant ≤ Duration.fromSecs 30)) = true := by
    decide +kernel
  obtain ⟨trace, w, hrun, -, hcheck⟩ := exists_run_of_replay hreplay
  obtain ⟨hopen, hnotBefore, hinstants⟩ := of_decide_eq_true hcheck
  have hdue := (outstanding_resync_due hrun (by decide) (by decide)).1 hopen
  exact ⟨trace, w, hrun, hopen, hnotBefore,
    hdue _ (by decide) (fun st hst _ => hinstants st hst) _ hnotBefore⟩

open Sample in
/-- It was outstanding since the first panic, at instant 0, and no attempt ended later: a service that
panics puts the resync off beyond the longest backoff after both. -/
theorem World.outstanding_resync_put_off :
    ¬∀ (config : Config) (trace : List (Step World Action)) (w : World), Runs config trace w →
      config.policy.backoffInitial ≤ config.policy.backoffMax →
      config.policy.backoffMax ≤ Duration.max →
      w.reconciler.state.resyncCompleted < w.reconciler.state.resyncRequested →
      DueWithin (fun st => OpensPeriod st ∨ EndsAttempt st) config trace w := by
  intro hclaim
  have hreplay : (replay World.step (init config) panickingCycle).any (fun result =>
      decide (result.2.reconciler.state.resyncCompleted < result.2.reconciler.state.resyncRequested ∧
        result.2.reconciler.resyncNotBefore = some (Duration.fromSecs 31) ∧
        ∀ st ∈ result.1, OpensPeriod st ∨ EndsAttempt st → st.pre.instant ≤ 0)) = true := by
    decide +kernel
  obtain ⟨trace, w, hrun, -, hcheck⟩ := exists_run_of_replay hreplay
  obtain ⟨hopen, hnotBefore, hmarks⟩ := of_decide_eq_true hcheck
  have hdue := hclaim config trace w hrun (by decide) (by decide) hopen 0 (by decide) hmarks _ hnotBefore
  revert hdue
  decide

end SwarmExporter
