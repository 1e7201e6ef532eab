import SwarmExporter.Lib.Backoff
import SwarmExporter.Reconciler.Timing
import SwarmExporter.Reconciler.WakeUp

/-!
# The pace of the resyncs

The backoff doubles with every failed resync and every recovered panic, and only a completed resync
resets it. It is therefore never shorter than the number of failures in a row asks for, and the next
resync waits for it, whatever else the reconciler does meanwhile: a step that panics in between
schedules the resync anew, never earlier.
-/

namespace SwarmExporter

open Lib
open Docker (CallError Event Node Service)

namespace Reconciler

theorem growBackoff_eq {r : Reconciler} (h : r.backoffMax ≤ Duration.max) (wait : Duration) :
    r.growBackoff wait = min (2 * wait) r.backoffMax := by
  rw [growBackoff, Duration.saturatingMul, backoffMultiplier, Nat.mul_comm, Nat.min_assoc,
    Nat.min_eq_right h]

end Reconciler

namespace World

variable [HostText] {config : Config} {trace : List (Step World Action)} {w w' : World}
  {action : Action}

/-! ## The backoff -/

/-- The backoff of a policy, within the range of a `Duration`. -/
structure BacksOff (policy : ReconcilerPolicy) : Prop where
  ordered : policy.backoffInitial ≤ policy.backoffMax
  range : policy.backoffMax ≤ Duration.max

/-- The stored backoff lies between its two bounds. -/
def InRange (policy : ReconcilerPolicy) (w : World) : Prop :=
  policy.backoffInitial ≤ w.reconciler.resyncBackoff ∧
    w.reconciler.resyncBackoff ≤ policy.backoffMax

theorem Runs.backoffInitial (h : Runs config trace w) :
    w.reconciler.backoffInitial = config.policy.backoffInitial :=
  congrArg ReconcilerPolicy.backoffInitial h.policy

theorem Runs.growBackoff (h : Runs config trace w) (hpolicy : BacksOff config.policy)
    (wait : Duration) :
    w.reconciler.growBackoff wait = min (2 * wait) config.policy.backoffMax := by
  have hmax : w.reconciler.backoffMax = config.policy.backoffMax :=
    congrArg ReconcilerPolicy.backoffMax h.policy
  rw [← hmax]
  refine Reconciler.growBackoff_eq ?_ wait
  rw [hmax]
  exact hpolicy.range

theorem Runs.inRange (hpolicy : BacksOff config.policy) (h : Runs config trace w) :
    InRange config.policy w := by
  refine Run.history (fun _ w => InRange config.policy w) ⟨le_rfl, hpolicy.ordered⟩ ?_ h
  rintro trace w action w' hrun ⟨hlow, hhigh⟩ hstep
  obtain ⟨⟨-, hkept⟩, -⟩ | ⟨⟨-, hgrown⟩, -⟩ | ⟨⟨-, hreset⟩, -⟩ := step_timing (Runs.wired hrun) hstep
  · rw [InRange, hkept]
    exact ⟨hlow, hhigh⟩
  · rw [InRange, hgrown, Runs.growBackoff hrun hpolicy]
    exact ⟨hlow.trans (le_grown hhigh), Nat.min_le_right _ _⟩
  · rw [InRange, hreset, Runs.backoffInitial hrun]
    exact ⟨le_rfl, hpolicy.ordered⟩

/-- A step that schedules a retry does not shorten the backoff. -/
theorem le_of_schedulesRetry (hpolicy : BacksOff config.policy) (h : Runs config trace w)
    (hretry : SchedulesRetry w w') : w.reconciler.resyncBackoff ≤ w'.reconciler.resyncBackoff := by
  rw [hretry.2, Runs.growBackoff h hpolicy]
  exact le_grown (Runs.inRange hpolicy h).2

/-! ## Where a resync starts -/

/-- The instant the cycle checks against was read before. -/
def ReadNow (w : World) : Prop :=
  ∀ now, w.phase = .nodesCheck now ∨ w.phase = .nodesListing now ∨ w.phase = .resyncCheck now →
    now ≤ w.instant

theorem step_readNow (hinv : w.ReadNow) (h : w.step action = some w') : w'.ReadNow := by
  have hinstant := (step_advances h).instant
  by_cases hcycle : action.isCycle = true
  · have hmoves := step_moves h hcycle
    intro now hnow
    generalize hpre : w.phase = phase at hmoves
    generalize hpost : w'.phase = phase' at hmoves hnow
    cases hmoves with
    | begins =>
      obtain rfl : w.instant = now := by simpa using hnow
      exact hinstant
    | asksNodes _ =>
      rename_i before _
      obtain rfl : before = now := by simpa using hnow
      exact (hinv before (.inl hpre)).trans hinstant
    | skipsNodes =>
      rename_i before
      obtain rfl : before = now := by simpa using hnow
      exact (hinv before (.inl hpre)).trans hinstant
    | refreshes _ =>
      rename_i before _
      obtain rfl : before = now := by simpa using hnow
      exact (hinv before (.inr (.inl hpre))).trans hinstant
    | _ => simp at hnow
  · rw [Bool.not_eq_true] at hcycle
    intro now hnow
    rw [step_phase h hcycle] at hnow
    exact (hinv now hnow).trans hinstant

theorem Runs.readNow (h : Runs config trace w) : w.ReadNow := by
  refine Run.invariant ReadNow ?_ (fun _ _ _ hinv hstep => step_readNow hinv hstep) h
  intro now hnow
  simp [init] at hnow

/-- A resync starts where it is due. -/
theorem starts_of_due (h : w.step action = some w')
    (hstarts : startsAttempt ⟨w, action, w'⟩ = true) :
    ∃ now, w.phase = .resyncCheck now ∧ w.reconciler.resyncDue now = true := by
  simp only [startsAttempt, Bool.and_eq_true, Option.isNone_iff_eq_none] at hstarts
  obtain ⟨hnone, hsome⟩ := hstarts
  by_cases hcycle : action.isCycle = true
  · have hmoves := step_moves h hcycle
    generalize hpre : w.phase = phase at hmoves hnone
    generalize hpost : w'.phase = phase' at hmoves hsome
    cases hmoves with
    | starts hdue => exact ⟨_, rfl, hdue⟩
    | listsNodes => cases hnone
    | _ => cases hsome
  · rw [Bool.not_eq_true] at hcycle
    rw [step_phase h hcycle, hnone] at hsome
    cases hsome

/-- The exporter shuts down and the cycle is past its resync: none starts any more. -/
def Over (w : World) : Prop :=
  w.cancelled = true ∧ (w.phase = .idle ∨ (∃ now, w.phase = .keysCheck now) ∨
    (∃ keys, w.phase = .batch keys) ∨ ∃ key keys, w.phase = .inspecting key keys)

theorem Over.step (hover : w.Over) (h : w.step action = some w') : w'.Over := by
  obtain ⟨hcancelled, hphase⟩ := hover
  refine ⟨(step_advances h).cancelled hcancelled, ?_⟩
  by_cases hcycle : action.isCycle = true
  · have hmoves := step_moves h hcycle
    generalize hpre : w.phase = phase at hmoves hphase
    generalize hpost : w'.phase = phase' at hmoves
    cases hmoves with
    | begins hrunning => rw [hrunning] at hcancelled; cases hcancelled
    | takes => simp
    | inspects => simp
    | answers => simp
    | finishes => simp
    | ends => simp
    | skipsResync => simp
    | _ => simp at hphase
  · rw [Bool.not_eq_true] at hcycle
    rw [step_phase h hcycle]
    exact hphase

omit [HostText] in
theorem Over.pass (hover : w.Over) : w.phase.pass? = none := by
  obtain ⟨-, hphase | ⟨now, hphase⟩ | ⟨keys, hphase⟩ | ⟨key, keys, hphase⟩⟩ := hover
  all_goals
    rw [hphase]
    rfl

/-! ## Attempts in a row -/

/-- The resyncs that started. -/
def attempts (trace : List (Step World Action)) : Nat := trace.countP startsAttempt

/-- The backoff keeps up with the attempts since the last completed resync: the one in progress waits
for the failures before it, the next one for all of them. -/
structure KeepsUp (policy : ReconcilerPolicy) (recent : List (Step World Action)) (w : World) : Prop where
  trying : w.phase.pass?.isSome = true →
    backoff policy.backoffInitial policy.backoffMax (attempts recent - 1) ≤ w.reconciler.resyncBackoff
  failed : w.phase.pass? = none →
    backoff policy.backoffInitial policy.backoffMax (attempts recent) ≤ w.reconciler.resyncBackoff ∨
      w.Over

omit [HostText] in
theorem attempts_concat (trace : List (Step World Action)) (st : Step World Action) :
    attempts (trace ++ [st]) = attempts trace + if startsAttempt st then 1 else 0 := by
  rw [attempts, attempts, List.countP_append, List.countP_singleton]

/-- No resync starts after one that was cancelled. -/
theorem over_of_cancelled (h : w.step .stepCancelled = some w')
    (hpass : w.phase.pass?.isSome = true) : w'.Over := by
  have hcancelled : w.cancelled = true := by
    simp only [step, cycleStep, Option.ite_none_right_eq_some] at h
    exact h.1
  refine ⟨(step_advances h).cancelled hcancelled, .inr (.inl ?_)⟩
  have hmoves := step_moves h rfl
  generalize hpre : w.phase = phase at hmoves hpass
  generalize hpost : w'.phase = phase' at hmoves
  cases hmoves with
  | ends => exact ⟨_, rfl⟩
  | _ => cases hpass

/-- Short of a completed resync no step shortens the backoff. -/
theorem backoff_le_of_open (hpolicy : BacksOff config.policy) (hrun : Runs config trace w)
    (h : w.step action = some w') (hopen : ¬w.Completes action w') :
    w.reconciler.resyncBackoff ≤ w'.reconciler.resyncBackoff := by
  obtain ⟨⟨-, hkept⟩, -⟩ | ⟨hretry, -⟩ | ⟨-, hcompletes⟩ := step_timing (Runs.wired hrun) h
  · exact hkept.ge
  · exact le_of_schedulesRetry hpolicy hrun hretry
  · exact absurd hcompletes hopen

theorem step_keepsUp (hpolicy : BacksOff config.policy) (hrun : Runs config trace w)
    {recent : List (Step World Action)} (hinv : KeepsUp config.policy recent w)
    (h : w.step action = some w') (hopen : ¬w.Completes action w') :
    KeepsUp config.policy (recent ++ [⟨w, action, w'⟩]) w' := by
  have hmono := backoff_le_of_open hpolicy hrun h hopen
  cases hpre : w.phase.pass? with
  | none =>
    have hfailed := hinv.failed hpre
    constructor
    · intro hpost
      have hstarts : startsAttempt ⟨w, action, w'⟩ = true := by simp [startsAttempt, hpre, hpost]
      rw [attempts_concat, hstarts, if_pos rfl, Nat.add_sub_cancel]
      rcases hfailed with hle | hover
      · exact hle.trans hmono
      · rw [(hover.step h).pass] at hpost
        cases hpost
    · intro hpost
      have hstarts : startsAttempt ⟨w, action, w'⟩ = false := by simp [startsAttempt, hpost]
      rw [attempts_concat, hstarts, if_neg Bool.false_ne_true, Nat.add_zero]
      exact hfailed.imp (fun hle => hle.trans hmono) fun hover => hover.step h
  | some pass =>
    have htrying := hinv.trying (by rw [hpre]; rfl)
    have hstarts : startsAttempt ⟨w, action, w'⟩ = false := by simp [startsAttempt, hpre]
    constructor
    · intro _
      rw [attempts_concat, hstarts, if_neg Bool.false_ne_true, Nat.add_zero]
      exact htrying.trans hmono
    · intro hpost
      rw [attempts_concat, hstarts, if_neg Bool.false_ne_true, Nat.add_zero]
      have hends : EndsAttempt ⟨w, action, w'⟩ := ⟨by rw [hpre]; rfl, hpost⟩
      obtain ⟨-, hkept⟩ | ⟨⟨-, hgrown⟩, -⟩ | ⟨-, hcompletes⟩ := step_timing (Runs.wired hrun) h
      · -- It ended without a retry, so it was cancelled.
        obtain rfl : action = .stepCancelled := by
          by_contra hne
          exact hkept ⟨hends, hopen, hne⟩
        exact .inr (over_of_cancelled h hends.1)
      · rw [hgrown, Runs.growBackoff hrun hpolicy]
        exact .inl (backoff_le_grown (Runs.inRange hpolicy hrun).2 htrying)
      · exact absurd hcompletes hopen

/-- **The backoff keeps up with the attempts**, from any point of a run, until a resync completes. -/
theorem run_keepsUp (hpolicy : BacksOff config.policy) {older recent : List (Step World Action)}
    (holder : Runs config older w) (h : Run step w recent w')
    (hopen : ∀ st ∈ recent, ¬st.pre.Completes st.act st.post) : KeepsUp config.policy recent w' := by
  have hstart : KeepsUp config.policy [] w := by
    have hzero : backoff config.policy.backoffInitial config.policy.backoffMax 0 ≤
        w.reconciler.resyncBackoff := by
      rw [backoff_zero hpolicy.ordered]
      exact (Runs.inRange hpolicy holder).1
    exact ⟨fun _ => hzero, fun _ => .inl hzero⟩
  refine Run.history (fun recent w' => (∀ st ∈ recent, ¬st.pre.Completes st.act st.post) →
    KeepsUp config.policy recent w') (fun _ => hstart) ?_ h hopen
  intro recent t action u hrun hinv hstep hopen
  refine step_keepsUp hpolicy (holder.append hrun) (hinv fun st hst => ?_) hstep ?_
  · exact hopen st (List.mem_append_left _ hst)
  · exact hopen ⟨t, action, u⟩ (List.mem_append_right _ (List.mem_singleton.2 rfl))

/-! ## The wait after a failure -/

/-- No resync is in progress, and neither the one that is scheduled nor one scheduled anew by a panic
starts before `time`. -/
structure HeldUntil (time : Instant) (w : World) : Prop where
  idle : w.phase.pass? = none
  scheduled : ∃ notBefore, w.reconciler.resyncNotBefore = some notBefore ∧ time ≤ notBefore
  rescheduled : time ≤ w.instant + w.reconciler.resyncBackoff

theorem not_completes_of_idle (h : w.phase.pass? = none) : ¬w.Completes action w' := by
  rintro ⟨_, _, _, _, _, _, hphase, -⟩
  rw [hphase] at h
  cases h

theorem step_heldUntil (hpolicy : BacksOff config.policy) (hrun : Runs config trace w) {time : Instant}
    (hinv : HeldUntil time w) (h : w.step action = some w')
    (hstarts : startsAttempt ⟨w, action, w'⟩ = false) : HeldUntil time w' := by
  obtain ⟨hidle, hscheduled, hrescheduled⟩ := hinv
  have hopen : ¬w.Completes action w' := not_completes_of_idle hidle
  have hinstant := (step_advances h).instant
  have hmono := backoff_le_of_open hpolicy hrun h hopen
  refine ⟨?_, ?_, hrescheduled.trans (Nat.add_le_add hinstant hmono)⟩
  · simpa [startsAttempt, hidle] using hstarts
  · obtain ⟨⟨hkept, -⟩, -⟩ | ⟨⟨hretry, -⟩, -⟩ | ⟨-, hcompletes⟩ := step_timing (Runs.wired hrun) h
    · rwa [hkept]
    · exact ⟨_, hretry, hrescheduled⟩
    · exact absurd hcompletes hopen

theorem run_heldUntil (hpolicy : BacksOff config.policy) {time : Instant}
    {between : List (Step World Action)} (hrun : Runs config trace w) (hinv : HeldUntil time w)
    (h : Run step w between w') (hbetween : ∀ st ∈ between, startsAttempt st = false) :
    HeldUntil time w' := by
  refine Run.history (fun between w' => (∀ st ∈ between, startsAttempt st = false) → HeldUntil time w')
    (fun _ => hinv) ?_ h hbetween
  intro between t action u hbefore hwaits hstep hbetween
  refine step_heldUntil hpolicy (hrun.append hbefore) (hwaits fun st hst => ?_) hstep ?_
  · exact hbetween st (List.mem_append_left _ hst)
  · exact hbetween ⟨t, action, u⟩ (List.mem_append_right _ (List.mem_singleton.2 rfl))

/-- A failed resync schedules the next one after the backoff. -/
theorem heldUntil_of_fails (hpolicy : BacksOff config.policy) (hrun : Runs config trace w)
    (h : w.step action = some w') (hfails : FailsAttempt ⟨w, action, w'⟩) {wait : Duration}
    (hwait : wait ≤ w.reconciler.resyncBackoff) : HeldUntil (w.instant + wait) w' := by
  have hmono := backoff_le_of_open hpolicy hrun h hfails.2.1
  have hinstant := (step_advances h).instant
  refine ⟨hfails.1.2, ?_, Nat.add_le_add hinstant (hwait.trans hmono)⟩
  obtain ⟨-, hkept⟩ | ⟨⟨hretry, -⟩, -⟩ | ⟨-, hcompletes⟩ := step_timing (Runs.wired hrun) h
  · exact absurd hfails hkept
  · exact ⟨_, hretry, Nat.add_le_add_left hwait _⟩
  · exact absurd hcompletes hfails.2.1

theorem HeldUntil.le_of_starts {time : Instant} (hinv : HeldUntil time w) (hrun : Runs config trace w)
    (h : w.step action = some w') (hstarts : startsAttempt ⟨w, action, w'⟩ = true) :
    time ≤ w.instant := by
  obtain ⟨now, hphase, hdue⟩ := starts_of_due h hstarts
  obtain ⟨notBefore, hscheduled, htime⟩ := hinv.scheduled
  have hnow : now ≤ w.instant := Runs.readNow hrun now (.inr (.inr hphase))
  have hreached : notBefore ≤ now := by
    simpa [due, hscheduled] using (Reconciler.resyncDue_iff.1 hdue).2
  exact (htime.trans hreached).trans hnow

/-- **Failing resyncs are rate limited**: when the `k`-th resync in a row fails or panics, whatever
happens next, no resync starts before the initial backoff, doubled `k - 1` times and capped, has passed.
The resyncs are counted from any point after which none completed. The stored backoff stays between its
bounds; that `backoffMax` is in the range of a `Duration` is what its type says. -/
theorem failing_resyncs_wait (h : Runs config trace w)
    (hordered : config.policy.backoffInitial ≤ config.policy.backoffMax)
    (hrange : config.policy.backoffMax ≤ Duration.max) :
    (config.policy.backoffInitial ≤ w.reconciler.resyncBackoff ∧
      w.reconciler.resyncBackoff ≤ config.policy.backoffMax) ∧
    ∀ older recent failing between next after,
      trace = older ++ recent ++ failing :: (between ++ next :: after) →
      (∀ st ∈ recent, ¬st.pre.Completes st.act st.post) → FailsAttempt failing →
      (∀ st ∈ between, startsAttempt st = false) → startsAttempt next = true →
      failing.pre.instant +
          min (config.policy.backoffInitial * 2 ^ (attempts recent - 1)) config.policy.backoffMax ≤
        next.pre.instant := by
  have hpolicy : BacksOff config.policy := ⟨hordered, hrange⟩
  refine ⟨Runs.inRange hpolicy h, ?_⟩
  rintro older recent failing between next after rfl hopen hfails hbetween hstarts
  obtain ⟨hbefore, hfailing, hafter⟩ := Run.of_mid h
  obtain ⟨start, holder, hrecent⟩ := Run.of_append hbefore
  obtain ⟨hwaiting, hnext, -⟩ := Run.of_mid hafter
  have hbackoff := (run_keepsUp hpolicy holder hrecent hopen).trying hfails.1.1
  have hwaits := heldUntil_of_fails hpolicy hbefore hfailing hfails hbackoff
  have hfailed : Runs config _ failing.post := hbefore.snoc hfailing
  have hreached := run_heldUntil hpolicy hfailed hwaits hwaiting hbetween
  exact hreached.le_of_starts (hfailed.append hwaiting) hnext hstarts

end World

namespace Sample

/-- A cycle up to the service list of its resync. -/
def resyncStart : List Action := [.beginCycle 1000, .checkNodes, .checkResync 1000]

/-- The service list fails. -/
def listFails : Action := .servicesListed (.error ⟨"service list", ⟨.timeout, "context deadline exceeded"⟩⟩)

end Sample

open Sample in
/-- The second resync in a row fails half a second after the first one: the third starts a second later
at the earliest. -/
theorem World.failing_resyncs_wait_sample :
    ∃ trace w, Runs config trace w ∧ ∃ failing ∈ trace, ∃ next ∈ trace, FailsAttempt failing ∧
      failing.pre.instant = Duration.fromMillis 500 ∧ startsAttempt next = true ∧
      Duration.fromMillis 1500 ≤ next.pre.instant := by
  let first : List Action := resyncStart ++
    [listFails, .takeDueKeys, .endCycle, .tick 1000 (Duration.fromMillis 500)] ++ resyncStart
  let waiting : List Action := [.takeDueKeys, .endCycle, .tick 1000 (Duration.fromMillis 1500),
    .beginCycle 1000, .checkNodes]
  have hreplay : (replay World.step (init config) first).any (fun before =>
      (replay World.step before.2 [listFails]).any fun failed =>
      (replay World.step failed.2 waiting).any fun waited =>
      (replay World.step waited.2 [.checkResync 1000]).any fun last =>
        decide (attempts before.1 = 2 ∧
          (∀ st ∈ failed.1, st.pre.phase.pass?.isSome = true ∧ st.post.phase.pass? = none ∧
            st.pre.instant = Duration.fromMillis 500) ∧
          (∀ st ∈ waited.1, startsAttempt st = false) ∧
          ∀ st ∈ last.1, startsAttempt st = true)) = true := by
    decide +kernel
  obtain ⟨recent, w₁, hrecent, hacts, hreplay⟩ := exists_run_of_replay hreplay
  obtain ⟨failed, w₂, hfailed, hfailing, hreplay⟩ := exists_run_of_replay hreplay
  obtain ⟨between, w₃, hbetween, -, hreplay⟩ := exists_run_of_replay hreplay
  obtain ⟨last, w, hlast, hnext, hcheck⟩ := exists_run_of_replay hreplay
  obtain ⟨failing, rfl, hact⟩ := List.map_eq_singleton_iff.1 hfailing
  obtain ⟨next, rfl, -⟩ := List.map_eq_singleton_iff.1 hnext
  simp only [List.mem_singleton, forall_eq, decide_eq_true_eq] at hcheck
  obtain ⟨hattempts, ⟨hpre, hpost, hinstant⟩, hidle, hstarts⟩ := hcheck
  have hfails : FailsAttempt failing := by
    refine ⟨⟨hpre, hpost⟩, ?_, by simp [hact, listFails]⟩
    rintro ⟨_, _, _, _, _, _, -, haction, -⟩
    rw [hact] at haction
    cases haction
  have hopen : ∀ st ∈ recent, ¬st.pre.Completes st.act st.post := by
    rintro st hst ⟨_, _, _, _, _, _, -, haction, -⟩
    have hmem : st.act ∈ first := hacts ▸ List.mem_map_of_mem hst
    rw [haction] at hmem
    simp [first, resyncStart, listFails] at hmem
  have hrun : Runs config ([] ++ recent ++ failing :: (between ++ next :: [])) w := by
    have hjoined := ((hrecent.append hfailed).append hbetween).append hlast
    simpa using hjoined
  have hwait := (failing_resyncs_wait hrun (by decide) (by decide)).2 [] recent failing between next []
    rfl hopen hfails hidle hstarts
  rw [hattempts, hinstant] at hwait
  exact ⟨_, w, hrun, failing, by simp, next, by simp, hfails, hinstant, hstarts, hwait⟩

end SwarmExporter
