import SwarmExporter.Reconciler.Passes

/-!
# How long a resync has been outstanding

`resyncOutstandingSince` is set by the first request that finds every earlier one completed, kept by
the following ones, and moved to the start of a pass that completes while newer requests are open.
Each time, it is no later than the lock of any request still open, which is what the health check
needs to turn red in time.
-/

namespace SwarmExporter

open Lib

namespace World

/-- Request `k` took the lock when the clock stood at `clock`; the first one was raised at the start. -/
def RaisedAt (trace : List (Step World Action)) (start : Timestamp) (k : Nat) (clock : Timestamp) :
    Prop :=
  k = 1 ∧ clock = start ∨
    ∃ st ∈ trace, st.pre.reconciler.state.resyncRequested < k ∧
      k ≤ st.post.reconciler.state.resyncRequested ∧ clock = st.pre.clock

/-- `st` answers a poll of `snapshot` with Ok. -/
def AnswersOk [HostText] (snapshot : PollSnapshot) (st : Step World Action) : Prop :=
  ∃ counters timestamp visit, st.act = .applyPollCounts snapshot counters timestamp visit ∧
    (st.pre.pollAnswer snapshot counters timestamp visit).2 = .ok ()

/-- A poll of the trace was answered with Ok and then recorded with the reading `timestamp`. -/
def MarkedOk [HostText] (trace : List (Step World Action)) (timestamp : Timestamp) : Prop :=
  ∃ before answered between mark after snapshot,
    trace = before ++ answered :: between ++ mark :: after ∧ AnswersOk snapshot answered ∧
      mark.act = .markPollOk snapshot timestamp

theorem RaisedAt.of_snoc {trace : List (Step World Action)} {start : Timestamp} {st : Step World Action}
    {k : Nat} {clock : Timestamp} (h : RaisedAt (trace ++ [st]) start k clock) :
    RaisedAt trace start k clock ∨ st.pre.reconciler.state.resyncRequested < k ∧
      k ≤ st.post.reconciler.state.resyncRequested ∧ clock = st.pre.clock := by
  rcases h with hfirst | ⟨other, hmem, hraised⟩
  · exact .inl (.inl hfirst)
  · rcases List.mem_append.1 hmem with hmem | hmem
    · exact .inl (.inr ⟨other, hmem, hraised⟩)
    · obtain rfl := List.mem_singleton.1 hmem
      exact .inr hraised

/-- What the run knows about the open requests and the pass in progress. -/
structure Dated (trace : List (Step World Action)) (w : World) : Prop where
  /-- A request that was raised has its number counted. -/
  raised : ∀ k clock, RaisedAt trace w.start k clock → k ≤ w.reconciler.state.resyncRequested
  isSome : w.reconciler.state.resyncOutstandingSince.isSome = true ↔
    w.reconciler.state.resyncCompleted < w.reconciler.state.resyncRequested
  since : ∀ time, w.reconciler.state.resyncOutstandingSince = some time → time ≤ w.clock
  /-- No open request took the lock before the outstanding time. -/
  opened : ∀ k clock, RaisedAt trace w.start k clock → w.reconciler.state.resyncCompleted < k →
    ∃ time, w.reconciler.state.resyncOutstandingSince = some time ∧ time ≤ clock
  passStart : ∀ pass, w.phase.pass? = some pass → pass.passStart ≤ w.clock
  /-- Nor before the start of a pass that does not serve it. -/
  during : ∀ pass, w.phase.pass? = some pass → ∀ k clock, RaisedAt trace w.start k clock →
    pass.target < k → pass.passStart ≤ clock

section Steps

variable [HostText] {config : Config} {trace : List (Step World Action)} {w w' : World}
  {action : Action}

/-- A step that raises requests keeps the outstanding time ahead of them. -/
theorem dated_of_raises (hcounted : w.Counted) (hdated : Dated trace w) (h : w.step action = some w')
    (hraises : Raises w.Reads w.reconciler.state.resyncs w'.reconciler.state.resyncs) :
    Dated (trace ++ [⟨w, action, w'⟩]) w' := by
  obtain ⟨hstart, hclock, -⟩ := step_advances h
  obtain ⟨hcompleted, hrequested, -, hsame, hkept, hstarted⟩ := hraises
  simp only [State.resyncs] at hcompleted hrequested hsame hkept hstarted
  have hcount := hcounted.counted
  -- Requests raised by this step, or open before it.
  have hsince : w.reconciler.state.resyncRequested ≠ w.reconciler.state.resyncCompleted ∨
      w.reconciler.state.resyncRequested < w'.reconciler.state.resyncRequested →
      ∃ time, w'.reconciler.state.resyncOutstandingSince = some time ∧ time ≤ w.clock := by
    intro hopen
    by_cases hne : w.reconciler.state.resyncRequested = w.reconciler.state.resyncCompleted
    · obtain ⟨time, hreads, htime⟩ := hstarted hne (hopen.resolve_left (absurd hne))
      exact ⟨time, htime, hreads.2⟩
    · have hsome := hdated.isSome.2 (by omega)
      obtain ⟨time, htime⟩ := Option.isSome_iff_exists.1 hsome
      exact ⟨time, (hkept hne).trans htime, hdated.since time htime⟩
  constructor
  · intro k clock hraised
    rw [hstart] at hraised
    rcases hraised.of_snoc with hold | ⟨-, hnew, -⟩
    · exact (hdated.raised k clock hold).trans hrequested
    · exact hnew
  · constructor
    · intro hsome
      by_cases hlt : w.reconciler.state.resyncRequested < w'.reconciler.state.resyncRequested
      · omega
      · rw [hsame (by omega), hdated.isSome] at hsome
        omega
    · intro hlt
      obtain ⟨time, htime, -⟩ := hsince (by omega)
      rw [htime]
      rfl
  · intro time htime
    by_cases hopen : w.reconciler.state.resyncRequested ≠ w.reconciler.state.resyncCompleted ∨
        w.reconciler.state.resyncRequested < w'.reconciler.state.resyncRequested
    · obtain ⟨other, hother, hle⟩ := hsince hopen
      obtain rfl : other = time := Option.some.inj (hother.symm.trans htime)
      exact hle.trans hclock
    · rw [hsame (by omega)] at htime
      exact (hdated.since time htime).trans hclock
  · intro k clock hraised hk
    rw [hstart] at hraised
    rw [hcompleted] at hk
    rcases hraised.of_snoc with hold | ⟨hlow, hhigh, rfl⟩
    · obtain ⟨time, htime, hle⟩ := hdated.opened k clock hold hk
      have hle' := hdated.raised k clock hold
      exact ⟨time, (hkept (by omega)).trans htime, hle⟩
    · exact hsince (.inr (hlow.trans_le hhigh))
  · intro pass hpass
    rcases step_pass h hpass with hbefore | ⟨rfl, -⟩
    · exact (hdated.passStart pass hbefore).trans hclock
    · exact (step_reads h rfl).2.trans hclock
  · intro pass hpass k clock hraised hk
    rw [hstart] at hraised
    rcases step_pass h hpass with hbefore | ⟨rfl, htarget, hreconciler⟩
    · rcases hraised.of_snoc with hold | ⟨-, -, rfl⟩
      · exact hdated.during pass hbefore k clock hold hk
      · exact hdated.passStart pass hbefore
    · -- The target counts every request raised so far.
      rcases hraised.of_snoc with hold | ⟨hlow, hhigh, -⟩
      · have hle := hdated.raised k clock hold
        omega
      · rw [hreconciler] at hhigh
        omega

/-- A completed pass moves the outstanding time to its start. -/
theorem dated_of_completes (hcounted : w.Counted) (hdated : Dated trace w)
    (h : w.step action = some w') (hcompletes : w.Completes action w') :
    Dated (trace ++ [⟨w, action, w'⟩]) w' := by
  obtain ⟨hstart, hclock, -⟩ := step_advances h
  obtain ⟨pass, services, nodes, visit, ids, timestamp, hphase, rfl, -, -, hresyncs, -⟩ := hcompletes
  have hpass : w.phase.pass? = some pass := by rw [hphase]; rfl
  obtain ⟨hlow, hhigh⟩ := hcounted.target pass hpass
  simp only [State.resyncs, State.completeResync, Resyncs.mk.injEq, max_eq_right hlow] at hresyncs
  obtain ⟨hrequested, hcompleted, hsince, -⟩ := hresyncs
  have hnone : ∀ other, w'.phase.pass? ≠ some other := by
    intro other hother
    have hstarts := step_starts h rfl
    cases hphase' : w'.phase with
    | servicesListing started =>
      rw [hphase'] at hstarts
      cases hstarts.1
    | resyncNodesListing started listed =>
      rw [hphase'] at hstarts
      cases hstarts.1
    | _ =>
      rw [hphase'] at hother
      cases hother
  constructor
  · intro k clock hraised
    rw [hstart] at hraised
    rcases hraised.of_snoc with hold | ⟨-, hnew, -⟩
    · exact (hdated.raised k clock hold).trans hrequested.ge
    · exact hnew
  · rw [hsince, hcompleted, hrequested]
    split
    · simp
      omega
    · simp
      omega
  · intro time htime
    rw [hsince] at htime
    split at htime
    · cases htime
    · cases htime
      exact (hdated.passStart pass hpass).trans hclock
  · intro k clock hraised hk
    rw [hstart] at hraised
    rw [hcompleted] at hk
    rcases hraised.of_snoc with hold | ⟨hlow', hhigh', -⟩
    · have hle := hdated.raised k clock hold
      rw [hsince, if_neg (by omega)]
      exact ⟨pass.passStart, rfl, hdated.during pass hpass k clock hold hk⟩
    · rw [hrequested] at hhigh'
      exact absurd hlow' (Nat.not_lt.2 hhigh')
  · intro other hother
    exact absurd hother (hnone other)
  · intro other hother
    exact absurd hother (hnone other)

theorem Runs.dated (h : Runs config trace w) : Dated trace w := by
  refine Run.history Dated ?_ ?_ h
  · refine ⟨?_, ?_, ?_, ?_, ?_, ?_⟩
    · rintro k clock (⟨rfl, -⟩ | ⟨st, hst, -⟩)
      · exact le_rfl
      · cases hst
    · simp [init, Reconciler.withPolicy, State.new]
    · rintro time htime
      cases htime
      exact le_rfl
    · rintro k clock (⟨rfl, rfl⟩ | ⟨st, hst, -⟩) -
      · exact ⟨config.clock, rfl, le_rfl⟩
      · cases hst
    · intro pass hpass
      cases hpass
    · intro pass hpass
      cases hpass
  · intro trace w action w' hrun hdated hstep
    have hcounted := Runs.counted hrun
    rcases step_resync (Runs.wired hrun) hcounted.counted hstep with ⟨hraises, -⟩ | hcompletes
    · exact dated_of_raises hcounted hdated hstep hraises
    · exact dated_of_completes hcounted hdated hstep hcompletes

/-! ## The recorded polls -/

/-- Only a poller moves the time of the last successful poll. -/
theorem perform_pollSuccess {r r' : Reconciler} {op : Op} (h : r.perform op = some r')
    (hop : ∀ timestamp, op ≠ .markPollOk timestamp) :
    r'.metrics.timestamps.pollSuccess = r.metrics.timestamps.pollSuccess := by
  cases op with
  | markPollOk timestamp => exact absurd rfl (hop timestamp)
  | enqueueEvent event now timestamp =>
    cases h
    unfold Reconciler.enqueueEvent
    split <;> rfl
  | applyNodes nodes visit =>
    simp only [Reconciler.perform, Option.ite_none_right_eq_some, Option.some.injEq] at h
    obtain ⟨-, rfl⟩ := h
    rw [(Reconciler.withNodes_frame r nodes visit).2.2.1]
  | applyService service =>
    simp only [Reconciler.perform] at h
    split at h
    · rename_i metadata _
      cases h
      rw [(Reconciler.withService_frame r service r.nodes metadata).2.1]
    · cases h
  | removeService id =>
    cases h
    rw [(Reconciler.removeService_frame r id).2.2.1]
  | _ =>
    cases h
    rfl

theorem step_pollSuccess (wired : w.reconciler.Wired) (h : w.step action = some w') :
    w'.reconciler.metrics.timestamps.pollSuccess = w.reconciler.metrics.timestamps.pollSuccess ∨
      ∃ snapshot timestamp, action = .markPollOk snapshot timestamp ∧ snapshot ∈ w.unmarked ∧
        w.Reads timestamp ∧
        w'.reconciler.metrics.timestamps.pollSuccess = unixNanos timestamp := by
  obtain ⟨ops, hperforms, hmakes⟩ := step_ops wired h
  by_cases hmarks : ∃ timestamp, .markPollOk timestamp ∈ essential ops
  · obtain ⟨timestamp, hmem⟩ := hmarks
    obtain ⟨snapshot, rfl⟩ := (makes_madeBy hmakes hmem).marks timestamp rfl
    simp only [step, Option.ite_none_right_eq_some, Option.some.injEq] at h
    obtain ⟨⟨hunmarked, hreads⟩, rfl⟩ := h
    exact .inr ⟨snapshot, timestamp, rfl, hunmarked, hreads, rfl⟩
  · refine .inl (hperforms.induct (fun r => r.metrics.timestamps.pollSuccess =
      w.reconciler.metrics.timestamps.pollSuccess) rfl ?_)
    intro op hop current next hcurrent hperform
    refine (perform_pollSuccess hperform ?_).trans hcurrent
    rintro timestamp rfl
    exact hmarks ⟨timestamp, List.mem_filter.2 ⟨hop, rfl⟩⟩

/-- A poll waits to be recorded because it was answered with Ok. -/
theorem step_unmarked (h : w.step action = some w') {snapshot : PollSnapshot}
    (hmem : snapshot ∈ w'.unmarked) :
    snapshot ∈ w.unmarked ∨ AnswersOk snapshot ⟨w, action, w'⟩ := by
  by_cases hcycle : action.isCycle = true
  · obtain ⟨reconciler, phase, rfl⟩ := step_frame h hcycle
    exact .inl hmem
  · cases action with
    | cancel =>
      cases h
      exact .inl hmem
    | applyPollCounts asked counters timestamp visit =>
      simp only [step, Option.ite_none_right_eq_some, Option.some.injEq] at h
      obtain ⟨-, rfl⟩ := h
      simp only at hmem
      split at hmem
      · rename_i hok
        rcases List.mem_cons.1 hmem with rfl | hmem
        · refine .inr ⟨counters, timestamp, visit, rfl, ?_⟩
          generalize (w.pollAnswer snapshot counters timestamp visit).2 = answer at hok
          cases answer with
          | ok value => rfl
          | error error => cases hok
        · exact .inl hmem
      · exact .inl hmem
    | markPollOk asked timestamp =>
      simp only [step, Option.ite_none_right_eq_some, Option.some.injEq] at h
      obtain ⟨-, rfl⟩ := h
      exact .inl (List.mem_of_mem_erase hmem)
    | tick =>
      simp only [step, Option.ite_none_right_eq_some, Option.some.injEq] at h
      obtain ⟨-, rfl⟩ := h
      exact .inl hmem
    | enqueueEvent =>
      simp only [step, Option.ite_none_right_eq_some, Option.some.injEq] at h
      obtain ⟨-, rfl⟩ := h
      exact .inl hmem
    | requestResync =>
      simp only [step, Option.ite_none_right_eq_some, Option.some.injEq] at h
      obtain ⟨-, rfl⟩ := h
      exact .inl hmem
    | buildPollSnapshot =>
      simp only [step, Option.ite_none_right_eq_some, Option.some.injEq] at h
      obtain ⟨-, rfl⟩ := h
      exact .inl hmem
    | _ => exact absurd rfl hcycle

/-- What the run knows about the polls that were answered with Ok. -/
structure Recorded (trace : List (Step World Action)) (w : World) : Prop where
  unmarked : ∀ snapshot ∈ w.unmarked, ∃ st ∈ trace, AnswersOk snapshot st
  success : w.reconciler.metrics.timestamps.pollSuccess ≠ 0 → ∃ timestamp, MarkedOk trace timestamp ∧
    w.Reads timestamp ∧ w.reconciler.metrics.timestamps.pollSuccess = unixNanos timestamp

theorem step_recorded (wired : w.reconciler.Wired) (hrecorded : Recorded trace w)
    (h : w.step action = some w') : Recorded (trace ++ [⟨w, action, w'⟩]) w' := by
  obtain ⟨hstart, hclock, -⟩ := step_advances h
  have hreads : ∀ {timestamp}, w.Reads timestamp → w'.Reads timestamp := fun hreads =>
    ⟨hstart ▸ hreads.1, hreads.2.trans hclock⟩
  constructor
  · intro snapshot hmem
    rcases step_unmarked h hmem with hold | hanswers
    · obtain ⟨st, hst, hanswers⟩ := hrecorded.unmarked snapshot hold
      exact ⟨st, List.mem_append_left _ hst, hanswers⟩
    · exact ⟨_, List.mem_append_right _ (List.mem_singleton.2 rfl), hanswers⟩
  · intro hne
    rcases step_pollSuccess wired h with hsame | ⟨snapshot, timestamp, rfl, hmem, hread, hsuccess⟩
    · obtain ⟨timestamp, ⟨before, answered, between, mark, after, snapshot, rfl, hok, hmark⟩, hread,
        hsuccess⟩ := hrecorded.success (hsame ▸ hne)
      refine ⟨timestamp, ?_, hreads hread, hsame.trans hsuccess⟩
      exact ⟨before, answered, between, mark, after ++ [⟨w, action, w'⟩], snapshot, by simp, hok, hmark⟩
    · obtain ⟨st, hst, hanswers⟩ := hrecorded.unmarked snapshot hmem
      obtain ⟨before, between, rfl⟩ := List.append_of_mem hst
      refine ⟨timestamp, ?_, hreads hread, hsuccess⟩
      exact ⟨before, st, between, ⟨w, .markPollOk snapshot timestamp, w'⟩, [], snapshot, by simp,
        hanswers, rfl⟩

theorem Runs.recorded (h : Runs config trace w) : Recorded trace w := by
  refine Run.history Recorded ⟨by simp [init], fun hne => absurd rfl hne⟩ ?_ h
  intro trace w action w' hrun hrecorded hstep
  exact step_recorded (Runs.wired hrun) hrecorded hstep

/-! ## What the health check promises -/

/-- The health check of the exporter, for polls every `pollDelay`. -/
def health (w : World) (pollDelay : Duration) : Health where
  reconciler := some w.reconciler.resyncState
  timestamps := w.reconciler.metrics.timestamps
  pollDelay := pollDelay

omit [HostText] in
theorem window_le (w : World) (pollDelay : Duration) :
    (w.health pollDelay).window ≤ max (3 * pollDelay) (Duration.fromSecs 30) := by
  refine max_le_max ?_ le_rfl
  rw [Nat.mul_comm]
  exact min_le_left _ _

omit [HostText] in
/-- What the check read when it came out green. -/
theorem snapshot_none {health : Health} {now : Timestamp} {resync : ResyncState}
    (hbound : health.reconciler = some resync) (h : health.snapshot now = none) :
    resync.completed ≠ 0 ∧ health.timestamps.pollSuccess ≠ 0 ∧
      now - health.timestamps.pollSuccess ≤ health.window ∧
      (resync.completed < resync.requested →
        now - resync.outstandingSince.getD (-2 ^ 126) ≤ health.window) := by
  unfold Health.snapshot at h
  rw [hbound] at h
  simp only at h
  split at h
  · cases h
  · split at h
    · cases h
    · split at h
      · cases h
      · split at h
        · cases h
        · rename_i hcompleted hpoll hstale hresync
          refine ⟨hcompleted, hpoll, Int.not_lt.1 hstale, fun hopen => ?_⟩
          exact Int.not_lt.1 fun hlate => hresync ⟨hopen, hlate⟩

/-- **Health is never green over an unserved resync or stale polls.** In every reachable world no more
requests are completed than raised, the outstanding time is there exactly when a request is open, and
no open request took the lock before it. So where the check comes out green at `now`, a pass completed,
a poll answered with Ok was recorded within the window, and so were all open requests raised. -/
theorem health_green (h : Runs config trace w) (hlow : -2 ^ 63 ≤ config.clock)
    (hhigh : w.clock < 2 ^ 63) :
    w.reconciler.state.resyncCompleted ≤ w.reconciler.state.resyncRequested ∧
    (w.reconciler.state.resyncOutstandingSince.isSome = true ↔
      w.reconciler.state.resyncCompleted < w.reconciler.state.resyncRequested) ∧
    (∀ k clock, RaisedAt trace config.clock k clock → w.reconciler.state.resyncCompleted < k →
      ∃ time, w.reconciler.state.resyncOutstandingSince = some time ∧ time ≤ clock) ∧
    ∀ pollDelay now, (w.health pollDelay).snapshot now = none →
      (∃ before finish after listing, trace = before ++ finish :: after ∧
        CompletesPass before finish listing) ∧
      (∃ timestamp, MarkedOk trace timestamp ∧
        now - timestamp ≤ (max (3 * pollDelay) (Duration.fromSecs 30) : Nat)) ∧
      ∀ k clock, RaisedAt trace config.clock k clock → w.reconciler.state.resyncCompleted < k →
        now - clock ≤ (max (3 * pollDelay) (Duration.fromSecs 30) : Nat) := by
  have hstart : w.start = config.clock :=
    Run.invariant (fun w => w.start = config.clock) rfl
      (fun _ _ _ hinv hstep => (step_advances hstep).start.trans hinv) h
  have hdated := h.dated
  have hopened := hstart ▸ hdated.opened
  refine ⟨h.counted.counted, hdated.isSome, hopened, fun pollDelay now hgreen => ?_⟩
  have hwindow : ((w.health pollDelay).window : Int) ≤
      (max (3 * pollDelay) (Duration.fromSecs 30) : Nat) :=
    Int.ofNat_le.2 (window_le w pollDelay)
  obtain ⟨hcompleted, hpoll, hfresh, hserved⟩ := snapshot_none rfl hgreen
  refine ⟨?_, ?_, ?_⟩
  · obtain ⟨before, finish, after, listing, htrace, hpass, -⟩ :=
      completed_passes h 1 Nat.one_pos (Nat.one_le_iff_ne_zero.2 hcompleted)
    exact ⟨before, finish, after, listing, htrace, hpass⟩
  · obtain ⟨timestamp, hmarked, hreads, hsuccess⟩ := h.recorded.success hpoll
    have hnanos : unixNanos timestamp = timestamp :=
      unixNanos_of_range (hlow.trans (hstart ▸ hreads.1)) (hreads.2.trans_lt hhigh)
    refine ⟨timestamp, hmarked, ?_⟩
    have hpollSuccess : (w.health pollDelay).timestamps.pollSuccess = timestamp :=
      hsuccess.trans hnanos
    rw [hpollSuccess] at hfresh
    exact hfresh.trans hwindow
  · intro k clock hraised hk
    obtain ⟨time, htime, hle⟩ := hopened k clock hraised hk
    have hcount : k ≤ w.reconciler.state.resyncRequested := hdated.raised k clock (hstart ▸ hraised)
    have hage := hserved (hk.trans_le hcount)
    have hsince : w.reconciler.resyncState.outstandingSince.getD (-2 ^ 126) = time := by
      show w.reconciler.state.resyncOutstandingSince.getD _ = time
      rw [htime]
      rfl
    calc
      now - clock ≤ now - time := Int.sub_le_sub_left hle now
      _ ≤ (w.health pollDelay).window := hsince ▸ hage
      _ ≤ _ := hwindow

end Steps

open Sample in
/-- Green with a request open that is three seconds old. -/
theorem health_green_sample : ∃ trace w, Runs config trace w ∧ w.clock < 2 ^ 63 ∧
    w.reconciler.state.resyncRequested = 2 ∧
    (w.health (Duration.fromSecs 10)).snapshot 3000001000 = none ∧
    ∃ timestamp, MarkedOk trace timestamp ∧ 3000001000 - timestamp ≤ 30000000000 := by
  let resynced : List Action := resyncCycle [replicated "web" "web" 2] [] ["web"]
  let snapshot := snapshotAfter resynced
  let acts : List Action := resynced ++ [.buildPollSnapshot,
    .applyPollCounts snapshot (noTasks snapshot) 1000 ["web"], .markPollOk snapshot 1000,
    .requestResync 1000, .tick 2000 2000]
  have hreplay : (replay step (init config) acts).any (fun result =>
      decide (result.2.clock < 2 ^ 63 ∧ result.2.reconciler.state.resyncRequested = 2 ∧
        (result.2.health (Duration.fromSecs 10)).snapshot 3000001000 = none)) = true := by
    decide +kernel
  obtain ⟨trace, w, hrun, -, hcheck⟩ := exists_run_of_replay hreplay
  obtain ⟨hclock, hrequested, hgreen⟩ := of_decide_eq_true hcheck
  obtain ⟨-, -, -, hpromise⟩ := health_green hrun (by decide) hclock
  exact ⟨trace, w, hrun, hclock, hrequested, hgreen, (hpromise _ _ hgreen).2.1⟩

end World

end SwarmExporter
