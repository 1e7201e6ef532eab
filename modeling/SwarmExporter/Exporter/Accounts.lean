import Mathlib.Data.List.Basic
import SwarmExporter.Exporter.Steps
import SwarmExporter.Reconciler.Outstanding

/-!
# Counting the polls

`swarm_exporter_polls_total` and `swarm_exporter_poll_errors_total` against the run: every poll that
began ends once, as a failure or recorded for health (`poll_accounts`). The polls begin on the grid of the
interval, at most one in each of its windows, however long a poll takes (`poll_cadence`).
-/

namespace SwarmExporter

open Lib

/-! ## The grid of an interval -/

/-- **A late tick is followed by the next one on the grid**: with the ticks at `first` plus multiples of
the delay, the one after `now` is due at the end of the window `now` is in. -/
theorem Poller.skipMissed_eq {delay first index now : Nat} (hdelay : 0 < delay)
    (hdue : first + index * delay ≤ now) :
    skipMissed delay (first + index * delay) now = first + ((now - first) / delay + 1) * delay := by
  have hsub : now - first = now - (first + index * delay) + index * delay := by omega
  have hdiv : (now - first) / delay = (now - (first + index * delay)) / delay + index := by
    rw [hsub, Nat.add_mul_div_right _ _ hdelay]
  have hmod := Nat.div_add_mod' (now - (first + index * delay)) delay
  have hlt := Nat.mod_lt (now - (first + index * delay)) hdelay
  rw [skipMissed, hdiv, Nat.add_mul, Nat.add_mul, Nat.one_mul]
  clear hsub hdiv
  generalize index * delay = offset at hdue hmod hlt ⊢
  generalize (now - (first + offset)) / delay * delay = whole at hmod ⊢
  generalize (now - (first + offset)) % delay = past at hmod hlt ⊢
  show (now + delay - past : Nat) = first + (whole + offset + delay)
  omega

namespace Exporter

/-- `st` begins a poll. -/
def begins (st : Step Exporter ExporterAction) : Bool :=
  match st.act with
  | .poller .ready => true
  | .poller .tick => true
  | _ => false

/-- The time `st` records a poll at, if it does. -/
def recordedAt (st : Step Exporter ExporterAction) : Option Timestamp :=
  match st.act, st.pre.poller.phase with
  | .poller (.verdict timestamp), .judged _ none => some timestamp
  | _, _ => none

/-- When the polls of a trace began, in order. -/
def beginnings (trace : List (Step Exporter ExporterAction)) : List Instant :=
  (trace.filter begins).map fun st => st.pre.system.world.instant

/-- The times the polls of a trace were recorded at, in order. -/
def recordings (trace : List (Step Exporter ExporterAction)) : List Timestamp :=
  trace.filterMap recordedAt

variable {trace : List (Step Exporter ExporterAction)} {st : Step Exporter ExporterAction}

theorem beginnings_snoc (h : begins st = true) :
    beginnings (trace ++ [st]) = beginnings trace ++ [st.pre.system.world.instant] := by
  simp [beginnings, h]

theorem beginnings_snoc_of_not (h : begins st = false) :
    beginnings (trace ++ [st]) = beginnings trace := by
  simp [beginnings, h]

theorem recordings_snoc {timestamp : Timestamp} (h : recordedAt st = some timestamp) :
    recordings (trace ++ [st]) = recordings trace ++ [timestamp] := by
  simp [recordings, h]

theorem recordings_snoc_of_not (h : recordedAt st = none) :
    recordings (trace ++ [st]) = recordings trace := by
  simp [recordings, h]

/-- The poll in progress, if there is one. -/
def openPolls (poller : Poller) : Nat := if poller.phase.inPoll then 1 else 0

/-- What the counters say of the trace. -/
structure Accounted (trace : List (Step Exporter ExporterAction)) (e : Exporter) : Prop where
  begun : (beginnings trace).length = e.poller.polls + openPolls e.poller
  recorded : e.poller.polls = e.poller.pollErrors + (recordings trace).length
  success : e.system.world.reconciler.metrics.timestamps.pollSuccess =
    ((recordings trace).getLast?.map unixNanos).getD 0

section Steps

variable [HostText] {settings : Settings} {e e' : Exporter}

/-- Without a poller's call the time of the last success stays. -/
theorem calls_pollSuccess {calls : List Action} {w w' : World} (wired : w.reconciler.Wired)
    (hcalls : ∀ call ∈ calls, call.isPoll = false ∨
      ∃ snapshot counters timestamp visit, call = .buildPollSnapshot ∨
        call = .applyPollCounts snapshot counters timestamp visit)
    (h : calls.foldlM World.step w = some w') :
    w'.reconciler.metrics.timestamps.pollSuccess =
      w.reconciler.metrics.timestamps.pollSuccess := by
  induction calls generalizing w with
  | nil =>
    cases h
    rfl
  | cons call calls ih =>
    rw [List.foldlM_cons] at h
    obtain ⟨next, hnext, hrest⟩ := Option.bind_eq_some_iff.1 h
    rw [List.forall_mem_cons] at hcalls
    have hlater := ih (World.step_wired wired hnext) hcalls.2 hrest
    rcases World.step_pollSuccess wired hnext with hsame | ⟨_, _, rfl, -⟩
    · exact hlater.trans hsame
    · rcases hcalls.1 with hpoll | ⟨_, _, _, _, hcall | hcall⟩
      · cases hpoll
      · cases hcall
      · cases hcall

omit [HostText] in
/-- A move that neither begins nor ends a poll. -/
theorem Accounted.of_same {poller : Poller} {world : World} {action : ExporterAction}
    (h : Accounted trace e) (hbegins : begins ⟨e, action, e'⟩ = false)
    (hrecords : recordedAt ⟨e, action, e'⟩ = none)
    (he : e' = { system := { e.system with world }, poller }) (hpolls : poller.polls = e.poller.polls)
    (herrors : poller.pollErrors = e.poller.pollErrors)
    (hopen : poller.phase.inPoll = e.poller.phase.inPoll)
    (hsuccess : world.reconciler.metrics.timestamps.pollSuccess =
      e.system.world.reconciler.metrics.timestamps.pollSuccess) :
    Accounted (trace ++ [⟨e, action, e'⟩]) e' := by
  subst he
  refine ⟨?_, ?_, ?_⟩
  · rw [beginnings_snoc_of_not hbegins, h.begun, openPolls, openPolls, hpolls, hopen]
  · rw [recordings_snoc_of_not hrecords, hpolls, herrors]
    exact h.recorded
  · rw [recordings_snoc_of_not hrecords, ← h.success]
    exact hsuccess

omit [HostText] in
/-- A poll that fails is counted twice over. -/
theorem Accounted.of_fails {poller : Poller} {cancelled : Bool} {error : PollError}
    {action : ExporterAction} (h : Accounted trace e) (hrecords : recordedAt ⟨e, action, e'⟩ = none)
    (he : e' = { e with poller := poller.finish cancelled (some error) })
    (hpolls : poller.polls = e.poller.polls) (herrors : poller.pollErrors = e.poller.pollErrors)
    (hbegun : (beginnings (trace ++ [⟨e, action, e'⟩])).length = e.poller.polls + 1) :
    Accounted (trace ++ [⟨e, action, e'⟩]) e' := by
  have hopen : openPolls (poller.finish cancelled (some error)) = 0 := by
    unfold openPolls Poller.finish
    cases poller.containers.isSome && !cancelled <;> rfl
  subst he
  refine ⟨?_, ?_, ?_⟩
  · rw [hbegun, hopen, ← hpolls]
    rfl
  · have hrecorded := h.recorded
    rw [recordings_snoc_of_not hrecords]
    show poller.polls + 1 = (poller.pollErrors + 1) + _
    omega
  · rw [recordings_snoc_of_not hrecords]
    exact h.success

/-- A step of the poller is accounted for, move by move. -/
theorem accounted_of_moves {action : PollerAction} {poller : Poller} {calls : List Action}
    {world : World} (wired : e.system.world.reconciler.Wired) (h : Accounted trace e)
    (hmoves : e.poller.Moves e.system.world action poller calls)
    (hcalls : calls.foldlM World.step e.system.world = some world)
    (he : e' = { system := { e.system with world }, poller }) :
    Accounted (trace ++ [⟨e, .poller action, e'⟩]) e' := by
  have hfinished : (e.poller.phase.inPoll = true) → (beginnings trace).length = e.poller.polls + 1 := by
    intro hphase
    rw [h.begun, openPolls, if_pos hphase]
  cases hmoves with
  | stop hcancelled hphase =>
    cases hcalls
    refine h.of_same rfl rfl he rfl rfl ?_ rfl
    rcases hphase with hphase | hphase
    · rw [hphase]
      rfl
    · rw [hphase]
      rfl
  | begins hbegins =>
    cases hcalls
    have hclosed : e.poller.phase.inPoll = false := by
      cases hbegins with
      | ready hphase => rw [hphase]; rfl
      | tick hphase => rw [hphase]; rfl
    have hbegun : (beginnings (trace ++ [⟨e, .poller action, e'⟩])).length = e.poller.polls + 1 := by
      have hbegins : begins ⟨e, .poller action, e'⟩ = true := by cases hbegins <;> rfl
      rw [beginnings_snoc hbegins, List.length_append, h.begun, openPolls, hclosed]
      rfl
    have hrecords : recordedAt ⟨e, .poller action, e'⟩ = none := by cases hbegins <;> rfl
    unfold Poller.pollOnce at he
    split at he
    · exact h.of_fails hrecords he rfl rfl hbegun
    · subst he
      refine ⟨hbegun, ?_, ?_⟩
      · rw [recordings_snoc_of_not hrecords]
        exact h.recorded
      · rw [recordings_snoc_of_not hrecords]
        exact h.success
  | grants hphase =>
    refine h.of_same rfl rfl he rfl rfl (by rw [hphase]; rfl) (calls_pollSuccess wired ?_ hcalls)
    intro call hcall
    exact .inr ⟨⟨∅, [], 0, 0⟩, ∅, 0, [], .inl (List.mem_singleton.1 hcall)⟩
  | lists hphase =>
    cases hcalls
    exact h.of_same rfl rfl he rfl rfl (by rw [hphase]; rfl) rfl
  | submits hphase =>
    cases hcalls
    exact h.of_same rfl rfl he rfl rfl (by rw [hphase]; rfl) rfl
  | refuses hphase =>
    cases hcalls
    exact h.of_same rfl rfl he rfl rfl hphase.symm rfl
  | judges hphase hfailure =>
    refine h.of_same rfl rfl he rfl rfl (by rw [hphase]; rfl) (calls_pollSuccess wired ?_ hcalls)
    intro call hcall
    exact .inr ⟨_, _, _, _, .inr (List.mem_singleton.1 hcall)⟩
  | @records snapshot timestamp hphase =>
    have hrecords : recordedAt ⟨e, .poller (.verdict timestamp), e'⟩ = some timestamp := by
      simp [recordedAt, hphase]
    have hopen : openPolls (e.poller.finish e.system.world.cancelled none) = 0 := by
      unfold openPolls Poller.finish
      cases e.poller.containers.isSome && !e.system.world.cancelled <;> rfl
    have hmarked : World.step e.system.world (.markPollOk snapshot timestamp) = some world := by
      simpa using hcalls
    simp only [World.step, Option.ite_none_right_eq_some, Option.some.injEq] at hmarked
    obtain ⟨-, rfl⟩ := hmarked
    subst he
    refine ⟨?_, ?_, ?_⟩
    · rw [beginnings_snoc_of_not rfl, hfinished (by rw [hphase]; rfl), hopen]
      rfl
    · have hrecorded := h.recorded
      rw [recordings_snoc hrecords, List.length_append, List.length_singleton]
      show e.poller.polls + 1 = e.poller.pollErrors + _
      omega
    · rw [recordings_snoc hrecords, List.getLast?_concat]
      rfl
  | fails hphase hverdict hbegins =>
    cases hcalls
    have hrecords : recordedAt ⟨e, .poller action, e'⟩ = none := by
      unfold recordedAt
      split
      · rename_i timestamp snapshot hact hjudged
        cases hact
        exact absurd hjudged (hverdict timestamp snapshot rfl)
      · rfl
    refine h.of_fails hrecords he rfl rfl ?_
    have hnot : begins ⟨e, .poller action, e'⟩ = false := by
      unfold begins
      split
      · rename_i hact
        cases hact
        exact absurd rfl hbegins.1
      · rename_i hact
        cases hact
        exact absurd rfl hbegins.2
      · rfl
    rw [beginnings_snoc_of_not hnot]
    exact hfinished hphase
  | publishes hphase =>
    cases hcalls
    exact h.of_same rfl rfl he rfl rfl (by rw [hphase]; rfl) rfl
  | keeps hphase hfailed =>
    cases hcalls
    rcases hfailed with ⟨rfl, -⟩ | ⟨_, _, _, _, rfl, -⟩
    · exact h.of_same rfl rfl he rfl rfl (by rw [hphase]; rfl) rfl
    · exact h.of_same rfl rfl he rfl rfl (by rw [hphase]; rfl) rfl

/-- **The accounts of the polls.** In every run each poll that began either is in progress or was counted
once; those counted are the ones that failed and the ones recorded as successful; and the time health
reads is that of the last one recorded, 0 before the first. -/
theorem poll_accounts (h : Runs settings trace e) :
    (beginnings trace).length = e.poller.polls + (if e.poller.phase.inPoll then 1 else 0) ∧
    e.poller.polls = e.poller.pollErrors + (recordings trace).length ∧
    e.system.world.reconciler.metrics.timestamps.pollSuccess =
      ((recordings trace).getLast?.map unixNanos).getD 0 := by
  have haccounted : Accounted trace e := by
    refine Run.history Accounted ⟨rfl, rfl, rfl⟩ ?_ h
    intro trace e action e' hrun haccounted hstep
    cases action with
    | system action =>
      obtain ⟨calls, hcalls, hworld, hpoller⟩ := step_system_calls hstep
      have hsuccess := calls_pollSuccess (Runs.wired hrun) (fun call hcall => .inl (hcalls call hcall))
        hworld
      refine ⟨?_, ?_, ?_⟩
      · rw [beginnings_snoc_of_not rfl, hpoller]
        exact haccounted.begun
      · rw [recordings_snoc_of_not rfl, hpoller]
        exact haccounted.recorded
      · rw [recordings_snoc_of_not rfl, hsuccess]
        exact haccounted.success
    | poller action =>
      obtain ⟨poller, calls, world, hmoves, hcalls, he⟩ := step_poller hstep
      exact accounted_of_moves (Runs.wired hrun) haccounted hmoves hcalls he
  exact ⟨haccounted.begun, haccounted.recorded, haccounted.success⟩

/-! ### The cadence -/

/-- The polls began at `polls`, in different windows of the interval that started at `first`; the tick
taken last is followed by the one at the end of its window. -/
structure OnGrid (delay : Duration) (first : Instant) (polls : List Instant) (nextTick now : Instant) :
    Prop where
  windows : polls.Pairwise fun t t' => (t - first) / delay < (t' - first) / delay
  within : ∀ t ∈ polls, first ≤ t ∧ t ≤ now
  next : ∃ last ∈ polls, nextTick = first + ((last - first) / delay + 1) * delay ∧
    ∀ t ∈ polls, (t - first) / delay ≤ (last - first) / delay

namespace OnGrid

variable {delay : Duration} {first nextTick now now' : Instant} {polls : List Instant}

omit [HostText] in
theorem later (h : OnGrid delay first polls nextTick now) (hlater : now ≤ now') :
    OnGrid delay first polls nextTick now' :=
  ⟨h.windows, fun t ht => ⟨(h.within t ht).1, (h.within t ht).2.trans hlater⟩, h.next⟩

omit [HostText] in
theorem start (now : Instant) : OnGrid delay now [now] (now + delay) now := by
  refine ⟨List.pairwise_singleton _ _, ?_, now, List.mem_singleton_self now, ?_, ?_⟩
  · intro t ht
    obtain rfl := List.mem_singleton.1 ht
    exact ⟨le_rfl, le_rfl⟩
  · simp
  · intro t ht
    rw [List.mem_singleton.1 ht]

omit [HostText] in
/-- A tick is taken in a window after those of the polls before it, since it was not due earlier. -/
theorem tick (hdelay : 0 < delay) (h : OnGrid delay first polls nextTick now) (hdue : nextTick ≤ now) :
    OnGrid delay first (polls ++ [now]) (Poller.skipMissed delay nextTick now) now := by
  obtain ⟨last, hlast, rfl, hwindows⟩ := h.next
  have hfirst : first ≤ now := (h.within last hlast).1.trans (h.within last hlast).2
  have hafter : (last - first) / delay + 1 ≤ (now - first) / delay := by
    rw [Nat.le_div_iff_mul_le hdelay]
    exact Nat.le_sub_of_add_le' hdue
  have hearlier : ∀ t ∈ polls, (t - first) / delay < (now - first) / delay :=
    fun t ht => Nat.lt_of_le_of_lt (hwindows t ht) hafter
  refine ⟨?_, ?_, now, by simp, Poller.skipMissed_eq hdelay hdue, ?_⟩
  · rw [List.pairwise_append]
    refine ⟨h.windows, List.pairwise_singleton _ _, fun t ht t' ht' => ?_⟩
    obtain rfl := List.mem_singleton.1 ht'
    exact hearlier t ht
  · intro t ht
    rcases List.mem_append.1 ht with ht | ht
    · exact h.within t ht
    · obtain rfl := List.mem_singleton.1 ht
      exact ⟨hfirst, le_rfl⟩
  · intro t ht
    rcases List.mem_append.1 ht with ht | ht
    · exact (hearlier t ht).le
    · rw [List.mem_singleton.1 ht]

omit [HostText] in
/-- Polls in different windows are no more than the windows there were. -/
theorem length_le (h : OnGrid delay first polls nextTick now) :
    polls.length ≤ (now - first) / delay + 1 := by
  have hnodup : (polls.map fun t => (t - first) / delay).Nodup := by
    refine List.Pairwise.map _ (fun t t' hlt => ?_) h.windows
    exact Nat.ne_of_lt hlt
  have hsubset : (polls.map fun t => (t - first) / delay) ⊆ List.range ((now - first) / delay + 1) := by
    intro window hwindow
    obtain ⟨t, ht, rfl⟩ := List.mem_map.1 hwindow
    rw [List.mem_range, Nat.lt_succ_iff]
    exact Nat.div_le_div_right (Nat.sub_le_sub_right (h.within t ht).2 first)
  have hle := (List.subperm_of_subset hnodup hsubset).length_le
  rwa [List.length_map, List.length_range] at hle

end OnGrid

/-- The polls of a trace keep to the grid of the first. -/
structure Paced (delay : Duration) (trace : List (Step Exporter ExporterAction)) (e : Exporter) :
    Prop where
  interval : e.poller.delay = delay
  unready : e.poller.phase = .unready → beginnings trace = []
  begun : beginnings trace = [] → e.poller.phase = .unready ∨ e.poller.phase = .stopped
  grid : ∀ first rest, beginnings trace = first :: rest →
    OnGrid delay first (first :: rest) e.poller.nextTick e.system.world.instant

omit [HostText] in
/-- A poll that begins keeps to the grid, or starts it. -/
theorem Paced.of_begins {action : PollerAction} {nextTick : Instant} (hdelay : 0 < settings.pollDelay)
    (h : Paced settings.pollDelay trace e)
    (hbegins : e.poller.Begins e.system.world action nextTick) (hnext : e'.poller.nextTick = nextTick)
    (hkeeps : e'.poller.delay = e.poller.delay ∧ e'.poller.phase ≠ .unready)
    (hlater : e.system.world.instant ≤ e'.system.world.instant) :
    Paced settings.pollDelay (trace ++ [⟨e, .poller action, e'⟩]) e' := by
  have hbeginnings : beginnings (trace ++ [⟨e, .poller action, e'⟩]) =
      beginnings trace ++ [e.system.world.instant] :=
    beginnings_snoc (by cases hbegins <;> rfl)
  refine ⟨hkeeps.1.trans h.interval, fun hunready => absurd hunready hkeeps.2, ?_, ?_⟩
  · intro hnone
    rw [hbeginnings] at hnone
    simp at hnone
  · intro first rest hfirst
    rw [hbeginnings] at hfirst
    rw [hnext]
    cases hbegins with
    | ready hphase =>
      rw [h.unready hphase, List.nil_append] at hfirst
      obtain ⟨rfl, rfl⟩ := List.cons_eq_cons.1 hfirst
      rw [h.interval]
      exact (OnGrid.start _).later hlater
    | tick hphase hdue =>
      cases hpolls : beginnings trace with
      | nil =>
        rcases h.begun hpolls with hnot | hnot
        · rw [hphase] at hnot
          cases hnot
        · rw [hphase] at hnot
          cases hnot
      | cons start polls =>
        rw [hpolls, List.cons_append] at hfirst
        obtain ⟨rfl, rfl⟩ := List.cons_eq_cons.1 hfirst
        rw [h.interval]
        exact ((h.grid start polls hpolls).tick hdelay hdue).later hlater

/-- **The cadence of the polls.** With the first poll of a run at `first`, the polls after it begin in
later and later windows of the interval that starts there, one in each at most, so that the clock bounds
their number; and the next tick is at the end of the window of the last poll, however long that took. -/
theorem poll_cadence {first : Instant} {rest : List Instant} (h : Runs settings trace e)
    (hbegun : beginnings trace = first :: rest) :
    (first :: rest).Pairwise
      (fun t t' => (t - first) / settings.pollDelay < (t' - first) / settings.pollDelay) ∧
    (∀ t ∈ first :: rest, first ≤ t ∧ t ≤ e.system.world.instant) ∧
    (∃ last ∈ first :: rest,
      e.poller.nextTick = first + ((last - first) / settings.pollDelay + 1) * settings.pollDelay ∧
      ∀ t ∈ first :: rest,
        (t - first) / settings.pollDelay ≤ (last - first) / settings.pollDelay) ∧
    (first :: rest).length ≤ (e.system.world.instant - first) / settings.pollDelay + 1 := by
  have hdelay : 0 < settings.pollDelay :=
    Nat.lt_of_lt_of_le (by decide) (Cli.le_of_checkPollDelay settings.checked)
  have hpaced : Paced settings.pollDelay trace e := by
    refine Run.history (Paced settings.pollDelay)
      ⟨rfl, fun _ => rfl, fun _ => .inl rfl, fun first rest hfirst => by cases hfirst⟩ ?_ h
    intro trace e action e' hrun hpaced hstep
    obtain ⟨-, -, hlater, -⟩ := step_later hstep
    cases action with
    | system action =>
      obtain ⟨system, -, -, rfl⟩ := step_system hstep
      have hsame : beginnings (trace ++ [⟨e, .system action, { e with system }⟩]) = beginnings trace :=
        beginnings_snoc_of_not rfl
      refine ⟨hpaced.interval, ?_, ?_, ?_⟩
      · rw [hsame]
        exact hpaced.unready
      · rw [hsame]
        exact hpaced.begun
      · rw [hsame]
        exact fun first rest hfirst => (hpaced.grid first rest hfirst).later hlater
    | poller action =>
      obtain ⟨poller, calls, world, hmoves, -, rfl⟩ := step_poller hstep
      obtain ⟨hrunning, hkeeps, hbegun, hinterval⟩ := hmoves.interval
      rcases hinterval with hbegins | ⟨⟨hready, htick⟩, hnext, hstopped⟩
      · exact hpaced.of_begins hdelay hbegins rfl ⟨hkeeps, hbegun⟩ hlater
      · have hsame : beginnings (trace ++
            [⟨e, .poller action, { system := { e.system with world }, poller }⟩]) = beginnings trace :=
          beginnings_snoc_of_not (by cases action <;> first | rfl | contradiction)
        refine ⟨hkeeps.trans hpaced.interval, fun hunready => absurd hunready hbegun, ?_, ?_⟩
        · rw [hsame]
          intro hnone
          rcases hpaced.begun hnone with hphase | hphase
          · exact .inr (hstopped hphase)
          · exact absurd hphase hrunning
        · rw [hsame]
          intro first rest hfirst
          show OnGrid settings.pollDelay first (first :: rest) poller.nextTick world.instant
          rw [hnext]
          exact (hpaced.grid first rest hfirst).later hlater
  have hgrid := hpaced.grid first rest hbegun
  exact ⟨hgrid.windows, hgrid.within, hgrid.next, hgrid.length_le⟩

end Steps

end Exporter

namespace Sample

/-- Two polls: the tick at 15 seconds is taken at 40, and the poll fails on its task list. -/
def latePoll : List ExporterAction :=
  firstResync ++ .poller .ready :: emptyPoll ++
    [.system (.world (.tick 2000 (Duration.fromSecs 40))), .poller .tick, .poller .serveSnapshot,
      .poller .received,
      .poller (.tasksListed (.error ⟨"task list", ⟨.timeout, "context deadline exceeded"⟩⟩) [])]

end Sample

namespace Exporter

open Sample in
/-- The poll recorded and the one that failed. -/
theorem poll_accounts_sample : ∃ trace e, Runs settings trace e ∧ trace.map (·.act) = latePoll ∧
    e.poller.phase = .waiting ∧ e.poller.pollErrors = 1 ∧
    (beginnings trace).length = 1 + (recordings trace).length := by
  have hreplay : (replay step (init settings) latePoll).any (fun result =>
      decide (result.2.poller.phase = .waiting) && decide (result.2.poller.pollErrors = 1)) = true := by
    decide +kernel
  obtain ⟨trace, e, hrun, hacts, hcheck⟩ := exists_run_of_replay hreplay
  simp only [Bool.and_eq_true, decide_eq_true_eq] at hcheck
  obtain ⟨hphase, herrors⟩ := hcheck
  obtain ⟨hbegun, hpolls, -⟩ := poll_accounts hrun
  refine ⟨trace, e, hrun, hacts, hphase, herrors, ?_⟩
  rw [hbegun, hpolls, hphase, herrors]
  rfl

open Sample in
/-- The tick after a late one is at the end of its window: 45 seconds after the first poll. -/
theorem poll_cadence_sample : ∃ trace e, Runs settings trace e ∧
    beginnings trace = [0, Duration.fromSecs 40] ∧ e.poller.nextTick = Duration.fromSecs 45 ∧
    [0, Duration.fromSecs 40].length ≤ (e.system.world.instant - 0) / settings.pollDelay + 1 := by
  have hreplay : (replay step (init settings) latePoll).any (fun result =>
      decide (beginnings result.1 = [0, Duration.fromSecs 40]) &&
        decide (result.2.poller.nextTick = Duration.fromSecs 45)) = true := by
    decide +kernel
  obtain ⟨trace, e, hrun, -, hcheck⟩ := exists_run_of_replay hreplay
  simp only [Bool.and_eq_true, decide_eq_true_eq] at hcheck
  obtain ⟨hbegun, hnext⟩ := hcheck
  exact ⟨trace, e, hrun, hbegun, hnext, (poll_cadence hrun hbegun).2.2.2⟩

end Exporter

end SwarmExporter
