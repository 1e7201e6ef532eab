import SwarmExporter.Exporter.Accounts
import SwarmExporter.Exporter.Shutdown
import SwarmExporter.Reconciler.Cycles

/-!
# Every poll ends

The poller waits for the reconciler twice in a poll, and the reconciler serves it between two cycles only.
Neither waits for the other in a circle: the cycle in progress ends whatever Docker answers, the snapshot
the poller hands back is one it was handed (`Held`), and each step of a poll lowers what is left of it. So
from every state the poll in progress can be brought to its end.
-/

namespace SwarmExporter

open Lib
open Docker (CallError Task)

/-- The steps a poll may still take. -/
def PollerPhase.stepsLeft : PollerPhase → Nat
  | .requesting => 5
  | .granted _ => 4
  | .listing _ => 3
  | .submitting _ _ => 2
  | .judged _ _ => 1
  | .refused _ => 1
  | _ => 0

/-- The snapshot a poll was handed and not yet judged against. -/
def PollerPhase.snapshot? : PollerPhase → Option PollSnapshot
  | .granted snapshot => some snapshot
  | .listing snapshot => some snapshot
  | .submitting snapshot _ => some snapshot
  | _ => none

namespace World

variable [HostText] {w w' : World} {action : Action}

/-- The others leave the snapshots handed out and the polls to be recorded alone. -/
theorem step_polls (h : w.step action = some w') (hpoll : action.isPoll = false) :
    w'.snapshots = w.snapshots ∧ w'.unmarked = w.unmarked := by
  by_cases hcycle : action.isCycle = true
  · obtain ⟨reconciler, phase, rfl⟩ := step_frame h hcycle
    exact ⟨rfl, rfl⟩
  · cases action with
    | tick clock instant =>
      simp only [step, Option.ite_none_right_eq_some, Option.some.injEq] at h
      obtain ⟨-, rfl⟩ := h
      exact ⟨rfl, rfl⟩
    | cancel =>
      cases h
      exact ⟨rfl, rfl⟩
    | enqueueEvent event now timestamp =>
      simp only [step, Option.ite_none_right_eq_some, Option.some.injEq] at h
      obtain ⟨-, rfl⟩ := h
      exact ⟨rfl, rfl⟩
    | requestResync timestamp =>
      simp only [step, Option.ite_none_right_eq_some, Option.some.injEq] at h
      obtain ⟨-, rfl⟩ := h
      exact ⟨rfl, rfl⟩
    | buildPollSnapshot => cases hpoll
    | applyPollCounts => cases hpoll
    | markPollOk => cases hpoll
    | _ => exact absurd rfl hcycle

theorem calls_polls {calls : List Action} (hcalls : ∀ call ∈ calls, call.isPoll = false)
    (h : calls.foldlM step w = some w') :
    w'.snapshots = w.snapshots ∧ w'.unmarked = w.unmarked := by
  induction calls generalizing w with
  | nil =>
    cases h
    exact ⟨rfl, rfl⟩
  | cons call calls ih =>
    rw [List.foldlM_cons] at h
    obtain ⟨next, hnext, hrest⟩ := Option.bind_eq_some_iff.1 h
    rw [List.forall_mem_cons] at hcalls
    obtain ⟨hsnapshots, hunmarked⟩ := step_polls hnext hcalls.1
    obtain ⟨hsnapshots', hunmarked'⟩ := ih hcalls.2 hrest
    exact ⟨hsnapshots'.trans hsnapshots, hunmarked'.trans hunmarked⟩

end World

namespace Exporter

variable [HostText] {settings : Settings} {trace : List (Step Exporter ExporterAction)}
  {e e' : Exporter} {action : ExporterAction}

/-- What the poller holds is what the reconciler handed out: a snapshot, or the answer to a poll that is
not recorded yet. -/
structure Held (e : Exporter) : Prop where
  snapshot : ∀ snapshot, e.poller.phase.snapshot? = some snapshot →
    snapshot ∈ e.system.world.snapshots
  answer : ∀ snapshot, e.poller.phase = .judged snapshot none → snapshot ∈ e.system.world.unmarked

omit [HostText] in
theorem held_of_none (hsnapshot : e.poller.phase.snapshot? = none)
    (hanswer : ∀ snapshot, e.poller.phase ≠ .judged snapshot none) : Held e := by
  constructor
  · intro snapshot hheld
    rw [hsnapshot] at hheld
    cases hheld
  · intro snapshot hheld
    exact absurd hheld (hanswer snapshot)

omit [HostText] in
theorem held_of_finish {poller : Poller} {cancelled : Bool} {failure : Option PollError}
    {system : System} : Held { system, poller := poller.finish cancelled failure } := by
  unfold Poller.finish
  cases hnext : poller.containers.isSome && !cancelled with
  | true => exact held_of_none rfl (fun _ h => by cases h)
  | false => exact held_of_none rfl (fun _ h => by cases h)

theorem step_held (h : Held e) (hstep : e.step action = some e') : Held e' := by
  cases action with
  | system action =>
    obtain ⟨calls, hcalls, hworld, hpoller⟩ := step_system_calls hstep
    obtain ⟨hsnapshots, hunmarked⟩ := World.calls_polls hcalls hworld
    constructor
    · rw [hpoller, hsnapshots]
      exact h.snapshot
    · rw [hpoller, hunmarked]
      exact h.answer
  | poller action =>
    obtain ⟨poller, calls, world, hmoves, hcalls, rfl⟩ := step_poller hstep
    cases hmoves with
    | begins =>
      unfold Poller.pollOnce
      split
      · exact held_of_finish
      · exact held_of_none rfl (fun _ h => by cases h)
    | grants =>
      simp only [List.foldlM_cons, List.foldlM_nil, bind_pure, World.step, Option.ite_none_right_eq_some,
        Option.some.injEq] at hcalls
      obtain ⟨-, rfl⟩ := hcalls
      refine ⟨fun snapshot hsnapshot => ?_, fun _ h => by cases h⟩
      cases hsnapshot
      exact List.mem_cons_self
    | lists hphase =>
      cases hcalls
      refine ⟨fun snapshot hsnapshot => h.snapshot snapshot ?_, fun _ h => by cases h⟩
      rw [hphase]
      exact hsnapshot
    | submits hphase =>
      cases hcalls
      refine ⟨fun snapshot hsnapshot => h.snapshot snapshot ?_, fun _ h => by cases h⟩
      rw [hphase]
      exact hsnapshot
    | judges hphase hfailure =>
      simp only [List.foldlM_cons, List.foldlM_nil, bind_pure, World.step, Option.ite_none_right_eq_some,
        Option.some.injEq] at hcalls
      obtain ⟨-, rfl⟩ := hcalls
      refine ⟨(fun _ h => by cases h), fun snapshot hjudged => ?_⟩
      cases hjudged
      have hok := hfailure.1 rfl
      simp [hok, Except.isOk, Except.toBool]
    | records => exact held_of_finish
    | fails => exact held_of_finish
    | _ => exact held_of_none rfl (fun _ h => by cases h)

theorem Runs.held (h : Runs settings trace e) : Held e :=
  Run.invariant Held (held_of_none rfl (fun _ h => by cases h))
    (fun _ _ _ hheld hstep => step_held hheld hstep) h

end Exporter

/-! ## What is left of a poll -/

namespace Poller

variable [HostText] {poller poller' : Poller} {w w' : World} {action : PollerAction}
  {calls : List Action}

omit [HostText] in
theorem stepsLeft_le (phase : PollerPhase) : phase.stepsLeft ≤ 5 := by
  cases phase <;> simp [PollerPhase.stepsLeft]

omit [HostText] in
theorem stepsLeft_pos {phase : PollerPhase} (h : phase.inPoll = true) : 0 < phase.stepsLeft := by
  cases phase <;> first | (cases h; done) | exact Nat.succ_pos _

omit [HostText] in
theorem stepsLeft_of_not_inPoll {phase : PollerPhase} (h : phase.inPoll = false) :
    phase.stepsLeft = 0 := by
  cases phase <;> first | rfl | cases h

omit [HostText] in
theorem finish_ended {cancelled : Bool} {failure : Option PollError} :
    (poller.finish cancelled failure).phase.inPoll = false := by
  unfold finish
  cases hnext : poller.containers.isSome && !cancelled <;> rfl

/-- **A move within a poll brings it nearer to its end**, which counts it. -/
theorem Moves.nearer (h : Moves poller w action poller' calls) (hpoll : poller.phase.inPoll = true) :
    poller'.phase.stepsLeft < poller.phase.stepsLeft ∧
      poller'.polls + poller'.phase.inPoll.toNat = poller.polls + 1 := by
  have hends : ∀ cancelled failure,
      (poller.finish cancelled failure).phase.stepsLeft < poller.phase.stepsLeft ∧
        (poller.finish cancelled failure).polls +
          (poller.finish cancelled failure).phase.inPoll.toNat = poller.polls + 1 := by
    intro cancelled failure
    rw [stepsLeft_of_not_inPoll finish_ended, finish_ended]
    exact ⟨stepsLeft_pos hpoll, rfl⟩
  cases h with
  | stop hcancelled hphase =>
    rcases hphase with hphase | hphase
    · rw [hphase] at hpoll
      cases hpoll
    · rw [hphase] at hpoll
      cases hpoll
  | begins hbegins =>
    cases hbegins with
    | ready hphase =>
      rw [hphase] at hpoll
      cases hpoll
    | tick hphase =>
      rw [hphase] at hpoll
      cases hpoll
  | grants hphase =>
    rw [hphase]
    exact ⟨Nat.lt_succ_self _, rfl⟩
  | lists hphase =>
    rw [hphase]
    exact ⟨Nat.lt_succ_self _, rfl⟩
  | submits hphase =>
    rw [hphase]
    exact ⟨Nat.lt_succ_self _, rfl⟩
  | judges hphase =>
    rw [hphase]
    exact ⟨Nat.lt_succ_self _, rfl⟩
  | refuses _ hwaits =>
    rcases hwaits with hphase | ⟨snapshot, counters, hphase⟩
    · rw [hphase]
      exact ⟨Nat.lt_of_sub_eq_succ rfl, rfl⟩
    · rw [hphase]
      exact ⟨Nat.lt_succ_self _, rfl⟩
  | records => exact hends _ _
  | fails => exact hends _ _
  | publishes hphase =>
    rw [hphase] at hpoll
    cases hpoll
  | keeps hphase =>
    rw [hphase] at hpoll
    cases hpoll

/-- Between two polls a move begins one, or none is in progress after it. -/
theorem Moves.outside (h : Moves poller w action poller' calls) (hpoll : poller.phase.inPoll = false) :
    action = .ready ∨ action = .tick ∨ poller'.phase.stepsLeft = 0 := by
  have hnot : ∀ {phase : PollerPhase}, poller.phase = phase → phase.inPoll = true → False := by
    intro phase hphase hphase'
    rw [hphase, hphase'] at hpoll
    cases hpoll
  cases h with
  | begins hbegins =>
    cases hbegins with
    | ready => exact .inl rfl
    | tick => exact .inr (.inl rfl)
  | grants hphase => exact (hnot hphase rfl).elim
  | lists hphase => exact (hnot hphase rfl).elim
  | submits hphase => exact (hnot hphase rfl).elim
  | judges hphase => exact (hnot hphase rfl).elim
  | records hphase => exact (hnot hphase rfl).elim
  | refuses hphase => exact (hnot rfl hphase).elim
  | fails hphase => exact (hnot rfl hphase).elim
  | stop => exact .inr (.inr rfl)
  | publishes => exact .inr (.inr rfl)
  | keeps => exact .inr (.inr rfl)

/-- The poller does nothing to the cycle. -/
theorem Moves.not_isCycle (h : Moves poller w action poller' calls) :
    ∀ call ∈ calls, call.isCycle = false := by
  cases h <;> simp [Action.isCycle]

end Poller

namespace Exporter

variable [HostText] {settings : Settings} {trace rest : List (Step Exporter ExporterAction)}
  {e e' : Exporter}

/-- `st` is a step of a poll in progress: the poller's, or the reconciler's serving it. -/
def polling (st : Step Exporter ExporterAction) : Bool :=
  match st.act with
  | .poller _ => st.pre.poller.phase.inPoll
  | .system _ => false

/-- The step is the cycle's with the answer `docker` gives there, or the poller's with `listed` for its
task list. -/
def Answers (docker : World → Reply) (listed : Except CallError (List Task))
    (st : Step Exporter ExporterAction) : Prop :=
  match st.act with
  | .system (.world action) =>
    World.Heeds docker ⟨st.pre.system.world, action, st.post.system.world⟩
  | .system (.listener _) => False
  | .poller .giveUp => False
  | .poller (.tasksListed listed' _) => listed' = listed
  | .poller _ => True

/-- The poller leaves the cycle where it is. -/
theorem step_poller_phase {action : PollerAction} (h : e.step (.poller action) = some e') :
    e'.system.world.phase = e.system.world.phase := by
  obtain ⟨poller, calls, world, hmoves, hcalls, rfl⟩ := step_poller h
  have hnone := hmoves.not_isCycle
  clear hmoves h
  show world.phase = _
  generalize e.system.world = w at hcalls
  induction calls generalizing w with
  | nil =>
    cases hcalls
    rfl
  | cons call calls ih =>
    rw [List.foldlM_cons] at hcalls
    obtain ⟨next, hnext, hlater⟩ := Option.bind_eq_some_iff.1 hcalls
    rw [List.forall_mem_cons] at hnone
    exact (ih hnone.2 next hlater).trans (World.step_phase hnext hnone.1)

/-- A run of the cycle is one of the exporter. -/
theorem run_of_cycle {docker : World → Reply} (listed : Except CallError (List Task))
    {cycle : List (Step World Action)} {w : World} (hrun : Run World.step e.system.world cycle w)
    (hheeds : ∀ st ∈ cycle, World.Heeds docker st) :
    ∃ rest, Run step e rest { e with system := { e.system with world := w } } ∧
      rest.length = cycle.length ∧ ∀ st ∈ rest, Answers docker listed st := by
  induction hrun with
  | nil => exact ⟨[], .nil, rfl, by simp⟩
  | @snoc cycle w w' action hrun hstep ih =>
    obtain ⟨rest, hrest, hlength, hanswers⟩ := ih fun st hst => hheeds st (List.mem_append_left _ hst)
    have hheed : World.Heeds docker ⟨w, action, w'⟩ := hheeds _ (by simp)
    have hpoll : action.isPoll = false := by
      have hcycle : action.isCycle = true := hheed.1
      cases action <;> first | rfl | cases hcycle
    have hnext : step { e with system := { e.system with world := w } } (.system (.world action)) =
        some { e with system := { e.system with world := w' } } := by
      simp [step, SystemAction.isPoll, hpoll, System.step, hstep]
    refine ⟨_, hrest.snoc hnext, by simp [hlength], fun st hst => ?_⟩
    rcases List.mem_append.1 hst with hst | hst
    · exact hanswers st hst
    · obtain rfl := List.mem_singleton.1 hst
      exact hheed

/-- **Between two cycles a poll goes on**, with the list it waits for. -/
theorem step_polling (h : Runs settings trace e) (hidle : e.system.world.phase = .idle)
    (hpoll : e.poller.phase.inPoll = true) (listed : Except CallError (List Task)) :
    ∃ action, action ≠ .giveUp ∧
      (∀ listed' visit, action = .tasksListed listed' visit → listed' = listed) ∧
      (e.step (.poller action)).isSome = true := by
  have hheld := Runs.held h
  have hreads : e.system.world.Reads e.system.world.clock := ⟨Runs.start_le_clock h, le_rfl⟩
  cases hphase : e.poller.phase with
  | requesting =>
    cases hcancelled : e.system.world.cancelled with
    | true =>
      refine ⟨.serveStopping, by simp, by simp, ?_⟩
      simp [step, Poller.step, hphase, hcancelled, hidle]
    | false =>
      refine ⟨.serveSnapshot, by simp, by simp, ?_⟩
      simp [step, Poller.step, hphase, World.step, hcancelled, hidle]
  | granted snapshot =>
    refine ⟨.received, by simp, by simp, ?_⟩
    cases hcancelled : e.system.world.cancelled <;> simp [step, Poller.step, hphase, hcancelled]
  | listing snapshot =>
    obtain ⟨visit, hvisit⟩ : ∃ visit, Poller.Counts snapshot listed visit := by
      cases listed with
      | ok tasks => exact ⟨_, enumerates_keys (latestTasks snapshot tasks)⟩
      | error error => exact ⟨[], trivial⟩
    refine ⟨.tasksListed listed visit, by simp, fun listed' visit' heq => ?_, ?_⟩
    · cases heq
      rfl
    · simp only [step, Poller.step, hphase, if_pos hvisit]
      cases pollReplicasState snapshot listed visit with
      | error error => rfl
      | ok counters => cases e.system.world.cancelled <;> rfl
  | submitting snapshot counters =>
    cases hcancelled : e.system.world.cancelled with
    | true =>
      refine ⟨.serveStopping, by simp, by simp, ?_⟩
      simp [step, Poller.step, hphase, hcancelled, hidle]
    | false =>
      have hsnapshot := hheld.snapshot snapshot (by rw [hphase]; rfl)
      obtain ⟨visit, hvisit⟩ :
          ∃ visit, e.system.world.Publishes snapshot counters e.system.world.clock visit :=
        ⟨_, enumerates_keys _⟩
      refine ⟨.serveCounts e.system.world.clock visit, by simp, by simp, ?_⟩
      simp only [step, Poller.step, hphase, List.foldlM_cons, List.foldlM_nil, bind_pure, World.step,
        if_pos (And.intro hidle (And.intro hcancelled (And.intro hsnapshot (And.intro hreads hvisit))))]
      rfl
  | judged snapshot failure =>
    refine ⟨.verdict e.system.world.clock, by simp, by simp, ?_⟩
    cases failure with
    | none =>
      have hanswer := hheld.answer snapshot hphase
      simp only [step, Poller.step, hphase, List.foldlM_cons, List.foldlM_nil, bind_pure, World.step,
        if_pos (And.intro hanswer hreads)]
      rfl
    | some error => simp [step, Poller.step, hphase]
  | refused submitted =>
    refine ⟨.received, by simp, by simp, ?_⟩
    simp [step, Poller.step, hphase]
  | _ =>
    rw [hphase] at hpoll
    cases hpoll

/-- Between two cycles the poll in progress can be brought to its end. -/
theorem exists_verdict (docker : World → Reply) (listed : Except CallError (List Task))
    (h : Runs settings trace e) (hidle : e.system.world.phase = .idle) :
    ∃ rest e', Run step e rest e' ∧ e'.poller.phase.inPoll = false ∧
      e'.poller.polls = e.poller.polls + e.poller.phase.inPoll.toNat ∧
      rest.length ≤ e.poller.phase.stepsLeft ∧ ∀ st ∈ rest, Answers docker listed st := by
  have hpolling : ∀ e' : Exporter, ((∃ trace, Runs settings trace e') ∧
      e'.system.world.phase = .idle ∧ e'.poller.polls + e'.poller.phase.inPoll.toNat =
        e.poller.polls + e.poller.phase.inPoll.toNat) → ¬e'.poller.phase.inPoll = false →
      ∃ action next, e'.step action = some next ∧ Answers docker listed ⟨e', action, next⟩ ∧
        ((∃ trace, Runs settings trace next) ∧ next.system.world.phase = .idle ∧
          next.poller.polls + next.poller.phase.inPoll.toNat =
            e.poller.polls + e.poller.phase.inPoll.toNat) ∧
        next.poller.phase.stepsLeft < e'.poller.phase.stepsLeft := by
    intro e' ⟨⟨trace, hrun⟩, hidle, hcounted⟩ hpoll
    have hpoll : e'.poller.phase.inPoll = true := (Bool.not_eq_false _).mp hpoll
    obtain ⟨action, hgives, hlisted, hstep⟩ := step_polling hrun hidle hpoll listed
    obtain ⟨next, hnext⟩ := Option.isSome_iff_exists.1 hstep
    obtain ⟨poller, calls, world, hmoves, -, hpost⟩ := step_poller hnext
    obtain ⟨hlower, hcount⟩ := hmoves.nearer hpoll
    have hpoller : next.poller = poller := by rw [hpost]
    rw [← hpoller] at hlower hcount
    refine ⟨.poller action, next, hnext, ?_, ⟨⟨_, hrun.snoc hnext⟩,
      (step_poller_phase hnext).trans hidle, ?_⟩, hlower⟩
    · cases action with
      | giveUp => exact absurd rfl hgives
      | tasksListed listed' visit => exact hlisted listed' visit rfl
      | _ => trivial
    · rw [hcount, ← hcounted, hpoll]
      rfl
  obtain ⟨rest, e', hrest, ⟨-, -, hcounted⟩, hend, hlength, hanswers⟩ :=
    Run.exists_done (fun e : Exporter => e.poller.phase.stepsLeft) _
      (fun e => e.poller.phase.inPoll = false) (Answers docker listed) hpolling ⟨⟨trace, h⟩, hidle, rfl⟩
  rw [hend] at hcounted
  exact ⟨rest, e', hrest, hend, hcounted, hlength, hanswers⟩

/-- **Every poll ends.** In every run a poll has taken at most five steps, and together with those it may
still take no more; and from every state, whatever Docker answers to the calls of the cycle in progress
and to the task list, the steps left to both suffice to end the poll, which is then counted, without a
cancellation and without the poller giving up. -/
theorem poll_ends (h : Runs settings trace e) :
    (∀ older st recent, trace = older ++ st :: recent → begins st = true →
      (∀ later ∈ recent, begins later = false) →
      recent.countP polling + e.poller.phase.stepsLeft ≤ 5) ∧
    (∀ (docker : World → Reply) (listed : Except CallError (List Task)),
      (∀ w : World, w.phase.awaits = true → w.phase.Awaits (docker w)) →
      ∃ rest e', Run step e rest e' ∧ e'.poller.phase.inPoll = false ∧
        e'.poller.polls = e.poller.polls + e.poller.phase.inPoll.toNat ∧
        rest.length ≤ e.system.world.phase.stepsLeft + e.poller.phase.stepsLeft ∧
        ∀ st ∈ rest, Answers docker listed st) := by
  constructor
  · intro older st recent htrace hbegins hlater
    subst htrace
    obtain ⟨-, -, hrecent⟩ := Run.of_mid h
    refine Run.history (fun recent e => (∀ later ∈ recent, begins later = false) →
      recent.countP polling + e.poller.phase.stepsLeft ≤ 5)
      (fun _ => by simpa using Poller.stepsLeft_le _) ?_ hrecent hlater
    rintro recent e action e' - hinv hnext hnone
    have hle := hinv fun later hmem => hnone later (List.mem_append_left _ hmem)
    have hnot := hnone ⟨e, action, e'⟩ (by simp)
    rw [List.countP_append, List.countP_singleton]
    cases action with
    | system action =>
      obtain ⟨system, -, -, rfl⟩ := step_system hnext
      simpa [polling] using hle
    | poller action =>
      obtain ⟨poller, calls, world, hmoves, -, rfl⟩ := step_poller hnext
      show recent.countP polling + (if e.poller.phase.inPoll = true then 1 else 0) +
        poller.phase.stepsLeft ≤ 5
      cases hpoll : e.poller.phase.inPoll with
      | true =>
        obtain ⟨hlower, -⟩ := hmoves.nearer hpoll
        rw [if_pos rfl]
        omega
      | false =>
        rcases hmoves.outside hpoll with rfl | rfl | hzero
        · cases hnot
        · cases hnot
        · rw [if_neg Bool.false_ne_true, hzero]
          omega
  · intro docker listed hdocker
    obtain ⟨_, hworld⟩ := Runs.world h
    obtain ⟨cycle, w, hcycle, hidle, hcycleLength, hheeds⟩ := World.exists_end hdocker hworld
    obtain ⟨first, hfirst, hfirstLength, hfirstAnswers⟩ := run_of_cycle listed hcycle hheeds
    obtain ⟨second, e', hsecond, hend, hpolls, hsecondLength, hsecondAnswers⟩ :=
      exists_verdict docker listed (h.append hfirst) hidle
    refine ⟨first ++ second, e', hfirst.append hsecond, hend, hpolls, ?_, fun st hst => ?_⟩
    · rw [List.length_append]
      exact Nat.add_le_add (hfirstLength.trans_le hcycleLength) hsecondLength
    · rcases List.mem_append.1 hst with hst | hst
      · exact hfirstAnswers st hst
      · exact hsecondAnswers st hst

end Exporter

open Sample in
/-- A poll that waits for a cycle ends, although Docker answers nothing but errors. -/
theorem Exporter.poll_ends_sample : ∃ trace e rest e', Runs settings trace e ∧
    e.poller.phase = .requesting ∧ e.system.world.phase.stepsLeft = 71 ∧ Run step e rest e' ∧
    e'.poller.phase.inPoll = false ∧ e'.poller.polls = 1 ∧ rest.length ≤ 76 := by
  have hreplay : (replay step (init settings)
      (firstResync ++ [.poller .ready, .system (.world (.beginCycle 1000))])).any (fun result =>
        decide (result.2.poller.phase = .requesting) && decide (result.2.poller.polls = 0) &&
          decide (result.2.system.world.phase.stepsLeft = 71)) = true := by
    decide +kernel
  obtain ⟨trace, e, hrun, -, hcheck⟩ := exists_run_of_replay hreplay
  simp only [Bool.and_eq_true, decide_eq_true_eq] at hcheck
  obtain ⟨⟨hphase, hzero⟩, hleft⟩ := hcheck
  obtain ⟨rest, e', hrest, hend, hpolls, hlength, -⟩ :=
    (poll_ends hrun).2 deadEngine (.error timedOut) deadEngine_awaits
  rw [hphase, hzero] at hpolls
  rw [hphase, hleft] at hlength
  exact ⟨trace, e, rest, e', hrun, hphase, hleft, hrest, hend, hpolls, hlength⟩

end SwarmExporter
