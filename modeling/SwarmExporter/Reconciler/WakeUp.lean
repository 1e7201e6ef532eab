import SwarmExporter.Lib.Deadlines
import SwarmExporter.Reconciler.DirtySet

/-!
# When the reconciler wakes up

Between two cycles the reconciler sleeps until the earliest scheduled work (`nextWakeDelay`), which reads
the same flags and times as the checks of a cycle but in its own way: it takes the minimum over the
whole dirty set, where a cycle takes keys along the order. The two agree because the order and the set
hold the same keys.
-/

namespace SwarmExporter

open Lib

namespace Reconciler

/-- How long the reconciler may wait before the earliest scheduled work, zero when some is due, and none
when nothing is scheduled. The dirty set is iterated in the order `visit`. -/
def nextWakeDelay (r : Reconciler) (visit : List String) (now : Instant) : Option Duration :=
  let earliest : Option (Option Instant) := none
  let earliest :=
    if r.state.resyncCompleted < r.state.resyncRequested then consider earliest r.resyncNotBefore
    else earliest
  let earliest :=
    if 0 < r.state.resyncCompleted then
      let earliest :=
        if r.state.resyncRequested = r.state.resyncCompleted then
          consider earliest r.nextPeriodicResync
        else earliest
      let earliest := if r.state.nodesDirty then consider earliest r.nodesNotBefore else earliest
      (visit.filterMap (r.state.pendingSet[·]?)).foldl
        (fun earliest pending => consider earliest (some pending.notBefore)) earliest
    else earliest
  earliest.map (timeLeft now)

/-- A cycle at `now` would find something to do: one of its checks holds, or it would take a key. -/
def workDue (r : Reconciler) (now : Instant) : Prop :=
  r.periodicResyncDue now = true ∨ r.nodesDue now = true ∨ r.resyncDue now = true ∨
    (r.state.takeDueKeys now).1 ≠ []

/-- The deadlines `nextWakeDelay` considers. -/
def deadlines (r : Reconciler) (visit : List String) : List (Option Instant) :=
  (if r.state.resyncCompleted < r.state.resyncRequested then [r.resyncNotBefore] else []) ++
    if 0 < r.state.resyncCompleted then
      (if r.state.resyncRequested = r.state.resyncCompleted then [r.nextPeriodicResync] else []) ++
      (if r.state.nodesDirty then [r.nodesNotBefore] else []) ++
      (visit.filterMap (r.state.pendingSet[·]?)).map fun pending => some pending.notBefore
    else []

variable {r : Reconciler} {visit : List String} {now : Instant}

theorem foldl_consider_ite (condition : Prop) [Decidable condition] (deadline : Option Instant)
    (earliest : Option (Option Instant)) :
    (if condition then [deadline] else []).foldl consider earliest =
      if condition then consider earliest deadline else earliest := by
  split <;> rfl

theorem nextWakeDelay_eq (r : Reconciler) (visit : List String) (now : Instant) :
    r.nextWakeDelay visit now = ((r.deadlines visit).foldl consider none).map (timeLeft now) := by
  unfold nextWakeDelay deadlines
  rw [List.foldl_append, foldl_consider_ite]
  by_cases hcompleted : 0 < r.state.resyncCompleted
  · simp only [hcompleted, if_true, List.foldl_append, List.foldl_map, foldl_consider_ite]
  · simp only [hcompleted, if_false, List.foldl_nil]

/-- A cycle takes a key exactly when one is due, once the first resync completed. -/
theorem takeDueKeys_ne_nil (henum : Enumerates r.state.pendingOrder r.state.pendingSet) :
    (r.state.takeDueKeys now).1 ≠ [] ↔ 0 < r.state.resyncCompleted ∧
      ∃ (id : String) (pending : PendingKey), r.state.pendingSet[id]? = some pending ∧
        pending.notBefore ≤ now := by
  by_cases hcompleted : r.state.resyncCompleted = 0
  · simp [State.takeDueKeys, hcompleted]
  · obtain ⟨pendingSet, htaken, -⟩ := State.takeDueKeys_spec henum hcompleted now
    rw [htaken]
    have hshare : serviceKeysPerCycle ≠ 0 := by decide
    simp only [ne_eq, List.map_eq_nil_iff, State.dueBatch, State.firstDue, List.take_eq_nil_iff,
      hshare, false_or, List.filter_eq_nil_iff, not_forall, not_not, Nat.pos_of_ne_zero hcompleted,
      true_and]
    constructor
    · rintro ⟨id, hid, hdue⟩
      obtain ⟨pending, hpending, hbefore⟩ := (Option.any_eq_true ..).1 hdue
      exact ⟨id, pending, hpending, of_decide_eq_true hbefore⟩
    · rintro ⟨id, pending, hpending, hbefore⟩
      refine ⟨id, (henum.2 id).2 (mem_iff_getElem?.2 ⟨pending, hpending⟩), ?_⟩
      exact (Option.any_eq_true ..).2 ⟨pending, hpending, decide_eq_true hbefore⟩

theorem periodicResyncDue_iff : r.periodicResyncDue now = true ↔ 0 < r.state.resyncCompleted ∧
    r.state.resyncRequested = r.state.resyncCompleted ∧ due now r.nextPeriodicResync = true := by
  simp [periodicResyncDue, due, and_assoc]

theorem nodesDue_iff : r.nodesDue now = true ↔ 0 < r.state.resyncCompleted ∧
    r.state.nodesDirty = true ∧ due now r.nodesNotBefore = true := by
  simp [nodesDue, due, and_assoc]

theorem resyncDue_iff : r.resyncDue now = true ↔
    r.state.resyncCompleted < r.state.resyncRequested ∧ due now r.resyncNotBefore = true := by
  simp [resyncDue, due]

theorem mem_deadlines {deadline : Option Instant} : deadline ∈ r.deadlines visit ↔
    r.state.resyncCompleted < r.state.resyncRequested ∧ deadline = r.resyncNotBefore ∨
    0 < r.state.resyncCompleted ∧
      (r.state.resyncRequested = r.state.resyncCompleted ∧ deadline = r.nextPeriodicResync ∨
        r.state.nodesDirty = true ∧ deadline = r.nodesNotBefore ∨
        ∃ pending, (∃ id ∈ visit, r.state.pendingSet[id]? = some pending) ∧
          some pending.notBefore = deadline) := by
  unfold deadlines
  by_cases hcompleted : 0 < r.state.resyncCompleted
  · simp [hcompleted, List.mem_ite_nil_right]
  · simp [hcompleted]

/-- **Work is due exactly when one of the deadlines is.** -/
theorem workDue_iff (henum : Enumerates r.state.pendingOrder r.state.pendingSet)
    (hvisit : Enumerates visit r.state.pendingSet) :
    r.workDue now ↔ ∃ deadline ∈ r.deadlines visit, due now deadline = true := by
  unfold workDue
  rw [takeDueKeys_ne_nil henum, periodicResyncDue_iff, nodesDue_iff, resyncDue_iff]
  constructor
  · rintro (⟨hcompleted, hserved, hdue⟩ | ⟨hcompleted, hdirty, hdue⟩ | ⟨hrequested, hdue⟩ |
      ⟨hcompleted, id, pending, hpending, hbefore⟩)
    · exact ⟨_, mem_deadlines.2 (.inr ⟨hcompleted, .inl ⟨hserved, rfl⟩⟩), hdue⟩
    · exact ⟨_, mem_deadlines.2 (.inr ⟨hcompleted, .inr (.inl ⟨hdirty, rfl⟩)⟩), hdue⟩
    · exact ⟨_, mem_deadlines.2 (.inl ⟨hrequested, rfl⟩), hdue⟩
    · have hid : id ∈ visit := (hvisit.2 id).2 (mem_iff_getElem?.2 ⟨pending, hpending⟩)
      exact ⟨some pending.notBefore,
        mem_deadlines.2 (.inr ⟨hcompleted, .inr (.inr ⟨pending, ⟨id, hid, hpending⟩, rfl⟩)⟩),
        decide_eq_true hbefore⟩
  · rintro ⟨deadline, hdeadline, hdue⟩
    obtain ⟨hrequested, rfl⟩ | ⟨hcompleted, hother⟩ := mem_deadlines.1 hdeadline
    · exact .inr (.inr (.inl ⟨hrequested, hdue⟩))
    · obtain ⟨hserved, rfl⟩ | ⟨hdirty, rfl⟩ | ⟨pending, ⟨id, -, hpending⟩, rfl⟩ := hother
      · exact .inl ⟨hcompleted, hserved, hdue⟩
      · exact .inr (.inl ⟨hcompleted, hdirty, hdue⟩)
      · exact .inr (.inr (.inr ⟨hcompleted, id, pending, hpending, of_decide_eq_true hdue⟩))

end Reconciler

namespace World

variable [HostText] {config : Config} {trace : List (Step World Action)} {w : World}
  {visit : List String}

/-- **The reconciler sleeps until there is work**, in every reachable world: it does not wait exactly when
a cycle would find work, it wakes up at the first instant at which one would, and it waits for an event
only when no instant brings any. -/
theorem wakes_when_due (h : Runs config trace w)
    (hvisit : Enumerates visit w.reconciler.state.pendingSet) (now : Instant) :
    (w.reconciler.nextWakeDelay visit now = some 0 ↔ w.reconciler.workDue now) ∧
    (∀ delay, w.reconciler.nextWakeDelay visit now = some delay → 0 < delay →
      (∀ earlier, earlier < now + delay → ¬w.reconciler.workDue earlier) ∧
        w.reconciler.workDue (now + delay)) ∧
    (w.reconciler.nextWakeDelay visit now = none →
      ∀ later, now ≤ later → ¬w.reconciler.workDue later) := by
  have hdue : ∀ now, w.reconciler.workDue now ↔
      ∃ deadline ∈ w.reconciler.deadlines visit, due now deadline = true := fun now =>
    Reconciler.workDue_iff h.dirtyInv.pending.same hvisit
  rw [Reconciler.nextWakeDelay_eq]
  cases hfold : (w.reconciler.deadlines visit).foldl consider none with
  | none =>
    have hnone : ∀ now, ¬w.reconciler.workDue now := by
      intro now
      rw [hdue, foldl_consider_eq_none.1 hfold]
      simp
    exact ⟨by simp [hnone], by simp, fun _ later _ => hnone later⟩
  | some earliest =>
    have hearliest : ∀ now, w.reconciler.workDue now ↔ due now earliest = true := fun now =>
      (hdue now).trans (due_foldl_consider hfold now).symm
    simp only [Option.map_some, Option.some.injEq, reduceCtorEq, false_implies, and_true, hearliest]
    refine ⟨timeLeft_eq_zero, ?_⟩
    rintro delay rfl hdelay
    constructor
    · intro earlier hearlier hdue
      exact absurd ((due_iff_of_timeLeft hdelay earlier).1 hdue) (Nat.not_le.2 hearlier)
    · exact (due_iff_of_timeLeft hdelay _).2 le_rfl

end World

open Sample in
/-- After the first resync the next work is the periodic one. -/
theorem World.wakes_when_due_sample :
    ∃ trace w, Runs config trace w ∧
      w.reconciler.nextWakeDelay [] 0 = some (Duration.fromSecs 300) ∧
      ¬w.reconciler.workDue 0 ∧ w.reconciler.workDue (Duration.fromSecs 300) := by
  have hreplay : (replay World.step (init config)
      (resyncCycle [replicated "web" "web" 2] [] ["web"])).any
      (fun result => decide (result.2.reconciler.nextWakeDelay [] 0 = some (Duration.fromSecs 300) ∧
        Enumerates [] result.2.reconciler.state.pendingSet)) = true := by
    decide +kernel
  obtain ⟨trace, w, hrun, -, hcheck⟩ := exists_run_of_replay hreplay
  obtain ⟨hdelay, hvisit⟩ := of_decide_eq_true hcheck
  obtain ⟨hbefore, hafter⟩ := (wakes_when_due hrun hvisit 0).2.1 _ hdelay (by decide)
  refine ⟨trace, w, hrun, hdelay, hbefore 0 (by decide), ?_⟩
  rwa [Nat.zero_add] at hafter

end SwarmExporter
