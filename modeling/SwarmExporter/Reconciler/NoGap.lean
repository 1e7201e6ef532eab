import SwarmExporter.Reconciler.Listener

/-!
# The listener leaves no gap

The point to resume from follows the last event seen, so it moves back when a stream breaks off while
it replays. It never moves past an event that is still missing: a stream sends in the order of the
stamps, so whatever it did not get to is stamped no earlier than the last event it sent
(`GapInv`, over `Lib.NoGap`).
-/

namespace SwarmExporter

open Lib

/-- The service and node events of a cluster, each with a time in range. -/
structure Daemon where
  has : Delivery → Prop
  selected : ∀ delivery, has delivery → delivery.event.kind ∈ eventFilters
  stamped : ∀ delivery, has delivery → (eventTime delivery.event).isSome

/-- A stream sends, in the order of the stamps, all events stamped at or after the `since` it was
opened with, and may end at any point. -/
def Daemon.Sends (daemon : Daemon) (s : System) : SystemAction → Prop
  | .listener (.received delivery _ _) =>
    Serves Delivery.stamp daemon.has s.listener.since (s.sent ++ [delivery])
  | _ => True

/-- The events stamped at or after the margin before the anchor. -/
def Daemon.Wanted (daemon : Daemon) (anchor : Timestamp) (delivery : Delivery) : Prop :=
  daemon.has delivery ∧ anchor - eventsSinceMargin ≤ delivery.stamp

/-! ## Times -/

theorem eventTime_pos {event : Docker.Event} {stamp : Timestamp} (h : eventTime event = some stamp) :
    0 < stamp := by
  unfold eventTime Timestamp.fromNanosecond at h
  split at h
  · rename_i hnano
    simp only [Option.ite_none_right_eq_some, Option.some.injEq] at h
    exact h.2 ▸ hnano
  · split at h
    · rename_i htime
      simp only [Option.ite_none_right_eq_some, Option.some.injEq] at h
      rw [← h.2]
      exact Int.mul_pos htime (by decide)
    · cases h

/-- The margin only moves a time back, and not before the earliest one. -/
theorem withMargin_le {timestamp stamp : Timestamp} (hstamp : 0 < stamp)
    (h : timestamp - eventsSinceMargin ≤ stamp) : withMargin timestamp ≤ stamp := by
  unfold withMargin Timestamp.fromNanosecond
  split
  · exact h
  · show Timestamp.min ≤ stamp
    exact le_trans (by decide) hstamp.le

theorem Daemon.stamp_pos (daemon : Daemon) {delivery : Delivery} (h : daemon.has delivery) :
    0 < delivery.stamp := by
  obtain ⟨stamp, hstamp⟩ := Option.isSome_iff_exists.1 (daemon.stamped delivery h)
  rw [Delivery.stamp, hstamp]
  exact eventTime_pos hstamp

theorem withMargin_stamp_le (daemon : Daemon) {delivery : Delivery} (h : daemon.has delivery) :
    withMargin delivery.stamp ≤ delivery.stamp := by
  have hmargin : (0 : Int) ≤ eventsSinceMargin := Int.natCast_nonneg _
  exact withMargin_le (daemon.stamp_pos h) (Int.sub_le_self _ hmargin)

/-! ## What a step of the listener can be -/

/-- A connection that ended, or an attempt that failed: where it stood, and what it left behind. -/
def Listener.Ends (listener : Listener) (action : ListenerAction) (outcome : StreamOutcome) : Prop :=
  (action.isAttempt = true ∧ listener.phase = .connecting ∧ outcome.lastSeen = none) ∨
    listener.phase = .streaming outcome.lastSeen

/-- A step opens a stream, hands over an event of it, ends a connection or ends a backoff. -/
theorem Listener.step_cases {listener listener' : Listener} {cancelled : Bool}
    {action : ListenerAction} {calls : List Action}
    (h : listener.step cancelled action = some (listener', calls)) :
    (∃ timestamp, action = .connected timestamp ∧ listener.phase = .connecting ∧
      listener' = { listener with phase := .streaming none } ∧
      calls = if listener.reconnect then [.requestResync timestamp] else []) ∨
    (∃ delivery now timestamp lastSeen, action = .received delivery now timestamp ∧
      listener.phase = .streaming lastSeen ∧
      listener' = { listener with phase := .streaming ((eventTime delivery.event).or lastSeen) } ∧
      calls = [.enqueueEvent delivery.event now timestamp]) ∨
    (∃ outcome, listener.Ends action outcome ∧ listener' = listener.followed cancelled outcome ∧
      calls = []) ∨
    (listener.phase = .backingOff ∧ action.isAttempt = false ∧ calls = [] ∧
      (listener'.phase = .connecting ∨ ∃ reason, listener'.phase = .stopped reason) ∧
      listener'.since = listener.since ∧ listener'.reconnect = listener.reconnect) := by
  cases action with
  | connected timestamp =>
    simp only [step] at h
    split at h
    · cases h
      exact .inl ⟨timestamp, rfl, ‹_›, rfl, rfl⟩
    · cases h
  | received delivery now timestamp =>
    simp only [step] at h
    split at h
    · cases h
      exact .inr (.inl ⟨delivery, now, timestamp, _, rfl, ‹_›, rfl, rfl⟩)
    · cases h
  | connectFailed error =>
    simp only [step] at h
    split at h
    · cases h
      exact .inr (.inr (.inl ⟨_, .inl ⟨rfl, ‹_›, rfl⟩, rfl, rfl⟩))
    · cases h
  | streamFailed error =>
    simp only [step] at h
    split at h
    · cases h
      exact .inr (.inr (.inl ⟨_, .inr ‹_›, rfl, rfl⟩))
    · cases h
  | streamCancelled =>
    simp only [step] at h
    split at h
    · simp only [Option.ite_none_right_eq_some, Option.some.injEq] at h
      cases h.2
      exact .inr (.inr (.inl ⟨_, .inr ‹_›, rfl, rfl⟩))
    · cases h
  | slept =>
    simp only [step] at h
    split at h
    · cases h
      refine .inr (.inr (.inr ⟨‹_›, rfl, rfl, ?_, rfl, rfl⟩))
      cases cancelled
      · exact .inl rfl
      · exact .inr ⟨_, rfl⟩
    · cases h
  | sleepCancelled =>
    simp only [step] at h
    split at h
    · simp only [Option.ite_none_right_eq_some, Option.some.injEq] at h
      cases h.2
      exact .inr (.inr (.inr ⟨‹_›, rfl, rfl, .inr ⟨_, rfl⟩, rfl, rfl⟩))
    · cases h

/-- The loop goes on to a backoff or stops. -/
theorem Listener.followed_phase (listener : Listener) (cancelled : Bool) (outcome : StreamOutcome) :
    (listener.followed cancelled outcome).phase = .backingOff ∨
      ∃ reason, (listener.followed cancelled outcome).phase = .stopped reason := by
  cases cancelled
  · exact .inl rfl
  · exact .inr ⟨_, rfl⟩

@[simp] theorem Listener.followed_since (listener : Listener) (cancelled : Bool)
    (outcome : StreamOutcome) :
    (listener.followed cancelled outcome).since =
      outcome.lastSeen.elim listener.since withMargin := by
  cases cancelled <;> rfl

@[simp] theorem Listener.followed_reconnect (listener : Listener) (cancelled : Bool)
    (outcome : StreamOutcome) : (listener.followed cancelled outcome).reconnect = true := by
  cases cancelled <;> rfl

/-- The event an action hands over. -/
def ListenerAction.deliveries : ListenerAction → List Delivery
  | .received delivery _ _ => [delivery]
  | _ => []

theorem System.delivered_record (s : System) (action : ListenerAction) :
    (s.record action).delivered = s.delivered ++ action.deliveries := by
  cases action with
  | received delivery now timestamp => exact (List.append_assoc _ _ _).symm
  | connected timestamp => rfl
  | _ => exact (List.append_nil _).symm

/-! ## The invariant -/

/-- What the listener keeps: while a stream is open, of the stream and what came before it; otherwise
of everything delivered. -/
def GapInv (daemon : Daemon) (anchor : Timestamp) (s : System) : Prop :=
  match s.listener.phase with
  | .streaming lastSeen =>
    NoGap Delivery.stamp (daemon.Wanted anchor) s.listener.since s.earlier ∧
      Serves Delivery.stamp daemon.has s.listener.since s.sent ∧
      ∀ seen ∈ lastSeen, ∃ last ∈ s.sent, seen = last.stamp
  | _ => NoGap Delivery.stamp (daemon.Wanted anchor) s.listener.since s.delivered

namespace System

variable [HostText] {config : Config} {anchor : Timestamp} {daemon : Daemon} {s s' : System}
  {trace : List (Step System SystemAction)}

/-- A step of the listener: what it called was done in the world, and the daemon's side is kept. -/
theorem step_listener {action : ListenerAction} (h : s.step (.listener action) = some s') :
    ∃ listener calls world, s.listener.step s.world.cancelled action = some (listener, calls) ∧
      calls.foldlM World.step s.world = some world ∧
      s' = { s.record action with world, listener } := by
  simp only [step] at h
  split at h
  · cases h
  · rename_i listener calls hlistener
    obtain ⟨world, hworld, rfl⟩ := Option.map_eq_some_iff.1 h
    exact ⟨listener, calls, world, hlistener, hworld, rfl⟩

/-- The calls of a step are steps of the world, taken in order. -/
theorem run_of_calls {calls : List Action} {w w' : World}
    (h : calls.foldlM World.step w = some w') : ∃ trace, Run World.step w trace w' := by
  induction calls generalizing w with
  | nil =>
    cases h
    exact ⟨[], .nil⟩
  | cons call calls ih =>
    rw [List.foldlM_cons] at h
    obtain ⟨next, hnext, hrest⟩ := Option.bind_eq_some_iff.1 h
    obtain ⟨trace, hrun⟩ := ih hrest
    exact ⟨_, (Run.single hnext).append hrun⟩

/-- **The world of a run with the listener is a world of a run without it**, so whatever holds of every
reachable world holds here. -/
theorem reachable_world (h : Runs config anchor trace s) : World.Reachable config s.world := by
  refine h.invariant (fun s => World.Reachable config s.world) ⟨[], .nil⟩ ?_
  rintro t action u ⟨before, hbefore⟩ hstep
  cases action with
  | world action =>
    obtain ⟨world, hworld, rfl⟩ := Option.map_eq_some_iff.1 hstep
    exact ⟨_, hbefore.snoc hworld⟩
  | listener action =>
    obtain ⟨listener, calls, world, -, hcalls, rfl⟩ := step_listener hstep
    obtain ⟨after, hafter⟩ := run_of_calls hcalls
    exact ⟨_, hbefore.append hafter⟩

omit [HostText] in
/-- Outside a stream the invariant is about everything delivered. -/
theorem gapInv_iff (hphase : ∀ lastSeen, s.listener.phase ≠ .streaming lastSeen) :
    GapInv daemon anchor s ↔
      NoGap Delivery.stamp (daemon.Wanted anchor) s.listener.since s.delivered := by
  unfold GapInv
  split
  · rename_i lastSeen h
    exact absurd h (hphase lastSeen)
  · exact Iff.rfl

omit [HostText] in
/-- The end of a connection: the point to resume from is the margin before an event it sent, or the one
it was opened with. -/
theorem noGap_ended {action : ListenerAction} {outcome : StreamOutcome}
    (hends : s.listener.Ends action outcome) (hinv : GapInv daemon anchor s) :
    NoGap Delivery.stamp (daemon.Wanted anchor) (outcome.lastSeen.elim s.listener.since withMargin)
      s.delivered := by
  rcases hends with ⟨-, hphase, hnone⟩ | hphase
  · rw [hnone]
    exact (gapInv_iff (by simp [hphase])).1 hinv
  · simp only [GapInv, hphase] at hinv
    obtain ⟨hgap, hserves, hlast⟩ := hinv
    cases hseen : outcome.lastSeen with
    | none => exact hgap.mono le_rfl fun _ => List.mem_append_left _
    | some seen =>
      obtain ⟨last, hmem, rfl⟩ := hlast seen hseen
      exact hgap.resume (fun _ hwanted => hwanted.1) hserves hmem
        (withMargin_stamp_le daemon (hserves.mem last hmem).1)

theorem step_gapInv {action : SystemAction} (hinv : GapInv daemon anchor s)
    (hsends : daemon.Sends s action) (h : s.step action = some s') : GapInv daemon anchor s' := by
  cases action with
  | world action =>
    obtain ⟨world, -, rfl⟩ := Option.map_eq_some_iff.1 h
    exact hinv
  | listener action =>
    obtain ⟨listener, calls, world, hstep, -, rfl⟩ := step_listener h
    rcases Listener.step_cases hstep with ⟨timestamp, rfl, hphase, rfl, -⟩ |
      ⟨delivery, now, timestamp, lastSeen, rfl, hphase, rfl, -⟩ | ⟨outcome, hends, rfl, -⟩ |
      ⟨hphase, hattempt, -, hphase', hsince, -⟩
    · -- The stream has sent nothing yet.
      refine ⟨(gapInv_iff (by simp [hphase])).1 hinv, .nil, fun seen hseen => ?_⟩
      cases hseen
    · simp only [GapInv, hphase] at hinv
      have hserves : Serves Delivery.stamp daemon.has s.listener.since (s.sent ++ [delivery]) :=
        hsends
      refine ⟨hinv.1, hserves, fun seen hseen => ?_⟩
      -- The event has a time, so the point to resume from is its own.
      obtain ⟨stamp, hstamp⟩ := Option.isSome_iff_exists.1
        (daemon.stamped delivery (hserves.mem delivery (by simp)).1)
      rw [hstamp] at hseen
      cases hseen
      exact ⟨delivery, by simp [record], by rw [Delivery.stamp, hstamp, Option.getD_some]⟩
    · have hgap := noGap_ended hends hinv
      refine (gapInv_iff fun lastSeen heq => ?_).2 ?_
      · rcases s.listener.followed_phase s.world.cancelled outcome with h' | ⟨reason, h'⟩
        · simp [h'] at heq
        · simp [h'] at heq
      · rw [Listener.followed_since]
        refine hgap.mono le_rfl fun item hitem => ?_
        show item ∈ (s.record action).delivered
        rw [delivered_record]
        exact List.mem_append_left _ hitem
    · refine (gapInv_iff fun lastSeen heq => ?_).2 ?_
      · rcases hphase' with h' | ⟨reason, h'⟩
        · simp [h'] at heq
        · simp [h'] at heq
      · have hgap := (gapInv_iff (by simp [hphase])).1 hinv
        refine hgap.mono hsince.le fun item hitem => ?_
        show item ∈ (s.record action).delivered
        rw [delivered_record]
        exact List.mem_append_left _ hitem

omit [HostText] in
theorem init_gapInv : GapInv daemon anchor (init config anchor) := by
  rintro delivery ⟨hhas, hstamp⟩ -
  exact withMargin_le (daemon.stamp_pos hhas) hstamp

theorem run_gapInv (h : Runs config anchor trace s)
    (hsends : ∀ st ∈ trace, daemon.Sends st.pre st.act) : GapInv daemon anchor s := by
  refine Run.history (fun trace s => (∀ st ∈ trace, daemon.Sends st.pre st.act) →
    GapInv daemon anchor s) (fun _ => init_gapInv) ?_ h hsends
  intro trace t action u _ ih hstep hsends
  refine step_gapInv (ih fun st hst => hsends st (List.mem_append_left _ hst)) ?_ hstep
  exact hsends ⟨t, action, u⟩ (List.mem_append_right _ (List.mem_singleton.2 rfl))

/-! ## What the trace says of the listener -/

/-- An attempt to connect was answered in `trace`. -/
def Attempted (trace : List (Step System SystemAction)) : Prop :=
  ∃ st ∈ trace, ∃ action, st.act = .listener action ∧ action.isAttempt = true

/-- `delivery` was handed to the reconciler in `trace`. -/
def Enqueued (trace : List (Step System SystemAction)) (delivery : Delivery) : Prop :=
  ∃ st ∈ trace, ∃ now timestamp, st.act = .listener (.received delivery now timestamp)

/-- What was delivered is what was handed over. -/
theorem mem_delivered_iff (h : Runs config anchor trace s) (delivery : Delivery) :
    delivery ∈ s.delivered ↔ Enqueued trace delivery := by
  refine Run.history (fun trace s => delivery ∈ s.delivered ↔ Enqueued trace delivery) ?_ ?_ h
  · simp [Enqueued, delivered, init]
  · intro trace t action u _ ih hstep
    have hsplit : Enqueued (trace ++ [⟨t, action, u⟩]) delivery ↔ Enqueued trace delivery ∨
        ∃ now timestamp, action = .listener (.received delivery now timestamp) := by
      simp [Enqueued, or_and_right, exists_or]
    rw [hsplit, ← ih]
    cases action with
    | world action =>
      obtain ⟨world, -, rfl⟩ := Option.map_eq_some_iff.1 hstep
      simp [delivered]
    | listener action =>
      obtain ⟨listener, calls, world, -, -, rfl⟩ := step_listener hstep
      show delivery ∈ (t.record action).delivered ↔ _
      rw [delivered_record, List.mem_append]
      cases action <;> simp [ListenerAction.deliveries, eq_comm]

/-- While a connection is being opened, the flag says whether it is the first attempt. -/
theorem reconnect_iff (h : Runs config anchor trace s) :
    (∃ lastSeen, s.listener.phase = .streaming lastSeen) ∧ Attempted trace ∨
      (∀ lastSeen, s.listener.phase ≠ .streaming lastSeen) ∧
        (s.listener.reconnect = true ↔ Attempted trace) := by
  refine Run.history (fun trace s =>
    (∃ lastSeen, s.listener.phase = .streaming lastSeen) ∧ Attempted trace ∨
      (∀ lastSeen, s.listener.phase ≠ .streaming lastSeen) ∧
        (s.listener.reconnect = true ↔ Attempted trace)) ?_ ?_ h
  · refine .inr ⟨fun lastSeen => ?_, ?_⟩
    · simp [init, Listener.start, Listener.attempt]
    · simp [init, Listener.start, Listener.attempt, Attempted]
  · intro trace t action u _ ih hstep
    have hsplit : Attempted (trace ++ [⟨t, action, u⟩]) ↔ Attempted trace ∨
        ∃ act, action = .listener act ∧ act.isAttempt = true := by
      simp [Attempted, or_and_right, exists_or]
    rw [hsplit]
    cases action with
    | world action =>
      obtain ⟨world, -, rfl⟩ := Option.map_eq_some_iff.1 hstep
      simpa using ih
    | listener action =>
      obtain ⟨listener, calls, world, hlistener, -, rfl⟩ := step_listener hstep
      rcases Listener.step_cases hlistener with ⟨timestamp, rfl, -, rfl, -⟩ |
        ⟨delivery, now, timestamp, lastSeen, rfl, hphase, rfl, -⟩ | ⟨outcome, hends, rfl, -⟩ |
        ⟨hphase, hattempt, -, hphase', -, hreconnect⟩
      · exact .inl ⟨⟨none, rfl⟩, .inr ⟨_, rfl, rfl⟩⟩
      · rcases ih with ⟨-, hattempted⟩ | ⟨hnot, -⟩
        · exact .inl ⟨⟨_, rfl⟩, .inl hattempted⟩
        · exact absurd hphase (hnot lastSeen)
      · refine .inr ⟨fun lastSeen heq => ?_, iff_of_true (Listener.followed_reconnect _ _ _) ?_⟩
        · rcases t.listener.followed_phase t.world.cancelled outcome with h' | ⟨reason, h'⟩
          · simp [h'] at heq
          · simp [h'] at heq
        · rcases hends with ⟨hattempt, -⟩ | hphase
          · exact .inr ⟨action, rfl, hattempt⟩
          · rcases ih with ⟨-, hattempted⟩ | ⟨hnot, -⟩
            · exact .inl hattempted
            · exact absurd hphase (hnot _)
      · refine .inr ⟨fun lastSeen heq => ?_, ?_⟩
        · rcases hphase' with h' | ⟨reason, h'⟩
          · simp [h'] at heq
          · simp [h'] at heq
        · rcases ih with ⟨⟨lastSeen, hstreaming⟩, -⟩ | ⟨-, hiff⟩
          · simp [hphase] at hstreaming
          · rw [hreconnect, hiff]
            simp [hattempt]

/-- A connect opens a stream that has sent nothing, and asks for one resync unless it is the first
attempt. -/
theorem connected_step {timestamp : Timestamp} (h : Runs config anchor trace s)
    (hstep : s.step (.listener (.connected timestamp)) = some s') :
    s'.sent = [] ∧ (Attempted trace → s.world.step (.requestResync timestamp) = some s'.world) ∧
      (¬Attempted trace → s'.world = s.world) := by
  obtain ⟨listener, calls, world, hlistener, hcalls, rfl⟩ := step_listener hstep
  simp only [Listener.step] at hlistener
  split at hlistener
  · rename_i hphase
    cases hlistener
    have hiff : s.listener.reconnect = true ↔ Attempted trace := by
      rcases reconnect_iff h with ⟨⟨lastSeen, hstreaming⟩, -⟩ | ⟨-, hiff⟩
      · simp [hphase] at hstreaming
      · exact hiff
    refine ⟨rfl, fun hattempted => ?_, fun hnot => ?_⟩
    · rw [if_pos (hiff.2 hattempted)] at hcalls
      simpa using hcalls
    · rw [if_neg (fun hreconnect => hnot (hiff.1 hreconnect))] at hcalls
      exact (Option.some.inj hcalls).symm
  · cases hlistener

/-- An event of the stream is handed over, and everything wanted that is stamped before it was. -/
theorem received_step {delivery : Delivery} {now : Instant} {timestamp : Timestamp}
    (h : Runs config anchor trace s) (hsends : ∀ st ∈ trace, daemon.Sends st.pre st.act)
    (hsend : daemon.Sends s (.listener (.received delivery now timestamp)))
    (hstep : s.step (.listener (.received delivery now timestamp)) = some s') :
    s.world.step (.enqueueEvent delivery.event now timestamp) = some s'.world ∧
      ∀ other, daemon.Wanted anchor other → other.stamp < delivery.stamp → Enqueued trace other := by
  have hinv := run_gapInv h hsends
  obtain ⟨listener, calls, world, hlistener, hcalls, rfl⟩ := step_listener hstep
  simp only [Listener.step] at hlistener
  split at hlistener
  · rename_i lastSeen hphase
    cases hlistener
    refine ⟨by simpa using hcalls, fun other hother hlt => ?_⟩
    simp only [GapInv, hphase] at hinv
    have hmem := hinv.1.seen_of_lt (fun _ hwanted => hwanted.1) hsend
      (List.mem_append_right _ (List.mem_singleton.2 rfl)) hother hlt
    rw [← mem_delivered_iff h]
    rcases List.mem_append.1 hmem with hearlier | hsent
    · exact List.mem_append_left _ hearlier
    · rcases List.mem_append.1 hsent with hsent | hself
      · exact List.mem_append_right _ hsent
      · rw [List.mem_singleton.1 hself] at hlt
        exact absurd hlt (lt_irrefl _)
  · cases hlistener

/-- **No gap.** The `since` of every attempt is no later than the stamp of any event from the margin
before the anchor on that no earlier connection delivered; a connect that is not the first attempt asks
for exactly one resync before any event of its stream is handed over; and every event of a stream is
handed over, with nothing skipped before it. -/
theorem listener_leaves_no_gap (h : Runs config anchor trace s)
    (hsends : ∀ st ∈ trace, daemon.Sends st.pre st.act) :
    (s.listener.phase = .connecting → ∀ delivery, daemon.has delivery →
      anchor - eventsSinceMargin ≤ delivery.stamp → ¬Enqueued trace delivery →
        s.listener.since ≤ delivery.stamp) ∧
    (∀ before st after timestamp, trace = before ++ st :: after →
      st.act = .listener (.connected timestamp) → st.post.sent = [] ∧
        (Attempted before → st.pre.world.step (.requestResync timestamp) = some st.post.world) ∧
        (¬Attempted before → st.post.world = st.pre.world)) ∧
    (∀ before st after delivery now timestamp, trace = before ++ st :: after →
      st.act = .listener (.received delivery now timestamp) →
        st.pre.world.step (.enqueueEvent delivery.event now timestamp) = some st.post.world ∧
        ∀ other, daemon.has other → anchor - eventsSinceMargin ≤ other.stamp →
          other.stamp < delivery.stamp → Enqueued before other) := by
  refine ⟨fun hphase delivery hhas hstamp hnot => ?_, ?_, ?_⟩
  · have hgap := (gapInv_iff (by simp [hphase])).1 (run_gapInv h hsends)
    exact hgap delivery ⟨hhas, hstamp⟩ fun hmem => hnot ((mem_delivered_iff h delivery).1 hmem)
  · rintro before ⟨pre, act, post⟩ after timestamp rfl rfl
    obtain ⟨hbefore, hstep, -⟩ := Run.of_mid h
    exact connected_step hbefore hstep
  · rintro before ⟨pre, act, post⟩ after delivery now timestamp rfl rfl
    obtain ⟨hbefore, hstep, -⟩ := Run.of_mid h
    obtain ⟨hworld, hskip⟩ := received_step hbefore
      (fun st hst => hsends st (List.mem_append_left _ hst)) (hsends _ (by simp)) hstep
    exact ⟨hworld, fun other hhas hstamp hlt => hskip other ⟨hhas, hstamp⟩ hlt⟩

end System

namespace Sample

/-- An update of the service `web`, stamped `timeNano`. -/
def webUpdate (number : Nat) (timeNano : Int) : Delivery :=
  ⟨number, { kind := "service", action := "update", actor := ⟨"web"⟩, timeNano }⟩

/-- Three updates, the first two within the margin. -/
def webUpdates : List Delivery :=
  [webUpdate 0 10000000000, webUpdate 1 10200000000, webUpdate 2 20000000000]

def daemon : Daemon where
  has := (· ∈ webUpdates)
  selected := by decide
  stamped := by decide

/-- Whether the daemon keeps to the order of the stamps in a step. -/
def sends (st : Step System SystemAction) : Bool :=
  match st.act with
  | .listener (.received delivery _ _) =>
    decide (Serves Delivery.stamp (· ∈ webUpdates) st.pre.listener.since (st.pre.sent ++ [delivery]))
  | _ => true

theorem sends_daemon {st : Step System SystemAction} (h : sends st = true) :
    daemon.Sends st.pre st.act := by
  unfold sends at h
  unfold Daemon.Sends
  split at h
  · have hserves := of_decide_eq_true h
    exact hserves
  · trivial

/-- A stream that breaks off after two updates, and one that breaks off when it replayed the first. -/
def brokenStreams : List SystemAction :=
  [.listener (.connected 1000), .listener (.received (webUpdate 0 10000000000) 0 1000),
    .listener (.received (webUpdate 1 10200000000) 0 1000), .listener (.streamFailed ⟨.eof, "EOF"⟩),
    .listener .slept, .listener (.connected 1000),
    .listener (.received (webUpdate 0 10000000000) 0 1000),
    .listener (.streamFailed ⟨.unexpectedEof, "unexpected EOF"⟩), .listener .slept]

end Sample

open Sample in
theorem System.listener_leaves_no_gap_sample :
    ∃ trace s, Runs config 10000000000 trace s ∧ trace.map (·.act) = brokenStreams ∧
      s.listener.phase = .connecting ∧ s.listener.since = 9500000000 ∧
      ¬Enqueued trace (webUpdate 2 20000000000) ∧
      s.listener.since ≤ (webUpdate 2 20000000000).stamp := by
  have hreplay : (replay System.step (init config 10000000000) brokenStreams).any (fun result =>
      result.1.all sends && decide (result.2.listener.phase = .connecting) &&
        decide (result.2.listener.since = 9500000000) &&
        decide (webUpdate 2 20000000000 ∉ result.2.delivered)) = true := by decide +kernel
  obtain ⟨trace, s, hrun, hacts, hcheck⟩ := exists_run_of_replay hreplay
  simp only [Bool.and_eq_true, List.all_eq_true, decide_eq_true_eq] at hcheck
  obtain ⟨⟨⟨hsends, hphase⟩, hsince⟩, hmissing⟩ := hcheck
  have hnot : ¬Enqueued trace (webUpdate 2 20000000000) := fun h =>
    hmissing ((mem_delivered_iff hrun _).2 h)
  have hgap := (listener_leaves_no_gap hrun fun st hst => sends_daemon (hsends st hst)).1
  exact ⟨trace, s, hrun, hacts, hphase, hsince, hnot,
    hgap hphase _ (show _ ∈ webUpdates by decide) (by decide) hnot⟩

end SwarmExporter
