import SwarmExporter.Exporter.Shutdown

/-!
# Serving until done

The main task beside the workers: it binds the listener, serves until the root is cancelled or the server
stops on its own, drains, and waits for the workers. The drain and the wait share one deadline, computed
once, when the server stops. The shutdown watch records the time of the signal before it cancels the root,
so a deadline computed after a signal counts from it.

The server behind `serve` is not the crate's: it may fail to accept at any time, which stops its own
lifecycle, and once that is stopped it returns at any time, with the failure if there was one. What the
exit code says is `exit_accounts`; that the exit is reached, by no more steps than the workers and the main
task have left, is `exit_completes`.
-/

namespace SwarmExporter

open Lib

/-- The time from the shutdown signal to the exit. -/
def shutdownBudget : Duration := Duration.fromSecs 10

/-- How the server returned. -/
inductive Outcome where
  | drained
  | deadlineExceeded
  | listenerFailed (error : String)
  deriving DecidableEq, Repr

/-- The server's own failure. -/
def Outcome.failure : Outcome → Option String
  | .listenerFailed error => some error
  | _ => none

/-- Where the main task stands. -/
inductive ServingPhase where
  | binding
  | serving
  | draining (deadline : Instant)
  /-- Past the deadline, with the connections cut. -/
  | cutting (deadline : Instant)
  /-- Waiting for the workers. -/
  | joining (deadline : Instant) (code : Nat)
  | exited (code : Nat)
  deriving DecidableEq, Repr

structure Process where
  exporter : Exporter
  /-- When the shutdown signal arrived. -/
  signalled : Option Instant := none
  /-- The shared deadline, once computed. -/
  deadline : Option Instant := none
  /-- The server's lifecycle is stopped, by the main task or by the server itself. -/
  stopped : Bool := false
  /-- Why the server failed to accept. -/
  failed : Option String := none
  phase : ServingPhase := .binding
  deriving DecidableEq

inductive ProcessAction where
  | exporter (action : ExporterAction)
  -- The shutdown watch: it records the time, then cancels the root.
  | signal
  | cancelRoot
  -- The server.
  | acceptFails (error : String)
  -- The main task.
  | bound (result : Except String Unit)
  | seesCancel
  | seesStop
  | served (outcome : Outcome)
  | cut
  | joined
  | timedOut

/-- The root token is cancelled by the watch and the main task alone. -/
def ExporterAction.isCancel : ExporterAction → Bool
  | .system (.world .cancel) => true
  | _ => false

def Exporter.cancel (e : Exporter) : Exporter :=
  { e with system := { e.system with world := { e.system.world with cancelled := true } } }

instance (e : Exporter) : Decidable e.Stopped :=
  decidable_of_iff (e.remaining = 0) ⟨Exporter.stopped_of_remaining, Exporter.Stopped.remaining_eq⟩

/-- The exit code of a server that failed, or did not. -/
def exitCode : Option String → Nat
  | some _ => 1
  | none => 0

namespace Process

def cancelled (p : Process) : Bool := p.exporter.system.world.cancelled

def now (p : Process) : Instant := p.exporter.system.world.instant

/-- The deadline, computed by the first call: from the signal if there was one. -/
def compute (p : Process) : Instant := p.deadline.getD (p.signalled.getD p.now + shutdownBudget)

/-- The server is done: the workers are stopped and waited for. -/
def finish (p : Process) (deadline : Instant) (failure : Option String) : Process :=
  { p with
    exporter := p.exporter.cancel
    deadline := some deadline
    phase := .joining deadline (exitCode failure) }

/-- The server is between its start and its return. -/
def Running (p : Process) : Prop :=
  p.phase = .serving ∨ (∃ deadline, p.phase = .draining deadline) ∨ ∃ deadline, p.phase = .cutting deadline

/-- What `serve` may return: nothing before its lifecycle is stopped, and its failure if it failed. -/
def Returns (p : Process) (outcome : Outcome) : Prop :=
  p.stopped = true ∧ outcome.failure = p.failed

instance (p : Process) (outcome : Outcome) : Decidable (p.Returns outcome) :=
  inferInstanceAs (Decidable (_ ∧ _))

/-- The process as the workers start. -/
def init (settings : Settings) : Process := { exporter := .init settings }

variable [HostText]

def step (p : Process) : ProcessAction → Option Process
  | .exporter action =>
    if action.isCancel then none
    else (p.exporter.step action).map fun exporter => { p with exporter }
  | .signal =>
    match p.signalled with
    | none => some { p with signalled := some p.now }
    | some _ => none
  | .cancelRoot =>
    if p.signalled.isSome then some { p with exporter := p.exporter.cancel } else none
  | .acceptFails error =>
    match p.phase, p.failed with
    | .serving, none => some { p with failed := some error, stopped := true }
    | .draining _, none => some { p with failed := some error, stopped := true }
    | .cutting _, none => some { p with failed := some error, stopped := true }
    | _, _ => none
  | .bound result =>
    match p.phase, result with
    | .binding, .ok _ => some { p with phase := .serving }
    | .binding, .error error => some (p.finish p.compute (some error))
    | _, _ => none
  | .seesCancel =>
    match p.phase with
    | .serving =>
      if p.cancelled then
        some { p with stopped := true, deadline := some p.compute, phase := .draining p.compute }
      else none
    | _ => none
  | .seesStop =>
    match p.phase with
    | .serving =>
      if p.stopped then some { p with deadline := some p.compute, phase := .draining p.compute }
      else none
    | _ => none
  | .served outcome =>
    if p.Returns outcome then
      match p.phase with
      | .serving => some (p.finish p.compute outcome.failure)
      | .draining deadline => some (p.finish deadline outcome.failure)
      | .cutting deadline => some (p.finish deadline outcome.failure)
      | _ => none
    else none
  | .cut =>
    match p.phase with
    | .draining deadline =>
      if deadline ≤ p.now then some { p with phase := .cutting deadline } else none
    | _ => none
  | .joined =>
    match p.phase with
    | .joining _ code => if p.exporter.Stopped then some { p with phase := .exited code } else none
    | _ => none
  | .timedOut =>
    match p.phase with
    | .joining deadline code =>
      if deadline ≤ p.now then some { p with phase := .exited code } else none
    | _ => none

/-- A run of the process from the start of its workers. -/
abbrev Runs (settings : Settings) (trace : List (Step Process ProcessAction)) (p : Process) : Prop :=
  Run step (init settings) trace p

/-- The move of `action`. -/
inductive Moves (p : Process) : ProcessAction → Process → Prop
  | works {action : ExporterAction} {exporter : Exporter} (hroot : action.isCancel = false)
      (hstep : p.exporter.step action = some exporter) :
      Moves p (.exporter action) { p with exporter }
  | signals (hfirst : p.signalled = none) : Moves p .signal { p with signalled := some p.now }
  | cancels (hsignalled : p.signalled.isSome = true) :
      Moves p .cancelRoot { p with exporter := p.exporter.cancel }
  | fails {error : String} (hrunning : p.Running) (hfirst : p.failed = none) :
      Moves p (.acceptFails error) { p with failed := some error, stopped := true }
  | listens (hphase : p.phase = .binding) : Moves p (.bound (.ok ())) { p with phase := .serving }
  | refused {error : String} (hphase : p.phase = .binding) :
      Moves p (.bound (.error error)) (p.finish p.compute (some error))
  | stops {action : ProcessAction} (hphase : p.phase = .serving)
      (hwhy : action = .seesCancel ∧ p.cancelled = true ∨ action = .seesStop ∧ p.stopped = true) :
      Moves p action
        { p with stopped := true, deadline := some p.compute, phase := .draining p.compute }
  | serves {outcome : Outcome} {deadline : Instant} (hreturns : p.Returns outcome)
      (hphase : p.phase = .serving ∧ deadline = p.compute ∨ p.phase = .draining deadline ∨
        p.phase = .cutting deadline) :
      Moves p (.served outcome) (p.finish deadline outcome.failure)
  | cuts {deadline : Instant} (hphase : p.phase = .draining deadline) (hdue : deadline ≤ p.now) :
      Moves p .cut { p with phase := .cutting deadline }
  | exits {action : ProcessAction} {deadline : Instant} {code : Nat}
      (hphase : p.phase = .joining deadline code)
      (hdone : action = .joined ∧ p.exporter.Stopped ∨ action = .timedOut ∧ deadline ≤ p.now) :
      Moves p action { p with phase := .exited code }

/-- **Every step of the process is one of its moves.** -/
theorem step_moves {p p' : Process} {action : ProcessAction} (h : p.step action = some p') :
    p.Moves action p' := by
  cases action with
  | exporter action =>
    simp only [step, Option.ite_none_left_eq_some, Bool.not_eq_true] at h
    obtain ⟨hroot, h⟩ := h
    obtain ⟨exporter, hstep, rfl⟩ := Option.map_eq_some_iff.1 h
    exact .works hroot hstep
  | signal =>
    simp only [step] at h
    split at h
    · rename_i hfirst
      cases h
      exact .signals hfirst
    · cases h
  | cancelRoot =>
    simp only [step, Option.ite_none_right_eq_some, Option.some.injEq] at h
    obtain ⟨hsignalled, rfl⟩ := h
    exact .cancels hsignalled
  | acceptFails error =>
    simp only [step] at h
    split at h
    · rename_i hphase hfirst
      cases h
      exact .fails (.inl hphase) hfirst
    · rename_i hphase hfirst
      cases h
      exact .fails (.inr (.inl ⟨_, hphase⟩)) hfirst
    · rename_i hphase hfirst
      cases h
      exact .fails (.inr (.inr ⟨_, hphase⟩)) hfirst
    · cases h
  | bound result =>
    simp only [step] at h
    split at h
    · rename_i hphase
      cases h
      exact .listens hphase
    · rename_i hphase
      cases h
      exact .refused hphase
    · cases h
  | seesCancel =>
    simp only [step] at h
    split at h
    · rename_i hphase
      simp only [Option.ite_none_right_eq_some, Option.some.injEq] at h
      obtain ⟨hcancelled, rfl⟩ := h
      exact .stops hphase (.inl ⟨rfl, hcancelled⟩)
    · cases h
  | seesStop =>
    simp only [step] at h
    split at h
    · rename_i hphase
      simp only [Option.ite_none_right_eq_some, Option.some.injEq] at h
      obtain ⟨hstopped, rfl⟩ := h
      have hmove := Moves.stops hphase (.inr ⟨rfl, hstopped⟩)
      rwa [← hstopped] at hmove
    · cases h
  | served outcome =>
    simp only [step, Option.ite_none_right_eq_some] at h
    obtain ⟨hreturns, h⟩ := h
    split at h
    · rename_i hphase
      cases h
      exact .serves hreturns (.inl ⟨hphase, rfl⟩)
    · rename_i hphase
      cases h
      exact .serves hreturns (.inr (.inl hphase))
    · rename_i hphase
      cases h
      exact .serves hreturns (.inr (.inr hphase))
    · cases h
  | cut =>
    simp only [step] at h
    split at h
    · rename_i hphase
      simp only [Option.ite_none_right_eq_some, Option.some.injEq] at h
      obtain ⟨hdue, rfl⟩ := h
      exact .cuts hphase hdue
    · cases h
  | joined =>
    simp only [step] at h
    split at h
    · rename_i hphase
      simp only [Option.ite_none_right_eq_some, Option.some.injEq] at h
      obtain ⟨hstopped, rfl⟩ := h
      exact .exits hphase (.inl ⟨rfl, hstopped⟩)
    · cases h
  | timedOut =>
    simp only [step] at h
    split at h
    · rename_i hphase
      simp only [Option.ite_none_right_eq_some, Option.some.injEq] at h
      obtain ⟨hdue, rfl⟩ := h
      exact .exits hphase (.inr ⟨rfl, hdue⟩)
    · cases h

end Process

/-! ## The process is a run of the exporter -/

section Runs

variable [HostText] {settings : Settings} {trace rest : List (Step Process ProcessAction)}
  {p p' : Process}

/-- Only a cancellation cancels. -/
theorem World.step_keeps_root {w w' : World} {action : Action} (h : w.step action = some w')
    (hroot : action ≠ .cancel) : w'.cancelled = w.cancelled := by
  cases hcycle : action.isCycle with
  | true =>
    obtain ⟨reconciler, phase, rfl⟩ := step_frame h hcycle
    rfl
  | false =>
    cases action with
    | cancel => exact absurd rfl hroot
    | tick clock instant =>
      simp only [step, Option.ite_none_right_eq_some, Option.some.injEq] at h
      rw [← h.2]
    | enqueueEvent event now timestamp =>
      simp only [step, Option.ite_none_right_eq_some, Option.some.injEq] at h
      rw [← h.2]
    | requestResync timestamp =>
      simp only [step, Option.ite_none_right_eq_some, Option.some.injEq] at h
      rw [← h.2]
    | buildPollSnapshot =>
      simp only [step, Option.ite_none_right_eq_some, Option.some.injEq] at h
      rw [← h.2]
    | applyPollCounts snapshot counters timestamp visit =>
      simp only [step, Option.ite_none_right_eq_some, Option.some.injEq] at h
      rw [← h.2]
    | markPollOk snapshot timestamp =>
      simp only [step, Option.ite_none_right_eq_some, Option.some.injEq] at h
      rw [← h.2]
    | _ => cases hcycle

theorem World.calls_keep_root {calls : List Action} {w w' : World}
    (hcalls : ∀ call ∈ calls, call ≠ .cancel) (h : calls.foldlM World.step w = some w') :
    w'.cancelled = w.cancelled := by
  induction calls generalizing w with
  | nil =>
    cases h
    rfl
  | cons call calls ih =>
    rw [List.foldlM_cons] at h
    obtain ⟨next, hnext, hrest⟩ := Option.bind_eq_some_iff.1 h
    rw [List.forall_mem_cons] at hcalls
    rw [ih hcalls.2 hrest]
    exact World.step_keeps_root hnext hcalls.1

/-- No worker cancels the root. -/
theorem Exporter.step_keeps_root {e e' : Exporter} {action : ExporterAction}
    (h : e.step action = some e') (hroot : action.isCancel = false) :
    e'.system.world.cancelled = e.system.world.cancelled := by
  cases action with
  | system action =>
    obtain ⟨system, -, hsystem, rfl⟩ := step_system h
    cases action with
    | world action =>
      obtain ⟨world, hworld, rfl⟩ := Option.map_eq_some_iff.1 hsystem
      apply World.step_keeps_root hworld
      intro hcancel
      rw [hcancel] at hroot
      cases hroot
    | listener action =>
      obtain ⟨listener, calls, world, hlistener, hcalls, rfl⟩ := System.step_listener hsystem
      have hother : ∀ call ∈ calls, call ≠ .cancel :=
        Listener.forall_calls (fun _ _ _ => by simp) (fun _ => by simp) hlistener
      exact World.calls_keep_root hother hcalls
  | poller action =>
    simp only [step] at h
    split at h
    · cases h
    · rename_i poller calls hpoller
      obtain ⟨world, hworld, rfl⟩ := Option.map_eq_some_iff.1 h
      have hother : ∀ call ∈ calls, call ≠ .cancel :=
        Poller.forall_calls (by simp) (fun _ _ _ _ => by simp) (fun _ _ => by simp) hpoller
      exact World.calls_keep_root hother hworld

/-- The root's cancellation is a step of the exporter. -/
theorem Exporter.step_cancel (e : Exporter) : e.step (.system (.world .cancel)) = some e.cancel := by
  simp [step, SystemAction.isPoll, Action.isPoll, System.step, World.step, Exporter.cancel]

namespace Process

/-- What a move does to the workers is nothing or one of their steps. -/
theorem Moves.exporter {action : ProcessAction} (h : p.Moves action p') :
    p'.exporter = p.exporter ∨ ∃ action, p.exporter.step action = some p'.exporter := by
  cases h with
  | works _ hstep => exact .inr ⟨_, hstep⟩
  | cancels => exact .inr ⟨_, Exporter.step_cancel _⟩
  | refused => exact .inr ⟨_, Exporter.step_cancel _⟩
  | serves => exact .inr ⟨_, Exporter.step_cancel _⟩
  | _ => exact .inl rfl

/-- **What holds of every run of the exporter holds of the process's workers.** -/
theorem Runs.exporter (h : Runs settings trace p) :
    ∃ trace, Exporter.Runs settings trace p.exporter := by
  refine Run.invariant (fun p : Process => ∃ trace, Exporter.Runs settings trace p.exporter)
    ⟨[], .nil⟩ ?_ h
  intro p action p' hreached hstep
  obtain ⟨trace, hrun⟩ := hreached
  rcases (step_moves hstep).exporter with hsame | ⟨action, hnext⟩
  · rw [hsame]
    exact ⟨trace, hrun⟩
  · exact ⟨_, hrun.snoc hnext⟩

/-- The clock goes forward, and a cancellation stays. -/
theorem Moves.later {action : ProcessAction} (h : p.Moves action p') :
    p.now ≤ p'.now ∧ (p.cancelled = true → p'.cancelled = true) := by
  rcases h.exporter with hsame | ⟨action, hstep⟩
  · rw [now, now, cancelled, cancelled, hsame]
    exact ⟨le_rfl, id⟩
  · obtain ⟨-, -, hinstant, hcancelled⟩ := Exporter.step_later hstep
    exact ⟨hinstant, hcancelled⟩

/-- Workers that returned after a cancellation stay so. -/
theorem Moves.keeps_stopped {action : ProcessAction} (h : p.Moves action p')
    (hcancelled : p.cancelled = true) (hstopped : p.exporter.Stopped) : p'.exporter.Stopped := by
  rcases h.exporter with hsame | ⟨action, hstep⟩
  · rw [hsame]
    exact hstopped
  · have hlower := Exporter.step_remaining hcancelled hstep
    rw [hstopped.remaining_eq] at hlower
    apply Exporter.stopped_of_remaining
    omega

end Process

end Runs

/-! ## What the phases agree on -/

/-- The exit code, once decided. -/
def ServingPhase.code? : ServingPhase → Option Nat
  | .joining _ code => some code
  | .exited code => some code
  | _ => none

/-- The deadline the main task waits for. -/
def ServingPhase.deadline? : ServingPhase → Option Instant
  | .draining deadline => some deadline
  | .cutting deadline => some deadline
  | .joining deadline _ => some deadline
  | _ => none

/-- The server was not told to stop yet. -/
def ServingPhase.isOpen : ServingPhase → Bool
  | .binding => true
  | .serving => true
  | _ => false

/-- The step shows that the server failed. -/
def ProcessAction.fails : ProcessAction → Bool
  | .acceptFails _ => true
  | .bound (.error _) => true
  | _ => false

namespace Process

/-- The invariant of the main task. -/
structure Agreed (p : Process) : Prop where
  /-- The deadline is computed when the server stops. -/
  undecided : p.deadline = none ↔ p.phase.isOpen = true
  shared : ∀ deadline, p.phase.deadline? = some deadline → p.deadline = some deadline
  /-- A drain has a reason. -/
  draining : p.phase.isOpen = false → p.phase.code? = none → p.stopped = true
  lifecycle : p.stopped = true → p.cancelled = true ∨ p.failed.isSome = true
  signalled : p.cancelled = true → p.signalled.isSome = true ∨ p.phase.code?.isSome = true
  decided : p.phase.code?.isSome = true → p.cancelled = true
  success : p.phase.code? = some 0 → p.signalled.isSome = true
  bounded : ∀ code, p.phase.code? = some code → code = 0 ∨ code = 1
  /-- An exit waited for the workers or for the deadline. -/
  waited : ∀ code, p.phase = .exited code →
    p.exporter.Stopped ∨ ∃ deadline, p.deadline = some deadline ∧ deadline ≤ p.now

theorem compute_of_open {p : Process} (hagreed : p.Agreed) (hopen : p.phase.isOpen = true) :
    p.compute = p.signalled.getD p.now + shutdownBudget := by
  rw [compute, hagreed.undecided.2 hopen]
  rfl

/-- Before the exit code is decided only the signal cancels. -/
theorem Agreed.of_cancelled {p : Process} (h : p.Agreed) (hcode : p.phase.code? = none)
    (hcancelled : p.cancelled = true) : p.signalled.isSome = true := by
  rcases h.signalled hcancelled with hsignalled | hsome
  · exact hsignalled
  · rw [hcode] at hsome
    cases hsome

/-- A server that is done is one that failed, or one that was told to stop by the signal. -/
theorem agreed_finish {p : Process} (h : p.Agreed) (hcode : p.phase.code? = none) {deadline : Instant}
    {failure : Option String} (hfailure : failure = none → p.stopped = true ∧ p.failed = none) :
    (p.finish deadline failure).Agreed where
  undecided := ⟨(fun hnone => by cases hnone), (fun hopen => by cases hopen)⟩
  shared := fun _ hdeadline => hdeadline
  draining := fun _ hnone => by cases hnone
  lifecycle := fun _ => .inl rfl
  signalled := fun _ => .inr rfl
  decided := fun _ => rfl
  success := by
    intro hzero
    cases failure with
    | some error => cases hzero
    | none =>
      obtain ⟨hstopped, hfailed⟩ := hfailure rfl
      rcases h.lifecycle hstopped with hcancelled | hsome
      · exact h.of_cancelled hcode hcancelled
      · rw [hfailed] at hsome
        cases hsome
  bounded := by
    intro code hsome
    cases failure with
    | some error =>
      cases hsome
      exact .inr rfl
    | none =>
      cases hsome
      exact .inl rfl
  waited := fun _ hexited => by cases hexited

/-- The watch cancels the root once the signal came. -/
theorem agreed_cancels {p : Process} (h : p.Agreed) (hsignalled : p.signalled.isSome = true) :
    Agreed { p with exporter := p.exporter.cancel } := by
  refine ⟨h.undecided, h.shared, h.draining, fun _ => .inl rfl, fun _ => .inl hsignalled, fun _ => rfl,
    h.success, h.bounded, ?_⟩
  intro code hexited
  exact h.waited code hexited

/-- The server was told to stop, or stopped by itself. -/
theorem agreed_stops {p : Process} (h : p.Agreed) (hphase : p.phase = .serving)
    (hwhy : p.cancelled = true ∨ p.stopped = true) :
    Agreed { p with stopped := true, deadline := some p.compute, phase := .draining p.compute } where
  undecided := ⟨(fun hnone => by cases hnone), (fun hopen => by cases hopen)⟩
  shared := fun _ hdeadline => hdeadline
  draining := fun _ _ => rfl
  lifecycle := fun _ => hwhy.elim .inl h.lifecycle
  signalled := by
    intro hcancelled
    apply Or.inl
    apply h.of_cancelled _ hcancelled
    rw [hphase]
    rfl
  decided := fun hsome => by cases hsome
  success := fun hzero => by cases hzero
  bounded := fun _ hsome => by cases hsome
  waited := fun _ hexited => by cases hexited

section Steps

variable [HostText] {settings : Settings} {trace rest : List (Step Process ProcessAction)}
  {p p' : Process} {action : ProcessAction}

/-- A worker's step leaves the main task where it is. -/
theorem agreed_works {exporter : Exporter} {action : ExporterAction} (h : p.Agreed)
    (hroot : action.isCancel = false) (hstep : p.exporter.step action = some exporter) :
    Agreed { p with exporter } := by
  have hmove := Moves.works hroot hstep
  have hlater := hmove.later
  have hkept : exporter.system.world.cancelled = p.cancelled := Exporter.step_keeps_root hstep hroot
  refine ⟨h.undecided, h.shared, h.draining, ?_, ?_, ?_, h.success, h.bounded, ?_⟩
  · intro hstopped
    exact (h.lifecycle hstopped).imp_left hlater.2
  · intro hcancelled
    exact h.signalled (hkept.symm.trans hcancelled)
  · intro hsome
    exact hlater.2 (h.decided hsome)
  · intro code hexited
    rcases h.waited code hexited with hstopped | ⟨deadline, hdeadline, hle⟩
    · have hphase : p.phase = .exited code := hexited
      have hcancelled : p.cancelled = true := by
        apply h.decided
        rw [hphase]
        rfl
      exact .inl (hmove.keeps_stopped hcancelled hstopped)
    · exact .inr ⟨deadline, hdeadline, hle.trans hlater.1⟩

theorem step_agreed (h : p.Agreed) (hstep : p.step action = some p') : p'.Agreed := by
  have hmove := step_moves hstep
  cases hmove with
  | works hroot hworks => exact agreed_works h hroot hworks
  | signals =>
    exact ⟨h.undecided, h.shared, h.draining, h.lifecycle, fun _ => .inl rfl, h.decided, fun _ => rfl,
      h.bounded, h.waited⟩
  | cancels hsignalled => exact agreed_cancels h hsignalled
  | fails =>
    exact ⟨h.undecided, h.shared, fun _ _ => rfl, fun _ => .inr rfl, h.signalled, h.decided, h.success,
      h.bounded, h.waited⟩
  | listens hphase =>
    have hopen : p.phase.isOpen = true := by
      rw [hphase]
      rfl
    have hcode : p.phase.code? = none := by
      rw [hphase]
      rfl
    refine ⟨⟨fun _ => rfl, fun _ => h.undecided.2 hopen⟩, (fun _ hnone => by cases hnone),
      (fun hclosed => by cases hclosed), h.lifecycle, ?_, (fun hnone => by cases hnone),
      (fun hnone => by cases hnone), (fun _ hnone => by cases hnone), (fun _ hnone => by cases hnone)⟩
    intro hcancelled
    exact .inl (h.of_cancelled hcode hcancelled)
  | refused hphase =>
    apply agreed_finish h
    · rw [hphase]
      rfl
    · intro hnone
      cases hnone
  | stops hphase hwhy =>
    apply agreed_stops h hphase
    exact hwhy.imp And.right And.right
  | serves hreturns hphase =>
    apply agreed_finish h
    · rcases hphase with ⟨hphase, -⟩ | hphase | hphase <;> rw [hphase] <;> rfl
    · intro hnone
      exact ⟨hreturns.1, hreturns.2.symm.trans hnone⟩
  | cuts hphase hdue =>
    refine ⟨?_, ?_, ?_, h.lifecycle, ?_, (fun hnone => by cases hnone), (fun hnone => by cases hnone),
      (fun _ hnone => by cases hnone), (fun _ hnone => by cases hnone)⟩
    · rw [h.undecided, hphase]
      rfl
    · intro deadline hdeadline
      apply h.shared
      rw [hphase]
      exact hdeadline
    · intro _ _
      apply h.draining <;> rw [hphase] <;> rfl
    · intro hcancelled
      apply Or.inl
      apply h.of_cancelled _ hcancelled
      rw [hphase]
      rfl
  | @exits _ deadline code hphase hdone =>
    have hcode : p.phase.code? = some code := by
      rw [hphase]
      rfl
    have hshared : p.deadline = some deadline := by
      apply h.shared
      rw [hphase]
      rfl
    refine ⟨?_, (fun _ hnone => by cases hnone), (fun _ hnone => by cases hnone), h.lifecycle,
      fun _ => .inr rfl, ?_, ?_, ?_, ?_⟩
    · rw [h.undecided, hphase]
      rfl
    · intro _
      apply h.decided
      rw [hcode]
      rfl
    · intro hzero
      exact h.success (hcode.trans hzero)
    · intro code' hcode'
      exact h.bounded code' (hcode.trans hcode')
    · intro _ _
      rcases hdone with ⟨-, hstopped⟩ | ⟨-, hdue⟩
      · exact .inl hstopped
      · exact .inr ⟨deadline, hshared, hdue⟩

theorem Runs.agreed (h : Runs settings trace p) : p.Agreed := by
  refine Run.invariant Agreed ?_ (fun _ _ _ hagreed hstep => step_agreed hagreed hstep) h
  exact ⟨⟨fun _ => rfl, fun _ => rfl⟩, (fun _ hnone => by cases hnone), (fun hclosed => by cases hclosed),
    (fun hstopped => by cases hstopped), (fun hcancelled => by cases hcancelled),
    (fun hnone => by cases hnone), (fun hnone => by cases hnone), (fun _ hnone => by cases hnone),
    (fun _ hnone => by cases hnone)⟩

end Steps

end Process

/-! ## What the exit says -/

namespace Process

/-- The server failed: recorded, or already in the exit code. -/
def Failed (p : Process) : Prop :=
  p.phase.code? = none ∧ p.failed.isSome = true ∨ p.phase.code? = some 1

theorem code_of_running {p : Process} (h : p.Running) : p.phase.code? = none := by
  rcases h with hphase | ⟨deadline, hphase⟩ | ⟨deadline, hphase⟩ <;> rw [hphase] <;> rfl

theorem exitCode_eq_one_iff (failure : Option String) :
    exitCode failure = 1 ↔ failure.isSome = true := by
  cases failure <;> simp [exitCode]

section Steps

variable [HostText] {settings : Settings} {trace rest : List (Step Process ProcessAction)}
  {p p' : Process} {action : ProcessAction}

/-- A step shows a failure exactly when one is known after it that was not before. -/
theorem step_failed (h : p.step action = some p') :
    p'.Failed ↔ p.Failed ∨ action.fails = true := by
  have hmove := step_moves h
  cases hmove with
  | fails hrunning hfirst =>
    have hcode := code_of_running hrunning
    exact ⟨fun _ => .inr rfl, fun _ => .inl ⟨hcode, rfl⟩⟩
  | refused => exact ⟨fun _ => .inr rfl, fun _ => .inr rfl⟩
  | listens hphase =>
    rw [Failed, Failed, hphase]
    simp [ServingPhase.code?, ProcessAction.fails]
  | stops hphase hwhy =>
    have hfails : action.fails = false := by
      rcases hwhy with ⟨rfl, -⟩ | ⟨rfl, -⟩ <;> rfl
    rw [Failed, Failed, hphase, hfails]
    simp [ServingPhase.code?]
  | @serves outcome deadline hreturns hphase =>
    have hrunning : p.Running := by
      rcases hphase with ⟨hphase, -⟩ | hphase | hphase
      · exact .inl hphase
      · exact .inr (.inl ⟨_, hphase⟩)
      · exact .inr (.inr ⟨_, hphase⟩)
    have hcode := code_of_running hrunning
    have hexit : (p.finish deadline outcome.failure).Failed ↔ exitCode outcome.failure = 1 := by
      simp [Failed, finish, ServingPhase.code?]
    rw [hexit, exitCode_eq_one_iff, hreturns.2, Failed, hcode]
    simp [ProcessAction.fails]
  | cuts hphase =>
    rw [Failed, Failed, hphase]
    simp [ServingPhase.code?, ProcessAction.fails]
  | exits hphase hdone =>
    have hfails : action.fails = false := by
      rcases hdone with ⟨rfl, -⟩ | ⟨rfl, -⟩ <;> rfl
    rw [Failed, Failed, hphase, hfails]
    simp [ServingPhase.code?]
  | _ => simp [Failed, ProcessAction.fails]

theorem Runs.failed_iff (h : Runs settings trace p) :
    p.Failed ↔ ∃ st ∈ trace, st.act.fails = true := by
  refine Run.history (fun trace p => p.Failed ↔ ∃ st ∈ trace, st.act.fails = true) ?_ ?_ h
  · simp [Failed, init, ServingPhase.code?]
  · intro trace p action p' _ hinv hstep
    rw [step_failed hstep, hinv]
    simp [or_and_right, exists_or]

/-- The deadline counts from the signal, if there was one when it was computed. -/
theorem step_deadline (hagreed : p.Agreed) (h : p.step action = some p') (hnone : p.deadline = none)
    {deadline : Instant} (hsome : p'.deadline = some deadline) :
    deadline = p.signalled.getD p.now + shutdownBudget := by
  have hcompute := compute_of_open hagreed (hagreed.undecided.1 hnone)
  have hmove := step_moves h
  cases hmove with
  | refused =>
    cases hsome
    exact hcompute
  | stops =>
    cases hsome
    exact hcompute
  | serves hreturns hphase =>
    have hopen := hagreed.undecided.1 hnone
    cases hsome
    rcases hphase with ⟨-, rfl⟩ | hphase | hphase
    · exact hcompute
    · rw [hphase] at hopen
      cases hopen
    · rw [hphase] at hopen
      cases hopen
  | _ =>
    rw [hnone] at hsome
    cases hsome

/-- Once computed the deadline stays. -/
theorem step_keeps_deadline (hagreed : p.Agreed) (h : p.step action = some p') {deadline : Instant}
    (hsome : p.deadline = some deadline) : p'.deadline = some deadline := by
  have hclosed : p.phase.isOpen = false := by
    cases hopen : p.phase.isOpen with
    | false => rfl
    | true =>
      rw [hagreed.undecided.2 hopen] at hsome
      cases hsome
  have hmove := step_moves h
  cases hmove with
  | refused hphase =>
    rw [hphase] at hclosed
    cases hclosed
  | stops hphase =>
    rw [hphase] at hclosed
    cases hclosed
  | @serves outcome deadline' hreturns hphase =>
    have hshared : p.deadline = some deadline' := by
      rcases hphase with ⟨hphase, -⟩ | hphase | hphase
      · rw [hphase] at hclosed
        cases hclosed
      · apply hagreed.shared
        rw [hphase]
        rfl
      · apply hagreed.shared
        rw [hphase]
        rfl
    exact hshared.symm.trans hsome
  | _ => exact hsome

theorem Runs.keeps_deadline (h : Runs settings trace p) (hrest : Run step p rest p')
    {deadline : Instant} (hsome : p.deadline = some deadline) : p'.deadline = some deadline := by
  have hboth : p'.Agreed ∧ p'.deadline = some deadline := by
    refine hrest.invariant (fun p => p.Agreed ∧ p.deadline = some deadline) ⟨Runs.agreed h, hsome⟩ ?_
    intro p action p' hinv hstep
    exact ⟨step_agreed hinv.1 hstep, step_keeps_deadline hinv.1 hstep hinv.2⟩
  exact hboth.2

/-- **The exit accounts for the run.** The process exits with 1 exactly when the server failed, to bind or
to accept, at some step, and else with 0, after a shutdown signal; the root is then cancelled, and either
all workers returned or the deadline passed. The deadline is computed once, from the signal if it had
arrived, and the connections are cut no earlier. -/
theorem exit_accounts (h : Runs settings trace p) :
    (∀ code, p.phase = .exited code →
      (code = 0 ∨ code = 1) ∧ (code = 1 ↔ ∃ st ∈ trace, st.act.fails = true) ∧
      (code = 0 → p.signalled.isSome = true) ∧ p.cancelled = true ∧
      ∃ deadline, p.deadline = some deadline ∧ (p.exporter.Stopped ∨ deadline ≤ p.now)) ∧
    (∀ older st recent deadline, trace = older ++ st :: recent → st.pre.deadline = none →
      st.post.deadline = some deadline →
      deadline = st.pre.signalled.getD st.pre.now + shutdownBudget ∧ p.deadline = some deadline) ∧
    ∀ older st recent, trace = older ++ st :: recent → st.act = .cut →
      ∃ deadline, p.deadline = some deadline ∧ deadline ≤ st.pre.now := by
  have hagreed := Runs.agreed h
  refine ⟨?_, ?_, ?_⟩
  · intro code hexited
    have hcode : p.phase.code? = some code := by
      rw [hexited]
      rfl
    have hfailed : p.Failed ↔ code = 1 := by
      rw [Failed, hcode]
      simp
    obtain ⟨deadline, hdeadline⟩ : ∃ deadline, p.deadline = some deadline := by
      apply Option.ne_none_iff_exists'.1
      intro hnone
      have hopen := hagreed.undecided.1 hnone
      rw [hexited] at hopen
      cases hopen
    refine ⟨hagreed.bounded code hcode, hfailed.symm.trans (Runs.failed_iff h), ?_, ?_, deadline,
      hdeadline, ?_⟩
    · intro hzero
      rw [hzero] at hcode
      exact hagreed.success hcode
    · apply hagreed.decided
      rw [hcode]
      rfl
    · rcases hagreed.waited code hexited with hstopped | ⟨deadline', hdeadline', hle⟩
      · exact .inl hstopped
      · rw [hdeadline] at hdeadline'
        cases hdeadline'
        exact .inr hle
  · intro older st recent deadline htrace hnone hsome
    subst htrace
    obtain ⟨hbefore, hstep, hrecent⟩ := Run.of_mid h
    exact ⟨step_deadline (Runs.agreed hbefore) hstep hnone hsome,
      Runs.keeps_deadline (hbefore.snoc hstep) hrecent hsome⟩
  · rintro older ⟨pre, act, post⟩ recent htrace hcut
    subst htrace
    obtain ⟨hbefore, hstep, hrecent⟩ := Run.of_mid h
    obtain rfl : act = .cut := hcut
    have hmove : pre.Moves .cut post := step_moves hstep
    cases hmove with
    | @cuts deadline hphase hdue =>
      have hshared : pre.deadline = some deadline := by
        apply (Runs.agreed hbefore).shared
        rw [hphase]
        rfl
      exact ⟨deadline, Runs.keeps_deadline hbefore ((Run.single hstep).append hrecent) hshared, hdue⟩
    | stops _ hwhy => rcases hwhy with ⟨hact, -⟩ | ⟨hact, -⟩ <;> cases hact
    | exits _ hdone => rcases hdone with ⟨hact, -⟩ | ⟨hact, -⟩ <;> cases hact

end Steps

end Process

/-! ## The exit is reached -/

/-- The steps the main task still takes. -/
def ServingPhase.remaining : ServingPhase → Nat
  | .exited _ => 0
  | .joining _ _ => 1
  | .cutting _ => 2
  | .draining _ => 3
  | .serving => 4
  | .binding => 5

/-- The steps that lead to the exit: the stopping ones of the workers, and those of the main task, with
the answers it waits for. -/
def ProcessAction.isStopping : ProcessAction → Bool
  | .exporter action => action.isStopping
  | .signal => false
  | .cancelRoot => false
  | .acceptFails _ => false
  | _ => true

namespace Process

def remaining (p : Process) : Nat := p.exporter.remaining + p.phase.remaining

theorem remaining_le (p : Process) : p.remaining ≤ 14 := by
  have hworkers := p.exporter.remaining_le
  have hmain : p.phase.remaining ≤ 5 := by
    cases p.phase <;> simp [ServingPhase.remaining]
  unfold remaining
  omega

/-- What the server returns with: its failure, if there was one. -/
def outcome (p : Process) : Outcome :=
  match p.failed with
  | some error => .listenerFailed error
  | none => .drained

theorem failure_outcome (p : Process) : p.outcome.failure = p.failed := by
  unfold outcome
  split
  · rename_i hfailed
    exact hfailed.symm
  · rename_i hfailed
    exact hfailed.symm

section Steps

variable [HostText] {settings : Settings} {trace rest : List (Step Process ProcessAction)}
  {p p' : Process} {action : ProcessAction}

/-- Once cancelled, no step puts the exit off. -/
theorem step_remaining (hcancelled : p.cancelled = true) (h : p.step action = some p') :
    p'.remaining + action.isStopping.toNat ≤ p.remaining := by
  have hmove := step_moves h
  cases hmove with
  | works _ hstep =>
    have hlower := Exporter.step_remaining hcancelled hstep
    simp only [remaining, ProcessAction.isStopping]
    omega
  | listens hphase =>
    rw [remaining, remaining, hphase]
    exact Nat.le_refl _
  | refused hphase =>
    rw [remaining, remaining, hphase]
    show p.exporter.remaining + 1 + 1 ≤ p.exporter.remaining + 5
    omega
  | stops hphase hwhy =>
    have hone : action.isStopping.toNat ≤ 1 := Bool.toNat_le _
    rw [remaining, remaining, hphase]
    show p.exporter.remaining + 3 + action.isStopping.toNat ≤ p.exporter.remaining + 4
    omega
  | serves hreturns hphase =>
    have hleft : 2 ≤ p.phase.remaining := by
      rcases hphase with ⟨hphase, -⟩ | hphase | hphase <;> rw [hphase] <;>
        simp [ServingPhase.remaining]
    show p.exporter.remaining + 1 + 1 ≤ p.exporter.remaining + p.phase.remaining
    omega
  | cuts hphase =>
    rw [remaining, remaining, hphase]
    exact Nat.le_refl _
  | exits hphase hdone =>
    have hone : action.isStopping.toNat ≤ 1 := Bool.toNat_le _
    rw [remaining, remaining, hphase]
    show p.exporter.remaining + 0 + action.isStopping.toNat ≤ p.exporter.remaining + 1
    omega
  | _ => exact Nat.le_refl _

/-- **Until the exit a step that leads to it is enabled.** -/
theorem stopping_enabled (h : Runs settings trace p) (hcancelled : p.cancelled = true)
    (hrunning : ∀ code, p.phase ≠ .exited code) :
    ∃ action p', action.isStopping = true ∧ p.step action = some p' := by
  have hagreed := Runs.agreed h
  have hreturns : p.phase.isOpen = false → p.phase.code? = none → p.Returns p.outcome :=
    fun hclosed hcode => ⟨hagreed.draining hclosed hcode, p.failure_outcome⟩
  cases hphase : p.phase with
  | binding => exact ⟨.bound (.ok ()), _, rfl, by simp only [step, hphase]; rfl⟩
  | serving => exact ⟨.seesCancel, _, rfl, by simp only [step, hphase, hcancelled, if_true]; rfl⟩
  | draining deadline =>
    rw [hphase] at hreturns
    have hreturned := hreturns rfl rfl
    exact ⟨.served p.outcome, _, rfl, by simp only [step, hphase, if_pos hreturned]; rfl⟩
  | cutting deadline =>
    rw [hphase] at hreturns
    have hreturned := hreturns rfl rfl
    exact ⟨.served p.outcome, _, rfl, by simp only [step, hphase, if_pos hreturned]; rfl⟩
  | joining deadline code =>
    by_cases hstopped : p.exporter.Stopped
    · exact ⟨.joined, _, rfl, by simp only [step, hphase, if_pos hstopped]; rfl⟩
    · obtain ⟨_, hworkers⟩ := Runs.exporter h
      obtain ⟨action, exporter, hstopping, hstep⟩ :=
        Exporter.stopping_enabled hworkers hcancelled hstopped
      have hroot : action.isCancel = false := by
        cases action with
        | poller action => rfl
        | system action =>
          cases action with
          | listener action => rfl
          | world action => cases action <;> first | rfl | cases hstopping
      exact ⟨.exporter action, { p with exporter }, hstopping, by simp [step, hroot, hstep]⟩
  | exited code => exact absurd hphase (hrunning code)

/-- **The exit is reached.** After the cancellation no more than fourteen steps of a run are stopping
ones, whatever comes between them; that many suffice from any state, the answers of the system and the
server included, without one of Docker or a later time; and at the deadline the main task waits for no
worker. -/
theorem exit_completes (h : Runs settings trace p) (hcancelled : p.cancelled = true) :
    (∀ rest p', Run step p rest p' → rest.countP (·.act.isStopping) ≤ 14) ∧
    (∃ rest p' code, Run step p rest p' ∧ p'.phase = .exited code ∧ rest.length ≤ 14 ∧
      ∀ st ∈ rest, st.act.isStopping = true) ∧
    ∀ deadline code, p.phase = .joining deadline code → deadline ≤ p.now →
      (p.step .timedOut).map (·.phase) = some (.exited code) := by
  have hbound := p.remaining_le
  refine ⟨?_, ?_, ?_⟩
  · intro rest p' hrest
    obtain ⟨-, hcount⟩ := Run.count_le remaining (fun p => p.cancelled = true) (·.act.isStopping)
      hcancelled (fun p action p' hcancelled hstep =>
        ⟨(step_moves hstep).later.2 hcancelled, step_remaining hcancelled hstep⟩) hrest
    omega
  · have hnext : ∀ p : Process, ((∃ trace, Runs settings trace p) ∧ p.cancelled = true) →
        ¬(∃ code, p.phase = .exited code) →
        ∃ action p', p.step action = some p' ∧ action.isStopping = true ∧
          ((∃ trace, Runs settings trace p') ∧ p'.cancelled = true) ∧ p'.remaining < p.remaining := by
      intro p hinv hrunning
      obtain ⟨⟨trace, hrun⟩, hcancelled⟩ := hinv
      obtain ⟨action, p', hstopping, hstep⟩ :=
        stopping_enabled hrun hcancelled (not_exists.1 hrunning)
      have hlower := step_remaining hcancelled hstep
      rw [hstopping, Bool.toNat_true] at hlower
      exact ⟨action, p', hstep, hstopping,
        ⟨⟨_, hrun.snoc hstep⟩, (step_moves hstep).later.2 hcancelled⟩, by omega⟩
    obtain ⟨rest, p', hrest, -, ⟨code, hexited⟩, hlength, hstopping⟩ :=
      Run.exists_done remaining (fun p => (∃ trace, Runs settings trace p) ∧ p.cancelled = true)
        (fun p => ∃ code, p.phase = .exited code)
        (fun st : Step Process ProcessAction => st.act.isStopping = true) hnext
        ⟨⟨trace, h⟩, hcancelled⟩
    exact ⟨rest, p', code, hrest, hexited, hlength.trans hbound, hstopping⟩
  · intro deadline code hphase hdue
    simp [step, hphase, hdue]

end Steps

end Process

namespace Sample

/-- A signal in the middle of a poll; the drain outlasts the deadline, and so does a worker. -/
def interrupted : List ProcessAction :=
  (firstResync.map .exporter) ++ [.bound (.ok ()), .exporter (.poller .ready), .signal, .cancelRoot,
    .seesCancel]

/-- The cut at the deadline. -/
def cutOff : List ProcessAction :=
  [.exporter (.system (.world (.tick 1000 (Duration.fromSecs 10)))), .cut, .served .deadlineExceeded,
    .timedOut]

end Sample

open Sample in
theorem Process.exit_completes_sample : ∃ trace p rest p' code, Runs settings trace p ∧
    p.cancelled = true ∧ ¬p.exporter.Stopped ∧ Run step p rest p' ∧ p'.phase = .exited code ∧
    rest.length ≤ 14 := by
  have hreplay : (replay step (init settings) interrupted).any (fun result =>
      decide (result.2.cancelled = true ∧ ¬result.2.exporter.Stopped)) = true := by
    decide +kernel
  obtain ⟨trace, p, hrun, -, hcheck⟩ := exists_run_of_replay hreplay
  obtain ⟨hcancelled, hrunning⟩ := of_decide_eq_true hcheck
  obtain ⟨-, ⟨rest, p', code, hrest, hexited, hlength, -⟩, -⟩ := exit_completes hrun hcancelled
  exact ⟨trace, p, rest, p', code, hrun, hcancelled, hrunning, hrest, hexited, hlength⟩

open Sample in
/-- The exit of a drain that was cut, with the workers still running. -/
theorem Process.exit_accounts_sample : ∃ trace p, Runs settings trace p ∧ p.phase = .exited 0 ∧
    ¬p.exporter.Stopped ∧ p.signalled.isSome = true ∧
    ∃ deadline, p.deadline = some deadline ∧ deadline ≤ p.now := by
  have hreplay : (replay step (init settings) (interrupted ++ cutOff)).any (fun result =>
      decide (result.2.phase = .exited 0 ∧ ¬result.2.exporter.Stopped)) = true := by
    decide +kernel
  obtain ⟨trace, p, hrun, -, hcheck⟩ := exists_run_of_replay hreplay
  obtain ⟨hexited, hrunning⟩ := of_decide_eq_true hcheck
  obtain ⟨-, -, hsignalled, -, deadline, hdeadline, hwaited⟩ := (exit_accounts hrun).1 0 hexited
  exact ⟨trace, p, hrun, hexited, hrunning, hsignalled rfl, deadline, hdeadline,
    hwaited.resolve_left hrunning⟩

end SwarmExporter
