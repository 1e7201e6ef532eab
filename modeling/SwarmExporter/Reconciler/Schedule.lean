import SwarmExporter.Reconciler.Steps

/-!
# The schedule

The policy never changes, and of the operations only bookkeeping and the completion of a resync move
the times at which work is next due.
-/

namespace SwarmExporter

open Lib
open Docker (Event Node Service)

/-- What the reconciler waits by: the policy, but for the cap of the dirty set, and the times. -/
structure Schedule where
  retryDelays : List Duration
  backoffInitial : Duration
  backoffMax : Duration
  resyncInterval : Duration
  resyncNotBefore : Option Instant
  resyncBackoff : Duration
  nextPeriodicResync : Option Instant
  nodesNotBefore : Option Instant
  nodesBackoff : Duration
  deriving DecidableEq

namespace State

variable (state : State) (timestamp : Timestamp)

@[simp] theorem pendingCap_queueKey (id : String) (entry : PendingKey) :
    (state.queueKey id entry timestamp).pendingCap = state.pendingCap := by
  unfold queueKey
  split <;> rfl

@[simp] theorem pendingCap_markServiceDirty (id : String) (now : Instant) :
    (state.markServiceDirty id now timestamp).pendingCap = state.pendingCap := by
  unfold markServiceDirty
  simp only
  split
  · rfl
  · exact pendingCap_queueKey _ _ _ _

@[simp] theorem pendingCap_enqueueEvent (event : Event) (now : Instant) :
    (state.enqueueEvent event now timestamp).pendingCap = state.pendingCap := by
  unfold enqueueEvent
  split
  · rfl
  · split
    · rfl
    · split
      · exact pendingCap_markServiceDirty _ _ _ _
      · rfl

@[simp] theorem pendingCap_retryService (delays : List Duration) (key : DueKey) (now : Instant) :
    (state.retryService delays key now timestamp).pendingCap = state.pendingCap := by
  unfold retryService
  split
  · rfl
  · split
    · rfl
    · exact pendingCap_queueKey _ _ _ _

@[simp] theorem pendingCap_takeDueKeys (now : Instant) :
    (state.takeDueKeys now).2.pendingCap = state.pendingCap := by
  unfold takeDueKeys
  split <;> rfl

@[simp] theorem pendingCap_forgetService (id : String) :
    (state.forgetService id).pendingCap = state.pendingCap := by
  unfold forgetService
  split <;> rfl

end State

namespace Reconciler

/-- The schedule of a reconciler. -/
def schedule (r : Reconciler) : Schedule :=
  { retryDelays := r.retryDelays
    backoffInitial := r.backoffInitial
    backoffMax := r.backoffMax
    resyncInterval := r.resyncInterval
    resyncNotBefore := r.resyncNotBefore
    resyncBackoff := r.resyncBackoff
    nextPeriodicResync := r.nextPeriodicResync
    nodesNotBefore := r.nodesNotBefore
    nodesBackoff := r.nodesBackoff }

/-- The policy a reconciler was created with. -/
def policy (r : Reconciler) : ReconcilerPolicy :=
  ⟨r.state.pendingCap, r.retryDelays, r.backoffInitial, r.backoffMax, r.resyncInterval⟩

theorem policy_eq_of_schedule {r r' : Reconciler} (hschedule : r'.schedule = r.schedule)
    (hcap : r'.state.pendingCap = r.state.pendingCap) : r'.policy = r.policy := by
  simp only [schedule, Schedule.mk.injEq] at hschedule
  obtain ⟨hdelays, hinitial, hmax, hinterval, -⟩ := hschedule
  simp only [policy, hcap, hdelays, hinitial, hmax, hinterval]

@[simp] theorem schedule_modifyState (r : Reconciler) (f : State → State) :
    (r.modifyState f).schedule = r.schedule := rfl

@[simp] theorem schedule_enqueueEvent (r : Reconciler) (event : Event) (now : Instant)
    (timestamp : Timestamp) : (r.enqueueEvent event now timestamp).schedule = r.schedule := by
  unfold enqueueEvent
  split <;> rfl

@[simp] theorem schedule_removeService (r : Reconciler) (id : String) :
    (r.removeService id).schedule = r.schedule := by
  unfold removeService
  split <;> rfl

variable [HostText]

@[simp] theorem schedule_withService (r : Reconciler) (service : Service) (nodes : List Node)
    (metadata : ServiceMetadata) :
    (r.withService service nodes metadata).schedule = r.schedule := by
  obtain ⟨gauges, update, hcleaned, -⟩ := deleteOldIdentity_eq r metadata service.id
  simp only [withService, hcleaned]
  rfl

theorem schedule_foldl_recounted (nodes : List Node) (all : Map String ServiceMetadata)
    (visit : List String) (r : Reconciler) :
    (visit.foldl (recounted nodes all) r).schedule = r.schedule := by
  induction visit generalizing r with
  | nil => rfl
  | cons id visit ih =>
    rw [List.foldl_cons, ih]
    unfold recounted
    split <;> rfl

@[simp] theorem schedule_withNodes (r : Reconciler) (nodes : List Node) (visit : List String) :
    (r.withNodes nodes visit).schedule = r.schedule :=
  schedule_foldl_recounted nodes r.metadata visit (r.replaceNodes nodes)

variable {r r' : Reconciler} {op : Op}

/-- **Only bookkeeping and the completion of a resync move the schedule.** -/
theorem perform_schedule (h : perform r op = some r') (hbook : op.isBookkeep = false)
    (hcompletes : ∀ target passStart now timestamp,
      op ≠ .completeResync target passStart now timestamp) : r'.schedule = r.schedule := by
  cases op with
  | bookkeep => cases hbook
  | completeResync => exact absurd rfl (hcompletes _ _ _ _)
  | enqueueEvent event now timestamp =>
    cases h
    exact schedule_enqueueEvent _ _ _ _
  | applyNodes nodes visit =>
    simp only [perform, Option.ite_none_right_eq_some, Option.some.injEq] at h
    obtain ⟨-, rfl⟩ := h
    exact schedule_withNodes _ _ _
  | applyService service =>
    simp only [perform] at h
    split at h
    · cases h
      exact schedule_withService _ _ _ _
    · cases h
  | removeService id =>
    cases h
    exact schedule_removeService _ _
  | _ =>
    cases h
    rfl

theorem performs_schedule {ops : List Op} (h : Performs r ops r')
    (hops : ∀ op ∈ ops, op.isBookkeep = false ∧ ∀ target passStart now timestamp,
      op ≠ .completeResync target passStart now timestamp) : r'.schedule = r.schedule :=
  h.induct (fun current => current.schedule = r.schedule) rfl
    fun op hop _ _ hcurrent hperform =>
      (perform_schedule hperform (hops op hop).1 (hops op hop).2).trans hcurrent

/-- The policy never changes. -/
theorem perform_policy (h : perform r op = some r') : r'.policy = r.policy := by
  cases op with
  | bookkeep =>
    cases h
    rfl
  | completeResync =>
    cases h
    rfl
  | enqueueEvent event now timestamp =>
    cases h
    refine policy_eq_of_schedule (schedule_enqueueEvent _ _ _ _) ?_
    unfold enqueueEvent
    split
    · rfl
    · exact State.pendingCap_enqueueEvent _ _ _ _
  | markServiceDirty id now timestamp =>
    cases h
    exact policy_eq_of_schedule rfl (State.pendingCap_markServiceDirty _ _ _ _)
  | takeDueKeys now =>
    cases h
    exact policy_eq_of_schedule rfl (State.pendingCap_takeDueKeys _ _)
  | retryService key now timestamp =>
    cases h
    exact policy_eq_of_schedule rfl (State.pendingCap_retryService _ _ _ _ _)
  | applyNodes nodes visit =>
    simp only [perform, Option.ite_none_right_eq_some, Option.some.injEq] at h
    obtain ⟨-, rfl⟩ := h
    refine policy_eq_of_schedule (schedule_withNodes _ _ _) ?_
    rw [(withNodes_frame r nodes visit).1]
  | applyService service =>
    simp only [perform] at h
    split at h
    · cases h
      exact policy_eq_of_schedule (schedule_withService _ _ _ _) rfl
    · cases h
  | removeService id =>
    cases h
    refine policy_eq_of_schedule (schedule_removeService _ _) ?_
    rw [(removeService_frame r id).1, State.pendingCap_forgetService]
  | _ =>
    cases h
    rfl

end Reconciler

namespace World

variable [HostText] {config : Config} {trace : List (Step World Action)} {w : World}

theorem Runs.policy (h : Runs config trace w) : w.reconciler.policy = config.policy :=
  h.invariant (fun r => r.policy = config.policy) rfl
    fun _ _ _ _ hr hperform => (Reconciler.perform_policy hperform).trans hr

end World

end SwarmExporter
