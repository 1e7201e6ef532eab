import SwarmExporter.Reconciler.Passes

/-!
# The dirty set

What the operations do to the queued keys and to the flag of the nodes: a key leaves the set only when a
cycle takes it (`mem_takeDueKeys`) or when the whole set is dropped, which raises a resync request.
-/

namespace SwarmExporter

open Lib
open Docker (CallError Event Node Service)

namespace State

/-- Every key queued before is still queued, or the set was dropped for a resync. -/
structure KeepsPending (before after : State) : Prop where
  requested : before.resyncRequested ≤ after.resyncRequested
  kept : (∀ id ∈ before.pendingSet, id ∈ after.pendingSet) ∨
    before.resyncRequested < after.resyncRequested

/-- `id` is queued, or the set was dropped for a resync. -/
def Queues (before after : State) (id : String) : Prop :=
  id ∈ after.pendingSet ∨ before.resyncRequested < after.resyncRequested

namespace KeepsPending

variable {before middle after : State}

theorem of_eq (hpending : after.pendingSet = before.pendingSet)
    (hrequested : after.resyncRequested = before.resyncRequested) : KeepsPending before after := by
  refine ⟨hrequested.ge, .inl fun id hid => ?_⟩
  rwa [hpending]

theorem trans (h : KeepsPending before middle) (h' : KeepsPending middle after) :
    KeepsPending before after := by
  refine ⟨h.requested.trans h'.requested, ?_⟩
  rcases h.kept with hkept | hraised
  · rcases h'.kept with hkept' | hraised'
    · exact .inl fun id hid => hkept' id (hkept id hid)
    · exact .inr (h.requested.trans_lt hraised')
  · exact .inr (hraised.trans_le h'.requested)

end KeepsPending

section

variable (state : State) (id : String) (now : Instant) (timestamp : Timestamp)

theorem requestResync_raises :
    state.resyncRequested < (state.requestResync timestamp).resyncRequested := Nat.lt_succ_self _

theorem requestResync_keepsPending : state.KeepsPending (state.requestResync timestamp) :=
  ⟨(state.requestResync_raises timestamp).le, .inr (state.requestResync_raises timestamp)⟩

theorem overflow_raises : state.resyncRequested < (state.overflow timestamp).resyncRequested :=
  Nat.lt_succ_self _

theorem queueKey_keepsPending (pending : PendingKey) :
    state.KeepsPending (state.queueKey id pending timestamp) ∧
      state.Queues (state.queueKey id pending timestamp) id := by
  unfold queueKey
  split
  · have hraises := state.overflow_raises timestamp
    exact ⟨⟨hraises.le, .inr hraises⟩, .inr hraises⟩
  · refine ⟨⟨le_rfl, .inl fun other hother => ?_⟩, .inl ?_⟩
    · exact Std.ExtTreeMap.mem_insert.2 (.inr hother)
    · exact Std.ExtTreeMap.mem_insert_self

theorem markServiceDirty_keepsPending :
    state.KeepsPending (state.markServiceDirty id now timestamp) ∧
      state.Queues (state.markServiceDirty id now timestamp) id := by
  unfold markServiceDirty
  simp only
  split
  · refine ⟨⟨le_rfl, .inl fun other hother => ?_⟩, .inl ?_⟩
    · exact Std.ExtTreeMap.mem_insert.2 (.inr hother)
    · exact Std.ExtTreeMap.mem_insert_self
  · obtain ⟨hkeeps, hqueues⟩ :=
      (state.bumpServiceGeneration id none).queueKey_keepsPending id timestamp ⟨0, now⟩
    have hbump : state.KeepsPending (state.bumpServiceGeneration id none) := .of_eq rfl rfl
    exact ⟨hbump.trans hkeeps, hqueues⟩

theorem retryService_keepsPending (delays : List Duration) (key : DueKey) :
    state.KeepsPending (state.retryService delays key now timestamp) ∧
      state.Queues (state.retryService delays key now timestamp) key.serviceId := by
  unfold retryService
  split
  · rename_i hpending
    exact ⟨.of_eq rfl rfl, .inl hpending⟩
  · split
    · exact ⟨state.requestResync_keepsPending timestamp, .inr (state.requestResync_raises timestamp)⟩
    · exact state.queueKey_keepsPending _ timestamp _

theorem enqueueEvent_keepsPending (event : Event) :
    state.KeepsPending (state.enqueueEvent event now timestamp) := by
  unfold enqueueEvent
  split
  · exact .of_eq rfl rfl
  · split
    · exact .of_eq rfl rfl
    · split
      · exact (state.markServiceDirty_keepsPending _ now timestamp).1
      · exact .of_eq rfl rfl

end

/-! ## Taking keys -/

/-- A key taken out of the set is among the keys taken. -/
theorem mem_takeKey (now : Instant) (taking : Taking) (key id : String)
    (h : id ∈ taking.pendingSet ∨ ∃ due ∈ taking.taken, due.serviceId = id) :
    id ∈ (takeKey now taking key).pendingSet ∨
      ∃ due ∈ (takeKey now taking key).taken, due.serviceId = id := by
  unfold takeKey
  split
  · split
    · rename_i pending _ _
      rcases h with hpending | ⟨due, hdue, hid⟩
      · by_cases hkey : key = id
        · exact .inr ⟨⟨key, pending.attempts⟩, by simp, hkey⟩
        · refine .inl ?_
          simp only [Std.ExtTreeMap.mem_erase]
          exact ⟨by simpa using hkey, hpending⟩
      · exact .inr ⟨due, List.mem_append_left _ hdue, hid⟩
    · exact h
  · exact h

theorem mem_foldl_takeKey (now : Instant) (keys : List String) (id : String) (taking : Taking)
    (h : id ∈ taking.pendingSet ∨ ∃ due ∈ taking.taken, due.serviceId = id) :
    id ∈ (keys.foldl (takeKey now) taking).pendingSet ∨
      ∃ due ∈ (keys.foldl (takeKey now) taking).taken, due.serviceId = id := by
  induction keys generalizing taking with
  | nil => exact h
  | cons key keys ih =>
    rw [List.foldl_cons]
    exact ih _ (mem_takeKey now taking key id h)

/-- A queued key stays queued or is taken. -/
theorem mem_takeDueKeys (state : State) (now : Instant) {id : String} (h : id ∈ state.pendingSet) :
    id ∈ (state.takeDueKeys now).2.pendingSet ∨
      ∃ key ∈ (state.takeDueKeys now).1, key.serviceId = id := by
  unfold takeDueKeys
  split
  · exact .inl h
  · exact mem_foldl_takeKey now state.pendingOrder id _ (.inl h)

end State

/-! ## Operations -/

namespace Reconciler

variable [HostText] {r r' : Reconciler}

omit [HostText] in
theorem removeService_pending (r : Reconciler) (id : String) :
    (r.removeService id).state.pendingSet = r.state.pendingSet ∧
      (r.removeService id).state.resyncRequested = r.state.resyncRequested := by
  rw [(removeService_frame r id).1]
  unfold State.forgetService
  split <;> exact ⟨rfl, rfl⟩

theorem perform_keepsPending {op : Op} (h : perform r op = some r')
    (htake : ∀ now, op ≠ .takeDueKeys now) : r.state.KeepsPending r'.state := by
  cases op with
  | takeDueKeys now => exact absurd rfl (htake now)
  | enqueueEvent event now timestamp =>
    cases h
    unfold enqueueEvent
    split
    · exact .of_eq rfl rfl
    · exact r.state.enqueueEvent_keepsPending now timestamp event
  | markServiceDirty id now timestamp =>
    cases h
    exact (r.state.markServiceDirty_keepsPending id now timestamp).1
  | requestResync timestamp =>
    cases h
    exact r.state.requestResync_keepsPending timestamp
  | retryService key now timestamp =>
    cases h
    exact (r.state.retryService_keepsPending now timestamp r.retryDelays key).1
  | applyNodes nodes visit =>
    simp only [perform, Option.ite_none_right_eq_some, Option.some.injEq] at h
    obtain ⟨-, rfl⟩ := h
    rw [(withNodes_frame r nodes visit).1]
    exact .of_eq rfl rfl
  | applyService service =>
    simp only [perform] at h
    split at h
    · cases h
      exact .of_eq rfl rfl
    · cases h
  | removeService id =>
    cases h
    exact .of_eq (removeService_pending r id).1 (removeService_pending r id).2
  | _ =>
    cases h
    exact .of_eq rfl rfl

theorem perform_nodesDirty {op : Op} (h : perform r op = some r')
    (hclear : op ≠ .setNodesDirty false) (hdirty : r.state.nodesDirty = true) :
    r'.state.nodesDirty = true := by
  have hqueue : ∀ (state : State) (id : String) (pending : PendingKey) (timestamp : Timestamp),
      (state.queueKey id pending timestamp).nodesDirty = state.nodesDirty := by
    intro state id pending timestamp
    unfold State.queueKey
    split <;> rfl
  have hmark : ∀ (id : String) (now : Instant) (timestamp : Timestamp),
      (r.state.markServiceDirty id now timestamp).nodesDirty = true := by
    intro id now timestamp
    unfold State.markServiceDirty
    simp only
    split
    · exact hdirty
    · exact (hqueue _ _ _ _).trans hdirty
  cases op with
  | setNodesDirty dirty =>
    cases h
    cases dirty with
    | true => rfl
    | false => exact absurd rfl hclear
  | enqueueEvent event now timestamp =>
    cases h
    unfold enqueueEvent
    split
    · exact hdirty
    · show (r.state.enqueueEvent event now timestamp).nodesDirty = true
      unfold State.enqueueEvent
      split
      · exact hdirty
      · split
        · rfl
        · split
          · exact hmark _ _ _
          · exact hdirty
  | markServiceDirty id now timestamp =>
    cases h
    exact hmark id now timestamp
  | takeDueKeys now =>
    cases h
    show (r.state.takeDueKeys now).2.nodesDirty = true
    unfold State.takeDueKeys
    split <;> exact hdirty
  | retryService key now timestamp =>
    cases h
    show (r.state.retryService r.retryDelays key now timestamp).nodesDirty = true
    unfold State.retryService
    split
    · exact hdirty
    · split
      · exact hdirty
      · exact (hqueue _ _ _ _).trans hdirty
  | applyNodes nodes visit =>
    simp only [perform, Option.ite_none_right_eq_some, Option.some.injEq] at h
    obtain ⟨-, rfl⟩ := h
    rw [(withNodes_frame r nodes visit).1]
    exact hdirty
  | applyService service =>
    simp only [perform] at h
    split at h
    · cases h
      exact hdirty
    · cases h
  | removeService id =>
    cases h
    rw [(removeService_frame r id).1]
    unfold State.forgetService
    split <;> exact hdirty
  | _ =>
    cases h
    exact hdirty

/-- One operation, bookkeeping apart: what it does to the state under the lock. -/
theorem Performs.of_essential_singleton {ops : List Op} {op : Op} (h : Performs r ops r')
    (hops : essential ops = [op]) :
    ∃ before after, before.state = r.state ∧ perform before op = some after ∧
      r'.state = after.state := by
  obtain ⟨before, after, book, rest, hbook, hnone, hperform, hrest, hdone⟩ :=
    h.of_essential_cons hops
  obtain ⟨_, _, _, _, _, hbefore⟩ := hbook.bookkept hnone
  obtain ⟨_, _, _, _, _, hafter⟩ := hrest.bookkept hdone
  simp only [perform, Option.some.injEq] at hbefore hafter
  exact ⟨before, after, by rw [← hbefore], hperform, by rw [← hafter]⟩

end Reconciler

end SwarmExporter
