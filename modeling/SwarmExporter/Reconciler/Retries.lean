import SwarmExporter.Reconciler.Fairness

/-!
# The retries of a service

A key whose inspect fails comes back with one failure more and not before the delay of that failure; an
event of the service, or a poll that does not find it, starts it anew; and the failure after the last
delay asks for a resync instead. `KeyMoves` says what a step does to the key of one service, queued or
taken by the cycle. The failures of a service then form chains, each step of them at least a delay apart
(`Follows`), and every mark pays for one chain (`Retried.paid`).
-/

namespace SwarmExporter

open Lib
open Docker (CallError Event Service)

/-- A failed inspect: the failures the key already had, and the instant of the answer. -/
structure Failure where
  attempts : Nat
  instant : Instant
  deriving DecidableEq

/-- After `failures`, a key with `attempts` failures is due at `due`: it is a fresh one, or the last
failure was one less and its delay ends then. -/
def Follows (delays : List Duration) (failures : List Failure) (attempts : Nat) (due : Instant) : Prop :=
  attempts = 0 ∨ ∃ earlier last delay, failures = earlier ++ [last] ∧ attempts = last.attempts + 1 ∧
    delays[last.attempts]? = some delay ∧ due = last.instant + delay

/-- Each failure is that of a fresh key, or of a retry that waited for the delay of the failure before
it. -/
def Spaced (delays : List Duration) (failures : List Failure) : Prop :=
  ∀ before failure after, failures = before ++ failure :: after →
    ∃ due ≤ failure.instant, Follows delays before failure.attempts due

theorem Follows.le {delays : List Duration} {failures : List Failure} {attempts : Nat} {due : Instant}
    (h : Follows delays failures attempts due) : attempts ≤ delays.length := by
  rcases h with rfl | ⟨_, last, delay, -, rfl, hdelay, -⟩
  · exact Nat.zero_le _
  · exact (List.getElem?_eq_some_iff.1 hdelay).1

theorem Spaced.snoc {delays : List Duration} {failures : List Failure} {failure : Failure}
    {due : Instant} (h : Spaced delays failures) (hdue : due ≤ failure.instant)
    (hfollows : Follows delays failures failure.attempts due) :
    Spaced delays (failures ++ [failure]) := by
  intro before other after heq
  rcases List.eq_nil_or_concat after with rfl | ⟨after, last, rfl⟩
  · obtain ⟨rfl, hlast⟩ := List.append_inj' heq rfl
    cases hlast
    exact ⟨due, hdue, hfollows⟩
  · rw [List.concat_eq_append, ← List.cons_append, ← List.append_assoc] at heq
    obtain ⟨rfl, -⟩ := List.append_inj' heq rfl
    exact h before other after rfl

/-- The keys the cycle took and has not inspected. -/
def Phase.keys : Phase → List DueKey
  | .batch keys => keys
  | .inspecting key keys => key :: keys
  | _ => []

/-- The key of `id` among these. -/
def Phase.heldKey (phase : Phase) (id : String) : Option DueKey :=
  phase.keys.find? fun key => key.serviceId == id

/-- The instant the cycle checks against. -/
def Phase.now? : Phase → Option Instant
  | .nodesCheck now => some now
  | .nodesListing now => some now
  | .resyncCheck now => some now
  | .servicesListing pass => some pass.now
  | .resyncNodesListing pass _ => some pass.now
  | .keysCheck now => some now
  | _ => none

/-- Whether the operation marks `id` dirty. -/
def Op.marks (id : String) : Op → Bool
  | .enqueueEvent event _ _ =>
    !event.actor.id.isEmpty && event.kind == State.eventTypeService && event.actor.id == id
  | .markServiceDirty serviceId _ _ => serviceId == id
  | _ => false

namespace State

variable {state : State} {id : String} {now : Instant} {timestamp : Timestamp}

/-- The queued key of `id` is as before, dropped, or, with `marked`, a fresh one. -/
def Refreshes (before after : State) (id : String) (marked : Bool) : Prop :=
  after.pendingSet[id]? = before.pendingSet[id]? ∨ after.pendingSet[id]? = none ∨
    marked = true ∧ ∃ now, after.pendingSet[id]? = some ⟨0, now⟩

theorem queueKey_pending (serviceId : String) (pending : PendingKey) :
    (state.queueKey serviceId pending timestamp).pendingSet[id]? =
        (if id = serviceId then some pending else state.pendingSet[id]?) ∨
      (state.queueKey serviceId pending timestamp).pendingSet[id]? = none := by
  unfold queueKey
  split
  · right
    simp [overflow, pruneServiceGenerations, requestResync]
  · left
    by_cases heq : serviceId = id
    · simp [heq]
    · simp [Std.ExtTreeMap.getElem?_insert, heq, Ne.symm heq]

theorem markServiceDirty_refreshes (serviceId : String) :
    state.Refreshes (state.markServiceDirty serviceId now timestamp) id (serviceId == id) := by
  unfold markServiceDirty
  simp only
  by_cases heq : serviceId = id
  · subst heq
    right
    split
    · exact .inr ⟨by simp, now, by simp⟩
    · rcases @queueKey_pending (state.bumpServiceGeneration serviceId none) serviceId timestamp serviceId
        ⟨0, now⟩ with hqueued | hnone
      · exact .inr ⟨by simp, now, by rw [hqueued, if_pos rfl]⟩
      · exact .inl hnone
  · split
    · left
      simp [Std.ExtTreeMap.getElem?_insert, heq, bumpServiceGeneration]
    · rcases @queueKey_pending (state.bumpServiceGeneration serviceId none) id timestamp serviceId
        ⟨0, now⟩ with hqueued | hnone
      · left
        rw [hqueued, if_neg (Ne.symm heq)]
        rfl
      · exact .inr (.inl hnone)

theorem enqueueEvent_refreshes (event : Event) :
    state.Refreshes (state.enqueueEvent event now timestamp) id
      (Op.marks id (.enqueueEvent event now timestamp)) := by
  unfold enqueueEvent
  split
  · exact .inl rfl
  · rename_i hactor
    split
    · exact .inl rfl
    · split
      · rename_i hkind
        have hmarks : Op.marks id (.enqueueEvent event now timestamp) = (event.actor.id == id) := by
          simp only [Bool.not_eq_true] at hactor
          simp [Op.marks, hactor, hkind]
        rw [hmarks]
        exact markServiceDirty_refreshes event.actor.id
      · exact .inl rfl

/-- What a failed inspect does to a queued key: only the key's own is queued anew, if it is not queued
and a delay is left. -/
theorem retryService_pending (delays : List Duration) (key : DueKey) :
    (state.retryService delays key now timestamp).pendingSet[id]? = state.pendingSet[id]? ∨
      (state.retryService delays key now timestamp).pendingSet[id]? = none ∨
      key.serviceId = id ∧ state.pendingSet[id]? = none ∧ ∃ delay,
        delays[key.attempts]? = some delay ∧
        (state.retryService delays key now timestamp).pendingSet[id]? =
          some ⟨key.attempts + 1, now + delay⟩ := by
  unfold retryService
  split
  · exact .inl rfl
  · rename_i hqueued
    split
    · exact .inl rfl
    · rename_i delay hdelay
      rcases @queueKey_pending state id timestamp key.serviceId ⟨key.attempts + 1, now + delay⟩ with
        hnext | hnone
      · by_cases heq : id = key.serviceId
        · subst heq
          rw [if_pos rfl] at hnext
          exact .inr (.inr ⟨rfl, notMem_iff_getElem?.1 hqueued, delay, hdelay, hnext⟩)
        · rw [if_neg heq] at hnext
          exact .inl hnext
      · exact .inr (.inl hnone)

theorem nodup_taken (henum : Enumerates state.pendingOrder state.pendingSet)
    (now : Instant) : ((state.takeDueKeys now).1.map (·.serviceId)).Nodup := by
  by_cases hcompleted : state.resyncCompleted = 0
  · rw [takeDueKeys, if_pos (.inl hcompleted)]
    exact List.nodup_nil
  · obtain ⟨_, htaken, -⟩ := takeDueKeys_spec henum hcompleted now
    have hids : (List.map (dueKey state.pendingSet) (state.dueBatch now)).map (·.serviceId) =
        state.dueBatch now := by
      rw [List.map_map]
      exact List.map_id _
    rw [htaken]
    show (List.map (·.serviceId) (List.map (dueKey state.pendingSet) (state.dueBatch now))).Nodup
    rw [hids]
    exact (henum.1.filter _).sublist (List.take_sublist _ _)

end State

namespace Reconciler

open State (Refreshes)

variable [HostText] {r r' : Reconciler} {ops : List Op} {id : String}

theorem perform_refreshes {op : Op} (h : perform r op = some r')
    (htake : ∀ now, op ≠ .takeDueKeys now)
    (hretry : ∀ key now timestamp, op ≠ .retryService key now timestamp) :
    r.state.Refreshes r'.state id (op.marks id) := by
  cases op with
  | takeDueKeys now => exact absurd rfl (htake now)
  | retryService key now timestamp => exact absurd rfl (hretry key now timestamp)
  | enqueueEvent event now timestamp =>
    cases h
    unfold enqueueEvent
    split
    · exact .inl rfl
    · exact State.enqueueEvent_refreshes event
  | markServiceDirty serviceId now timestamp =>
    cases h
    exact State.markServiceDirty_refreshes serviceId
  | applyNodes nodes visit =>
    simp only [perform, Option.ite_none_right_eq_some, Option.some.injEq] at h
    obtain ⟨-, rfl⟩ := h
    left
    rw [(withNodes_frame r nodes visit).1]
  | applyService service =>
    obtain ⟨metadata, -, rfl⟩ := perform_applyService h
    exact .inl rfl
  | removeService serviceId =>
    cases h
    left
    rw [(removeService_frame r serviceId).1]
    unfold State.forgetService
    split <;> rfl
  | _ =>
    cases h
    exact .inl rfl

/-- The same over the operations of a step, of which some may mark `id`. -/
theorem performs_refreshes {marked : Bool} (h : Performs r ops r')
    (hops : ∀ op ∈ essential ops, (∀ now, op ≠ .takeDueKeys now) ∧
      (∀ key now timestamp, op ≠ .retryService key now timestamp) ∧
      (op.marks id = true → marked = true)) :
    r.state.Refreshes r'.state id marked := by
  refine h.induct (fun current => r.state.Refreshes current.state id marked) (.inl rfl) ?_
  intro op hop current next hcurrent hperform
  obtain ⟨htake, hretry, hmarks⟩ := forall_of_essential
    (P := fun op => (∀ now, op ≠ .takeDueKeys now) ∧
      (∀ key now timestamp, op ≠ .retryService key now timestamp) ∧
      (op.marks id = true → marked = true))
    (fun op hbook => by cases op <;> simp_all [Op.marks]) hops op hop
  rcases perform_refreshes hperform htake hretry with hsame | hnone | ⟨hmarked, now, hfresh⟩
  · unfold Refreshes
    rw [hsame]
    exact hcurrent
  · exact .inr (.inl hnone)
  · exact .inr (.inr ⟨hmarks hmarked, now, hfresh⟩)

end Reconciler

namespace World

open Reconciler (Performs perform)

variable [HostText] {config : Config} {trace : List (Step World Action)} {w w' : World}
  {action : Action} {id : String}

/-- Whether the step marks `id` dirty: an event of it, or a poll that counted it and finds it no longer
cached. -/
def marks (w : World) (id : String) : Action → Bool
  | .enqueueEvent event now timestamp => Op.marks id (.enqueueEvent event now timestamp)
  | .applyPollCounts snapshot _ _ _ =>
    decide (id ∈ snapshot.serviceIds.filter (w.reconciler.drops snapshot))
  | _ => false

/-- The failure of `id` the step is. -/
def failure? (w : World) (id : String) : Action → Option Failure
  | .inspected (.error error) _ =>
    match w.phase with
    | .inspecting key _ =>
      if key.serviceId == id && !error.source.isNotFound then some ⟨key.attempts, w.instant⟩ else none
    | _ => none
  | _ => none

/-! ## The key of one service -/

/-- The keys in hand are of different services, and the cycle's instant was read before. -/
structure InHand (w : World) : Prop where
  distinct : (w.phase.keys.map (·.serviceId)).Nodup
  now : ∀ now, w.phase.now? = some now → now ≤ w.instant

theorem step_inHand (hdirty : w.reconciler.DirtyInv) (h : w.step action = some w')
    (hinv : w.InHand) : w'.InHand := by
  have hinstant := (step_advances h).instant
  by_cases hcycle : action.isCycle = true
  · have hmoves := step_moves h hcycle
    obtain ⟨hdistinct, hnow⟩ := hinv
    generalize hpre : w.phase = phase at hmoves hdistinct hnow
    generalize hpost : w'.phase = phase' at hmoves
    have hlater : ∀ now, phase.now? = some now → now ≤ w'.instant :=
      fun now hread => (hnow now hread).trans hinstant
    cases hmoves with
    | begins =>
      constructor
      · simp [hpost, Phase.keys]
      · rw [hpost]
        rintro now ⟨⟩
        exact hinstant
    | takes =>
      rename_i now keys
      simp only [step, cycleStep, hpre] at h
      cases h
      simp only [Phase.batch.injEq] at hpost
      subst hpost
      refine ⟨State.nodup_taken hdirty.pending.same now, ?_⟩
      rintro now ⟨⟩
    | inspects =>
      refine ⟨by rw [hpost]; exact hdistinct, ?_⟩
      rw [hpost]
      rintro now ⟨⟩
    | answers =>
      refine ⟨by rw [hpost]; exact hdistinct.tail, ?_⟩
      rw [hpost]
      rintro now ⟨⟩
    | finishes =>
      refine ⟨by simp [hpost, Phase.keys], ?_⟩
      rw [hpost]
      rintro now ⟨⟩
    | ends hpass =>
      refine ⟨by simp [hpost, Phase.keys], ?_⟩
      rw [hpost]
      rintro now ⟨⟩
      cases phase <;> cases hpass
      · exact hlater _ rfl
      · exact hlater _ rfl
    | _ =>
      refine ⟨by simp [hpost, Phase.keys], ?_⟩
      rw [hpost]
      rintro now ⟨⟩
      exact hlater _ rfl
  · have hphase := step_phase h (by simpa using hcycle)
    refine ⟨by rw [hphase]; exact hinv.distinct, fun now hread => ?_⟩
    rw [hphase] at hread
    exact (hinv.now now hread).trans hinstant

theorem Runs.inHand (h : Runs config trace w) : w.InHand := by
  refine Run.history (fun _ w => w.InHand) ⟨List.nodup_nil, fun now hread => by cases hread⟩ ?_ h
  intro trace w action w' hrun hinv hstep
  exact step_inHand (Runs.dirtyInv hrun) hstep hinv

/-- What a step does to the key of `id`: the one queued and the one the cycle has in hand. -/
inductive KeyMoves (w w' : World) (action : Action) (id : String) : Prop
  | keeps
      (hpending : w.reconciler.state.Refreshes w'.reconciler.state id (w.marks id action))
      (hheld : w'.phase.heldKey id = w.phase.heldKey id ∨ w'.phase.heldKey id = none)
      (hfailure : w.failure? id action = none)
  | takes {pending : PendingKey} (hpending : w.reconciler.state.pendingSet[id]? = some pending)
      (hdue : pending.notBefore ≤ w.instant) (hgone : w'.reconciler.state.pendingSet[id]? = none)
      (hfree : w.phase.heldKey id = none) (hheld : w'.phase.heldKey id = some ⟨id, pending.attempts⟩)
      (hfailure : w.failure? id action = none)
  | fails {key : DueKey} (hheld : w.phase.heldKey id = some key) (hdone : w'.phase.heldKey id = none)
      (hfailure : w.failure? id action = some ⟨key.attempts, w.instant⟩)
      (hpending : w'.reconciler.state.pendingSet[id]? = w.reconciler.state.pendingSet[id]? ∨
        w'.reconciler.state.pendingSet[id]? = none ∨
        w.reconciler.state.pendingSet[id]? = none ∧ ∃ delay,
          w.reconciler.retryDelays[key.attempts]? = some delay ∧
          w'.reconciler.state.pendingSet[id]? = some ⟨key.attempts + 1, w.instant + delay⟩)
      (hqueues : w.reconciler.state.Queues w'.reconciler.state id)

theorem refreshes_of_ops {ops : List Op} {marked : Bool} (h : Performs w.reconciler ops w'.reconciler)
    (hops : ∀ op ∈ essential ops, op.queues = false) :
    w.reconciler.state.Refreshes w'.reconciler.state id marked := by
  refine Reconciler.performs_refreshes h fun op hop => ?_
  have hkind := hops op hop
  cases op with
  | enqueueEvent => cases hkind
  | markServiceDirty => cases hkind
  | takeDueKeys => cases hkind
  | retryService => cases hkind
  | _ => exact ⟨by simp, by simp, by simp [Op.marks]⟩

theorem refreshes_of_nil {ops : List Op} {marked : Bool} (h : Performs w.reconciler ops w'.reconciler)
    (hops : essential ops = []) : w.reconciler.state.Refreshes w'.reconciler.state id marked :=
  refreshes_of_ops h fun op hop => by simp [hops] at hop

theorem refreshes_of_singleton {ops : List Op} {op : Op} {marked : Bool}
    (h : Performs w.reconciler ops w'.reconciler) (hops : essential ops = [op])
    (hop : op.queues = false) : w.reconciler.state.Refreshes w'.reconciler.state id marked :=
  refreshes_of_ops h fun other hother => by
    rw [hops, List.mem_singleton] at hother
    rw [hother, hop]

/-- Apart from the call that takes keys and a failed inspect, a step leaves a queued key, drops it or
marks it. -/
theorem step_refreshes (wired : w.reconciler.Wired) (h : w.step action = some w')
    (htake : action ≠ .takeDueKeys)
    (hfail : ∀ error timestamp, action = .inspected (.error error) timestamp →
      error.source.isNotFound = true) :
    w.reconciler.state.Refreshes w'.reconciler.state id (w.marks id action) := by
  obtain ⟨ops, hperforms, hmakes⟩ := step_ops wired h
  cases action with
  | takeDueKeys => exact absurd rfl htake
  | enqueueEvent event now timestamp =>
    refine Reconciler.performs_refreshes hperforms fun op hop => ?_
    rw [hmakes, List.mem_singleton] at hop
    subst hop
    exact ⟨by simp, by simp, fun hmarks => hmarks⟩
  | applyPollCounts snapshot counters timestamp visit =>
    obtain ⟨published, hops, hpublished⟩ := hmakes
    refine Reconciler.performs_refreshes hperforms fun op hop => ?_
    rw [hops] at hop
    rcases List.mem_append.1 hop with hmark | hpublish
    · obtain ⟨serviceId, hdropped, rfl⟩ := List.mem_map.1 hmark
      refine ⟨by simp, by simp, fun hmarks => ?_⟩
      obtain rfl : serviceId = id := by simpa [Op.marks] using hmarks
      exact decide_eq_true hdropped
    · obtain ⟨_, _, _, rfl⟩ := hpublished op hpublish
      exact ⟨by simp, by simp, by simp [Op.marks]⟩
  | inspected result timestamp =>
    cases result with
    | ok service =>
      rcases hmakes with hops | hops
      · exact refreshes_of_singleton hperforms hops rfl
      · exact refreshes_of_singleton hperforms hops rfl
    | error error =>
      obtain ⟨key, keys, hphase, hops⟩ := hmakes
      rw [hfail error timestamp rfl, if_pos rfl] at hops
      exact refreshes_of_singleton hperforms hops rfl
  | nodesListed listed visit timestamp =>
    cases listed with
    | ok nodes => exact refreshes_of_singleton hperforms hmakes rfl
    | error error => exact refreshes_of_singleton hperforms hmakes rfl
  | resyncNodesListed listed visit ids fault timestamp =>
    cases listed with
    | error error => exact refreshes_of_nil hperforms hmakes
    | ok nodes =>
      refine refreshes_of_ops hperforms fun op hop => ?_
      obtain ⟨pass, services, -, ⟨-, hops⟩ | ⟨done, hdone, hops⟩⟩ := hmakes
      · rcases List.mem_append.1 (hops ▸ hop) with hlisted | hlast
        · exact Op.queues_of_isPlain (isPlain_of_mem_resyncOps hlisted)
        · obtain rfl := List.mem_singleton.1 hlast
          rfl
      · rcases List.mem_append.1 (hops ▸ hop) with hlisted | hlast
        · exact Op.queues_of_isPlain (isPlain_of_mem_resyncOps (hdone.subset hlisted))
        · obtain rfl := List.mem_singleton.1 hlast
          rfl
  | beginCycle timestamp =>
    rcases hmakes with hops | hops
    · exact refreshes_of_nil hperforms hops
    · exact refreshes_of_singleton hperforms hops rfl
  | checkNodes =>
    rcases hmakes with hops | hops
    · exact refreshes_of_nil hperforms hops
    · exact refreshes_of_singleton hperforms hops rfl
  | requestResync timestamp => exact refreshes_of_singleton hperforms hmakes rfl
  | markPollOk snapshot timestamp => exact refreshes_of_singleton hperforms hmakes rfl
  | stepPanics timestamp => exact refreshes_of_singleton hperforms hmakes rfl
  | _ => exact refreshes_of_nil hperforms hmakes

omit [HostText] in
theorem heldKey_batch {key : DueKey} {keys : List DueKey}
    (hnodup : ((key :: keys).map (·.serviceId)).Nodup) :
    (Phase.batch keys).heldKey id =
      if key.serviceId = id then none else (Phase.inspecting key keys).heldKey id := by
  unfold Phase.heldKey
  simp only [Phase.keys]
  split
  · rename_i heq
    subst heq
    rw [List.find?_eq_none]
    intro other hother hsame
    rw [List.map_cons, List.nodup_cons] at hnodup
    exact hnodup.1 (List.mem_map.2 ⟨other, hother, by simpa using hsame⟩)
  · rename_i heq
    rw [List.find?_cons_of_neg (by simpa using heq)]

/-- Only the call that takes keys puts one in hand. -/
theorem step_heldKey (hinv : w.InHand) (h : w.step action = some w') (htake : action ≠ .takeDueKeys) :
    w'.phase.heldKey id = w.phase.heldKey id ∨ w'.phase.heldKey id = none := by
  by_cases hcycle : action.isCycle = true
  · have hmoves := step_moves h hcycle
    have hdistinct := hinv.distinct
    generalize w.phase = phase at hmoves hdistinct
    generalize w'.phase = phase' at hmoves
    cases hmoves with
    | takes => exact absurd rfl htake
    | inspects => exact .inl rfl
    | answers =>
      rw [heldKey_batch hdistinct]
      split
      · exact .inr rfl
      · exact .inl rfl
    | _ => exact .inr rfl
  · rw [step_phase h (by simpa using hcycle)]
    exact .inl rfl

theorem takeDueKeys_keyMoves {now : Instant} (hdirty : w.reconciler.DirtyInv) (hinv : w.InHand)
    (hphase : w.phase = .keysCheck now) (h : w.step .takeDueKeys = some w') :
    KeyMoves w w' .takeDueKeys id := by
  simp only [step, cycleStep, hphase, Option.some.injEq] at h
  subst h
  have hfree : w.phase.heldKey id = none := by
    rw [hphase]
    rfl
  by_cases hcompleted : w.reconciler.state.resyncCompleted = 0
  · have htaken : w.reconciler.state.takeDueKeys now = ([], w.reconciler.state) := by
      rw [State.takeDueKeys, if_pos (.inl hcompleted)]
    refine .keeps (.inl ?_) (.inr ?_) rfl
    · show (w.reconciler.state.takeDueKeys now).2.pendingSet[id]? = _
      rw [htaken]
    · show (w.reconciler.state.takeDueKeys now).1.find? (fun key => key.serviceId == id) = none
      rw [htaken]
      rfl
  · obtain ⟨pendingSet, htaken, hget⟩ :=
      State.takeDueKeys_spec hdirty.pending.same hcompleted now
    have hnodup := State.nodup_taken hdirty.pending.same now
    by_cases hbatch : id ∈ w.reconciler.state.dueBatch now
    · obtain ⟨-, hdue⟩ := State.mem_of_mem_firstDue hbatch
      obtain ⟨pending, hpending, hdue⟩ := (Option.any_eq_true ..).1 hdue
      have hkey : State.dueKey w.reconciler.state.pendingSet id = ⟨id, pending.attempts⟩ := by
        simp [State.dueKey, hpending]
      have hmem : (⟨id, pending.attempts⟩ : DueKey) ∈ (w.reconciler.state.takeDueKeys now).1 := by
        rw [htaken, ← hkey]
        exact List.mem_map_of_mem hbatch
      refine .takes hpending ((of_decide_eq_true hdue).trans (hinv.now now (by rw [hphase]; rfl)))
        ?_ hfree ?_ rfl
      · show (w.reconciler.state.takeDueKeys now).2.pendingSet[id]? = none
        rw [htaken]
        simp [hget, hbatch]
      · show (w.reconciler.state.takeDueKeys now).1.find? (fun key => key.serviceId == id) = _
        cases hfind : (w.reconciler.state.takeDueKeys now).1.find? (fun key => key.serviceId == id) with
        | none => exact absurd (beq_self_eq_true id) (List.find?_eq_none.1 hfind _ hmem)
        | some other =>
          have hsame : other.serviceId = id := by simpa using List.find?_some hfind
          exact congrArg some
            (List.inj_on_of_nodup_map hnodup (List.mem_of_find?_eq_some hfind) hmem hsame)
    · refine .keeps (.inl ?_) (.inr ?_) rfl
      · show (w.reconciler.state.takeDueKeys now).2.pendingSet[id]? = _
        rw [htaken]
        simp [hget, hbatch]
      · show (w.reconciler.state.takeDueKeys now).1.find? (fun key => key.serviceId == id) = none
        rw [htaken, List.find?_eq_none]
        intro key hkey hsame
        obtain ⟨other, hother, rfl⟩ := List.mem_map.1 hkey
        obtain rfl : other = id := by simpa [State.dueKey] using hsame
        exact hbatch hother

theorem inspected_keyMoves {error : CallError} {timestamp : Timestamp} (wired : w.reconciler.Wired)
    (hinv : w.InHand) (hfound : error.source.isNotFound = false)
    (h : w.step (.inspected (.error error) timestamp) = some w') :
    KeyMoves w w' (.inspected (.error error) timestamp) id := by
  obtain ⟨key, keys, hpre, hpost⟩ : ∃ key keys, w.phase = .inspecting key keys ∧
      w'.phase = .batch keys := by
    simp only [step, cycleStep] at h
    split at h
    · rename_i key keys hphase
      simp only [Option.ite_none_right_eq_some, Option.some.injEq] at h
      obtain ⟨-, rfl⟩ := h
      exact ⟨key, keys, hphase, rfl⟩
    · cases h
  have hretry : w'.reconciler = w.reconciler.modifyState
      (·.retryService w.reconciler.retryDelays key w.instant timestamp) := by
    obtain ⟨_, _, hresult, -⟩ | ⟨_, _, hresult, -⟩ | ⟨_, hresult, hmissing, -⟩ |
      ⟨_, -, -, hreconciler⟩ := inspected_cases wired hpre h
    · cases hresult
    · cases hresult
    · cases hresult
      rw [hfound] at hmissing
      cases hmissing
    · exact hreconciler
  have hpending := @State.retryService_pending w.reconciler.state id w.instant timestamp
    w.reconciler.retryDelays key
  have hstate : w'.reconciler.state = w.reconciler.state.retryService w.reconciler.retryDelays key
      w.instant timestamp := by
    rw [hretry]
    rfl
  rw [← hstate] at hpending
  by_cases heq : key.serviceId = id
  · have hqueues := (w.reconciler.state.retryService_keepsPending w.instant timestamp
      w.reconciler.retryDelays key).2
    rw [← hstate, heq] at hqueues
    have hheld : w.phase.heldKey id = some key := by simp [hpre, Phase.heldKey, Phase.keys, heq]
    refine .fails hheld ?_ ?_ ?_ hqueues
    · have hdistinct := hinv.distinct
      rw [hpre] at hdistinct
      rw [hpost, heldKey_batch hdistinct, if_pos heq]
    · simp [failure?, hpre, heq, hfound]
    · rcases hpending with hsame | hnone | ⟨-, hqueue⟩
      · exact .inl hsame
      · exact .inr (.inl hnone)
      · exact .inr (.inr hqueue)
  · refine .keeps ?_ (step_heldKey hinv h (by simp)) ?_
    · rcases hpending with hsame | hnone | ⟨hkey, -⟩
      · exact .inl hsame
      · exact .inr (.inl hnone)
      · exact absurd hkey heq
    · simp [failure?, hpre, heq]

/-- **Every step makes one of these moves.** -/
theorem step_keyMoves (wired : w.reconciler.Wired) (hdirty : w.reconciler.DirtyInv) (hinv : w.InHand)
    (h : w.step action = some w') : KeyMoves w w' action id := by
  by_cases htake : action = .takeDueKeys
  · subst htake
    have hstep := h
    simp only [step, cycleStep] at h
    split at h
    · rename_i now hphase
      exact takeDueKeys_keyMoves hdirty hinv hphase hstep
    · cases h
  · by_cases hfail : ∀ error timestamp, action = .inspected (.error error) timestamp →
        error.source.isNotFound = true
    · refine .keeps (step_refreshes wired h htake hfail) (step_heldKey hinv h htake) ?_
      unfold failure?
      split
      · rename_i error timestamp
        split
        · simp [hfail error timestamp rfl]
        · rfl
      · rfl
    · push Not at hfail
      obtain ⟨error, timestamp, rfl, hfound⟩ := hfail
      exact inspected_keyMoves wired hinv (by simpa using hfound) h

/-! ## The failures of a run -/

/-- The failed inspects of `id`, in order. -/
def failures (id : String) (trace : List (Step World Action)) : List Failure :=
  trace.filterMap fun st => st.pre.failure? id st.act

/-- How often `id` was marked dirty. -/
def marked (id : String) (trace : List (Step World Action)) : Nat :=
  trace.countP fun st => st.pre.marks id st.act

/-- The inspects a key may still fail, if there is one. -/
def inspectsLeft (delays : List Duration) (attempts : Option Nat) : Nat :=
  (attempts.map (delays.length + 1 - ·)).getD 0

structure Retried (delays : List Duration) (id : String) (trace : List (Step World Action)) (w : World) :
    Prop where
  spaced : Spaced delays (failures id trace)
  pending : ∀ pending : PendingKey, w.reconciler.state.pendingSet[id]? = some pending →
    Follows delays (failures id trace) pending.attempts pending.notBefore
  held : ∀ key, w.phase.heldKey id = some key →
    ∃ due ≤ w.instant, Follows delays (failures id trace) key.attempts due
  /-- A key queued while another is in hand is a fresh one. -/
  fresh : w.phase.heldKey id ≠ none → ∀ pending : PendingKey,
    w.reconciler.state.pendingSet[id]? = some pending → pending.attempts = 0
  /-- Every mark pays for as many failures as a key can have. -/
  paid : (failures id trace).length +
      inspectsLeft delays (w.reconciler.state.pendingSet[id]?.map (·.attempts)) +
      inspectsLeft delays ((w.phase.heldKey id).map (·.attempts)) ≤
    (delays.length + 1) * marked id trace

omit [HostText] in
theorem failures_snoc (st : Step World Action) :
    failures id (trace ++ [st]) = failures id trace ++ (st.pre.failure? id st.act).toList := by
  unfold failures
  rw [List.filterMap_append]
  cases hfailure : st.pre.failure? id st.act <;> simp [hfailure]

omit [HostText] in
theorem marked_snoc (st : Step World Action) :
    marked id (trace ++ [st]) = marked id trace + (st.pre.marks id st.act).toNat := by
  unfold marked
  rw [List.countP_append]
  cases hmarks : st.pre.marks id st.act <;> simp [hmarks]

omit [HostText] in
theorem Retried.keep {delays : List Duration} (h : Retried delays id trace w)
    (hinstant : w.instant ≤ w'.instant)
    (hpending : w.reconciler.state.Refreshes w'.reconciler.state id (w.marks id action))
    (hheld : w'.phase.heldKey id = w.phase.heldKey id ∨ w'.phase.heldKey id = none)
    (hfailure : w.failure? id action = none) : Retried delays id (trace ++ [⟨w, action, w'⟩]) w' := by
  have hpaid := h.paid
  have hfailures : failures id (trace ++ [⟨w, action, w'⟩]) = failures id trace := by
    rw [failures_snoc, hfailure]
    exact List.append_nil _
  have hheldLeft : inspectsLeft delays ((w'.phase.heldKey id).map (·.attempts)) ≤
      inspectsLeft delays ((w.phase.heldKey id).map (·.attempts)) := by
    rcases hheld with hsame | hnone
    · rw [hsame]
    · rw [hnone]
      exact Nat.zero_le _
  refine ⟨by rw [hfailures]; exact h.spaced, ?_, ?_, ?_, ?_⟩
  · intro pending hqueued
    rw [hfailures]
    rcases hpending with hsame | hnone | ⟨-, now, hfresh⟩
    · exact h.pending pending (hsame ▸ hqueued)
    · rw [hnone] at hqueued
      cases hqueued
    · rw [hfresh] at hqueued
      cases hqueued
      exact .inl rfl
  · intro key hkey
    rw [hfailures]
    rcases hheld with hsame | hnone
    · obtain ⟨due, hdue, hfollows⟩ := h.held key (hsame ▸ hkey)
      exact ⟨due, hdue.trans hinstant, hfollows⟩
    · rw [hnone] at hkey
      cases hkey
  · intro hinHand pending hqueued
    rcases hheld with hsame | hnone
    · rcases hpending with hkept | hgone | ⟨-, now, hfresh⟩
      · exact h.fresh (hsame ▸ hinHand) pending (hkept ▸ hqueued)
      · rw [hgone] at hqueued
        cases hqueued
      · rw [hfresh] at hqueued
        cases hqueued
        rfl
    · exact absurd hnone hinHand
  · rw [hfailures, marked_snoc, Nat.mul_add]
    rcases hpending with hsame | hnone | ⟨hmarked, now, hfresh⟩
    · rw [hsame]
      omega
    · rw [hnone]
      simp only [inspectsLeft, Option.map_none, Option.getD_none] at *
      omega
    · rw [hfresh]
      have hone : (w.marks id action).toNat = 1 := by rw [hmarked]; rfl
      simp only [hone, inspectsLeft, Option.map_some, Option.getD_some] at *
      omega

omit [HostText] in
theorem Retried.take {delays : List Duration} {pending : PendingKey} (h : Retried delays id trace w)
    (hinstant : w.instant ≤ w'.instant)
    (hpending : w.reconciler.state.pendingSet[id]? = some pending)
    (hdue : pending.notBefore ≤ w.instant) (hgone : w'.reconciler.state.pendingSet[id]? = none)
    (hfree : w.phase.heldKey id = none) (hheld : w'.phase.heldKey id = some ⟨id, pending.attempts⟩)
    (hfailure : w.failure? id action = none) : Retried delays id (trace ++ [⟨w, action, w'⟩]) w' := by
  have hfailures : failures id (trace ++ [⟨w, action, w'⟩]) = failures id trace := by
    rw [failures_snoc, hfailure]
    exact List.append_nil _
  refine ⟨by rw [hfailures]; exact h.spaced, ?_, ?_, ?_, ?_⟩
  · intro other hqueued
    rw [hgone] at hqueued
    cases hqueued
  · intro key hkey
    rw [hheld] at hkey
    cases hkey
    rw [hfailures]
    exact ⟨pending.notBefore, hdue.trans hinstant, h.pending pending hpending⟩
  · intro _ other hqueued
    rw [hgone] at hqueued
    cases hqueued
  · have hpaid := h.paid
    rw [hpending, hfree] at hpaid
    rw [hfailures, marked_snoc, Nat.mul_add, hgone, hheld]
    simp only [inspectsLeft, Option.map_some, Option.map_none, Option.getD_some,
      Option.getD_none] at *
    omega

omit [HostText] in
theorem Retried.fail {delays : List Duration} {key : DueKey} (h : Retried delays id trace w)
    (hheld : w.phase.heldKey id = some key) (hdone : w'.phase.heldKey id = none)
    (hfailure : w.failure? id action = some ⟨key.attempts, w.instant⟩)
    (hpending : w'.reconciler.state.pendingSet[id]? = w.reconciler.state.pendingSet[id]? ∨
      w'.reconciler.state.pendingSet[id]? = none ∨
      w.reconciler.state.pendingSet[id]? = none ∧ ∃ delay, delays[key.attempts]? = some delay ∧
        w'.reconciler.state.pendingSet[id]? = some ⟨key.attempts + 1, w.instant + delay⟩) :
    Retried delays id (trace ++ [⟨w, action, w'⟩]) w' := by
  have hfailures : failures id (trace ++ [⟨w, action, w'⟩]) =
      failures id trace ++ [⟨key.attempts, w.instant⟩] := by
    rw [failures_snoc, hfailure]
    rfl
  obtain ⟨due, hdue, hfollows⟩ := h.held key hheld
  have hfresh := h.fresh (by simp [hheld])
  refine ⟨?_, ?_, ?_, ?_, ?_⟩
  · rw [hfailures]
    exact h.spaced.snoc hdue hfollows
  · intro pending hqueued
    rcases hpending with hsame | hnone | ⟨-, delay, hdelay, hnext⟩
    · exact .inl (hfresh pending (hsame ▸ hqueued))
    · rw [hnone] at hqueued
      cases hqueued
    · rw [hnext] at hqueued
      cases hqueued
      exact .inr ⟨_, _, delay, hfailures, rfl, hdelay, rfl⟩
  · intro other hother
    rw [hdone] at hother
    cases hother
  · intro hinHand
    exact absurd hdone hinHand
  · have hpaid := h.paid
    have hle := hfollows.le
    rw [hheld] at hpaid
    rw [hfailures, marked_snoc, Nat.mul_add, hdone, List.length_append]
    rcases hpending with hsame | hnone | ⟨hfree, delay, -, hnext⟩
    · rw [hsame]
      simp only [inspectsLeft, Option.map_some, Option.map_none, Option.getD_some, Option.getD_none,
        List.length_singleton] at *
      omega
    · rw [hnone]
      simp only [inspectsLeft, Option.map_some, Option.map_none, Option.getD_some, Option.getD_none,
        List.length_singleton] at *
      omega
    · rw [hfree] at hpaid
      rw [hnext]
      simp only [inspectsLeft, Option.map_some, Option.map_none, Option.getD_some, Option.getD_none,
        List.length_singleton] at *
      omega

theorem Runs.retried (h : Runs config trace w) (id : String) :
    Retried config.policy.retryDelays id trace w := by
  refine Run.history (Retried config.policy.retryDelays id) ?_ ?_ h
  · refine ⟨?_, ?_, ?_, ?_, ?_⟩
    · intro before failure after hnil
      cases before <;> cases hnil
    · intro pending hnone
      simp [init, Reconciler.withPolicy, State.new] at hnone
    · intro key hnone
      cases hnone
    · intro hnone
      exact absurd rfl hnone
    · simp [failures, marked, inspectsLeft, init, Reconciler.withPolicy, State.new, Phase.heldKey,
        Phase.keys]
  · intro trace w action w' hrun hretried hstep
    have hdelays : w.reconciler.retryDelays = config.policy.retryDelays :=
      congrArg ReconcilerPolicy.retryDelays (Runs.policy hrun)
    have hinstant := (step_advances hstep).instant
    cases @step_keyMoves _ _ _ _ id (Runs.wired hrun) (Runs.dirtyInv hrun) (Runs.inHand hrun) hstep with
    | keeps hpending hheld hfailure => exact hretried.keep hinstant hpending hheld hfailure
    | takes hpending hdue hgone hfree hheld hfailure =>
      exact hretried.take hinstant hpending hdue hgone hfree hheld hfailure
    | fails hheld hdone hfailure hpending _ =>
      rw [hdelays] at hpending
      exact hretried.fail hheld hdone hfailure hpending

/-- **Retries are spaced, bounded and never the end.** In every run, each failed inspect of a service is
that of a fresh key or comes after the delay of the failure before it, which had one attempt less; a queued
key is due when that delay ends; a service fails at most one inspect more than there are delays for each
time it was marked; and each failure leaves it queued or asked for a resync. -/
theorem retries_spaced (h : Runs config trace w) (id : String) :
    Spaced config.policy.retryDelays (failures id trace) ∧
    (∀ pending : PendingKey, w.reconciler.state.pendingSet[id]? = some pending →
      Follows config.policy.retryDelays (failures id trace) pending.attempts pending.notBefore) ∧
    (failures id trace).length ≤ (config.policy.retryDelays.length + 1) * marked id trace ∧
    ∀ st ∈ trace, st.pre.failure? id st.act ≠ none →
      st.pre.reconciler.state.Queues st.post.reconciler.state id := by
  have hretried := h.retried id
  refine ⟨hretried.spaced, hretried.pending, ?_, ?_⟩
  · have hpaid := hretried.paid
    omega
  · intro st hst hfailure
    obtain ⟨before, after, rfl⟩ := List.append_of_mem hst
    obtain ⟨hbefore, hstep, -⟩ := Run.of_mid h
    cases @step_keyMoves _ _ _ _ id (Runs.wired hbefore) (Runs.dirtyInv hbefore) (Runs.inHand hbefore)
      hstep with
    | keeps _ _ hnone => exact absurd hnone hfailure
    | takes _ _ _ _ _ hnone => exact absurd hnone hfailure
    | fails _ _ _ _ hqueues => exact hqueues

end World

open Sample in
/-- A service whose inspect fails twice is due a second after the second failure, which came half a second
after the first. -/
theorem World.retries_spaced_sample : ∃ trace w, Runs config trace w ∧
    failures "web" trace = [⟨0, 0⟩, ⟨1, Duration.fromMillis 500⟩] ∧ marked "web" trace = 1 ∧
    Spaced config.policy.retryDelays (failures "web" trace) ∧
    Follows config.policy.retryDelays (failures "web" trace) 2 (Duration.fromMillis 1500) := by
  have hreplay : (replay World.step (init config)
      (resyncCycle [replicated "web" "web" 2] [] ["web"] ++
        .enqueueEvent (changed "web") 0 1000 :: inspectCycle (.error timedOut) ++
        .tick 1000 (Duration.fromMillis 500) :: inspectCycle (.error timedOut))).any
      (fun result => decide (failures "web" result.1 = [⟨0, 0⟩, ⟨1, Duration.fromMillis 500⟩] ∧
        marked "web" result.1 = 1 ∧ result.2.reconciler.state.pendingSet["web"]? =
          some ⟨2, Duration.fromMillis 1500⟩)) = true := by
    decide +kernel
  obtain ⟨trace, w, hrun, -, hcheck⟩ := exists_run_of_replay hreplay
  obtain ⟨hfailures, hmarked, hpending⟩ := of_decide_eq_true hcheck
  obtain ⟨hspaced, hfollows, -⟩ := retries_spaced hrun "web"
  exact ⟨trace, w, hrun, hfailures, hmarked, hspaced, hfollows _ hpending⟩

end SwarmExporter
