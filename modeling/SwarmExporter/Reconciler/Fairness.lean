import SwarmExporter.Lib.Fifo
import SwarmExporter.Reconciler.DirtySet

/-!
# No key starves

The order of the dirty set is a queue: keys are appended, a key marked again keeps its place, and a call
of `takeDueKeys` takes the first ones that are due. Only an overflow takes a key out unserved
(`World.Overflows`). So a key that is due at every call moves up by a full batch with each call that does
not return it, and the number of keys ahead of it bounds the calls it waits for.
-/

namespace SwarmExporter

open Lib
open Docker (CallError Event Node Service)

namespace State

variable {state state' : State} {id : String} {now : Instant} {timestamp : Timestamp}

/-- There is no room for `id`, which is not queued. -/
def Refuses (state : State) (id : String) : Prop :=
  id ∉ state.pendingSet ∧ state.pendingCap ≤ state.pendingSet.size

/-- Keys were only appended to the order. -/
def Appends (before after : State) : Prop :=
  ∃ added, after.pendingOrder = before.pendingOrder ++ added

namespace Appends

variable {before middle after : State}

theorem of_eq (h : after.pendingOrder = before.pendingOrder) : Appends before after :=
  ⟨[], by rw [h, List.append_nil]⟩

theorem trans (h : Appends before middle) (h' : Appends middle after) : Appends before after := by
  obtain ⟨added, hadded⟩ := h
  obtain ⟨added', hadded'⟩ := h'
  exact ⟨added ++ added', by rw [hadded', hadded, List.append_assoc]⟩

end Appends

theorem queueKey_appends (hroom : ¬state.pendingCap ≤ state.pendingSet.size) (pending : PendingKey) :
    state.Appends (state.queueKey id pending timestamp) := by
  rw [queueKey, if_neg hroom]
  exact ⟨[id], rfl⟩

theorem markServiceDirty_appends (h : ¬state.Refuses id) :
    state.Appends (state.markServiceDirty id now timestamp) := by
  unfold markServiceDirty
  simp only
  split
  · exact .of_eq rfl
  · rename_i hqueued
    let bumped := state.bumpServiceGeneration id none
    have hroom : ¬bumped.pendingCap ≤ bumped.pendingSet.size := fun hfull => h ⟨hqueued, hfull⟩
    have hbump : state.Appends bumped := .of_eq rfl
    exact hbump.trans (queueKey_appends hroom _)

theorem retryService_appends {delays : List Duration} {key : DueKey}
    (h : (delays[key.attempts]?).isSome = true → ¬state.Refuses key.serviceId) :
    state.Appends (state.retryService delays key now timestamp) := by
  unfold retryService
  split
  · exact .of_eq rfl
  · rename_i hqueued
    split
    · exact .of_eq rfl
    · rename_i delay hdelay
      refine queueKey_appends (fun hfull => ?_) _
      exact h (by rw [hdelay]; rfl) ⟨hqueued, hfull⟩

/-- Some keys marked dirty, one after the other. -/
def marking (state : State) (ids : List String) (now : Instant) (timestamp : Timestamp) : State :=
  ids.foldl (fun state id => state.markServiceDirty id now timestamp) state

theorem marking_appends {ids : List String}
    (h : ∀ done id rest, ids = done ++ id :: rest → ¬(state.marking done now timestamp).Refuses id) :
    state.Appends (state.marking ids now timestamp) := by
  induction ids using List.reverseRecOn with
  | nil => exact .of_eq rfl
  | append_singleton ids id ih =>
    have hlast := h ids id [] rfl
    have hsnoc : state.marking (ids ++ [id]) now timestamp =
        (state.marking ids now timestamp).markServiceDirty id now timestamp := by
      unfold marking
      rw [List.foldl_append]
      rfl
    rw [hsnoc]
    refine (ih fun done other rest hids => h done other (rest ++ [id]) ?_).trans
      (markServiceDirty_appends hlast)
    rw [hids]
    simp

end State

/-- The call of a cycle that takes the keys that are due. -/
def Action.isCall : Action → Bool
  | .takeDueKeys => true
  | _ => false

/-- Whether the operation queues keys or takes some. -/
def Op.queues : Op → Bool
  | .enqueueEvent .. => true
  | .markServiceDirty .. => true
  | .takeDueKeys .. => true
  | .retryService .. => true
  | _ => false

theorem Op.queues_of_isPlain {op : Op} (h : op.isPlain = true) : op.queues = false := by
  cases op <;> first | rfl | cases h

theorem Op.queues_of_isBookkeep {op : Op} (h : op.isBookkeep = true) : op.queues = false := by
  cases op <;> first | rfl | cases h

namespace Reconciler

variable [HostText] {r r' : Reconciler} {ops : List Op}

theorem perform_pendingOrder {op : Op} (h : perform r op = some r') (hop : op.queues = false) :
    r'.state.pendingOrder = r.state.pendingOrder := by
  cases op with
  | enqueueEvent => cases hop
  | markServiceDirty => cases hop
  | takeDueKeys => cases hop
  | retryService => cases hop
  | applyNodes nodes visit =>
    simp only [perform, Option.ite_none_right_eq_some, Option.some.injEq] at h
    obtain ⟨-, rfl⟩ := h
    rw [(withNodes_frame r nodes visit).1]
  | applyService service =>
    obtain ⟨metadata, -, rfl⟩ := perform_applyService h
    rfl
  | removeService id =>
    cases h
    rw [(removeService_frame r id).1]
    unfold State.forgetService
    split <;> rfl
  | _ =>
    cases h
    rfl

theorem performs_pendingOrder (h : Performs r ops r')
    (hops : ∀ op ∈ essential ops, op.queues = false) :
    r'.state.pendingOrder = r.state.pendingOrder := by
  refine h.induct (fun current => current.state.pendingOrder = r.state.pendingOrder) rfl ?_
  intro op hop current next hcurrent hperform
  have hkind := forall_of_essential (fun _ => Op.queues_of_isBookkeep) hops op hop
  exact (perform_pendingOrder hperform hkind).trans hcurrent

/-- The first resync stays completed. -/
theorem perform_completed_le {op : Op} (h : perform r op = some r') :
    r.state.resyncCompleted ≤ r'.state.resyncCompleted := by
  cases hop : op.completes with
  | false =>
    obtain ⟨hsame | ⟨timestamp, -, hrequest⟩, -⟩ := perform_resyncs h hop
    · exact (congrArg Resyncs.completed hsame).ge
    · exact (congrArg Resyncs.completed hrequest).ge
  | true =>
    cases op with
    | completeResync target passStart now timestamp =>
      cases h
      exact le_max_left _ _
    | _ => cases hop

/-- A run of marks, with publications after them, marks the keys in the shared state. -/
theorem performs_marking {ids : List String} {now : Instant} {timestamp : Timestamp}
    {published : List Op} (h : Performs r ops r')
    (hops : essential ops = ids.map (.markServiceDirty · now timestamp) ++ published)
    (hpublished : ∀ op ∈ published, op.queues = false) :
    r'.state.pendingOrder = (r.state.marking ids now timestamp).pendingOrder := by
  induction ids generalizing r ops with
  | nil =>
    rw [List.map_nil, List.nil_append] at hops
    exact performs_pendingOrder h fun op hop => hpublished op (hops ▸ hop)
  | cons id ids ih =>
    obtain ⟨before, middle, book, rest, hbook, hnone, hperform, hrest, hdone⟩ :=
      h.of_essential_cons hops
    obtain ⟨_, _, _, _, _, hbefore⟩ := hbook.bookkept hnone
    simp only [perform, Option.some.injEq] at hbefore hperform
    have hstate : middle.state = r.state.markServiceDirty id now timestamp := by
      rw [← hperform, ← hbefore]
      rfl
    rw [ih hrest hdone, hstate]
    rfl

end Reconciler

namespace World

open Reconciler (Performs perform)

variable [HostText] {config : Config} {trace : List (Step World Action)} {w w' : World}
  {action : Action} {id : String}

/-- The step drops the dirty set: it queues a key for which there is no room. -/
def Overflows (w : World) : Action → Prop
  | .enqueueEvent event _ _ =>
    event.actor.id.isEmpty = false ∧ event.kind = State.eventTypeService ∧
      w.reconciler.state.Refuses event.actor.id
  | .applyPollCounts snapshot _ timestamp _ =>
    ∃ done id rest,
      snapshot.serviceIds.filter (w.reconciler.drops snapshot) = done ++ id :: rest ∧
        (w.reconciler.state.marking done w.instant timestamp).Refuses id
  | .inspected (.error error) _ =>
    error.source.isNotFound = false ∧ ∃ key keys, w.phase = .inspecting key keys ∧
      (w.reconciler.retryDelays[key.attempts]?).isSome = true ∧
      w.reconciler.state.Refuses key.serviceId
  | _ => False

theorem appends_of_performs {ops : List Op} (h : Performs w.reconciler ops w'.reconciler)
    (hops : ∀ op ∈ essential ops, op.queues = false) :
    w.reconciler.state.Appends w'.reconciler.state :=
  .of_eq (Reconciler.performs_pendingOrder h hops)

theorem appends_of_nil {ops : List Op} (h : Performs w.reconciler ops w'.reconciler)
    (hops : essential ops = []) : w.reconciler.state.Appends w'.reconciler.state := by
  refine appends_of_performs h fun op hop => ?_
  rw [hops] at hop
  cases hop

theorem appends_of_singleton {ops : List Op} {op : Op} (h : Performs w.reconciler ops w'.reconciler)
    (hops : essential ops = [op]) (hop : op.queues = false) :
    w.reconciler.state.Appends w'.reconciler.state := by
  refine appends_of_performs h fun other hother => ?_
  rw [hops, List.mem_singleton] at hother
  rw [hother, hop]

/-- **Only a cycle's call and an overflow take keys out of the order.** -/
theorem step_appends (wired : w.reconciler.Wired) (h : w.step action = some w')
    (htake : action ≠ .takeDueKeys) (hoverflow : ¬w.Overflows action) :
    w.reconciler.state.Appends w'.reconciler.state := by
  obtain ⟨ops, hperforms, hmakes⟩ := step_ops wired h
  cases action with
  | takeDueKeys => exact absurd rfl htake
  | enqueueEvent event now timestamp =>
    obtain ⟨before, after, hbefore, hperform, hafter⟩ := hperforms.of_essential_singleton hmakes
    cases hperform
    rw [hafter, ← hbefore]
    unfold Reconciler.enqueueEvent
    split
    · exact .of_eq rfl
    · rename_i hactor
      show before.state.Appends (before.state.enqueueEvent event now timestamp)
      unfold State.enqueueEvent
      rw [if_neg hactor]
      split
      · exact .of_eq rfl
      · split
        · rename_i hkind
          refine State.markServiceDirty_appends fun hrefuses => hoverflow ?_
          exact ⟨by simpa using hactor, hkind, hbefore ▸ hrefuses⟩
        · exact .of_eq rfl
  | applyPollCounts snapshot counters timestamp visit =>
    obtain ⟨published, hops, hpublished⟩ := hmakes
    have horder := Reconciler.performs_marking hperforms hops fun op hop => by
      obtain ⟨_, _, _, rfl⟩ := hpublished op hop
      rfl
    have happends : w.reconciler.state.Appends (w.reconciler.state.marking
        (snapshot.serviceIds.filter (w.reconciler.drops snapshot)) w.instant timestamp) :=
      State.marking_appends fun done id rest hids hrefuses =>
        hoverflow ⟨done, id, rest, hids, hrefuses⟩
    obtain ⟨added, hadded⟩ := happends
    exact ⟨added, horder.trans hadded⟩
  | inspected result timestamp =>
    cases result with
    | ok service =>
      rcases hmakes with hops | hops
      · exact appends_of_singleton hperforms hops rfl
      · exact appends_of_singleton hperforms hops rfl
    | error error =>
      obtain ⟨key, keys, hphase, hops⟩ := hmakes
      obtain ⟨_, _, hresult, -⟩ | ⟨_, _, hresult, -⟩ | ⟨_, hresult, hfound, -⟩ |
        ⟨_, hresult, hfound, hreconciler⟩ := inspected_cases wired hphase h
      · cases hresult
      · cases hresult
      · cases hresult
        rw [hfound] at hops
        exact appends_of_singleton hperforms hops rfl
      · cases hresult
        rw [hreconciler]
        exact State.retryService_appends fun hdelay hrefuses =>
          hoverflow ⟨hfound, key, keys, hphase, hdelay, hrefuses⟩
  | nodesListed listed visit timestamp =>
    cases listed with
    | ok nodes => exact appends_of_singleton hperforms hmakes rfl
    | error error => exact appends_of_singleton hperforms hmakes rfl
  | resyncNodesListed listed visit ids fault timestamp =>
    cases listed with
    | error error => exact appends_of_nil hperforms hmakes
    | ok nodes =>
      refine appends_of_performs hperforms fun op hop => ?_
      obtain ⟨pass, services, -, ⟨-, hops⟩ | ⟨done, hdone, hops⟩⟩ := hmakes
      · rcases List.mem_append.1 (hops ▸ hop) with hlisted | hlast
        · exact Op.queues_of_isPlain (isPlain_of_mem_resyncOps hlisted)
        · obtain rfl := List.mem_singleton.1 hlast
          rfl
      · rcases List.mem_append.1 (hops ▸ hop) with hlisted | hlast
        · exact Op.queues_of_isPlain (isPlain_of_mem_resyncOps (hdone.subset hlisted))
        · obtain rfl := List.mem_singleton.1 hlast
          rfl
  | beginCycle timestamp =>
    rcases hmakes with hops | hops
    · exact appends_of_nil hperforms hops
    · exact appends_of_singleton hperforms hops rfl
  | checkNodes =>
    rcases hmakes with hops | hops
    · exact appends_of_nil hperforms hops
    · exact appends_of_singleton hperforms hops rfl
  | requestResync timestamp => exact appends_of_singleton hperforms hmakes rfl
  | markPollOk snapshot timestamp => exact appends_of_singleton hperforms hmakes rfl
  | stepPanics timestamp => exact appends_of_singleton hperforms hmakes rfl
  | _ => exact appends_of_nil hperforms hmakes

/-! ## The calls of a run -/

/-- The steps of a trace that call `takeDueKeys`. -/
def calls (trace : List (Step World Action)) : Nat := trace.countP fun st => st.act.isCall

/-- The step is a call that returns `id`. -/
def Returns (st : Step World Action) (id : String) : Prop :=
  st.act = .takeDueKeys ∧ ∃ keys, st.post.phase = .batch keys ∧ ∃ key ∈ keys, key.serviceId = id

/-- `id` is due at the `now` of the call, if it is queued then. -/
def DueAt (st : Step World Action) (id : String) : Prop :=
  st.act = .takeDueKeys → ∀ now, st.pre.phase = .keysCheck now → ∀ pending : PendingKey,
    st.pre.reconciler.state.pendingSet[id]? = some pending → pending.notBefore ≤ now

/-- `id` is queued with at most `count` keys before it. -/
def Waits (w : World) (id : String) (count : Nat) : Prop :=
  ∃ ahead behind, w.reconciler.state.pendingOrder = ahead ++ id :: behind ∧ ahead.length ≤ count

omit [HostText] in
theorem Waits.of_appends {count : Nat} (h : w.Waits id count)
    (happends : w.reconciler.state.Appends w'.reconciler.state) : w'.Waits id count := by
  obtain ⟨ahead, behind, horder, hlength⟩ := h
  obtain ⟨added, hadded⟩ := happends
  exact ⟨ahead, behind ++ added, by rw [hadded, horder]; simp, hlength⟩

/-- **A call returns a key that is due, or moves it up by a full batch.** -/
theorem returns_or_waits {count : Nat}
    (henum : Enumerates w.reconciler.state.pendingOrder w.reconciler.state.pendingSet)
    (hcompleted : w.reconciler.state.resyncCompleted ≠ 0) (h : w.step .takeDueKeys = some w')
    (hwaits : w.Waits id count) (hdue : DueAt ⟨w, .takeDueKeys, w'⟩ id) :
    Returns ⟨w, .takeDueKeys, w'⟩ id ∨
      serviceKeysPerCycle ≤ count ∧ w'.Waits id (count - serviceKeysPerCycle) := by
  obtain ⟨ahead, behind, horder, hlength⟩ := hwaits
  have hmem : id ∈ w.reconciler.state.pendingSet := (henum.2 id).1 (by rw [horder]; simp)
  obtain ⟨pending, hpending⟩ := mem_iff_getElem?.1 hmem
  simp only [step, cycleStep] at h
  split at h
  · rename_i now hphase
    cases h
    have hready : State.isDue w.reconciler.state.pendingSet now id = true :=
      (Option.any_eq_true ..).2
        ⟨pending, hpending, decide_eq_true (hdue rfl now hphase pending hpending)⟩
    obtain ⟨rest, htaken, -⟩ := State.takeDueKeys_spec henum hcompleted now
    by_cases hbatch : id ∈ w.reconciler.state.dueBatch now
    · refine .inl ⟨rfl, _, rfl, State.dueKey w.reconciler.state.pendingSet id, ?_, rfl⟩
      rw [htaken]
      exact List.mem_map_of_mem hbatch
    · have hmoved : (ahead.filter (· ∉ w.reconciler.state.dueBatch now)).length +
          serviceKeysPerCycle ≤ ahead.length := by
        unfold State.dueBatch State.firstDue at hbatch ⊢
        rw [horder] at hbatch ⊢
        exact length_ahead_le hready hbatch
      refine .inr ⟨by omega, ahead.filter (· ∉ w.reconciler.state.dueBatch now),
        behind.filter (· ∉ w.reconciler.state.dueBatch now), ?_, by omega⟩
      show (w.reconciler.state.takeDueKeys now).2.pendingOrder = _
      rw [htaken]
      simp only [horder, List.filter_append, List.filter_cons, hbatch, not_false_eq_true, decide_true,
        if_true]
  · cases h

/-- A trace of calls that did not return `id` left at most so many keys ahead of it. -/
theorem returned_or_waits {before : List (Step World Action)} {w₀ : World} {count : Nat}
    (hbefore : Runs config before w₀) (hcompleted : w₀.reconciler.state.resyncCompleted ≠ 0)
    (hwaits : w₀.Waits id count) (h : Run step w₀ trace w)
    (hoverflow : ∀ st ∈ trace, ¬st.pre.Overflows st.act) (hdue : ∀ st ∈ trace, DueAt st id) :
    (∃ done st rest, trace = done ++ st :: rest ∧ Returns st id ∧
      serviceKeysPerCycle * calls done ≤ count) ∨
    serviceKeysPerCycle * calls trace ≤ count ∧
      w.Waits id (count - serviceKeysPerCycle * calls trace) := by
  induction h with
  | nil => exact .inr ⟨by simp [calls], by simpa [calls] using hwaits⟩
  | @snoc trace t u action hrun hstep ih =>
    obtain ⟨done, st, rest, htrace, hreturns⟩ | ⟨hcalls, hqueued⟩ :=
      ih (fun st hst => hoverflow st (List.mem_append_left _ hst))
        fun st hst => hdue st (List.mem_append_left _ hst)
    · exact .inl ⟨done, st, rest ++ [⟨t, action, u⟩], by rw [htrace]; simp, hreturns⟩
    have hlast : (⟨t, action, u⟩ : Step World Action) ∈ trace ++ [⟨t, action, u⟩] := by simp
    have hreached : Runs config (before ++ trace) t := hbefore.append hrun
    by_cases hcall : action = .takeDueKeys
    · subst hcall
      have hcompleted' : t.reconciler.state.resyncCompleted ≠ 0 := by
        have hle := (hrun.monotone (fun w => w.reconciler.state.resyncCompleted)
          (fun w => w.reconciler.Wired) hbefore.wired fun _ _ _ hwired hs =>
            ⟨step_wired hwired hs, step_invariant
              (fun r => _ ≤ r.state.resyncCompleted)
              (fun _ _ _ _ hr hperform => hr.trans (Reconciler.perform_completed_le hperform))
              hwired le_rfl hs⟩).2
        omega
      have hsnoc : calls (trace ++ [⟨t, .takeDueKeys, u⟩]) = calls trace + 1 := by
        simp [calls, Action.isCall]
      obtain hreturns | ⟨hroom, hmoved⟩ := returns_or_waits hreached.dirtyInv.pending.same
        hcompleted' hstep hqueued (hdue _ hlast)
      · exact .inl ⟨trace, _, [], rfl, hreturns, hcalls⟩
      · rw [hsnoc, Nat.mul_add, Nat.mul_one]
        rw [Nat.sub_sub] at hmoved
        exact .inr ⟨by omega, hmoved⟩
    · have hsnoc : calls (trace ++ [⟨t, action, u⟩]) = calls trace := by
        cases action <;> first | exact absurd rfl hcall | simp [calls, Action.isCall]
      rw [hsnoc]
      exact .inr ⟨hcalls, hqueued.of_appends
        (step_appends hreached.wired hstep hcall (hoverflow _ hlast))⟩

/-- **First come, first served.** In every reachable world after the first resync, a call returns the
first keys of the order that are due, up to its share, in order and with their attempts, takes exactly
those out and keeps the others as they are. In every continuation without an overflow in which the key at
index `index` is due at each call, one of the first `index / 32 + 1` calls returns it. -/
theorem keys_served_in_order {before : List (Step World Action)} {w₀ : World}
    (hbefore : Runs config before w₀) (hcompleted : 0 < w₀.reconciler.state.resyncCompleted) :
    (∀ now, ∃ pendingSet,
      w₀.reconciler.state.takeDueKeys now =
        ((w₀.reconciler.state.dueBatch now).map (State.dueKey w₀.reconciler.state.pendingSet),
          { w₀.reconciler.state with
            pendingOrder := w₀.reconciler.state.pendingOrder.filter
              (· ∉ w₀.reconciler.state.dueBatch now)
            pendingSet }) ∧
      (∀ id, pendingSet[id]? =
        if id ∈ w₀.reconciler.state.dueBatch now then none else w₀.reconciler.state.pendingSet[id]?) ∧
      (∃ later, w₀.reconciler.state.pendingOrder.filter
          (State.isDue w₀.reconciler.state.pendingSet now) =
        w₀.reconciler.state.dueBatch now ++ later) ∧
      (w₀.reconciler.state.dueBatch now).length =
        min 32 (w₀.reconciler.state.pendingOrder.countP
          (State.isDue w₀.reconciler.state.pendingSet now))) ∧
    ∀ (index : Nat) (id : String), w₀.reconciler.state.pendingOrder[index]? = some id →
      ∀ (trace : List (Step World Action)) (w : World), Run step w₀ trace w →
        (∀ st ∈ trace, ¬st.pre.Overflows st.act) → (∀ st ∈ trace, DueAt st id) →
        index / 32 + 1 ≤ calls trace →
        ∃ done st rest, trace = done ++ st :: rest ∧ Returns st id ∧ calls done < index / 32 + 1 := by
  have henum := hbefore.dirtyInv.pending.same
  refine ⟨fun now => ?_, fun index id hindex trace w hrun hoverflow hdue hcalls => ?_⟩
  · obtain ⟨pendingSet, htaken, hget⟩ := State.takeDueKeys_spec henum hcompleted.ne' now
    refine ⟨pendingSet, htaken, hget, ⟨_, (List.take_append_drop 32 _).symm⟩, ?_⟩
    exact length_readyBatch ..
  · obtain ⟨hlt, hget⟩ := List.getElem?_eq_some_iff.1 hindex
    have hwaits : w₀.Waits id index := by
      refine ⟨w₀.reconciler.state.pendingOrder.take index,
        w₀.reconciler.state.pendingOrder.drop (index + 1), ?_, List.length_take_le _ _⟩
      rw [← hget, List.getElem_cons_drop, List.take_append_drop]
    have hshare : serviceKeysPerCycle = 32 := rfl
    obtain ⟨done, st, rest, htrace, hreturns, hle⟩ | ⟨hle, -⟩ :=
      returned_or_waits hbefore hcompleted.ne' hwaits hrun hoverflow hdue
    · refine ⟨done, st, rest, htrace, hreturns, ?_⟩
      rw [hshare] at hle
      omega
    · rw [hshare] at hle
      omega

end World

open Sample in
/-- A key marked after the first resync is returned by the call of the next cycle. -/
theorem World.keys_served_in_order_sample :
    ∃ before w₀ trace w, Runs config before w₀ ∧ w₀.reconciler.state.pendingOrder[0]? = some "web" ∧
      Run World.step w₀ trace w ∧ ∃ st ∈ trace, Returns st "web" := by
  let cycle : List Action := [.beginCycle 1000, .checkNodes, .checkResync 1000, .takeDueKeys]
  have hreplay : (replay World.step (init config)
      (resyncCycle [replicated "web" "web" 2] [] ["web"] ++ [.enqueueEvent (changed "web") 0 1000])).any
      (fun result => (replay World.step result.2 cycle).any fun result' =>
        decide (0 < result.2.reconciler.state.resyncCompleted ∧
          result.2.reconciler.state.pendingOrder[0]? = some "web" ∧ calls result'.1 = 1 ∧
          ∀ st ∈ result'.1, st.pre.reconciler.state.pendingSet["web"]? = some ⟨0, 0⟩)) = true := by
    decide +kernel
  obtain ⟨before, w₀, hbefore, -, hcycle⟩ := exists_run_of_replay hreplay
  obtain ⟨trace, w, hrun, hacts, hcheck⟩ := exists_run_of_replay hcycle
  obtain ⟨hcompleted, hindex, hcalls, hpending⟩ := of_decide_eq_true hcheck
  have hoverflow : ∀ st ∈ trace, ¬st.pre.Overflows st.act := by
    intro st hst
    have hact : st.act ∈ cycle := hacts ▸ List.mem_map_of_mem hst
    simp only [cycle, List.mem_cons, List.not_mem_nil, or_false] at hact
    rcases hact with hact | hact | hact | hact <;> simp [hact, Overflows]
  have hdue : ∀ st ∈ trace, DueAt st "web" := by
    intro st hst _ now _ pending hget
    rw [hpending st hst] at hget
    cases hget
    exact Nat.zero_le now
  obtain ⟨done, st, rest, rfl, hreturns, -⟩ := (keys_served_in_order hbefore hcompleted).2 0 "web" hindex
    trace w hrun hoverflow hdue hcalls.ge
  exact ⟨before, w₀, _, w, hbefore, hindex, hrun, st, by simp, hreturns⟩

end SwarmExporter
