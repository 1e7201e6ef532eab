import SwarmExporter.Reconciler.Generations
import SwarmExporter.Reconciler.Pending
import SwarmExporter.Reconciler.Schedule

/-!
# The representation of the dirty set

`pendingOrder` and `pendingSet` hold the same keys, each once, and at most the cap of them
(`State.Represents`). `takeDueKeys_spec` says what a cycle takes: of the keys that are due, the first
ones of the order, up to its share.
-/

namespace SwarmExporter

open Lib
open Docker (CallError Event Node Service)

namespace State

/-! ## Taking the keys that are due -/

/-- Whether `id` is queued in `pending` and its time has come. -/
def isDue (pending : Map String PendingKey) (now : Instant) (id : String) : Bool :=
  pending[id]?.any fun entry => decide (entry.notBefore ≤ now)

/-- `id` as it is taken, with the failures it already had. -/
def dueKey (pending : Map String PendingKey) (id : String) : DueKey :=
  ⟨id, (pending[id]?.map (·.attempts)).getD 0⟩

/-- Of `keys`, the first `room` that are due. -/
def firstDue (pending : Map String PendingKey) (now : Instant) (room : Nat) (keys : List String) :
    List String :=
  (keys.filter (isDue pending now)).take room

variable {pending : Map String PendingKey} {now : Instant} {room : Nat} {id : String}

theorem firstDue_cons_of_due {keys : List String} (h : isDue pending now id = true) (room : Nat) :
    firstDue pending now (room + 1) (id :: keys) = id :: firstDue pending now room keys := by
  simp [firstDue, h]

theorem firstDue_cons_of_not_due {keys : List String} (h : isDue pending now id = false)
    (room : Nat) : firstDue pending now room (id :: keys) = firstDue pending now room keys := by
  simp [firstDue, h]

@[simp] theorem firstDue_zero (keys : List String) : firstDue pending now 0 keys = [] :=
  List.take_zero

theorem mem_of_mem_firstDue {keys : List String} (h : id ∈ firstDue pending now room keys) :
    id ∈ keys ∧ isDue pending now id = true :=
  List.mem_filter.1 (List.mem_of_mem_take h)

theorem length_firstDue_le (keys : List String) : (firstDue pending now room keys).length ≤ room :=
  List.length_take_le _ _

/-- One key is taken when it is due and there is room. -/
theorem takeKey_eq (now : Instant) (taking : Taking) (key : String) :
    takeKey now taking key =
      if taking.taken.length < serviceKeysPerCycle ∧ isDue taking.pendingSet now key = true then
        { taking with
          taken := taking.taken ++ [dueKey taking.pendingSet key]
          pendingSet := taking.pendingSet.erase key }
      else { taking with remaining := taking.remaining ++ [key] } := by
  unfold takeKey isDue dueKey
  cases taking.pendingSet[key]? with
  | none => simp
  | some entry => simp

/-- What the loop over `keys` takes and keeps; `pending` is the set before it, of which the loop has
changed no key still to come. -/
theorem foldl_takeKey {keys : List String} (hnodup : keys.Nodup) {taking : Taking}
    (hsame : ∀ id ∈ keys, taking.pendingSet[id]? = pending[id]?)
    (hroom : taking.taken.length + room = serviceKeysPerCycle) :
    (keys.foldl (takeKey now) taking).taken =
        taking.taken ++ (firstDue pending now room keys).map (dueKey pending) ∧
      (keys.foldl (takeKey now) taking).remaining =
        taking.remaining ++ keys.filter (· ∉ firstDue pending now room keys) ∧
      ∀ id, (keys.foldl (takeKey now) taking).pendingSet[id]? =
        if id ∈ firstDue pending now room keys then none else taking.pendingSet[id]? := by
  induction keys generalizing taking room with
  | nil => simp [firstDue]
  | cons key keys ih =>
    obtain ⟨hkey, hnodup⟩ := List.nodup_cons.1 hnodup
    have hhead : taking.pendingSet[key]? = pending[key]? := hsame key List.mem_cons_self
    have hdue : isDue taking.pendingSet now key = isDue pending now key := by
      unfold isDue
      rw [hhead]
    have hnotMem : ∀ {room}, key ∉ firstDue pending now room keys := fun hmem =>
      hkey (mem_of_mem_firstDue hmem).1
    rw [List.foldl_cons, takeKey_eq, hdue]
    split
    · rename_i htake
      -- The key is taken: one place less, and it is the first of those that are.
      obtain ⟨room, rfl⟩ : ∃ less, room = less + 1 := ⟨room - 1, by omega⟩
      have hsame' : ∀ id ∈ keys, (taking.pendingSet.erase key)[id]? = pending[id]? := by
        intro id hid
        have hne : key ≠ id := fun heq => hkey (heq ▸ hid)
        rw [Std.ExtTreeMap.getElem?_erase]
        simp only [Std.LawfulEqCmp.compare_eq_iff_eq, hne, ↓reduceIte]
        exact hsame id (List.mem_cons_of_mem _ hid)
      obtain ⟨htaken, hremaining, hpending⟩ := @ih room hnodup
        { taking with
          taken := taking.taken ++ [dueKey taking.pendingSet key]
          pendingSet := taking.pendingSet.erase key } hsame' (by simp; omega)
      have hdueKey : dueKey taking.pendingSet key = dueKey pending key := by
        unfold dueKey
        rw [hhead]
      rw [firstDue_cons_of_due htake.2, htaken, hremaining]
      refine ⟨by simp [hdueKey], ?_, fun id => ?_⟩
      · have hrest : ∀ id ∈ keys, id ≠ key := fun id hid heq => hkey (heq ▸ hid)
        simp only [List.mem_cons, not_or, List.filter_cons, not_true_eq_false, false_and,
          decide_false, Bool.false_eq_true, ↓reduceIte, List.append_cancel_left_eq]
        refine List.filter_congr fun id hid => ?_
        simp [hrest id hid]
      · rw [hpending, Std.ExtTreeMap.getElem?_erase]
        by_cases hid : id = key
        · subst hid
          simp [hnotMem]
        · simp [hid, Ne.symm hid]
    · rename_i hkeep
      -- The key stays: it is not due, or there is no room for any.
      have hchosen : firstDue pending now room (key :: keys) = firstDue pending now room keys := by
        by_cases hdue' : isDue pending now key = true
        · have hzero : room = 0 := by
            by_contra hne
            exact hkeep ⟨by omega, hdue'⟩
          rw [hzero, firstDue_zero, firstDue_zero]
        · exact firstDue_cons_of_not_due (by simpa using hdue') room
      obtain ⟨htaken, hremaining, hpending⟩ := @ih room hnodup
        { taking with remaining := taking.remaining ++ [key] }
        (fun id hid => hsame id (List.mem_cons_of_mem _ hid)) hroom
      rw [hchosen, htaken, hremaining]
      refine ⟨rfl, ?_, hpending⟩
      simp [hnotMem]

/-- The keys a cycle takes. -/
def dueBatch (state : State) (now : Instant) : List String :=
  firstDue state.pendingSet now serviceKeysPerCycle state.pendingOrder

/-- **What a cycle takes**: the first keys of the order that are due, up to its share, in order and with
their attempts; they leave both containers, and the others stay as they are. -/
theorem takeDueKeys_spec {state : State} (henum : Enumerates state.pendingOrder state.pendingSet)
    (hcompleted : state.resyncCompleted ≠ 0) (now : Instant) :
    ∃ pendingSet, state.takeDueKeys now =
        ((state.dueBatch now).map (dueKey state.pendingSet),
          { state with
            pendingOrder := state.pendingOrder.filter (· ∉ state.dueBatch now), pendingSet }) ∧
      ∀ id, pendingSet[id]? = if id ∈ state.dueBatch now then none else state.pendingSet[id]? := by
  unfold takeDueKeys
  by_cases hempty : state.pendingOrder = []
  · refine ⟨state.pendingSet, ?_, fun id => ?_⟩
    · rw [if_pos (.inr hempty)]
      obtain ⟨pendingCap, generationCounter, serviceGeneration, nodeGeneration, epoch, requested,
        completed, since, pendingSet, pendingOrder, nodesDirty⟩ := state
      subst hempty
      rfl
    · simp [dueBatch, firstDue, hempty]
  · rw [if_neg (not_or.2 ⟨hcompleted, hempty⟩)]
    obtain ⟨htaken, hremaining, hpending⟩ := @foldl_takeKey state.pendingSet now
      serviceKeysPerCycle state.pendingOrder henum.1 { pendingSet := state.pendingSet }
      (fun _ _ => rfl) (by simp)
    refine ⟨_, ?_, hpending⟩
    simp only [htaken, hremaining]
    rfl

/-! ## The invariant -/

/-- The two containers hold the same keys, each once and at most the cap of them, and no key has more
failures than there are retry delays. -/
structure Represents (retries : Nat) (state : State) : Prop where
  same : Enumerates state.pendingOrder state.pendingSet
  capped : state.pendingSet.size ≤ state.pendingCap
  attempts : ∀ (id : String) (entry : PendingKey), state.pendingSet[id]? = some entry →
    entry.attempts ≤ retries

/-- No two services share a generation value. -/
def Distinct (state : State) : Prop :=
  ∀ (id id' : String) (generation generation' : Generation),
    state.serviceGeneration[id]? = some generation →
    state.serviceGeneration[id']? = some generation' → generation.value = generation'.value → id = id'

namespace Represents

variable {retries : Nat} {state state' : State}

theorem of_eq (h : Represents retries state) (hset : state'.pendingSet = state.pendingSet)
    (horder : state'.pendingOrder = state.pendingOrder)
    (hcap : state'.pendingCap = state.pendingCap) : Represents retries state' := by
  constructor
  · rw [hset, horder]
    exact h.same
  · rw [hset, hcap]
    exact h.capped
  · rw [hset]
    exact h.attempts

theorem empty (hset : state.pendingSet = ∅) (horder : state.pendingOrder = []) :
    Represents retries state := by
  constructor
  · rw [hset, horder]
    simp [Enumerates]
  · rw [hset]
    simp
  · rw [hset]
    simp

/-- Appending a key that is not queued. -/
theorem queue (h : Represents retries state) {id : String} (hid : id ∉ state.pendingSet)
    {entry : PendingKey} (hentry : entry.attempts ≤ retries) (timestamp : Timestamp) :
    Represents retries (state.queueKey id entry timestamp) := by
  unfold queueKey
  split
  · exact empty rfl rfl
  · rename_i hroom
    have horder : id ∉ state.pendingOrder := fun hmem => hid ((h.same.2 id).1 hmem)
    refine ⟨⟨?_, fun other => ?_⟩, ?_, fun other other' hother => ?_⟩
    · exact List.nodup_append.2 ⟨h.same.1, List.nodup_singleton _, by
        rintro first hfirst second hsecond rfl
        exact horder (List.mem_singleton.1 hsecond ▸ hfirst)⟩
    · simp only [List.mem_append, List.mem_singleton, Std.ExtTreeMap.mem_insert,
        Std.LawfulEqCmp.compare_eq_iff_eq, h.same.2 other]
      rw [or_comm, eq_comm]
    · show (state.pendingSet.insert id entry).size ≤ state.pendingCap
      rw [Std.ExtTreeMap.size_insert, if_neg (by simpa using hid)]
      omega
    · simp only [Std.ExtTreeMap.getElem?_insert, Std.LawfulEqCmp.compare_eq_iff_eq] at hother
      split at hother
      · cases hother
        exact hentry
      · exact h.attempts other other' hother

/-- Resetting a key that is queued. -/
theorem reset (h : Represents retries state) {id : String} (hid : id ∈ state.pendingSet)
    (now : Instant) :
    Represents retries { state with pendingSet := state.pendingSet.insert id ⟨0, now⟩ } := by
  refine ⟨⟨h.same.1, fun other => ?_⟩, ?_, fun other entry hother => ?_⟩
  · simp only [Std.ExtTreeMap.mem_insert, Std.LawfulEqCmp.compare_eq_iff_eq, h.same.2 other]
    exact ⟨.inr, fun hor => hor.elim (fun heq => heq ▸ hid) fun hother => hother⟩
  · show (state.pendingSet.insert id ⟨0, now⟩).size ≤ state.pendingCap
    rw [Std.ExtTreeMap.size_insert, if_pos (by simpa using hid)]
    exact h.capped
  · simp only [Std.ExtTreeMap.getElem?_insert, Std.LawfulEqCmp.compare_eq_iff_eq] at hother
    split at hother
    · cases hother
      exact Nat.zero_le _
    · exact h.attempts other entry hother

theorem mark (h : Represents retries state) (id : String) (now : Instant) (timestamp : Timestamp) :
    Represents retries (state.markServiceDirty id now timestamp) := by
  have hbump : Represents retries (state.bumpServiceGeneration id none) := h.of_eq rfl rfl rfl
  unfold markServiceDirty
  simp only
  split
  · rename_i hid
    exact hbump.reset hid now
  · rename_i hid
    exact hbump.queue hid (Nat.zero_le _) timestamp

theorem enqueue (h : Represents retries state) (event : Event) (now : Instant)
    (timestamp : Timestamp) : Represents retries (state.enqueueEvent event now timestamp) := by
  unfold enqueueEvent
  split
  · exact h
  · split
    · exact h.of_eq rfl rfl rfl
    · split
      · exact h.mark _ now timestamp
      · exact h

theorem retry {delays : List Duration} (h : Represents delays.length state) (key : DueKey)
    (now : Instant) (timestamp : Timestamp) :
    Represents delays.length (state.retryService delays key now timestamp) := by
  unfold retryService
  split
  · exact h
  · rename_i hid
    split
    · exact h.of_eq rfl rfl rfl
    · rename_i delay hdelay
      obtain ⟨hlt, -⟩ := List.getElem?_eq_some_iff.1 hdelay
      exact h.queue hid (Nat.succ_le_of_lt hlt) timestamp

theorem take (h : Represents retries state) (now : Instant) :
    Represents retries (state.takeDueKeys now).2 := by
  by_cases hcompleted : state.resyncCompleted = 0
  · rw [takeDueKeys, if_pos (.inl hcompleted)]
    exact h
  · obtain ⟨pendingSet, heq, hget⟩ := takeDueKeys_spec h.same hcompleted now
    rw [heq]
    have hmem : ∀ id, id ∈ pendingSet ↔ id ∉ state.dueBatch now ∧ id ∈ state.pendingSet := by
      intro id
      rw [Std.ExtTreeMap.mem_iff_isSome_getElem?, Std.ExtTreeMap.mem_iff_isSome_getElem?, hget]
      split <;> simp_all
    have henum : Enumerates (state.pendingOrder.filter (· ∉ state.dueBatch now)) pendingSet := by
      refine ⟨h.same.1.filter _, fun id => ?_⟩
      rw [hmem, List.mem_filter, h.same.2, and_comm]
      simp
    refine ⟨henum, ?_, fun id entry hentry => ?_⟩
    · show pendingSet.size ≤ state.pendingCap
      rw [henum.size_eq]
      exact (List.length_filter_le _ _).trans (h.same.size_eq ▸ h.capped)
    · simp only [hget] at hentry
      split at hentry
      · cases hentry
      · exact h.attempts id entry hentry

end Represents

namespace Distinct

variable {state state' : State}

/-- Dropping entries, and changing flags, keeps the values distinct. -/
theorem of_sub (h : state.Distinct) (hsub : ∀ (id : String) (generation : Generation),
    state'.serviceGeneration[id]? = some generation →
      ∃ before, state.serviceGeneration[id]? = some before ∧ before.value = generation.value) :
    state'.Distinct := by
  intro id id' generation generation' hget hget' hvalue
  obtain ⟨before, hbefore, heq⟩ := hsub id generation hget
  obtain ⟨before', hbefore', heq'⟩ := hsub id' generation' hget'
  exact h id id' before before' hbefore hbefore' (by rw [heq, heq', hvalue])

theorem of_eq (h : state.Distinct)
    (heq : state'.serviceGeneration = state.serviceGeneration) : state'.Distinct :=
  h.of_sub fun _ generation hget => ⟨generation, heq ▸ hget, rfl⟩

/-- A fresh value is above all the others. -/
theorem bump (h : state.Distinct) (hbounded : state.Bounded) (id : String)
    (cached : Option Bool) : (state.bumpServiceGeneration id cached).Distinct := by
  have hfresh : ∀ (other : String) (generation : Generation),
      state.serviceGeneration[other]? = some generation →
        generation.value ≠ state.generationCounter + 1 := by
    intro other generation hget
    have hle := hbounded other generation hget
    omega
  intro first second generation generation' hget hget' hvalue
  rw [getElem?_bump] at hget hget'
  split at hget
  · rename_i hfirst
    split at hget'
    · rename_i hsecond
      exact hfirst.symm.trans hsecond
    · cases hget
      exact absurd hvalue.symm (hfresh second generation' hget')
  · split at hget'
    · cases hget'
      exact absurd hvalue (hfresh first generation hget)
    · exact h first second generation generation' hget hget' hvalue

theorem prune (h : state.Distinct) : state.pruneServiceGenerations.Distinct := by
  refine h.of_sub fun id generation hget => ?_
  rw [getElem?_prune, Option.filter_eq_some_iff] at hget
  exact ⟨generation, hget.1, rfl⟩

theorem queue (h : state.Distinct) (id : String) (entry : PendingKey) (timestamp : Timestamp) :
    (state.queueKey id entry timestamp).Distinct := by
  unfold queueKey
  split
  · have hemptied : State.Distinct { state with pendingSet := ∅, pendingOrder := [] } := h.of_eq rfl
    exact hemptied.prune.of_eq rfl
  · exact h.of_eq rfl

theorem mark (h : state.Distinct) (hbounded : state.Bounded) (id : String) (now : Instant)
    (timestamp : Timestamp) : (state.markServiceDirty id now timestamp).Distinct := by
  have hbump := h.bump hbounded id none
  unfold markServiceDirty
  simp only
  split
  · exact hbump.of_eq rfl
  · exact hbump.queue id _ timestamp

theorem enqueue (h : state.Distinct) (hbounded : state.Bounded) (event : Event) (now : Instant)
    (timestamp : Timestamp) : (state.enqueueEvent event now timestamp).Distinct := by
  unfold enqueueEvent
  split
  · exact h
  · split
    · exact h.of_eq rfl
    · split
      · exact h.mark hbounded _ now timestamp
      · exact h

theorem retry (h : state.Distinct) (delays : List Duration) (key : DueKey) (now : Instant)
    (timestamp : Timestamp) : (state.retryService delays key now timestamp).Distinct := by
  unfold retryService
  split
  · exact h
  · split
    · exact h.of_eq rfl
    · exact h.queue _ _ timestamp

theorem forget (h : state.Distinct) (id : String) : (state.forgetService id).Distinct := by
  refine h.of_sub fun other generation hget => ?_
  rw [getElem?_forget] at hget
  split at hget
  · rename_i hother
    split at hget
    · obtain ⟨before, hbefore, rfl⟩ := Option.map_eq_some_iff.1 hget
      exact ⟨before, hother ▸ hbefore, rfl⟩
    · cases hget
  · exact ⟨generation, hget, rfl⟩

end Distinct

end State

namespace Reconciler

variable [HostText] {r r' : Reconciler} {op : Op}

/-- What the lock guards, as every operation keeps it. -/
structure DirtyInv (r : Reconciler) : Prop where
  generations : r.GenerationInv
  pending : r.state.Represents r.retryDelays.length
  distinct : r.state.Distinct

theorem perform_represents (inv : r.state.Represents r.retryDelays.length)
    (h : perform r op = some r') : r'.state.Represents r'.retryDelays.length := by
  have hdelays : r'.retryDelays = r.retryDelays := congrArg ReconcilerPolicy.retryDelays
    (perform_policy h)
  rw [hdelays]
  cases op with
  | enqueueEvent event now timestamp =>
    cases h
    unfold enqueueEvent
    split
    · exact inv
    · exact inv.enqueue event now timestamp
  | markServiceDirty id now timestamp =>
    cases h
    exact inv.mark id now timestamp
  | takeDueKeys now =>
    cases h
    exact inv.take now
  | retryService key now timestamp =>
    cases h
    exact inv.retry key now timestamp
  | applyNodes nodes visit =>
    simp only [perform, Option.ite_none_right_eq_some, Option.some.injEq] at h
    obtain ⟨-, rfl⟩ := h
    rw [(withNodes_frame r nodes visit).1]
    exact inv.of_eq rfl rfl rfl
  | applyService service =>
    obtain ⟨metadata, -, rfl⟩ := perform_applyService h
    exact inv.of_eq rfl rfl rfl
  | removeService id =>
    cases h
    rw [(removeService_frame r id).1]
    unfold State.forgetService
    split <;> exact inv.of_eq rfl rfl rfl
  | _ =>
    cases h
    exact inv.of_eq rfl rfl rfl

theorem perform_distinct (hbounded : r.state.Bounded) (inv : r.state.Distinct)
    (h : perform r op = some r') : r'.state.Distinct := by
  cases op with
  | enqueueEvent event now timestamp =>
    cases h
    unfold enqueueEvent
    split
    · exact inv
    · exact inv.enqueue hbounded event now timestamp
  | markServiceDirty id now timestamp =>
    cases h
    exact inv.mark hbounded id now timestamp
  | takeDueKeys now =>
    cases h
    show (r.state.takeDueKeys now).2.Distinct
    unfold State.takeDueKeys
    split <;> exact inv.of_eq rfl
  | retryService key now timestamp =>
    cases h
    exact inv.retry _ key now timestamp
  | applyNodes nodes visit =>
    simp only [perform, Option.ite_none_right_eq_some, Option.some.injEq] at h
    obtain ⟨-, rfl⟩ := h
    rw [(withNodes_frame r nodes visit).1]
    exact inv.of_eq rfl
  | applyService service =>
    obtain ⟨metadata, -, rfl⟩ := perform_applyService h
    exact inv.bump hbounded _ _
  | removeService id =>
    cases h
    rw [(removeService_frame r id).1]
    exact inv.forget id
  | pruneServiceGenerations =>
    cases h
    exact inv.prune
  | _ =>
    cases h
    exact inv.of_eq rfl

theorem perform_dirtyInv (inv : r.DirtyInv) (h : perform r op = some r') : r'.DirtyInv :=
  ⟨perform_generationInv inv.generations h, perform_represents inv.pending h,
    perform_distinct inv.generations.bounded inv.distinct h⟩

omit [HostText] in
theorem withPolicy_dirtyInv (custom : CustomLabels) (policy : ReconcilerPolicy) (now : Timestamp) :
    (withPolicy custom policy now).DirtyInv := by
  refine ⟨withPolicy_generationInv custom policy now, .empty rfl rfl, ?_⟩
  intro id id' generation generation' hget
  simp [withPolicy, State.new] at hget

end Reconciler

namespace World

variable [HostText] {config : Config} {trace : List (Step World Action)} {w : World}

theorem Runs.dirtyInv (h : Runs config trace w) : w.reconciler.DirtyInv :=
  h.invariant Reconciler.DirtyInv (Reconciler.withPolicy_dirtyInv _ _ _)
    fun _ _ _ _ => Reconciler.perform_dirtyInv

/-- **The representation of the dirty set and the generations**, in every reachable world. -/
theorem dirty_set_represented (h : Runs config trace w) :
    w.reconciler.state.pendingOrder.Nodup ∧
    (∀ id, id ∈ w.reconciler.state.pendingOrder ↔ id ∈ w.reconciler.state.pendingSet) ∧
    w.reconciler.state.pendingSet.size ≤ config.policy.pendingCap ∧
    (∀ (id : String) (entry : PendingKey), w.reconciler.state.pendingSet[id]? = some entry →
      entry.attempts ≤ config.policy.retryDelays.length) ∧
    (∀ id, id ∈ w.reconciler.metadata ↔ ∃ generation : Generation,
      w.reconciler.state.serviceGeneration[id]? = some generation ∧ generation.cached = true) ∧
    (∀ (id id' : String) (generation generation' : Generation),
      w.reconciler.state.serviceGeneration[id]? = some generation →
      w.reconciler.state.serviceGeneration[id']? = some generation' →
      generation.value = generation'.value → id = id') ∧
    ∀ (id : String) (generation : Generation),
      w.reconciler.state.serviceGeneration[id]? = some generation →
        generation.value ≤ w.reconciler.state.generationCounter := by
  obtain ⟨⟨hbounded, hcached⟩, ⟨⟨hnodup, hsame⟩, hcapped, hattempts⟩, hdistinct⟩ := h.dirtyInv
  have hpolicy := h.policy
  have hcap : w.reconciler.state.pendingCap = config.policy.pendingCap :=
    congrArg ReconcilerPolicy.pendingCap hpolicy
  have hdelays : w.reconciler.retryDelays = config.policy.retryDelays :=
    congrArg ReconcilerPolicy.retryDelays hpolicy
  rw [hcap] at hcapped
  rw [hdelays] at hattempts
  refine ⟨hnodup, hsame, hcapped, hattempts, fun id => (hcached id).trans ?_, hdistinct, hbounded⟩
  constructor
  · rintro ⟨value, hvalue⟩
    exact ⟨⟨value, true⟩, hvalue, rfl⟩
  · rintro ⟨⟨value, cached⟩, hget, rfl⟩
    exact ⟨value, hget⟩

end World

namespace Sample

/-- An event of the service `id`. -/
def changed (id : String) : Event := { kind := "service", action := "update", actor := ⟨id⟩ }

/-- A cycle that takes one key and whose inspect is answered with `result`. -/
def inspectCycle (result : Except CallError Service) : List Action :=
  [.beginCycle 1000, .checkNodes, .checkResync 1000, .takeDueKeys, .startInspect,
    .inspected result 1000, .endCycle]

def timedOut : CallError := ⟨"service inspect", ⟨.timeout, "context deadline exceeded"⟩⟩

end Sample

open Sample in
/-- A key whose inspect failed, behind one that an event marked meanwhile. -/
theorem World.dirty_set_represented_sample :
    ∃ trace w, Runs config trace w ∧ w.reconciler.state.pendingOrder = ["web", "db"] ∧
      w.reconciler.state.pendingSet.size ≤ 4096 ∧ "web" ∈ w.reconciler.state.pendingSet := by
  have hreplay : (replay World.step (init config)
      (resyncCycle [replicated "web" "web" 2] [] ["web"] ++
        .enqueueEvent (changed "web") 0 1000 :: inspectCycle (.error timedOut) ++
        [.enqueueEvent (changed "db") 0 1000])).any
      (fun result => decide (result.2.reconciler.state.pendingOrder = ["web", "db"])) = true := by
    decide +kernel
  obtain ⟨trace, w, hrun, -, hcheck⟩ := exists_run_of_replay hreplay
  have horder := of_decide_eq_true hcheck
  obtain ⟨-, hsame, hcapped, -⟩ := dirty_set_represented hrun
  exact ⟨trace, w, hrun, horder, hcapped, (hsame "web").1 (by rw [horder]; decide)⟩

end SwarmExporter
