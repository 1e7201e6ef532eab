import SwarmExporter.Reconciler.Series

/-!
# Generations

The generation of a service takes a fresh value on every change, and the flag in it mirrors the
metadata cache (`GenerationInv`). So the generation of a service that is cached at two moments is the
same at both exactly if no operation in between touched the service: an untouched one keeps its entry
(`perform_untouched`), and a touched one that is cached has a value above all earlier ones
(`perform_touched`). The node generation counts the node events and the node lists likewise.
-/

namespace SwarmExporter

open Lib
open Docker (Event Node Service)

/-- Whether `op` marks, applies or removes the service `id`. -/
def Op.Touches (id : String) : Op → Prop
  | .enqueueEvent event _ _ => event.actor.id = id ∧ id ≠ "" ∧ event.kind = State.eventTypeService
  | .markServiceDirty serviceId _ _ => serviceId = id
  | .applyService service => service.id = id
  | .removeService serviceId => serviceId = id
  | _ => False

/-- Whether `op` marks the nodes dirty or applies a node list. -/
def Op.TouchesNodes : Op → Prop
  | .enqueueEvent event _ _ => event.actor.id ≠ "" ∧ event.kind = State.eventTypeNode
  | .applyNodes .. => True
  | _ => False

/-- The metadata without the counts that follow the nodes. -/
def ServiceMetadata.spec (metadata : ServiceMetadata) : ServiceMetadata :=
  { metadata with desiredReplicas := 0 }

namespace State

variable {state state' : State} {id other : String}

/-- The generation of `id`, while the cache holds it. -/
def CachedAt (state : State) (id : String) (value : Nat) : Prop :=
  state.serviceGeneration[id]? = some ⟨value, true⟩

/-- Every value handed out is at most the counter. -/
def Bounded (state : State) : Prop :=
  ∀ (id : String) (generation : Generation), state.serviceGeneration[id]? = some generation →
    generation.value ≤ state.generationCounter

/-- What an operation on the state does to the generations: entries of uncached services may go, and
an entry that is marked gets a fresh value. -/
structure Ages (marked : String → Prop) (state state' : State) : Prop where
  counter : state.generationCounter ≤ state'.generationCounter
  bounded : state.Bounded → state'.Bounded
  kept : ∀ id value, ¬marked id → (state'.CachedAt id value ↔ state.CachedAt id value)
  fresh : ∀ id value, marked id → state'.CachedAt id value → state.generationCounter < value
  cached : ∀ id, (∃ value, state'.CachedAt id value) ↔ ∃ value, state.CachedAt id value

namespace Ages

variable {marked : String → Prop} {first second third : State}

theorem of_eq (hgenerations : second.serviceGeneration = first.serviceGeneration)
    (hcounter : second.generationCounter = first.generationCounter) :
    Ages (fun _ => False) first second := by
  refine ⟨hcounter.ge, fun hbounded => ?_, fun id value _ => ?_, fun _ _ h => h.elim, fun id => ?_⟩
  · intro id generation h
    rw [hgenerations] at h
    rw [hcounter]
    exact hbounded id generation h
  · unfold CachedAt
    rw [hgenerations]
  · unfold CachedAt
    rw [hgenerations]

theorem congr {marked' : String → Prop} (h : Ages marked first second)
    (hmarked : ∀ id, marked' id ↔ marked id) : Ages marked' first second :=
  ⟨h.counter, h.bounded, fun id value hnot => h.kept id value fun hid => hnot ((hmarked id).2 hid),
    fun id value hid => h.fresh id value ((hmarked id).1 hid), h.cached⟩

/-- After marking, an operation that marks nothing. -/
theorem trans (h : Ages marked first second) (h' : Ages (fun _ => False) second third) :
    Ages marked first third := by
  refine ⟨h.counter.trans h'.counter, fun hbounded => h'.bounded (h.bounded hbounded),
    fun id value hmarked => ?_, fun id value hmarked hcached => ?_, fun id => ?_⟩
  · exact (h'.kept id value not_false).trans (h.kept id value hmarked)
  · exact h.fresh id value hmarked ((h'.kept id value not_false).1 hcached)
  · exact (h'.cached id).trans (h.cached id)

end Ages

theorem getElem?_bump (state : State) (id : String) (cached : Option Bool) (other : String) :
    (state.bumpServiceGeneration id cached).serviceGeneration[other]? =
      if id = other then some ⟨state.generationCounter + 1,
        cached.getD ((state.serviceGeneration[id]?.map (·.cached)).getD false)⟩
      else state.serviceGeneration[other]? := by
  simp only [bumpServiceGeneration, Std.ExtTreeMap.getElem?_insert,
    Std.LawfulEqCmp.compare_eq_iff_eq, Std.ExtTreeMap.getD_eq_getD_getElem?]
  cases state.serviceGeneration[id]? <;> rfl

theorem bump_bounded (h : state.Bounded) (id : String) (cached : Option Bool) :
    (state.bumpServiceGeneration id cached).Bounded := by
  intro other generation hother
  rw [getElem?_bump] at hother
  show generation.value ≤ state.generationCounter + 1
  split at hother
  · cases hother
    exact le_rfl
  · exact (h other generation hother).trans (Nat.le_succ _)

theorem bump_ages (state : State) (id : String) :
    Ages (fun other => id = other) state (state.bumpServiceGeneration id none) := by
  refine ⟨Nat.le_succ _, fun hbounded => bump_bounded hbounded id none, fun other value hother => ?_,
    fun other value hother hcached => ?_, fun other => ?_⟩
  · unfold CachedAt
    rw [getElem?_bump, if_neg hother]
  · unfold CachedAt at hcached
    rw [getElem?_bump, if_pos hother] at hcached
    simp only [Option.some.injEq, Generation.mk.injEq] at hcached
    omega
  · unfold CachedAt
    rw [getElem?_bump]
    by_cases hother : id = other
    · subst hother
      rw [if_pos rfl]
      cases hentry : state.serviceGeneration[id]? with
      | none => simp
      | some generation =>
        obtain ⟨value, cached⟩ := generation
        simp
    · rw [if_neg hother]

theorem getElem?_prune (state : State) (id : String) :
    state.pruneServiceGenerations.serviceGeneration[id]? =
      state.serviceGeneration[id]?.filter fun generation =>
        generation.cached || decide (id ∈ state.pendingSet) := by
  simp only [pruneServiceGenerations]
  rw [Std.ExtTreeMap.getElem?_filter']

theorem prune_ages (state : State) : Ages (fun _ => False) state state.pruneServiceGenerations := by
  have hkept : ∀ id value, state.pruneServiceGenerations.CachedAt id value ↔
      state.CachedAt id value := by
    intro id value
    unfold CachedAt
    rw [getElem?_prune]
    cases state.serviceGeneration[id]? with
    | none => simp
    | some generation =>
      obtain ⟨value', cached⟩ := generation
      simp only [Option.filter]
      cases cached <;> simp
  refine ⟨le_rfl, fun hbounded id generation h => ?_, fun id value _ => hkept id value,
    fun _ _ h => h.elim, fun id => exists_congr fun value => hkept id value⟩
  rw [getElem?_prune, Option.filter_eq_some_iff] at h
  exact hbounded id generation h.1

theorem overflow_ages (state : State) (timestamp : Timestamp) :
    Ages (fun _ => False) state (state.overflow timestamp) := by
  have hemptied : Ages (fun _ => False) state { state with pendingSet := ∅, pendingOrder := [] } :=
    .of_eq rfl rfl
  exact (hemptied.trans (prune_ages _)).trans (.of_eq rfl rfl)

theorem queueKey_ages (state : State) (id : String) (pending : PendingKey) (timestamp : Timestamp) :
    Ages (fun _ => False) state (state.queueKey id pending timestamp) := by
  unfold queueKey
  split
  · exact overflow_ages state timestamp
  · exact .of_eq rfl rfl

theorem markServiceDirty_ages (state : State) (id : String) (now : Instant) (timestamp : Timestamp) :
    Ages (fun other => id = other) state (state.markServiceDirty id now timestamp) := by
  have hbump := bump_ages state id
  unfold markServiceDirty
  simp only
  split
  · exact hbump.trans (.of_eq rfl rfl)
  · exact hbump.trans (queueKey_ages _ id _ timestamp)

theorem retryService_ages (state : State) (delays : List Duration) (key : DueKey) (now : Instant)
    (timestamp : Timestamp) :
    Ages (fun _ => False) state (state.retryService delays key now timestamp) := by
  unfold retryService
  split
  · exact .of_eq rfl rfl
  · split
    · exact .of_eq rfl rfl
    · exact queueKey_ages state _ _ timestamp

theorem takeDueKeys_ages (state : State) (now : Instant) :
    Ages (fun _ => False) state (state.takeDueKeys now).2 := by
  unfold takeDueKeys
  split
  · exact .of_eq rfl rfl
  · exact .of_eq rfl rfl

theorem getElem?_forget (state : State) (id other : String) :
    (state.forgetService id).serviceGeneration[other]? =
      if id = other then
        if id ∈ state.pendingSet then
          state.serviceGeneration[id]?.map ({ · with cached := false })
        else none
      else state.serviceGeneration[other]? := by
  unfold forgetService
  split
  · simp only [Std.ExtTreeMap.getElem?_modify, Std.LawfulEqCmp.compare_eq_iff_eq]
  · simp only [Std.ExtTreeMap.getElem?_erase, Std.LawfulEqCmp.compare_eq_iff_eq]

end State

namespace Reconciler

variable [HostText] {r r' : Reconciler} {op : Op} {id : String}

/-- The flags of the generations mirror the metadata cache. -/
structure GenerationInv (r : Reconciler) : Prop where
  bounded : r.state.Bounded
  cached : ∀ id, id ∈ r.metadata ↔ ∃ value, r.state.CachedAt id value

/-- An operation that neither applies nor removes a service only marks, and caches the same ids. -/
theorem perform_ages (h : perform r op = some r') (happly : ∀ service, op ≠ .applyService service)
    (hremove : ∀ id, op ≠ .removeService id) :
    State.Ages (fun id => op.Touches id) r.state r'.state ∧ ∀ id, id ∈ r'.metadata ↔ id ∈ r.metadata := by
  cases op with
  | enqueueEvent event now timestamp =>
    cases h
    unfold enqueueEvent
    split
    · rename_i hempty
      refine ⟨(State.Ages.of_eq rfl rfl).congr fun id => ?_, fun _ => Iff.rfl⟩
      have hid : event.actor.id = "" := by simpa using hempty
      simp only [Op.Touches, iff_false]
      rintro ⟨rfl, hne, -⟩
      exact hne hid
    · rename_i hempty
      have hid : event.actor.id ≠ "" := by simpa using hempty
      refine ⟨?_, fun _ => Iff.rfl⟩
      show State.Ages _ r.state (r.state.enqueueEvent event now timestamp)
      unfold State.enqueueEvent
      rw [if_neg hempty]
      split
      · rename_i hnode
        have hnodes : State.Ages (fun _ => False) r.state r.state.markNodesDirty := .of_eq rfl rfl
        refine hnodes.congr fun id => ?_
        simp only [Op.Touches, hnode, iff_false]
        rintro ⟨-, -, hkind⟩
        exact absurd hkind (by decide)
      · split
        · rename_i hkind
          refine (State.markServiceDirty_ages r.state _ now timestamp).congr fun id => ?_
          simp only [Op.Touches, hkind, and_true]
          refine ⟨And.left, fun heq => ⟨heq, ?_⟩⟩
          rintro rfl
          exact hid heq
        · rename_i hkind
          refine (State.Ages.of_eq rfl rfl).congr fun id => ?_
          simp only [Op.Touches, hkind, and_false]
  | markServiceDirty serviceId now timestamp =>
    cases h
    exact ⟨State.markServiceDirty_ages r.state serviceId now timestamp, fun _ => Iff.rfl⟩
  | takeDueKeys now =>
    cases h
    exact ⟨State.takeDueKeys_ages r.state now, fun _ => Iff.rfl⟩
  | retryService key now timestamp =>
    cases h
    exact ⟨State.retryService_ages r.state r.retryDelays key now timestamp, fun _ => Iff.rfl⟩
  | applyNodes nodes visit =>
    simp only [perform, Option.ite_none_right_eq_some, Option.some.injEq] at h
    obtain ⟨hvisit, rfl⟩ := h
    rw [(withNodes_frame r nodes visit).1, withNodes_metadata hvisit]
    exact ⟨.of_eq rfl rfl, fun id => Std.ExtTreeMap.mem_map⟩
  | pruneServiceGenerations =>
    cases h
    exact ⟨State.prune_ages r.state, fun _ => Iff.rfl⟩
  | applyService service => exact absurd rfl (happly service)
  | removeService id => exact absurd rfl (hremove id)
  | _ =>
    cases h
    exact ⟨.of_eq rfl rfl, fun _ => Iff.rfl⟩

theorem perform_applyService {service : Service} (h : perform r (.applyService service) = some r') :
    ∃ metadata, buildMetadata service r.customLabels = .ok metadata ∧
      r' = r.withService service r.nodes metadata := by
  simp only [perform] at h
  split at h
  · rename_i metadata hmetadata
    cases h
    exact ⟨metadata, hmetadata, rfl⟩
  · cases h

omit [HostText] in
theorem forget_cachedAt (state : State) (removed other : String) (value : Nat) :
    (state.forgetService removed).CachedAt other value ↔
      removed ≠ other ∧ state.CachedAt other value := by
  unfold State.CachedAt
  rw [State.getElem?_forget]
  by_cases hother : removed = other
  · subst hother
    simp only [↓reduceIte, ne_eq, not_true_eq_false, false_and, iff_false]
    split
    · cases state.serviceGeneration[removed]? <;> simp
    · simp
  · simp [hother]

theorem perform_counter (h : perform r op = some r') :
    r.state.generationCounter ≤ r'.state.generationCounter := by
  cases op with
  | applyService service =>
    obtain ⟨metadata, -, rfl⟩ := perform_applyService h
    exact Nat.le_succ _
  | removeService id =>
    cases h
    rw [(removeService_frame r id).1]
    unfold State.forgetService
    split <;> exact le_rfl
  | _ => exact (perform_ages h (by simp) (by simp)).1.counter

/-- **An operation that does not touch a cached service keeps its generation.** -/
theorem perform_untouched (h : perform r op = some r') (hun : ¬op.Touches id) (value : Nat) :
    r'.state.CachedAt id value ↔ r.state.CachedAt id value := by
  cases op with
  | applyService service =>
    obtain ⟨metadata, -, rfl⟩ := perform_applyService h
    have hother : service.id ≠ id := hun
    unfold State.CachedAt
    rw [withService_state, State.getElem?_bump, if_neg hother]
  | removeService removed =>
    cases h
    rw [(removeService_frame r removed).1, forget_cachedAt]
    exact and_iff_right hun
  | _ => exact (perform_ages h (by simp) (by simp)).1.kept id value hun

/-- **A touched service that is cached has a value above all earlier ones.** -/
theorem perform_touched (h : perform r op = some r') (htouched : op.Touches id) {value : Nat}
    (hcached : r'.state.CachedAt id value) : r.state.generationCounter < value := by
  cases op with
  | applyService service =>
    obtain ⟨metadata, -, rfl⟩ := perform_applyService h
    have hid : service.id = id := htouched
    unfold State.CachedAt at hcached
    rw [withService_state, State.getElem?_bump, if_pos hid] at hcached
    cases hcached
    exact Nat.lt_succ_self _
  | removeService removed =>
    cases h
    rw [(removeService_frame r removed).1, forget_cachedAt] at hcached
    exact absurd htouched hcached.1
  | _ => exact (perform_ages h (by simp) (by simp)).1.fresh id value htouched hcached

theorem perform_generationInv (inv : r.GenerationInv) (h : perform r op = some r') :
    r'.GenerationInv := by
  cases op with
  | applyService service =>
    obtain ⟨metadata, -, rfl⟩ := perform_applyService h
    refine ⟨State.bump_bounded inv.bounded _ _, fun id => ?_⟩
    unfold State.CachedAt
    rw [withService_state, withService_metadata, Std.ExtTreeMap.mem_insert, State.getElem?_bump]
    by_cases hid : service.id = id
    · simp [hid]
    · simp only [hid, ↓reduceIte, Std.LawfulEqCmp.compare_eq_iff_eq, false_or]
      exact inv.cached id
  | removeService removed =>
    cases h
    refine ⟨?_, fun id => ?_⟩
    · rw [(removeService_frame r removed).1]
      intro id generation hget
      have hcounter : (r.state.forgetService removed).generationCounter =
          r.state.generationCounter := by
        unfold State.forgetService
        split <;> rfl
      rw [State.getElem?_forget] at hget
      rw [hcounter]
      split at hget
      · split at hget
        · obtain ⟨old, hold, rfl⟩ := Option.map_eq_some_iff.1 hget
          exact inv.bounded removed old hold
        · cases hget
      · exact inv.bounded id generation hget
    · rw [(removeService_frame r removed).1, removeService_metadata, Std.ExtTreeMap.mem_erase]
      simp only [forget_cachedAt, ne_eq, exists_and_left, ← inv.cached id,
        Std.LawfulEqCmp.compare_eq_iff_eq]
  | _ =>
    obtain ⟨hages, hmetadata⟩ := perform_ages h (by simp) (by simp)
    exact ⟨hages.bounded inv.bounded, fun id =>
      (hmetadata id).trans ((inv.cached id).trans (hages.cached id).symm)⟩

omit [HostText] in
theorem withPolicy_generationInv (custom : CustomLabels) (policy : ReconcilerPolicy)
    (now : Timestamp) : (withPolicy custom policy now).GenerationInv := by
  constructor
  · simp [State.Bounded, withPolicy, State.new]
  · simp [State.CachedAt, withPolicy, State.new]

omit [HostText] in
/-- A cached service has the value of its entry. -/
theorem generationOf_of_cachedAt {state : State} {value : Nat} (h : state.CachedAt id value) :
    state.generationOf id = value := by
  unfold State.generationOf
  rw [h]

/-! ## What an untouched service keeps -/

omit [HostText] in
/-- Bookkeeping touches nothing. -/
theorem not_touches_bookkeep {op : Op} (h : op.isBookkeep = true) : ¬op.Touches id := by
  cases op <;> first | exact fun htouches => htouches | cases h

omit [HostText] in
theorem not_touchesNodes_bookkeep {op : Op} (h : op.isBookkeep = true) : ¬op.TouchesNodes := by
  cases op <;> first | exact fun htouches => htouches | cases h

/-- An untouched service keeps its spec; only its desired replicas follow the nodes. -/
theorem perform_spec (h : perform r op = some r') (hun : ¬op.Touches id) :
    r'.metadata[id]?.map ServiceMetadata.spec = r.metadata[id]?.map ServiceMetadata.spec := by
  cases op with
  | applyService service =>
    obtain ⟨metadata, -, rfl⟩ := perform_applyService h
    have hother : service.id ≠ id := hun
    rw [withService_metadata, Std.ExtTreeMap.getElem?_insert]
    simp [hother]
  | removeService removed =>
    cases h
    have hother : removed ≠ id := hun
    rw [removeService_metadata, Std.ExtTreeMap.getElem?_erase]
    simp [hother]
  | applyNodes nodes visit =>
    simp only [perform, Option.ite_none_right_eq_some, Option.some.injEq] at h
    obtain ⟨hvisit, rfl⟩ := h
    rw [withNodes_metadata hvisit, Std.ExtTreeMap.getElem?_map, Option.map_map]
    rfl
  | enqueueEvent event now timestamp =>
    cases h
    unfold enqueueEvent
    split <;> rfl
  | _ =>
    cases h
    rfl

theorem performs_untouched {ops : List Op} (h : Performs r ops r')
    (hun : ∀ op ∈ essential ops, ¬op.Touches id) :
    (∀ value, r'.state.CachedAt id value ↔ r.state.CachedAt id value) ∧
      r'.metadata[id]?.map ServiceMetadata.spec = r.metadata[id]?.map ServiceMetadata.spec := by
  refine h.induct (fun current =>
    (∀ value, current.state.CachedAt id value ↔ r.state.CachedAt id value) ∧
      current.metadata[id]?.map ServiceMetadata.spec = r.metadata[id]?.map ServiceMetadata.spec)
    ⟨fun _ => Iff.rfl, rfl⟩ ?_
  rintro op hop current next ⟨hcached, hspec⟩ hperform
  have huntouched := forall_of_essential (fun _ => not_touches_bookkeep) hun op hop
  exact ⟨fun value => (perform_untouched hperform huntouched value).trans (hcached value),
    (perform_spec hperform huntouched).trans hspec⟩

/-- `id` is not cached with `value` or an older one. -/
def Outdated (r : Reconciler) (id : String) (value : Nat) : Prop :=
  value ≤ r.state.generationCounter ∧ ∀ current, r.state.CachedAt id current → value < current

theorem performs_outdated {ops : List Op} {value : Nat} (h : Performs r ops r')
    (houtdated : r.Outdated id value) : r'.Outdated id value := by
  refine h.invariant (fun current => current.Outdated id value) houtdated ?_
  rintro current op next ⟨hle, hcurrent⟩ hperform
  refine ⟨hle.trans (perform_counter hperform), fun newer hnewer => ?_⟩
  by_cases htouched : op.Touches id
  · exact hle.trans_lt (perform_touched hperform htouched hnewer)
  · exact hcurrent newer ((perform_untouched hperform htouched newer).1 hnewer)

theorem performs_counter {ops : List Op} (h : Performs r ops r') :
    r.state.generationCounter ≤ r'.state.generationCounter :=
  h.invariant (fun current => r.state.generationCounter ≤ current.state.generationCounter) le_rfl
    fun _ _ _ hle hperform => hle.trans (perform_counter hperform)

/-- **A service touched on the way is outdated for good.** -/
theorem performs_touched {ops : List Op} {value : Nat} (h : Performs r ops r') (hop : op ∈ ops)
    (htouched : op.Touches id) (hvalue : value ≤ r.state.generationCounter) :
    r'.Outdated id value := by
  obtain ⟨before, after, rfl⟩ := List.append_of_mem hop
  obtain ⟨current, hbefore, hrest⟩ := h.of_append
  obtain ⟨next, hperform, hafter⟩ := hrest.of_cons
  have hle := hvalue.trans (performs_counter hbefore)
  refine performs_outdated hafter ⟨hle.trans (perform_counter hperform), fun newer hnewer => ?_⟩
  exact hle.trans_lt (perform_touched hperform htouched hnewer)

/-! ## The node generation -/

omit [HostText] in
theorem nodeGeneration_markServiceDirty (state : State) (id : String) (now : Instant)
    (timestamp : Timestamp) :
    (state.markServiceDirty id now timestamp).nodeGeneration = state.nodeGeneration := by
  unfold State.markServiceDirty State.queueKey
  simp only
  split
  · rfl
  · split <;> rfl

omit [HostText] in
theorem nodeGeneration_retryService (state : State) (delays : List Duration) (key : DueKey)
    (now : Instant) (timestamp : Timestamp) :
    (state.retryService delays key now timestamp).nodeGeneration = state.nodeGeneration := by
  unfold State.retryService State.queueKey
  split
  · rfl
  · split
    · rfl
    · split <;> rfl

/-- The node generation counts the operations that touch the nodes, and the others keep them. -/
theorem perform_nodes (h : perform r op = some r') :
    (op.TouchesNodes → r.state.nodeGeneration < r'.state.nodeGeneration) ∧
      (¬op.TouchesNodes → r'.state.nodeGeneration = r.state.nodeGeneration ∧ r'.nodes = r.nodes) := by
  cases op with
  | enqueueEvent event now timestamp =>
    cases h
    unfold enqueueEvent
    split
    · rename_i hempty
      have hid : event.actor.id = "" := by simpa using hempty
      exact ⟨fun htouches => absurd hid htouches.1, fun _ => ⟨rfl, rfl⟩⟩
    · rename_i hempty
      have hid : event.actor.id ≠ "" := by simpa using hempty
      by_cases hnode : event.kind = State.eventTypeNode
      · have hstate : r.state.enqueueEvent event now timestamp = r.state.markNodesDirty := by
          rw [State.enqueueEvent, if_neg hempty, if_pos hnode]
        refine ⟨fun _ => ?_, fun hun => absurd ⟨hid, hnode⟩ hun⟩
        show r.state.nodeGeneration < (r.state.enqueueEvent event now timestamp).nodeGeneration
        rw [hstate]
        exact Nat.lt_succ_self _
      · refine ⟨fun htouches => absurd htouches.2 hnode, fun _ => ⟨?_, rfl⟩⟩
        show (r.state.enqueueEvent event now timestamp).nodeGeneration = r.state.nodeGeneration
        rw [State.enqueueEvent, if_neg hempty, if_neg hnode]
        split
        · exact nodeGeneration_markServiceDirty _ _ _ _
        · rfl
  | markServiceDirty serviceId now timestamp =>
    cases h
    exact ⟨False.elim, fun _ => ⟨nodeGeneration_markServiceDirty _ _ _ _, rfl⟩⟩
  | takeDueKeys now =>
    cases h
    refine ⟨False.elim, fun _ => ⟨?_, rfl⟩⟩
    show (r.state.takeDueKeys now).2.nodeGeneration = r.state.nodeGeneration
    unfold State.takeDueKeys
    split <;> rfl
  | retryService key now timestamp =>
    cases h
    exact ⟨False.elim, fun _ => ⟨nodeGeneration_retryService _ _ _ _ _, rfl⟩⟩
  | applyNodes nodes visit =>
    simp only [perform, Option.ite_none_right_eq_some, Option.some.injEq] at h
    obtain ⟨-, rfl⟩ := h
    rw [(withNodes_frame r nodes visit).1]
    exact ⟨fun _ => Nat.lt_succ_self _, fun hun => absurd trivial hun⟩
  | applyService service =>
    obtain ⟨metadata, -, rfl⟩ := perform_applyService h
    exact ⟨False.elim, fun _ => ⟨rfl, withService_nodes _ _ _ _⟩⟩
  | removeService removed =>
    cases h
    refine ⟨False.elim, fun _ => ⟨?_, removeService_nodes r removed⟩⟩
    rw [(removeService_frame r removed).1]
    unfold State.forgetService
    split <;> rfl
  | _ =>
    cases h
    exact ⟨False.elim, fun _ => ⟨rfl, rfl⟩⟩

theorem performs_nodes_untouched {ops : List Op} (h : Performs r ops r')
    (hun : ∀ op ∈ essential ops, ¬op.TouchesNodes) :
    r'.state.nodeGeneration = r.state.nodeGeneration ∧ r'.nodes = r.nodes := by
  refine h.induct (fun current => current.state.nodeGeneration = r.state.nodeGeneration ∧
    current.nodes = r.nodes) ⟨rfl, rfl⟩ ?_
  rintro op hop current next ⟨hgeneration, hnodes⟩ hperform
  obtain ⟨hgeneration', hnodes'⟩ := (perform_nodes hperform).2
    (forall_of_essential (fun _ => not_touchesNodes_bookkeep) hun op hop)
  exact ⟨hgeneration'.trans hgeneration, hnodes'.trans hnodes⟩

theorem perform_nodeGeneration (h : perform r op = some r') :
    r.state.nodeGeneration ≤ r'.state.nodeGeneration := by
  by_cases htouches : op.TouchesNodes
  · exact ((perform_nodes h).1 htouches).le
  · exact ((perform_nodes h).2 htouches).1.ge

theorem performs_nodeGeneration {ops : List Op} (h : Performs r ops r') :
    r.state.nodeGeneration ≤ r'.state.nodeGeneration :=
  h.invariant (fun current => r.state.nodeGeneration ≤ current.state.nodeGeneration) le_rfl
    fun _ _ _ hle hperform => hle.trans (perform_nodeGeneration hperform)

theorem performs_nodes_touched {ops : List Op} (h : Performs r ops r') (hop : op ∈ ops)
    (htouches : op.TouchesNodes) : r.state.nodeGeneration < r'.state.nodeGeneration := by
  obtain ⟨before, after, rfl⟩ := List.append_of_mem hop
  obtain ⟨current, hbefore, hrest⟩ := h.of_append
  obtain ⟨next, hperform, hafter⟩ := hrest.of_cons
  calc
    r.state.nodeGeneration ≤ current.state.nodeGeneration := performs_nodeGeneration hbefore
    _ < next.state.nodeGeneration := (perform_nodes hperform).1 htouches
    _ ≤ r'.state.nodeGeneration := performs_nodeGeneration hafter

end Reconciler

end SwarmExporter
