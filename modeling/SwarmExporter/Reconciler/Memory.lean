import SwarmExporter.Reconciler.DirtySet
import SwarmExporter.Reconciler.NoLostUpdate

/-!
# What the generations hold on to

A generation belongs to a cached service, to a queued key, or to a key of the batch in hand; one that
belongs to none of them is `Loose`. Only taking keys makes generations loose, and an inspect settles
its key: the service is cached, or forgotten, or queued again. An inspect that gives its key up instead
leaves the generation behind until the next overflow or the next completed resync (`World.Abandons`).
-/

namespace SwarmExporter

open Lib
open Docker (CallError Event Node Service)

namespace State

variable {state : State} {id other : String}

/-- `id` has a generation although it is neither cached nor queued. -/
def Loose (state : State) (id : String) : Prop :=
  (∃ generation : Generation, state.serviceGeneration[id]? = some generation ∧
    generation.cached = false) ∧ id ∉ state.pendingSet

theorem Loose.of_eq {state' : State} (h : state'.Loose id)
    (hgenerations : state'.serviceGeneration = state.serviceGeneration)
    (hpending : state'.pendingSet = state.pendingSet) : state.Loose id := by
  unfold Loose at h ⊢
  rwa [hgenerations, hpending] at h

/-- Pruning leaves no generation loose. -/
theorem not_loose_prune (state : State) : ¬state.pruneServiceGenerations.Loose id := by
  rintro ⟨⟨generation, hget, hcached⟩, hpending⟩
  rw [getElem?_prune, Option.filter_eq_some_iff] at hget
  obtain ⟨-, hkept⟩ := hget
  simp only [hcached, Bool.false_or, decide_eq_true_eq] at hkept
  exact hpending hkept

theorem not_loose_overflow (state : State) (timestamp : Timestamp) :
    ¬(state.overflow timestamp).Loose id :=
  fun h => not_loose_prune { state with pendingSet := ∅, pendingOrder := [] } (h.of_eq rfl rfl)

/-- Queueing a key makes no generation loose, and its own is not. -/
theorem loose_queueKey {entry : PendingKey} {timestamp : Timestamp}
    (h : (state.queueKey id entry timestamp).Loose other) : id ≠ other ∧ state.Loose other := by
  unfold queueKey at h
  split at h
  · exact absurd h (not_loose_overflow state timestamp)
  · obtain ⟨hgeneration, hpending⟩ := h
    simp only [Std.ExtTreeMap.mem_insert, Std.LawfulEqCmp.compare_eq_iff_eq, not_or] at hpending
    exact ⟨hpending.1, hgeneration, hpending.2⟩

theorem loose_bump {cached : Option Bool} (hother : id ≠ other)
    (h : (state.bumpServiceGeneration id cached).Loose other) : state.Loose other := by
  obtain ⟨⟨generation, hget, hcached⟩, hpending⟩ := h
  rw [getElem?_bump, if_neg hother] at hget
  exact ⟨⟨generation, hget, hcached⟩, hpending⟩

theorem loose_markServiceDirty {now : Instant} {timestamp : Timestamp}
    (h : (state.markServiceDirty id now timestamp).Loose other) : state.Loose other := by
  unfold markServiceDirty at h
  simp only at h
  split at h
  · have hother : id ≠ other := by
      rintro rfl
      exact h.2 Std.ExtTreeMap.mem_insert_self
    refine loose_bump hother ⟨h.1, fun hmem => h.2 ?_⟩
    exact Std.ExtTreeMap.mem_insert.2 (.inr hmem)
  · obtain ⟨hother, hloose⟩ := loose_queueKey h
    exact loose_bump hother hloose

theorem loose_enqueueEvent {event : Event} {now : Instant} {timestamp : Timestamp}
    (h : (state.enqueueEvent event now timestamp).Loose id) : state.Loose id := by
  unfold enqueueEvent at h
  split at h
  · exact h
  · split at h
    · exact h.of_eq rfl rfl
    · split at h
      · exact loose_markServiceDirty h
      · exact h

/-- A retry makes no generation loose, and while there is a delay left the one of its key is not. -/
theorem loose_retryService {delays : List Duration} {key : DueKey} {now : Instant}
    {timestamp : Timestamp} (h : (state.retryService delays key now timestamp).Loose id) :
    state.Loose id ∧ (key.attempts < delays.length → key.serviceId ≠ id) := by
  unfold retryService at h
  split at h
  · rename_i hpending
    exact ⟨h, fun _ heq => h.2 (heq ▸ hpending)⟩
  · split at h
    · rename_i hnone
      refine ⟨h.of_eq rfl rfl, fun hlt => ?_⟩
      rw [List.getElem?_eq_none_iff] at hnone
      omega
    · obtain ⟨hother, hloose⟩ := loose_queueKey h
      exact ⟨hloose, fun _ => hother⟩

theorem loose_forgetService (h : (state.forgetService id).Loose other) :
    id ≠ other ∧ state.Loose other := by
  obtain ⟨⟨generation, hget, hcached⟩, hpending⟩ := h
  have hsame : (state.forgetService id).pendingSet = state.pendingSet := by
    unfold forgetService
    split <;> rfl
  rw [hsame] at hpending
  rw [getElem?_forget] at hget
  split at hget
  · rename_i hother
    split at hget
    · exact absurd (hother ▸ ‹id ∈ state.pendingSet›) hpending
    · cases hget
  · rename_i hother
    exact ⟨hother, ⟨generation, hget, hcached⟩, hpending⟩

/-- A key that is taken may be loose then. -/
theorem loose_takeDueKeys {now : Instant} (h : (state.takeDueKeys now).2.Loose id) :
    state.Loose id ∨ id ∈ (state.takeDueKeys now).1.map (·.serviceId) := by
  have hgenerations : (state.takeDueKeys now).2.serviceGeneration = state.serviceGeneration := by
    unfold takeDueKeys
    split <;> rfl
  by_cases hpending : id ∈ state.pendingSet
  · rcases mem_takeDueKeys state now hpending with hmem | ⟨key, hkey, hid⟩
    · exact absurd hmem h.2
    · exact .inr (List.mem_map.2 ⟨key, hkey, hid⟩)
  · exact .inl ⟨hgenerations ▸ h.1, hpending⟩

/-- A cycle takes its share at most. -/
theorem length_takeDueKeys_le {retries : Nat} (h : state.Represents retries) (now : Instant) :
    (state.takeDueKeys now).1.length ≤ serviceKeysPerCycle := by
  by_cases hcompleted : state.resyncCompleted = 0
  · rw [takeDueKeys, if_pos (.inl hcompleted)]
    exact Nat.zero_le _
  · obtain ⟨pendingSet, heq, -⟩ := takeDueKeys_spec h.same hcompleted now
    rw [heq, List.length_map]
    exact length_firstDue_le _

end State

namespace Reconciler

variable [HostText] {r r' : Reconciler} {op : Op} {id : String}

/-- **Only taking keys makes a generation loose.** -/
theorem perform_loose (h : perform r op = some r') (htake : ∀ now, op ≠ .takeDueKeys now)
    (hloose : r'.state.Loose id) : r.state.Loose id := by
  cases op with
  | takeDueKeys now => exact absurd rfl (htake now)
  | enqueueEvent event now timestamp =>
    cases h
    unfold enqueueEvent at hloose
    split at hloose
    · exact hloose
    · exact State.loose_enqueueEvent hloose
  | markServiceDirty id now timestamp =>
    cases h
    exact State.loose_markServiceDirty hloose
  | retryService key now timestamp =>
    cases h
    exact (State.loose_retryService hloose).1
  | applyNodes nodes visit =>
    simp only [perform, Option.ite_none_right_eq_some, Option.some.injEq] at h
    obtain ⟨-, rfl⟩ := h
    rw [(withNodes_frame r nodes visit).1] at hloose
    exact hloose.of_eq rfl rfl
  | applyService service =>
    obtain ⟨metadata, -, rfl⟩ := perform_applyService h
    have hother : service.id ≠ id := by
      rintro rfl
      obtain ⟨⟨generation, hget, hcached⟩, -⟩ := hloose
      rw [withService_state, State.getElem?_bump, if_pos rfl] at hget
      cases hget
      cases hcached
    exact State.loose_bump hother hloose
  | removeService removed =>
    cases h
    rw [(removeService_frame r removed).1] at hloose
    exact (State.loose_forgetService hloose).2
  | pruneServiceGenerations =>
    cases h
    exact absurd hloose (State.not_loose_prune r.state)
  | _ =>
    cases h
    exact hloose.of_eq rfl rfl

end Reconciler

/-- The keys the reconciler has taken and not yet settled. -/
def Phase.held : Phase → List String
  | .batch keys => keys.map (·.serviceId)
  | .inspecting key keys => (key :: keys).map (·.serviceId)
  | _ => []

/-- A shutdown drops the rest of the batch, and no cycle follows it. -/
def Phase.closing : Phase → Bool
  | .idle => true
  | .batch _ => true
  | .inspecting _ _ => true
  | _ => false

namespace World

/-! ## Giving a key up -/

/-- The ways in which the inspect of `key` ends without settling it: an answer about another service, a
panic, or a failure with no delay left. -/
def GivesUp (r : Reconciler) (key : DueKey) : Action → Prop
  | .inspected (.ok service) _ =>
    service.id ≠ key.serviceId ∨ ∃ panic, buildMetadata service r.customLabels = .error panic
  | .inspected (.error error) _ =>
    error.source.isNotFound = false ∧ r.retryDelays.length ≤ key.attempts
  | .stepPanics _ => True
  | _ => False

/-- The inspect gives its key up while nothing else accounts for the generation. -/
def Abandons (w : World) (action : Action) : Prop :=
  ∃ key keys, w.phase = .inspecting key keys ∧ w.reconciler.state.Loose key.serviceId ∧
    GivesUp w.reconciler key action

variable [HostText] {config : Config} {trace : List (Step World Action)} {w w' : World}
  {action : Action} {id : String}

theorem step_loose (wired : w.reconciler.Wired) (h : w.step action = some w')
    (htake : action ≠ .takeDueKeys) (hloose : w'.reconciler.state.Loose id) :
    w.reconciler.state.Loose id := by
  obtain ⟨ops, hperforms, hmakes⟩ := step_ops wired h
  refine hperforms.induct (fun r => r.state.Loose id → w.reconciler.state.Loose id)
    (fun hsame => hsame) ?_ hloose
  intro op hop current next hcurrent hperform hnext
  refine hcurrent (Reconciler.perform_loose hperform ?_ hnext)
  rintro now rfl
  exact htake ((makes_madeBy hmakes (List.mem_filter.2 ⟨hop, rfl⟩)).takes now rfl)

/-- An inspect that does not give its key up settles it. -/
theorem inspected_settles {key : DueKey} {keys : List DueKey} {result : Except CallError Service}
    {timestamp : Timestamp} (wired : w.reconciler.Wired) (hphase : w.phase = .inspecting key keys)
    (h : w.step (.inspected result timestamp) = some w')
    (hkept : ¬w.Abandons (.inspected result timestamp)) :
    ¬w'.reconciler.state.Loose key.serviceId := by
  intro hloose
  have hgives : ¬GivesUp w.reconciler key (.inspected result timestamp) := fun hgives =>
    hkept ⟨key, keys, hphase, step_loose wired h (by simp) hloose, hgives⟩
  rcases inspected_cases wired hphase h with ⟨service, metadata, rfl, -, heq⟩ |
    ⟨service, panic, rfl, hpanic, -⟩ | ⟨error, rfl, -, heq⟩ | ⟨error, rfl, hfound, heq⟩
  · have hid : service.id = key.serviceId := by
      by_contra hne
      exact hgives (.inl hne)
    rw [heq, Reconciler.withService_state] at hloose
    obtain ⟨⟨generation, hget, hcached⟩, -⟩ := hloose
    rw [State.getElem?_bump, if_pos hid] at hget
    cases hget
    cases hcached
  · exact hgives (.inr ⟨panic, hpanic⟩)
  · rw [heq, (Reconciler.removeService_frame _ _).1] at hloose
    exact (State.loose_forgetService hloose).1 rfl
  · have hlt : key.attempts < w.reconciler.retryDelays.length := by
      by_contra hge
      exact hgives ⟨hfound, Nat.le_of_not_lt hge⟩
    rw [heq] at hloose
    exact (State.loose_retryService hloose).2 hlt rfl

/-! ## The generations of a run -/

/-- Every loose generation is one of a key in hand; after a cancellation it may be one of the last
batch. -/
def LooseInv (w : World) : Prop :=
  ∃ keys : List String, keys.length ≤ serviceKeysPerCycle ∧
    (∀ id, w.reconciler.state.Loose id → id ∈ keys) ∧
    (w.cancelled = true ∧ w.phase.closing = true ∨ keys = w.phase.held)

omit [HostText] in
theorem init_looseInv (config : Config) : LooseInv (init config) := by
  refine ⟨[], Nat.zero_le _, fun id hloose => ?_, .inr rfl⟩
  obtain ⟨⟨generation, hget, -⟩, -⟩ := hloose
  simp [init, Reconciler.withPolicy, State.new] at hget

omit [HostText] in
/-- A step after which the reconciler holds the same keys. -/
theorem LooseInv.of_held (hinv : w.LooseInv)
    (hloose : ∀ id, w'.reconciler.state.Loose id → w.reconciler.state.Loose id)
    (hclosing : w.cancelled = true → w.phase.closing = true →
      w'.cancelled = true ∧ w'.phase.closing = true)
    (hheld : w'.phase.held = w.phase.held) : w'.LooseInv := by
  obtain ⟨keys, hlength, hkeys, hor⟩ := hinv
  refine ⟨keys, hlength, fun id hid => hkeys id (hloose id hid), ?_⟩
  rcases hor with ⟨hdone, hphase⟩ | rfl
  · exact .inl (hclosing hdone hphase)
  · exact .inr hheld.symm

omit [HostText] in
/-- A step of a cycle that has not come to its keys. -/
theorem LooseInv.of_open (hinv : w.LooseInv)
    (hloose : ∀ id, w'.reconciler.state.Loose id → w.reconciler.state.Loose id)
    (hopen : w.cancelled = false ∨ w.phase.closing = false) (hheld : w.phase.held = [])
    (hheld' : w'.phase.held = []) : w'.LooseInv := by
  refine hinv.of_held hloose (fun hdone hclosing => ?_) (hheld'.trans hheld.symm)
  rcases hopen with hrunning | hphase
  · simp [hrunning] at hdone
  · simp [hphase] at hclosing

omit [HostText] in
/-- An inspect that is over, with its key settled or the exporter shutting down. -/
theorem LooseInv.of_inspected {key : DueKey} {keys : List DueKey} (hinv : w.LooseInv)
    (hphase : w.phase = .inspecting key keys) (hphase' : w'.phase = .batch keys)
    (hloose : ∀ id, w'.reconciler.state.Loose id → w.reconciler.state.Loose id)
    (hcancelled : w'.cancelled = w.cancelled)
    (hsettled : w.cancelled = true ∨ ¬w'.reconciler.state.Loose key.serviceId) : w'.LooseInv := by
  obtain ⟨held, hlength, hkeys, hor⟩ := hinv
  by_cases hdone : w.cancelled = true
  · refine ⟨held, hlength, fun id hid => hkeys id (hloose id hid), .inl ⟨hcancelled ▸ hdone, ?_⟩⟩
    rw [hphase']
    rfl
  · rcases hor with ⟨hcontra, -⟩ | rfl
    · exact absurd hcontra hdone
    · rw [hphase] at hlength hkeys
      refine ⟨keys.map (·.serviceId), ?_, fun id hid => ?_, .inr (by rw [hphase']; rfl)⟩
      · simp only [Phase.held, List.length_map, List.length_cons] at hlength ⊢
        omega
      · rcases List.mem_cons.1 (hkeys id (hloose id hid)) with rfl | hmem
        · exact absurd hid (hsettled.resolve_left hdone)
        · exact hmem

/-- A cycle takes its keys. -/
theorem LooseInv.of_taken (hinv : w.LooseInv) (hdirty : w.reconciler.DirtyInv)
    (h : w.step .takeDueKeys = some w') : w'.LooseInv := by
  simp only [step, cycleStep] at h
  split at h
  · rename_i now hphase
    cases h
    obtain ⟨keys, -, hkeys, hor⟩ := hinv
    rw [hphase] at hor
    obtain rfl : keys = [] := by
      rcases hor with ⟨-, hclosing⟩ | hheld
      · cases hclosing
      · exact hheld
    refine ⟨(w.reconciler.state.takeDueKeys now).1.map (·.serviceId), ?_, fun id hid => ?_, .inr rfl⟩
    · rw [List.length_map]
      exact State.length_takeDueKeys_le hdirty.pending now
    · rcases State.loose_takeDueKeys hid with hloose | hmem
      · cases hkeys id hloose
      · exact hmem
  · cases h

/-- Until a cycle takes its keys it holds none. -/
theorem held_of_open (h : w.step action = some w') (hcycle : action.isCycle = true)
    (htake : action ≠ .takeDueKeys) (hphase : w.phase.closing = false) : w'.phase.held = [] := by
  have hmoves := step_moves h hcycle
  generalize w.phase = phase at hmoves hphase
  generalize w'.phase = phase' at hmoves ⊢
  cases hmoves with
  | takes => exact absurd rfl htake
  | inspects => cases hphase
  | answers => cases hphase
  | _ => rfl

/-- A cycle begins while the exporter is not shutting down. -/
theorem step_idle (hphase : w.phase = .idle) (h : w.step action = some w')
    (hcycle : action.isCycle = true) : w.cancelled = false ∧ w'.phase = .nodesCheck w.instant := by
  have hmoves := step_moves h hcycle
  rw [hphase] at hmoves
  generalize w'.phase = phase at hmoves ⊢
  cases hmoves with
  | begins hrunning => exact ⟨hrunning, rfl⟩
  | ends hpass => cases hpass

/-- The end of a batch, whether it is done or dropped. -/
theorem LooseInv.of_batch {keys : List DueKey} (hinv : w.LooseInv) (hphase : w.phase = .batch keys)
    (h : w.step action = some w') (hcycle : action.isCycle = true)
    (hloose : ∀ id, w'.reconciler.state.Loose id → w.reconciler.state.Loose id)
    (hcancelled : w'.cancelled = w.cancelled) : w'.LooseInv := by
  have hmoves := step_moves h hcycle
  rw [hphase] at hmoves
  generalize hpost : w'.phase = phase at hmoves
  cases hmoves with
  | inspects =>
    refine hinv.of_held hloose (fun hdone _ => ⟨hcancelled ▸ hdone, ?_⟩) ?_
    · rw [hpost]
      rfl
    · rw [hphase, hpost]
      rfl
  | finishes hover =>
    by_cases hrunning : w.cancelled = false
    · obtain rfl : keys = [] := hover.resolve_right (by simp [hrunning])
      exact hinv.of_open hloose (.inl hrunning) (by rw [hphase]; rfl) (by rw [hpost]; rfl)
    · -- The rest of the batch is dropped, and no other follows.
      obtain ⟨held, hlength, hkeys, -⟩ := hinv
      exact ⟨held, hlength, fun id hid => hkeys id (hloose id hid),
        .inl ⟨by simpa [hcancelled] using hrunning, by rw [hpost]; rfl⟩⟩
  | ends hpass => cases hpass

/-- The end of an inspect that does not give its key up. -/
theorem LooseInv.of_inspect {key : DueKey} {keys : List DueKey} (hinv : w.LooseInv)
    (wired : w.reconciler.Wired) (hphase : w.phase = .inspecting key keys)
    (h : w.step action = some w') (hcycle : action.isCycle = true)
    (hloose : ∀ id, w'.reconciler.state.Loose id → w.reconciler.state.Loose id)
    (hcancelled : w'.cancelled = w.cancelled) (hkept : ¬w.Abandons action) : w'.LooseInv := by
  obtain ⟨hphase', hact⟩ := step_inspecting hphase h hcycle
  refine hinv.of_inspected hphase hphase' hloose hcancelled ?_
  rcases hact with ⟨result, timestamp, rfl⟩ | ⟨timestamp, rfl⟩ | hdone
  · exact .inr (inspected_settles wired hphase h hkept)
  · exact .inr fun hkey => hkept ⟨key, keys, hphase, hloose _ hkey, trivial⟩
  · exact .inl hdone

theorem step_looseInv (h : w.step action = some w') (wired : w.reconciler.Wired)
    (hdirty : w.reconciler.DirtyInv) (hinv : w.LooseInv) (hkept : ¬w.Abandons action) :
    w'.LooseInv := by
  by_cases htake : action = .takeDueKeys
  · subst htake
    exact hinv.of_taken hdirty h
  have hloose : ∀ id, w'.reconciler.state.Loose id → w.reconciler.state.Loose id :=
    fun id => step_loose wired h htake
  by_cases hcycle : action.isCycle = true
  · have hcancelled : w'.cancelled = w.cancelled := by
      obtain ⟨reconciler, phase, rfl⟩ := step_frame h hcycle
      rfl
    cases hphase : w.phase with
    | idle =>
      obtain ⟨hrunning, hphase'⟩ := step_idle hphase h hcycle
      exact hinv.of_open hloose (.inl hrunning) (by rw [hphase]; rfl) (by rw [hphase']; rfl)
    | batch keys => exact hinv.of_batch hphase h hcycle hloose hcancelled
    | inspecting key keys => exact hinv.of_inspect wired hphase h hcycle hloose hcancelled hkept
    | _ =>
      have hopen : w.phase.closing = false := by
        rw [hphase]
        rfl
      exact hinv.of_open hloose (.inr hopen) (by rw [hphase]; rfl)
        (held_of_open h hcycle htake hopen)
  · have hphase := step_phase h (by simpa using hcycle)
    refine hinv.of_held hloose (fun hdone hclosing => ⟨?_, hphase ▸ hclosing⟩) (by rw [hphase])
    cases hrunning : w'.cancelled with
    | true => rfl
    | false => exact absurd hdone (by rw [step_cancelled h hrunning]; simp)

theorem Runs.looseInv (h : Runs config trace w) (hkept : ∀ st ∈ trace, ¬st.pre.Abandons st.act) :
    w.LooseInv := by
  refine Run.history (fun trace w => (∀ st ∈ trace, ¬st.pre.Abandons st.act) → w.LooseInv)
    (fun _ => init_looseInv config) ?_ h hkept
  intro trace t action u hrun ih hstep hkept
  have hrun : Runs config trace t := hrun
  refine step_looseInv hstep hrun.wired hrun.dirtyInv
    (ih fun st hst => hkept st (List.mem_append_left _ hst)) ?_
  exact hkept ⟨t, action, u⟩ (List.mem_append_right _ (List.mem_singleton.2 rfl))

omit [HostText] in
/-- The ids with a generation whose service is not cached. -/
def uncachedGenerations (w : World) : List String :=
  w.reconciler.state.serviceGeneration.keys.filter (· ∉ w.reconciler.metadata)

/-- **The generations of a run are bounded** by the cap, the share of a cycle and the cache, as long as
no inspect gives up a key whose generation is then left behind. -/
theorem generation_memory_bounded (h : Runs config trace w)
    (hkept : ∀ st ∈ trace, ¬st.pre.Abandons st.act) :
    w.uncachedGenerations.length ≤ config.policy.pendingCap + serviceKeysPerCycle := by
  obtain ⟨hgenerations, hpending, -⟩ := h.dirtyInv
  obtain ⟨keys, hlength, hkeys, -⟩ := h.looseInv hkept
  have hcap : w.reconciler.state.pendingCap = config.policy.pendingCap :=
    congrArg ReconcilerPolicy.pendingCap h.policy
  have hsub : w.uncachedGenerations ⊆ w.reconciler.state.pendingOrder ++ keys := by
    intro id hid
    obtain ⟨hmem, hcached⟩ := List.mem_filter.1 hid
    rw [Std.ExtTreeMap.mem_keys, mem_iff_getElem?] at hmem
    obtain ⟨generation, hget⟩ := hmem
    rw [List.mem_append, hpending.same.2]
    by_cases hqueued : id ∈ w.reconciler.state.pendingSet
    · exact .inl hqueued
    · refine .inr (hkeys id ⟨⟨generation, hget, ?_⟩, hqueued⟩)
      obtain ⟨value, cached⟩ := generation
      cases cached with
      | false => rfl
      | true => exact absurd ((hgenerations.cached id).2 ⟨value, hget⟩) (of_decide_eq_true hcached)
  have hnodup : w.uncachedGenerations.Nodup := Std.ExtTreeMap.nodup_keys.filter _
  calc w.uncachedGenerations.length
      ≤ (w.reconciler.state.pendingOrder ++ keys).length := hnodup.length_le_of_subset hsub
    _ = w.reconciler.state.pendingSet.size + keys.length := by
      rw [List.length_append, hpending.same.size_eq]
    _ ≤ config.policy.pendingCap + serviceKeysPerCycle := by
      have hcapped := hpending.capped
      omega

end World

namespace Sample

/-- Whether a step leaves no generation behind, as far as the answer to an inspect goes. -/
def settles (st : Step World Action) : Bool :=
  match st.pre.phase, st.act with
  | .inspecting key _, .inspected (.ok service) _ =>
    service.id == key.serviceId && (buildMetadata service st.pre.reconciler.customLabels).isOk
  | .inspecting key _, .inspected (.error error) _ =>
    error.source.isNotFound || decide (key.attempts < st.pre.reconciler.retryDelays.length)
  | .inspecting _ _, .stepPanics _ => false
  | _, _ => true

theorem not_abandons_of_settles {st : Step World Action} (h : settles st = true) :
    ¬st.pre.Abandons st.act := by
  rintro ⟨key, keys, hphase, -, hgives⟩
  unfold settles at h
  unfold World.GivesUp at hgives
  rw [hphase] at h
  split at hgives
  · rename_i hact
    simp only [hact, Bool.and_eq_true, beq_iff_eq] at h
    rcases hgives with hne | ⟨panic, hpanic⟩
    · exact hne h.1
    · rw [hpanic] at h
      cases h.2
  · rename_i hact
    simp only [hact, Bool.or_eq_true, decide_eq_true_eq, hgives.1, Bool.false_eq_true,
      false_or] at h
    exact absurd hgives.2 (Nat.not_le_of_lt h)
  · rename_i hact
    simp [hact] at h
  · exact hgives

/-- One key at a time, and no retries. -/
def noRetries : Config := { config with policy := { pendingCap := 1, retryDelays := [] } }

/-- The cycle in which a resync is tried in vain before the key of `id` is. -/
def failingCycle (id : String) : List Action :=
  [.enqueueEvent (changed id) 0 1000, .beginCycle 1000, .checkNodes, .checkResync 1000,
    .servicesListed (.error timedOut), .takeDueKeys, .startInspect, .inspected (.error timedOut) 1000,
    .endCycle]

/-- Ids one after the other, each with a failing inspect, while the resync waits for its backoff. -/
def everNewIds : List Action :=
  resyncCycle [] [] [] ++ .enqueueEvent (changed "0") 0 1000 :: inspectCycle (.error timedOut) ++
    failingCycle "1" ++
    "abcdefghijklmnopqrstuvwxyzABCDEF".toList.flatMap fun char =>
      .enqueueEvent (changed (String.ofList [char])) 0 1000 :: inspectCycle (.error timedOut)

end Sample

open Sample in
theorem World.generation_memory_bounded_sample :
    ∃ trace w, Runs config trace w ∧ (∀ st ∈ trace, ¬st.pre.Abandons st.act) ∧
      w.uncachedGenerations = ["db", "web"] ∧ w.uncachedGenerations.length ≤ 4096 + 32 := by
  have hreplay : (replay World.step (init config)
      (resyncCycle [] [] [] ++ .enqueueEvent (changed "web") 0 1000 ::
        inspectCycle (.error timedOut) ++ [.enqueueEvent (changed "db") 0 1000])).any
      (fun result => result.1.all settles &&
        decide (result.2.uncachedGenerations = ["db", "web"])) = true := by decide +kernel
  obtain ⟨trace, w, hrun, -, hcheck⟩ := exists_run_of_replay hreplay
  simp only [Bool.and_eq_true, List.all_eq_true, decide_eq_true_eq] at hcheck
  obtain ⟨hsettles, hids⟩ := hcheck
  have hkept : ∀ st ∈ trace, ¬st.pre.Abandons st.act := fun st hst =>
    not_abandons_of_settles (hsettles st hst)
  exact ⟨trace, w, hrun, hkept, hids, generation_memory_bounded hrun hkept⟩

open Sample in
/-- While inspects and resyncs keep failing, the keys that ran out of retries leave their generations
behind: here 34 of them, with a cap of one key. -/
theorem World.generation_memory_grows :
    ∃ trace w, Runs noRetries trace w ∧
      noRetries.policy.pendingCap + serviceKeysPerCycle < w.uncachedGenerations.length := by
  have hreplay : (replay World.step (init noRetries) everNewIds).any (fun result =>
      decide (noRetries.policy.pendingCap + serviceKeysPerCycle <
        result.2.uncachedGenerations.length)) = true := by decide +kernel
  obtain ⟨trace, w, hrun, -, hcheck⟩ := exists_run_of_replay hreplay
  exact ⟨trace, w, hrun, of_decide_eq_true hcheck⟩

end SwarmExporter
