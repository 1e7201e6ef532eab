import SwarmExporter.Reconciler.DirtySet
import SwarmExporter.Reconciler.Identities
import SwarmExporter.Reconciler.Resync

/-!
# Reconciling one key beside the others

The metadata and the generation of a service follow its id, so reconciling one key leaves those of
every other service alone. The series follow the label identity: the step deletes those under the
identity its service was cached with, and writes those under the one the answer gives it, whoever else
is cached with that identity (`Harmless` says when this does no harm).
-/

namespace SwarmExporter

open Lib
open Docker (CallError Event Node Service)

namespace Reconciler

variable {r r' : Reconciler} {key : DueKey} {id : String} {cached : ServiceMetadata}

/-- The metadata, the generation and all series of the service `id`, cached as `cached`, are as they
were. -/
structure Keeps (r r' : Reconciler) (id : String) (cached : ServiceMetadata) : Prop where
  metadata : r'.metadata[id]? = r.metadata[id]?
  generation : r'.state.serviceGeneration[id]? = r.state.serviceGeneration[id]?
  series : r'.seriesAt (labelsForMetadata cached) = r.seriesAt (labelsForMetadata cached)

/-- `id` is cached as `cached`, is not the key's own service, and Docker still has it. -/
def Neighbour (r : Reconciler) (existing : List Service) (key : DueKey) (id : String)
    (cached : ServiceMetadata) : Prop :=
  id ≠ key.serviceId ∧ r.metadata[id]? = some cached ∧ id ∈ existing.map (·.id)

/-- No neighbour is cached with the identity the key's service is cached with, unless its series were
lost before. -/
def KeepsDeleted (r : Reconciler) (existing : List Service) (key : DueKey) : Prop :=
  ∀ id cached, r.Neighbour existing key id cached →
    r.holds key.serviceId (labelsForMetadata cached) = true →
      r.seriesAt (labelsForMetadata cached) = .empty

variable [HostText]

/-- No neighbour is cached with the identity `service` has now, unless the series there are those of
`service` already; nor with the one it had before. -/
def KeepsWritten (r : Reconciler) (existing : List Service) (key : DueKey) (service : Service)
    (metadata : ServiceMetadata) : Prop :=
  ∀ id cached, r.Neighbour existing key id cached →
    if labelsForMetadata metadata = labelsForMetadata cached then
      r.seriesAt (labelsForMetadata cached) = .full service metadata r.nodes
    else r.holds key.serviceId (labelsForMetadata cached) = true →
      r.seriesAt (labelsForMetadata cached) = .empty

/-- The way `action` ends the inspect of `key` touches no series of a neighbour. -/
def Harmless (r : Reconciler) (existing : List Service) (key : DueKey) : Action → Prop
  | .inspected (.ok service) _ => ∀ metadata, buildMetadata service r.customLabels = .ok metadata →
      r.KeepsWritten existing key service metadata
  | .inspected (.error error) _ => error.source.isNotFound = true → r.KeepsDeleted existing key
  | _ => True

/-! ## The three ways to end an inspect -/

omit [HostText] in
theorem keeps_of_frame (hmetadata : r'.metadata = r.metadata)
    (hgeneration : r'.state.serviceGeneration[id]? = r.state.serviceGeneration[id]?)
    (hgauges : r'.replicaGauges = r.replicaGauges) (hupdate : r'.serviceUpdate = r.serviceUpdate) :
    r.Keeps r' id cached := by
  refine ⟨by rw [hmetadata], hgeneration, ?_⟩
  unfold seriesAt
  rw [hgauges, hupdate]

omit [HostText] in
/-- A retry may drop the whole dirty set, which keeps the generations of the cached services. -/
theorem keeps_retryService (inv : r.GenerationInv) (hcached : r.metadata[id]? = some cached)
    (delays : List Duration) (now : Instant) (timestamp : Timestamp) :
    r.Keeps (r.modifyState (·.retryService delays key now timestamp)) id cached := by
  obtain ⟨value, hvalue⟩ := (inv.cached id).1 (mem_iff_getElem?.2 ⟨cached, hcached⟩)
  have hages := State.retryService_ages r.state delays key now timestamp
  have hvalue' := (hages.kept id value not_false).2 hvalue
  exact keeps_of_frame rfl (hvalue'.trans hvalue.symm) rfl rfl

omit [HostText] in
theorem keeps_removeService_iff (wired : r.Wired) (hne : id ≠ key.serviceId)
    (hcached : r.metadata[id]? = some cached) :
    r.Keeps (r.removeService key.serviceId) id cached ↔
      (r.holds key.serviceId (labelsForMetadata cached) = true →
        r.seriesAt (labelsForMetadata cached) = .empty) := by
  have hseries := seriesAt_removeService wired (wired.labelled id cached hcached) key.serviceId
  constructor
  · intro hkeeps hholds
    rw [if_pos hholds] at hseries
    exact hkeeps.series.symm.trans hseries
  · intro hlost
    refine ⟨?_, ?_, ?_⟩
    · rw [removeService_metadata, Std.ExtTreeMap.getElem?_erase]
      simp [Ne.symm hne]
    · rw [(removeService_frame r key.serviceId).1, State.getElem?_forget, if_neg (Ne.symm hne)]
    · rw [hseries]
      split
      · rename_i hholds
        exact (hlost hholds).symm
      · rfl

theorem keeps_withService_iff (wired : r.Wired) {service : Service} {metadata : ServiceMetadata}
    (hmetadata : buildMetadata service r.customLabels = .ok metadata)
    (hid : service.id = key.serviceId) (hne : id ≠ key.serviceId)
    (hcached : r.metadata[id]? = some cached) :
    r.Keeps (r.withService service r.nodes metadata) id cached ↔
      if labelsForMetadata metadata = labelsForMetadata cached then
        r.seriesAt (labelsForMetadata cached) = .full service metadata r.nodes
      else r.holds key.serviceId (labelsForMetadata cached) = true →
        r.seriesAt (labelsForMetadata cached) = .empty := by
  have hseries := seriesAt_withService wired (labelled_of_buildMetadata hmetadata)
    (wired.labelled id cached hcached) service r.nodes
  have hother : service.id ≠ id := fun heq => hne (heq.symm.trans hid)
  have hiff : r.Keeps (r.withService service r.nodes metadata) id cached ↔
      (r.withService service r.nodes metadata).seriesAt (labelsForMetadata cached) =
        r.seriesAt (labelsForMetadata cached) := by
    refine ⟨fun hkeeps => hkeeps.series, fun heq => ⟨?_, ?_, heq⟩⟩
    · rw [withService_metadata, Std.ExtTreeMap.getElem?_insert]
      simp [hother]
    · rw [withService_state, State.getElem?_bump, if_neg hother]
  rw [hiff, hseries, hid]
  by_cases hlabels : labelsForMetadata metadata = labelsForMetadata cached
  · rw [if_pos hlabels, if_pos hlabels, eq_comm]
  · rw [if_neg hlabels, if_neg hlabels]
    split
    · rename_i hholds
      simp only [hholds, forall_const]
      exact eq_comm
    · rename_i hholds
      simp [hholds]

end Reconciler

namespace World

variable [HostText] {config : Config} {w w' : World} {key : DueKey} {keys : List DueKey}
  {existing : List Service} {action : Action}

/-- What Docker, which has `existing`, answers about `key`. -/
def Answers (existing : List Service) (key : DueKey) : Action → Prop
  | .inspected (.ok service) _ => service ∈ existing ∧ service.id = key.serviceId
  | .inspected (.error error) _ =>
    error.source.isNotFound = true → key.serviceId ∉ existing.map (·.id)
  | _ => True

/-- **Reconciling one key leaves every other service that Docker still has alone exactly where it is
harmless.** -/
theorem reconcile_keeps_others_iff (h : Reachable config w)
    (hphase : w.phase = .inspecting key keys) (hstep : w.step action = some w')
    (hcycle : action.isCycle = true) (hanswer : Answers existing key action) :
    (∀ id cached, w.reconciler.Neighbour existing key id cached →
        w.reconciler.Keeps w'.reconciler id cached) ↔
      w.reconciler.Harmless existing key action := by
  obtain ⟨trace, hrun⟩ := h
  have wired := Runs.wired hrun
  -- Whatever leaves the families, the cache and the generations alone is harmless.
  have hquiet : ∀ reconciler : Reconciler, w'.reconciler = reconciler →
      reconciler.metadata = w.reconciler.metadata →
      reconciler.state.serviceGeneration = w.reconciler.state.serviceGeneration →
      reconciler.replicaGauges = w.reconciler.replicaGauges →
      reconciler.serviceUpdate = w.reconciler.serviceUpdate →
      ∀ id cached, w.reconciler.Neighbour existing key id cached →
        w.reconciler.Keeps w'.reconciler id cached := by
    rintro reconciler rfl hmetadata hgeneration hgauges hupdate id cached -
    exact Reconciler.keeps_of_frame hmetadata (by rw [hgeneration]) hgauges hupdate
  cases action with
  | inspected result timestamp =>
    rcases inspected_cases wired hphase hstep with ⟨service, metadata, rfl, hmetadata, heq⟩ |
      ⟨service, panic, rfl, hpanic, heq⟩ | ⟨error, rfl, hfound, heq⟩ | ⟨error, rfl, hfound, heq⟩
    · have hiff : w.reconciler.Harmless existing key (.inspected (.ok service) timestamp) ↔
          w.reconciler.KeepsWritten existing key service metadata := by
        refine ⟨fun hharmless => hharmless metadata hmetadata, fun hkeeps built hbuilt => ?_⟩
        obtain rfl := Except.ok.inj (hmetadata.symm.trans hbuilt)
        exact hkeeps
      rw [heq, hiff]
      refine forall_congr' fun id => forall_congr' fun cached => forall_congr' fun hneighbour => ?_
      exact Reconciler.keeps_withService_iff wired hmetadata hanswer.2 hneighbour.1 hneighbour.2.1
    · refine iff_of_true (hquiet _ heq rfl rfl rfl rfl) fun metadata hmetadata => ?_
      rw [hpanic] at hmetadata
      cases hmetadata
    · have hiff : w.reconciler.Harmless existing key (.inspected (.error error) timestamp) ↔
          w.reconciler.KeepsDeleted existing key :=
        ⟨fun hharmless => hharmless hfound, fun hkeeps _ => hkeeps⟩
      rw [heq, hiff]
      refine forall_congr' fun id => forall_congr' fun cached => forall_congr' fun hneighbour => ?_
      exact Reconciler.keeps_removeService_iff wired hneighbour.1 hneighbour.2.1
    · refine iff_of_true (fun id cached hneighbour => ?_) fun hnotFound => ?_
      · rw [heq]
        exact Reconciler.keeps_retryService (Runs.dirtyInv hrun).generations hneighbour.2.1 _ _ _
      · rw [hfound] at hnotFound
        cases hnotFound
  | stepPanics timestamp =>
    simp only [step, cycleStep, hphase, Option.ite_none_right_eq_some, Option.some.injEq] at hstep
    obtain ⟨-, rfl⟩ := hstep
    exact iff_of_true (hquiet _ rfl rfl rfl rfl rfl) trivial
  | stepCancelled =>
    simp only [step, cycleStep, hphase, Option.ite_none_right_eq_some, Option.some.injEq] at hstep
    obtain ⟨-, rfl⟩ := hstep
    exact iff_of_true (hquiet _ rfl rfl rfl rfl rfl) trivial
  | cancel => cases hcycle
  | _ =>
    first
    | (simp only [step, cycleStep, hphase] at hstep; cases hstep)
    | cases hcycle

end World

namespace Sample

/-- Whether `id` is cached, with series before the step and none after it. -/
def losesSeries (id : String) (st : Step World Action) : Bool :=
  st.pre.reconciler.metadata[id]?.any fun cached =>
    (st.pre.reconciler.seriesAt (labelsForMetadata cached)).desired.isSome &&
      (st.post.reconciler.seriesAt (labelsForMetadata cached)).desired.isNone

/-- Whether every cached service but the key's has an identity other than `service` has, and than the
key's is cached with. -/
def apart (r : Reconciler) (key : DueKey) (service : Service) : Bool :=
  match buildMetadata service r.customLabels with
  | .ok metadata => r.metadata.toList.all fun entry => entry.1 == key.serviceId ||
      (labelsForMetadata metadata != labelsForMetadata entry.2 &&
        !r.holds key.serviceId (labelsForMetadata entry.2))
  | .error _ => true

theorem harmless_of_apart [HostText] {r : Reconciler} {key : DueKey} {service : Service}
    (h : apart r key service = true) (existing : List Service) (timestamp : Timestamp) :
    r.Harmless existing key (.inspected (.ok service) timestamp) := by
  rintro metadata hmetadata id cached ⟨hne, hcached, -⟩
  simp only [apart, hmetadata, List.all_eq_true] at h
  have hentry := h ⟨id, cached⟩ (Std.ExtTreeMap.mem_toList_iff_getElem?_eq_some.2 hcached)
  simp only [Bool.or_eq_true, beq_iff_eq, hne, false_or, Bool.and_eq_true, bne_iff_ne, ne_eq,
    Bool.not_eq_true'] at hentry
  rw [if_neg hentry.1, hentry.2]
  intro hfalse
  cases hfalse

/-- Docker no longer has the service that was inspected. -/
def gone : CallError := ⟨"service inspect", ⟨.notFound, "service not found"⟩⟩

end Sample

open Sample in
/-- A service that is scaled, beside another one. -/
theorem World.reconcile_keeps_others_iff_sample :
    ∃ w w' cached, Reachable config w ∧ w.phase = .inspecting ⟨"a", 0⟩ [] ∧
      w.step (.inspected (.ok (replicated "a" "web" 3)) 1000) = some w' ∧
      w.reconciler.metadata["c"]? = some cached ∧ w.reconciler.Keeps w'.reconciler "c" cached := by
  let existing : List Service := [replicated "a" "web" 3, replicated "c" "db" 1]
  have hreplay : (replay step (init config)
      (resyncCycle [replicated "a" "web" 2, replicated "c" "db" 1] [] ["a", "c"] ++
        [.enqueueEvent (changed "a") 0 1000, .beginCycle 1000, .checkNodes, .checkResync 1000,
          .takeDueKeys, .startInspect] ++
        [.inspected (.ok (replicated "a" "web" 3)) 1000])).any (fun result =>
      result.1.getLast?.any fun st => decide (st.pre.phase = .inspecting ⟨"a", 0⟩ []) &&
        decide ("c" ∈ st.pre.reconciler.metadata) &&
        apart st.pre.reconciler ⟨"a", 0⟩ (replicated "a" "web" 3)) = true := by
    decide +kernel
  obtain ⟨trace, st, hrun, hstep, hact, hcheck⟩ := exists_last_of_replay hreplay
  simp only [Bool.and_eq_true, decide_eq_true_eq] at hcheck
  obtain ⟨⟨hphase, hcached⟩, hapart⟩ := hcheck
  obtain ⟨cached, hcached⟩ := mem_iff_getElem?.1 hcached
  rw [hact] at hstep
  have hanswer : Answers existing ⟨"a", 0⟩ (.inspected (.ok (replicated "a" "web" 3)) 1000) :=
    ⟨by simp [existing], rfl⟩
  have hkeeps := (reconcile_keeps_others_iff ⟨trace, hrun⟩ hphase hstep rfl hanswer).2
    (harmless_of_apart hapart existing 1000)
  refine ⟨st.pre, st.post, cached, ⟨trace, hrun⟩, hphase, hstep, hcached, ?_⟩
  exact hkeeps "c" cached ⟨by decide, hcached, by simp [existing, replicated]⟩

open Sample in
/-- A service that is removed and created anew under its name: the inspect of the old id fails at first,
so that of the new one comes before it; the removal then deletes the series of the new one. -/
theorem World.reconcile_loses_recreated :
    ∃ w w' cached, Reachable config w ∧ w.phase = .inspecting ⟨"a", 1⟩ [] ∧
      Reconciler.WellListed config.custom [replicated "b" "web" 2] ∧
      Answers [replicated "b" "web" 2] ⟨"a", 1⟩ (.inspected (.error gone) 1000) ∧
      w.step (.inspected (.error gone) 1000) = some w' ∧
      w.reconciler.Neighbour [replicated "b" "web" 2] ⟨"a", 1⟩ "b" cached ∧
      ¬w.reconciler.Keeps w'.reconciler "b" cached := by
  have hreplay : (replay step (init config)
      (resyncCycle [replicated "a" "web" 2] [] ["a"] ++
        [.enqueueEvent (changed "a") 0 1000, .enqueueEvent (changed "b") 0 1000, .beginCycle 1000,
          .checkNodes, .checkResync 1000, .takeDueKeys, .startInspect,
          .inspected (.error timedOut) 1000, .startInspect,
          .inspected (.ok (replicated "b" "web" 2)) 1000, .endCycle, .tick 1000 500000000,
          .beginCycle 1000, .checkNodes, .checkResync 1000, .takeDueKeys, .startInspect] ++
        [.inspected (.error gone) 1000])).any (fun result =>
      result.1.getLast?.any fun st => decide (st.pre.phase = .inspecting ⟨"a", 1⟩ []) &&
        losesSeries "b" st) = true := by
    decide +kernel
  obtain ⟨trace, st, hrun, hstep, hact, hcheck⟩ := exists_last_of_replay hreplay
  simp only [Bool.and_eq_true, decide_eq_true_eq] at hcheck
  obtain ⟨hphase, hloses⟩ := hcheck
  obtain ⟨cached, hcached, hseries⟩ := (Option.any_eq_true _ _).1 hloses
  rw [hact] at hstep
  refine ⟨st.pre, st.post, cached, ⟨trace, hrun⟩, hphase, wellListed_replicated .., ?_, hstep,
    ⟨by decide, hcached, by simp [replicated]⟩, fun hkeeps => ?_⟩
  · intro _
    simp [replicated]
  · simp only [hkeeps.series, Bool.and_eq_true] at hseries
    obtain ⟨hsome, hnone⟩ := hseries
    rw [Option.isNone_iff_eq_none] at hnone
    rw [hnone] at hsome
    cases hsome

end SwarmExporter
