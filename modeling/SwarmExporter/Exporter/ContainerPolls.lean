import SwarmExporter.Collector.ContainerSeries
import SwarmExporter.Exporter.Steps

/-!
# The published container states

A poll of the containers comes after each poll of the tasks, whatever that one's outcome. Its rows always
fit the family (`build_of_poll`), so the set is replaced whenever such a poll ends with a list, and only
then: what is published is the build of the last one that did, however many failed or were cancelled since.
The list, its inspects and the publication are one step.
-/

namespace SwarmExporter

open Lib
open Docker (ContainerSummary)

/-- Whether the action ends a poll of the containers with an answer of Docker. -/
def ExporterAction.isContainerPoll : ExporterAction → Bool
  | .poller (.containersPolled _ _) => true
  | _ => false

/-- The list that action brings, with what the poll of it met. -/
def ExporterAction.containerList? : ExporterAction → Option (List ContainerSummary × Surroundings)
  | .poller (.containersPolled (.ok list) outside) => some (list, outside)
  | _ => none

/-- The poll of the containers is in progress. -/
def PollerPhase.pollsContainers : PollerPhase → Bool
  | .containers => true
  | _ => false

section Build

variable [HostText]

/-- **The set of a poll can always be built**: the rows fit the family, and the series are the ten of each
row. -/
theorem ContainersState.build_of_poll {config : ContainersConfig} {list : List ContainerSummary}
    {outside : Surroundings} {rows : List ContainerRow}
    (h : config.poll (.ok list) outside = .ok rows) :
    ∃ built, (buildContainersState containerStateDesc rows).build = .ok built ∧
      (∀ name values, HasSeries built name values ↔
        name = containerStateDesc.name ∧ values ∈ seriesKeys rows) ∧
      rows.length = (list.filter config.counts).length := by
  obtain ⟨enriched, -, hpoll, hrows, -⟩ := config.poll_spec outside list
  obtain rfl : enriched.map (·.row.labels) = rows := by
    rw [hpoll] at h
    exact Except.ok.inj h
  have hfits : ∀ row ∈ enriched.map (·.row.labels), containerStateDesc.Fits row := by
    intro row hrow
    obtain ⟨found, hfound, rfl⟩ := List.mem_map.1 hrow
    obtain ⟨container, -, hof⟩ := ContainersConfig.exists_of_mem_forall₂ hrows hfound
    exact fits_of hof
  refine ⟨_, ?_, hasSeries_build_iff hfits, ?_⟩
  · rw [buildContainersState_eq hfits, SnapshotBuilder.build, build_error hfits]
  · rw [List.length_map, hrows.length_eq]

end Build

namespace Exporter

variable [HostText] {settings : Settings} {trace : List (Step Exporter ExporterAction)}
  {e e' : Exporter} {action : ExporterAction}

/-- The container lists of a trace that Docker answered, in order. -/
def containerLists (trace : List (Step Exporter ExporterAction)) :
    List (List ContainerSummary × Surroundings) :=
  trace.filterMap (·.act.containerList?)

/-- The polls of the containers that ended with an answer, in a trace. -/
def containerPolls (trace : List (Step Exporter ExporterAction)) : Nat :=
  trace.countP (·.act.isContainerPoll)

/-- The set published is that of the last list; without one, there is none. -/
def ShowsList (config : ContainersConfig) (current : Option (Map String BuiltFamily)) :
    Option (List ContainerSummary × Surroundings) → Prop
  | none => current = none
  | some (list, outside) => ∃ rows built, config.poll (.ok list) outside = .ok rows ∧
      (ContainersState.buildContainersState containerStateDesc rows).build = .ok built ∧
      current = some built

/-- What is published in a state of a run with the containers enabled. -/
structure ContainersShown (settings : Settings) (trace : List (Step Exporter ExporterAction))
    (e : Exporter) : Prop where
  state : ∃ containers, e.poller.containers = some containers ∧
    containers.config = settings.containers ∧ containers.desc = containerStateDesc ∧
    ShowsList settings.containers containers.current (containerLists trace).getLast?
  polls : containerPolls trace + e.poller.phase.pollsContainers.toNat ≤ e.poller.polls
  answered : e.system.world.cancelled = false →
    containerPolls trace + e.poller.phase.pollsContainers.toNat = e.poller.polls

omit [HostText] in
theorem containerLists_snoc (st : Step Exporter ExporterAction) :
    containerLists (trace ++ [st]) = containerLists trace ++ st.act.containerList?.toList := by
  unfold containerLists
  rw [List.filterMap_append]
  cases hlist : st.act.containerList? <;> simp [hlist]

omit [HostText] in
theorem containerPolls_snoc (st : Step Exporter ExporterAction) :
    containerPolls (trace ++ [st]) = containerPolls trace + st.act.isContainerPoll.toNat := by
  unfold containerPolls
  rw [List.countP_append]
  cases hpoll : st.act.isContainerPoll <;> simp [hpoll]

/-- A step that is no poll of the containers keeps the published set. -/
theorem ContainersShown.keep (h : ContainersShown settings trace e)
    (hcontainers : e'.poller.containers = e.poller.containers)
    (hlist : action.containerList? = none) (hpoll : action.isContainerPoll = false)
    (hcancelled : e'.system.world.cancelled = false → e.system.world.cancelled = false)
    (hpolls : e.poller.phase.pollsContainers.toNat + e'.poller.polls ≥
      e'.poller.phase.pollsContainers.toNat + e.poller.polls)
    (hequal : e'.system.world.cancelled = false →
      e.poller.phase.pollsContainers.toNat + e'.poller.polls =
        e'.poller.phase.pollsContainers.toNat + e.poller.polls) :
    ContainersShown settings (trace ++ [⟨e, action, e'⟩]) e' := by
  have hlists : containerLists (trace ++ [⟨e, action, e'⟩]) = containerLists trace := by
    rw [containerLists_snoc, hlist]
    exact List.append_nil _
  have hcount : containerPolls (trace ++ [⟨e, action, e'⟩]) = containerPolls trace := by
    rw [containerPolls_snoc, hpoll]
    rfl
  have hle := h.polls
  refine ⟨by rw [hcontainers, hlists]; exact h.state, by rw [hcount]; omega, fun halive => ?_⟩
  have heq := h.answered (hcancelled halive)
  have hsame := hequal halive
  rw [hcount]
  omega

/-- A poll of the containers ends: it is counted, and the set is that of its list, if it has one. -/
theorem ContainersShown.polled {listed : Except Docker.Error (List ContainerSummary)}
    {outside : Surroundings} {containers : ContainersState} (h : ContainersShown settings trace e)
    (hphase : e.poller.phase = .containers)
    (hcontainers : e'.poller.containers = some containers) (hconfig : containers.config = settings.containers)
    (hdesc : containers.desc = containerStateDesc)
    (hshows : ShowsList settings.containers containers.current (containerLists
      (trace ++ [⟨e, .poller (.containersPolled listed outside), e'⟩])).getLast?)
    (hwaiting : e'.poller.phase = .waiting) (hpolls : e'.poller.polls = e.poller.polls)
    (hcancelled : e'.system.world.cancelled = false → e.system.world.cancelled = false) :
    ContainersShown settings (trace ++ [⟨e, .poller (.containersPolled listed outside), e'⟩]) e' := by
  have hcount : containerPolls (trace ++ [⟨e, .poller (.containersPolled listed outside), e'⟩]) =
      containerPolls trace + 1 := containerPolls_snoc _
  have hle := h.polls
  rw [hphase] at hle
  refine ⟨⟨containers, hcontainers, hconfig, hdesc, hshows⟩, ?_, fun halive => ?_⟩
  · rw [hcount, hwaiting, hpolls]
    exact hle
  · have heq := h.answered (hcancelled halive)
    rw [hphase] at heq
    rw [hcount, hwaiting, hpolls]
    exact heq

omit [HostText] in
theorem not_pollsContainers {phase : PollerPhase} (h : phase.inPoll = true) :
    phase.pollsContainers = false := by
  cases phase with
  | containers => cases h
  | _ => rfl

theorem containersShown_of_finish {poller : Poller} {failure : Option PollError} {world : World}
    (h : ContainersShown settings trace e) (hinPoll : e.poller.phase.inPoll = true)
    (hlist : action.containerList? = none) (hpoll : action.isContainerPoll = false)
    (hpoller : poller = e.poller.finish e.system.world.cancelled failure)
    (hcancelled : world.cancelled = false → e.system.world.cancelled = false) :
    ContainersShown settings
      (trace ++ [⟨e, action, { system := { e.system with world }, poller }⟩])
      { system := { e.system with world }, poller } := by
  subst hpoller
  obtain ⟨containers, hcontainers, -⟩ := h.state
  have hbefore := not_pollsContainers hinPoll
  refine h.keep rfl hlist hpoll hcancelled ?_ fun halive => ?_
  · rw [hbefore]
    have hle := Bool.toNat_le
      (e.poller.finish e.system.world.cancelled failure).phase.pollsContainers
    have hpolls : (e.poller.finish e.system.world.cancelled failure).polls = e.poller.polls + 1 := rfl
    simp only [Bool.toNat_false]
    omega
  · have hphase : (e.poller.finish e.system.world.cancelled failure).phase = .containers := by
      simp [Poller.finish, hcontainers, hcancelled halive]
    rw [hbefore, hphase]
    show 0 + (e.poller.polls + 1) = 1 + e.poller.polls
    omega

/-- **What each move does to the published set.** -/
theorem containersShown_of_moves {action : PollerAction} {poller : Poller} {calls : List Action}
    {world : World} (henabled : settings.containers.enabled = true)
    (h : ContainersShown settings trace e)
    (hmoves : e.poller.Moves e.system.world action poller calls)
    (hcancelled : world.cancelled = false → e.system.world.cancelled = false)
    (hcalls : calls = [] → world = e.system.world) :
    ContainersShown settings
      (trace ++ [⟨e, .poller action, { system := { e.system with world }, poller }⟩])
      { system := { e.system with world }, poller } := by
  cases hmoves with
  | stop _ hphase =>
    have hbefore : e.poller.phase.pollsContainers = false := by
      rcases hphase with hphase | hphase <;> rw [hphase] <;> rfl
    exact h.keep rfl rfl rfl hcancelled (by rw [hbefore]; rfl) fun _ => by rw [hbefore]; rfl
  | @begins action nextTick hbegins =>
    have hbefore : e.poller.phase.pollsContainers = false := by
      cases hbegins with
      | ready hphase => rw [hphase]; rfl
      | tick hphase => rw [hphase]; rfl
    have haction : (ExporterAction.poller action).containerList? = none ∧
        (ExporterAction.poller action).isContainerPoll = false := by
      cases hbegins <;> exact ⟨rfl, rfl⟩
    have hworld := hcalls rfl
    subst hworld
    unfold Poller.pollOnce
    cases hnow : e.system.world.cancelled with
    | true =>
      refine h.keep rfl haction.1 haction.2 hcancelled ?_ fun halive => ?_
      · rw [hbefore, Bool.toNat_false]
        simp [Poller.canceled, Poller.finish, PollerPhase.pollsContainers]
      · rw [hnow] at halive
        cases halive
    | false =>
      exact h.keep rfl haction.1 haction.2 hcancelled (by rw [hbefore]; rfl) fun _ => by
        rw [hbefore]; rfl
  | grants hphase =>
    exact h.keep rfl rfl rfl hcancelled (by rw [hphase]; rfl) fun _ => by rw [hphase]; rfl
  | lists hphase =>
    exact h.keep rfl rfl rfl hcancelled (by rw [hphase]; rfl) fun _ => by rw [hphase]; rfl
  | submits hphase =>
    exact h.keep rfl rfl rfl hcancelled (by rw [hphase]; rfl) fun _ => by rw [hphase]; rfl
  | refuses hphase =>
    have hbefore := not_pollsContainers hphase
    exact h.keep rfl rfl rfl hcancelled (by rw [hbefore]; rfl) fun _ => by rw [hbefore]; rfl
  | judges hphase =>
    exact h.keep rfl rfl rfl hcancelled (by rw [hphase]; rfl) fun _ => by rw [hphase]; rfl
  | records hphase =>
    exact containersShown_of_finish h (by rw [hphase]; rfl) rfl rfl rfl hcancelled
  | fails hphase _ _ haction =>
    refine containersShown_of_finish h hphase ?_ ?_ rfl hcancelled
    · cases action with
      | containersPolled listed outside => exact absurd rfl (haction listed outside)
      | _ => rfl
    · cases action with
      | containersPolled listed outside => exact absurd rfl (haction listed outside)
      | _ => rfl
  | @publishes containers listed outside rows hphase hcontainers hrows =>
    obtain ⟨own, hown, hconfig, hdesc, -⟩ := h.state
    obtain rfl : containers = own := by
      rw [hcontainers] at hown
      exact Option.some.inj hown
    rw [hconfig] at hrows
    cases listed with
    | error error => simp [ContainersConfig.poll, ContainersConfig.pollEnriched, henabled, Except.map]
        at hrows
    | ok list =>
      obtain ⟨built, hbuilt, -⟩ := ContainersState.build_of_poll hrows
      have hupdate : containers.update rows = { containers with current := some built } := by
        unfold ContainersState.update
        rw [hconfig, henabled, hdesc, hbuilt]
        rfl
      refine h.polled hphase rfl (by rw [hupdate]; exact hconfig) (by rw [hupdate]; exact hdesc) ?_ rfl
        rfl hcancelled
      rw [containerLists_snoc, hupdate]
      simp only [ExporterAction.containerList?, Option.toList_some, List.getLast?_concat]
      exact ⟨rows, built, hrows, hbuilt, rfl⟩
  | keeps hphase hfailed =>
    rcases hfailed with ⟨rfl, hgiveUp⟩ | ⟨containers, listed, outside, error, rfl, hcontainers, herror⟩
    · have hworld := hcalls rfl
      subst hworld
      refine h.keep rfl rfl rfl hcancelled ?_ fun halive => ?_
      · simp [PollerPhase.pollsContainers, hphase]
      · rw [hgiveUp] at halive
        cases halive
    · obtain ⟨own, hown, hconfig, hdesc, hshows⟩ := h.state
      obtain rfl : containers = own := by
        rw [hcontainers] at hown
        exact Option.some.inj hown
      refine h.polled hphase hcontainers hconfig hdesc ?_ rfl rfl hcancelled
      rw [containerLists_snoc]
      cases listed with
      | error error => rw [show (ExporterAction.poller (.containersPolled (.error error) outside)
          ).containerList? = none from rfl, Option.toList_none, List.append_nil]; exact hshows
      | ok list =>
        obtain ⟨_, -, hpoll, -⟩ := containers.config.poll_spec outside list
        rw [hpoll] at herror
        cases herror

theorem Runs.containersShown (henabled : settings.containers.enabled = true)
    (h : Runs settings trace e) : ContainersShown settings trace e := by
  refine Run.history (ContainersShown settings) ?_ ?_ h
  · refine ⟨⟨.new settings.containers, ?_, rfl, rfl, rfl⟩, Nat.le_refl _, fun _ => rfl⟩
    simp [init, henabled]
  · intro trace e action e' hrun hshown hstep
    have hcancelled : e'.system.world.cancelled = false → e.system.world.cancelled = false := by
      intro halive
      by_contra hcancelled
      rw [(step_later hstep).2.2.2 (by simpa using hcancelled)] at halive
      cases halive
    cases action with
    | system action =>
      obtain ⟨system, -, -, rfl⟩ := step_system hstep
      exact hshown.keep rfl rfl rfl hcancelled le_rfl fun _ => rfl
    | poller action =>
      obtain ⟨poller, calls, world, hmoves, hcalls, rfl⟩ := step_poller hstep
      refine containersShown_of_moves henabled hshown hmoves hcancelled ?_
      rintro rfl
      exact (Option.some.inj hcalls).symm

/-- A poller without the container metrics never polls containers. -/
theorem Runs.without_containers (hdisabled : settings.containers.enabled = false)
    (h : Runs settings trace e) :
    e.poller.containers = none ∧ containerPolls trace = 0 := by
  refine Run.history (fun trace e => e.poller.containers = none ∧ containerPolls trace = 0) ?_ ?_ h
  · exact ⟨by simp [init, hdisabled], rfl⟩
  · rintro trace e action e' - ⟨hnone, hpolls⟩ hstep
    cases action with
    | system action =>
      obtain ⟨system, -, -, rfl⟩ := step_system hstep
      exact ⟨hnone, by rw [containerPolls_snoc, hpolls]; rfl⟩
    | poller action =>
      obtain ⟨poller, calls, world, hmoves, -, rfl⟩ := step_poller hstep
      obtain ⟨haction, hsame⟩ : (ExporterAction.poller action).isContainerPoll = false ∧
          poller.containers = e.poller.containers := by
        cases hmoves with
        | begins hbegins =>
          refine ⟨by cases hbegins <;> rfl, ?_⟩
          unfold Poller.pollOnce
          split <;> rfl
        | fails _ _ _ haction =>
          refine ⟨?_, rfl⟩
          cases action with
          | containersPolled listed outside => exact absurd rfl (haction listed outside)
          | _ => rfl
        | publishes _ hcontainers =>
          rw [hnone] at hcontainers
          cases hcontainers
        | keeps _ hfailed =>
          rcases hfailed with ⟨rfl, -⟩ | ⟨_, _, _, _, -, hcontainers, -⟩
          · exact ⟨rfl, rfl⟩
          · rw [hnone] at hcontainers
            cases hcontainers
        | _ => exact ⟨rfl, rfl⟩
      exact ⟨hsame.trans hnone, by rw [containerPolls_snoc, hpolls, haction]; rfl⟩

/-- **The container states are those of the last poll with a list.** With the containers enabled, in every
run the published family is the build of the last container poll that ended with a list, with the ten series
of each container counted and no other, whatever polls failed or were cancelled since, and nothing before
the first such poll; no poll of the tasks is followed by more than one of the containers, and while the
exporter is not cancelled each is followed by one. Disabled, containers are never polled. -/
theorem containers_published (h : Runs settings trace e) :
    (settings.containers.enabled = true →
      ∃ containers, e.poller.containers = some containers ∧
        ((containerLists trace).getLast? = none → containers.current = none) ∧
        (∀ list outside, (containerLists trace).getLast? = some (list, outside) →
          ∃ rows built, settings.containers.poll (.ok list) outside = .ok rows ∧
            rows.length = (list.filter settings.containers.counts).length ∧
            (ContainersState.buildContainersState containerStateDesc rows).build = .ok built ∧
            containers.current = some built ∧
            ∀ name values, HasSeries built name values ↔
              name = "swarm_container_state" ∧ values ∈ ContainersState.seriesKeys rows) ∧
        containerPolls trace + e.poller.phase.pollsContainers.toNat ≤ e.poller.polls ∧
        (e.system.world.cancelled = false →
          containerPolls trace + e.poller.phase.pollsContainers.toNat = e.poller.polls)) ∧
    (settings.containers.enabled = false →
      e.poller.containers = none ∧ containerPolls trace = 0) := by
  refine ⟨fun henabled => ?_, fun hdisabled => h.without_containers hdisabled⟩
  obtain ⟨⟨containers, hcontainers, -, -, hshows⟩, hle, heq⟩ := h.containersShown henabled
  refine ⟨containers, hcontainers, fun hnone => ?_, fun list outside hlast => ?_, hle, heq⟩
  · rw [hnone] at hshows
    exact hshows
  · rw [hlast] at hshows
    obtain ⟨rows, built, hrows, hbuilt, hcurrent⟩ := hshows
    obtain ⟨own, hown, hseries, hlength⟩ := ContainersState.build_of_poll hrows
    obtain rfl : built = own := by
      rw [hbuilt] at hown
      exact Except.ok.inj hown
    exact ⟨rows, built, hrows, hlength, hbuilt, hcurrent, hseries⟩

end Exporter

namespace Sample

/-- The same exporter with the container metrics. -/
def containerSettings : Settings := { settings with containers := containersConfig }

end Sample

open Sample in
/-- Two containers are listed after the first poll; the list after the second fails, and the set stays. -/
theorem Exporter.containers_published_sample : ∃ trace e containers built, Runs containerSettings trace e ∧
    containerPolls trace = 2 ∧ e.poller.containers = some containers ∧ containers.current = some built ∧
    ∀ name values, HasSeries built name values → name = "swarm_container_state" := by
  have hreplay : (replay Exporter.step (Exporter.init containerSettings)
      (firstResync ++ .poller .ready :: emptyPoll ++
        [.poller (.containersPolled (.ok Sample.containers) surroundings),
          .system (.world (.tick 1000 (Duration.fromSecs 15))), .poller .tick] ++ emptyPoll ++
        [.poller (.containersPolled (.error ⟨.timeout, "context deadline exceeded"⟩)
          surroundings)])).any
      (fun result => decide (containerPolls result.1 = 2 ∧ (containerLists result.1).length = 1)) =
        true := by
    decide +kernel
  obtain ⟨trace, e, hrun, -, hcheck⟩ := exists_run_of_replay hreplay
  obtain ⟨hpolls, hlists⟩ := of_decide_eq_true hcheck
  obtain ⟨⟨list, outside⟩, hlast⟩ : ∃ last, (containerLists trace).getLast? = some last := by
    obtain ⟨last, hlast⟩ := List.length_eq_one_iff.1 hlists
    exact ⟨last, by rw [hlast]; rfl⟩
  obtain ⟨containers, hcontainers, -, hshown, -⟩ := (containers_published hrun).1 rfl
  obtain ⟨rows, built, -, -, -, hcurrent, hseries⟩ := hshown list outside hlast
  exact ⟨trace, e, containers, built, hrun, hpolls, hcontainers, hcurrent,
    fun name values hmem => ((hseries name values).1 hmem).1⟩

end SwarmExporter
