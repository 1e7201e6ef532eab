import SwarmExporter.Collector.Containers
import SwarmExporter.Collector.LabelPipeline

/-!
# The series of the containers

The snapshot of a poll's rows. Every row fits the family (`fits_of`), so no build fails, and writing a
state into it gives the ten label sets of its series. Two rows that differ in another label than the state
have none of them in common (`insert_state_inj`), so the map-keyed builder loses none, and a row's own
state, being one of the ten, is 1 once.
-/

namespace SwarmExporter

open Lib
open Docker (ContainerInspect ContainerSummary)

namespace ContainersState

/-! ## The labels of a row -/

theorem isValidLabelName_of_container {name : String} (h : name ∈ containerLabelNames) :
    isValidLabelName name = true := by
  have hall : ∀ name ∈ containerLabelNames, isValidLabelName name = true := by decide +kernel
  exact hall name h

theorem containerStateDesc_labelNames : containerStateDesc.labelNames = containerLabelNames :=
  sanitizeLabelNames_of_valid fun _ => isValidLabelName_of_container

/-- **The row of a container fits the family.** -/
theorem fits_of {container : ContainerSummary} {enriched : Enriched}
    (h : Enriched.Of container enriched) : containerStateDesc.Fits enriched.row.labels := by
  refine ⟨by rw [containerStateDesc_labelNames]; decide, fun name => ?_⟩
  rw [containerStateDesc_labelNames]
  by_cases hstate : name = labelState
  · obtain ⟨state, hfound, -⟩ := h.state
    subst hstate
    exact iff_of_true (mem_iff_getElem?.2 ⟨state, hfound⟩) (by decide)
  · by_cases hexit : name = labelExitCode
    · obtain ⟨exitCode, hfound, -⟩ := h.exitCode
      subst hexit
      exact iff_of_true (mem_iff_getElem?.2 ⟨exitCode, hfound⟩) (by decide)
    · have hown := h.own name hstate hexit
      rw [mem_iff_getElem?, hown, ← mem_iff_getElem?]
      simp only [ContainersConfig.listedRow, containerLabelNames, Std.ExtTreeMap.mem_insert,
        Std.LawfulEqCmp.compare_eq_iff_eq, Std.ExtTreeMap.not_mem_empty, or_false, List.mem_cons,
        List.not_mem_nil, hstate, hexit, eq_comm (a := name)]
      tauto

section Fits

variable {row : ContainerRow} (h : containerStateDesc.Fits row)

include h

theorem mem_iff_of_fits (name : String) : name ∈ row ↔ name ∈ containerLabelNames := by
  rw [h.names, containerStateDesc_labelNames]

/-- A row fits with any state. -/
theorem fits_insert_state (state : String) : containerStateDesc.Fits (row.insert labelState state) := by
  refine ⟨h.nodup, fun name => ?_⟩
  rw [Std.ExtTreeMap.mem_insert, Std.LawfulEqCmp.compare_eq_iff_eq, ← h.names]
  refine or_iff_right_of_imp ?_
  rintro rfl
  exact (mem_iff_of_fits h _).2 (by decide)

/-- The labels of a series: writing the exit code again and sanitizing change nothing. -/
theorem series_labels (state : String) :
    sanitizeMetricLabels ((row.insert labelState state).insert labelExitCode
      (row.getD labelExitCode "")) = row.insert labelState state := by
  have hexit : (row.insert labelState state).insert labelExitCode (row.getD labelExitCode "") =
      row.insert labelState state := by
    have hmem : labelExitCode ∈ containerStateDesc.labelNames :=
      (h.names _).1 ((mem_iff_of_fits h _).2 (by decide))
    have hne : compare labelState labelExitCode ≠ .eq := by
      rw [ne_eq, Std.LawfulEqCmp.compare_eq_iff_eq]
      exact labelState_ne_exitCode
    apply insert_eq_self
    rw [Std.ExtTreeMap.getElem?_insert, if_neg hne, h.getElem?_eq hmem]
  rw [hexit]
  refine sanitizeMetricLabels_of_valid fun name hname => isValidLabelName_of_container ?_
  rwa [(fits_insert_state h state).names, containerStateDesc_labelNames] at hname

end Fits

/-! ## The entries of a build -/

/-- The series of one row. -/
def series (row : ContainerRow) : List SeriesEntry :=
  knownContainerStates.map fun state =>
    ⟨containerStateDesc, row.insert labelState state, if row.getD labelState "" = state then 1 else 0⟩

theorem buildRow_eq {row : ContainerRow} (h : containerStateDesc.Fits row) (builder : SnapshotBuilder) :
    buildRow containerStateDesc builder row =
      (series row).foldl SnapshotBuilder.setEntry builder := by
  simp only [buildRow, series, List.foldl_map, SnapshotBuilder.setEntry, series_labels h]

theorem buildContainersState_eq {rows : List ContainerRow}
    (h : ∀ row ∈ rows, containerStateDesc.Fits row) :
    buildContainersState containerStateDesc rows =
      (rows.flatMap series).foldl SnapshotBuilder.setEntry {} := by
  unfold buildContainersState
  generalize ({} : SnapshotBuilder) = builder
  induction rows generalizing builder with
  | nil => rfl
  | cons row rows ih =>
    rw [List.forall_mem_cons] at h
    rw [List.foldl_cons, buildRow_eq h.1, ih h.2, List.flatMap_cons, List.foldl_append]

/-! ## Distinct series -/

/-- The label values of the ten series of every row. -/
def seriesKeys (rows : List ContainerRow) : List (List String) :=
  rows.flatMap fun row =>
    knownContainerStates.map fun state => containerStateDesc.key (row.insert labelState state)

/-- **A series tells its state and the other labels of its row.** -/
theorem insert_state_inj {row row' : ContainerRow} {state state' : String}
    (h : containerStateDesc.Fits row) (h' : containerStateDesc.Fits row')
    (heq : containerStateDesc.key (row.insert labelState state) =
      containerStateDesc.key (row'.insert labelState state')) :
    state = state' ∧ row.erase labelState = row'.erase labelState := by
  exact insert_inj ((fits_insert_state h state).key_inj (fits_insert_state h' state') heq)

theorem nodup_seriesKeys {rows : List ContainerRow} (hfits : ∀ row ∈ rows, containerStateDesc.Fits row)
    (hdistinct : (rows.map (·.erase labelState)).Nodup) : (seriesKeys rows).Nodup := by
  unfold seriesKeys
  rw [List.nodup_flatMap]
  constructor
  · intro row hrow
    refine List.Nodup.map_on (fun state _ state' _ heq => ?_) (by decide)
    exact (insert_state_inj (hfits row hrow) (hfits row hrow) heq).1
  · rw [List.Nodup, List.pairwise_map] at hdistinct
    refine hdistinct.imp_of_mem fun {row row'} hrow hrow' hne => ?_
    intro key hkey hkey'
    obtain ⟨state, -, rfl⟩ := List.mem_map.1 hkey
    obtain ⟨state', -, heq⟩ := List.mem_map.1 hkey'
    exact hne (insert_state_inj (hfits row hrow) (hfits row' hrow') heq.symm).2

/-! ## The built snapshot -/

/-- The snapshot holds the ten series of every row, all different, the one of its own state 1 and the
others 0, and no other series. -/
structure OneHot (rows : List ContainerRow) (built : Map String BuiltFamily) : Prop where
  series : ∀ name values, HasSeries built name values ↔
    name = containerStateDesc.name ∧ values ∈ seriesKeys rows
  distinct : (seriesKeys rows).Nodup
  own : ∀ row ∈ rows, ∃ own ∈ knownContainerStates, row.insert labelState own = row ∧
    ∀ state ∈ knownContainerStates, seriesValue built containerStateDesc.name
      (containerStateDesc.key (row.insert labelState state)) = some (if state = own then 1 else 0)

/-- What the entries of a row name. -/
theorem names_series_iff {row : ContainerRow} (hfits : containerStateDesc.Fits row) {name : String}
    {values : List String} : (∃ entry ∈ series row, entry.Names name values) ↔
      name = containerStateDesc.name ∧ ∃ state ∈ knownContainerStates,
        values = containerStateDesc.key (row.insert labelState state) := by
  constructor
  · rintro ⟨entry, hentry, rfl, rfl⟩
    obtain ⟨state, hstate, rfl⟩ := List.mem_map.1 hentry
    exact ⟨rfl, state, hstate, (fits_insert_state hfits state).values_eq⟩
  · rintro ⟨rfl, state, hstate, rfl⟩
    refine ⟨_, List.mem_map_of_mem hstate, rfl, ?_⟩
    exact (fits_insert_state hfits state).values_eq.symm

section Build

variable {rows : List ContainerRow} (hfits : ∀ row ∈ rows, containerStateDesc.Fits row)

include hfits

theorem build_error : ((rows.flatMap series).foldl SnapshotBuilder.setEntry {}).error = none := by
  refine SnapshotBuilder.foldl_setEntry_error fun entry hentry => ?_
  obtain ⟨row, hrow, hentry⟩ := List.mem_flatMap.1 hentry
  obtain ⟨state, -, rfl⟩ := List.mem_map.1 hentry
  exact fits_insert_state (hfits row hrow) state

/-- **The series recorded are the ten of every row.** -/
theorem hasSeries_build_iff (name : String) (values : List String) :
    HasSeries ((rows.flatMap series).foldl SnapshotBuilder.setEntry {}).families name values ↔
      name = containerStateDesc.name ∧ values ∈ seriesKeys rows := by
  obtain ⟨-, hseries⟩ := SnapshotBuilder.foldl_setEntry_hasSeries (build_error hfits)
  have hempty : ¬ HasSeries ({} : SnapshotBuilder).families name values := by
    rintro ⟨family, hfamily, -⟩
    simp at hfamily
  rw [hseries, or_iff_right hempty]
  constructor
  · rintro ⟨entry, hentry, hnames⟩
    obtain ⟨row, hrow, hentry⟩ := List.mem_flatMap.1 hentry
    obtain ⟨hname, state, hstate, hvalues⟩ :=
      (names_series_iff (hfits row hrow)).1 ⟨entry, hentry, hnames⟩
    exact ⟨hname, List.mem_flatMap.2 ⟨row, hrow, List.mem_map.2 ⟨state, hstate, hvalues.symm⟩⟩⟩
  · rintro ⟨hname, hvalues⟩
    obtain ⟨row, hrow, hkey⟩ := List.mem_flatMap.1 hvalues
    obtain ⟨state, hstate, hkey⟩ := List.mem_map.1 hkey
    obtain ⟨entry, hentry, hnames⟩ :=
      (names_series_iff (hfits row hrow)).2 ⟨hname, state, hstate, hkey.symm⟩
    exact ⟨entry, List.mem_flatMap.2 ⟨row, hrow, hentry⟩, hnames⟩

/-- **A row's series are 1 for its own state only**: no other row writes them. -/
theorem seriesValue_build (hdistinct : (rows.map (·.erase labelState)).Nodup) {row : ContainerRow}
    (hrow : row ∈ rows) {own state : String} (hown : row[labelState]? = some own)
    (hstate : state ∈ knownContainerStates) :
    seriesValue ((rows.flatMap series).foldl SnapshotBuilder.setEntry {}).families
      containerStateDesc.name (containerStateDesc.key (row.insert labelState state)) =
        some (if state = own then 1 else 0) := by
  have hgetD : row.getD labelState "" = own := by
    rw [Std.ExtTreeMap.getD_eq_getD_getElem?, hown, Option.getD_some]
  apply SnapshotBuilder.seriesValue_foldl_setEntry (build_error hfits)
  · obtain ⟨entry, hentry, hnames⟩ :=
      (names_series_iff (hfits row hrow)).2 ⟨rfl, state, hstate, rfl⟩
    exact ⟨entry, List.mem_flatMap.2 ⟨row, hrow, hentry⟩, hnames⟩
  · rintro entry hentry ⟨-, hvalues⟩
    obtain ⟨row', hrow', hentry⟩ := List.mem_flatMap.1 hentry
    obtain ⟨state', -, rfl⟩ := List.mem_map.1 hentry
    rw [(fits_insert_state (hfits row' hrow') state').values_eq] at hvalues
    obtain ⟨rfl, herase⟩ := insert_state_inj (hfits row hrow) (hfits row' hrow') hvalues
    obtain rfl := List.inj_on_of_nodup_map hdistinct hrow hrow' herase
    rw [hgetD]
    simp only [eq_comm]

/-- **The snapshot of rows that fit, have a known state and differ in another label is one-hot.** -/
theorem build_oneHot
    (hstates : ∀ row ∈ rows, ∃ own ∈ knownContainerStates, row[labelState]? = some own)
    (hdistinct : (rows.map (·.erase labelState)).Nodup) :
    ∃ built, (buildContainersState containerStateDesc rows).build = .ok built ∧ OneHot rows built := by
  refine ⟨((rows.flatMap series).foldl SnapshotBuilder.setEntry {}).families, ?_,
    hasSeries_build_iff hfits, nodup_seriesKeys hfits hdistinct, fun row hrow => ?_⟩
  · rw [buildContainersState_eq hfits, SnapshotBuilder.build, build_error hfits]
  · obtain ⟨own, hknown, hown⟩ := hstates row hrow
    exact ⟨own, hknown, insert_eq_self hown,
      fun state hstate => seriesValue_build hfits hdistinct hrow hown hstate⟩

end Build

end ContainersState

/-! ## A poll and its snapshot -/

/-- The state a row ends with is a known one when the listed one is a runtime state. -/
theorem Enriched.Of.mem_known {container : ContainerSummary} {enriched : Enriched}
    (h : Enriched.Of container enriched) (hlisted : container.state ∈ runtimeStates) :
    ∃ own ∈ knownContainerStates, enriched.row.labels[labelState]? = some own := by
  have hknown : knownContainerStates = runtimeStates ++ healthStates := rfl
  obtain ⟨state, hstate, rfl | ⟨hhealth, -⟩⟩ := h.state
  · exact ⟨_, by rw [hknown]; exact List.mem_append_left _ hlisted, hstate⟩
  · exact ⟨state, by rw [hknown]; exact List.mem_append_right _ hhealth, hstate⟩

section

variable [HostText]

/-- **Container enrichment and the one-hot series.** Whatever the list holds, the inspects answer and the
clock shows, a poll returns a row per container counted, in list order, each with a state and an exit code
that its listed state and its own inspect explain; the inspects attempted are those of the first running
and exited rows, at most `inspectCap` of them. When the listed states are runtime states and the rows
differ in another label than the state, the snapshot built from them is one-hot. -/
theorem containers_enriched_one_hot (config : ContainersConfig) (outside : Surroundings)
    (list : List ContainerSummary) :
    let counted := list.filter config.counts
    let trace := config.enrich outside (counted.map ContainersConfig.listedRow)
    let rows := trace.map (·.row.labels)
    config.poll (.ok list) outside = .ok rows ∧
    List.Forall₂ Enriched.Of counted trace ∧
    (∃ attempted rest, trace.filter (fun enriched =>
        enriched.row.state ∈ [containerStateRunning, containerStateExited]) = attempted ++ rest ∧
      attempted.length ≤ config.inspectCap ∧
      (∀ enriched ∈ attempted, enriched.inspect ≠ none) ∧
      ∀ enriched ∈ rest, enriched.inspect = none) ∧
    ((∀ container ∈ counted, container.state ∈ runtimeStates) →
      (rows.map (·.erase labelState)).Nodup →
      ∃ built, (ContainersState.buildContainersState containerStateDesc rows).build = .ok built ∧
        ContainersState.OneHot rows built ∧
        ((ContainersState.new config).update rows).current =
          if config.enabled then some built else none) := by
  intro counted trace rows
  obtain ⟨found, htrace, hpoll, hrows, hattempted⟩ := config.poll_spec outside list
  obtain rfl : trace = found := by
    rw [config.pollEnriched_eq] at htrace
    exact Except.ok.inj htrace
  refine ⟨hpoll, hrows, hattempted, fun hlisted hdistinct => ?_⟩
  have hrow : ∀ row ∈ rows, ∃ container ∈ counted, ∃ enriched, Enriched.Of container enriched ∧
      enriched.row.labels = row := by
    intro row hmem
    obtain ⟨enriched, henriched, rfl⟩ := List.mem_map.1 hmem
    obtain ⟨container, hcontainer, hof⟩ := ContainersConfig.exists_of_mem_forall₂ hrows henriched
    exact ⟨container, hcontainer, enriched, hof, rfl⟩
  have hfits : ∀ row ∈ rows, containerStateDesc.Fits row := by
    intro row hmem
    obtain ⟨container, -, enriched, hof, rfl⟩ := hrow row hmem
    exact ContainersState.fits_of hof
  have hstates : ∀ row ∈ rows, ∃ own ∈ knownContainerStates, row[labelState]? = some own := by
    intro row hmem
    obtain ⟨container, hcontainer, enriched, hof, rfl⟩ := hrow row hmem
    exact hof.mem_known (hlisted container hcontainer)
  obtain ⟨built, hbuilt, honeHot⟩ := ContainersState.build_oneHot hfits hstates hdistinct
  refine ⟨built, hbuilt, honeHot, ?_⟩
  unfold ContainersState.update ContainersState.new
  simp only [hbuilt]
  cases config.enabled with
  | true => rfl
  | false => rfl

end

namespace Sample

/-- An exited and a running container. -/
def containers : List ContainerSummary :=
  [{ id := "a", names := ["/a"], state := containerStateExited },
    { id := "b", names := ["/b"], state := containerStateRunning }]

/-- One inspect is allowed. -/
def containersConfig : ContainersConfig := { enabled := true, includeSwarm := false, inspectCap := 1 }

/-- The clock stands still, and every inspect shows exit code 3. -/
def surroundings : Surroundings where
  now _ := 0
  monotone _ := Nat.le_refl _
  answer _ := .ok { state := some { exitCode := 3 } }

end Sample

open Sample in
/-- The exited container is inspected, the running one is not reached. -/
theorem containers_enriched_one_hot_sample :
    let trace := containersConfig.enrich surroundings (containers.map ContainersConfig.listedRow)
    let rows := trace.map (·.row.labels)
    rows.map (fun row => (row[labelState]?, row[labelExitCode]?)) =
      [(some "exited", some "3"), (some "running", some "")] ∧
    ∃ built, (ContainersState.buildContainersState containerStateDesc rows).build = .ok built ∧
      ContainersState.OneHot rows built := by
  intro trace rows
  refine ⟨by decide +kernel, ?_⟩
  obtain ⟨-, -, -, hsnapshot⟩ := containers_enriched_one_hot containersConfig surroundings containers
  obtain ⟨built, hbuilt, honeHot, -⟩ := hsnapshot (by decide +kernel) (by decide +kernel)
  exact ⟨built, hbuilt, honeHot⟩

end SwarmExporter
