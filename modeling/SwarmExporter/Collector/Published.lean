import SwarmExporter.Collector.ReplicasState

/-!
# What a build publishes

A build that succeeds holds exactly the series of its counters: one per known task state, the running
replicas and whether the service is at its desired ones.
-/

namespace SwarmExporter

open Lib

/-- The label values of `labels` in the order of the family's names. -/
def Desc.values (desc : Desc) (labels : Labels) : List String := desc.labelNames.filterMap (labels[·]?)

/-- The values of a fitting label set are its series key. -/
theorem Desc.Fits.values_eq {desc : Desc} {labels : Labels} (h : desc.Fits labels) :
    desc.values labels = desc.key labels := by
  unfold Desc.values Desc.key
  rw [← List.filterMap_eq_map]
  exact List.filterMap_congr fun name hname => h.getElem?_eq hname

/-- Whether `families` has a series with these values under this name. -/
def HasSeries (families : Map String BuiltFamily) (name : String) (values : List String) : Prop :=
  ∃ family, families[name]? = some family ∧ values ∈ family.series

/-- The value of the series of `families` with these values under this name. -/
def seriesValue (families : Map String BuiltFamily) (name : String) (values : List String) :
    Option Gauge :=
  families[name]?.bind (·.series[values]?)

/-- One series: its family, its labels and its value. -/
structure SeriesEntry where
  desc : Desc
  labels : Labels
  value : Gauge

/-- The entry is that of the series with these values under this name. -/
def SeriesEntry.Names (entry : SeriesEntry) (name : String) (values : List String) : Prop :=
  name = entry.desc.name ∧ values = entry.desc.values entry.labels

namespace SnapshotBuilder

/-- Records one series. -/
def setEntry (builder : SnapshotBuilder) (entry : SeriesEntry) : SnapshotBuilder :=
  builder.set entry.desc entry.labels.toList entry.value

theorem fail_error (builder : SnapshotBuilder) (error : BuildError) :
    (builder.fail error).error ≠ none := by
  unfold fail
  cases herror : builder.error with
  | none => simp
  | some first => simp [herror]

theorem hasSeries_insert {families : Map String BuiltFamily} {desc : Desc} {values : List String}
    {value : Gauge} {name : String} {values' : List String} :
    HasSeries (families.insert desc.name
        { families.getD desc.name ⟨desc, ∅⟩ with
          series := (families.getD desc.name ⟨desc, ∅⟩).series.insert values value }) name values' ↔
      HasSeries families name values' ∨ name = desc.name ∧ values' = values := by
  unfold HasSeries
  by_cases hname : desc.name = name
  · subst hname
    rw [Std.ExtTreeMap.getElem?_insert_self]
    simp only [Option.some.injEq, exists_eq_left', Std.ExtTreeMap.mem_insert,
      Std.LawfulEqCmp.compare_eq_iff_eq, true_and]
    rw [Std.ExtTreeMap.getD_eq_getD_getElem?, or_comm, eq_comm (a := values)]
    refine or_congr_left ?_
    cases families[desc.name]? with
    | none => simp
    | some family => simp
  · rw [Std.ExtTreeMap.getElem?_insert]
    simp [hname, Ne.symm hname]

/-- A series that is recorded without an error is there, besides what was there before. -/
theorem setEntry_hasSeries {builder : SnapshotBuilder} {entry : SeriesEntry}
    (h : (builder.setEntry entry).error = none) :
    builder.error = none ∧ ∀ name values, HasSeries (builder.setEntry entry).families name values ↔
      HasSeries builder.families name values ∨
        name = entry.desc.name ∧ values = entry.desc.values entry.labels := by
  unfold setEntry set at h ⊢
  simp only [foldl_insert_toList] at h ⊢
  split
  · rename_i hsize
    rw [if_pos hsize] at h
    exact absurd h (fail_error _ _)
  · rename_i hsize
    rw [if_neg hsize] at h
    split
    · rename_i missing hmissing
      rw [hmissing] at h
      exact absurd h (fail_error _ _)
    · rename_i hmissing
      rw [hmissing] at h
      exact ⟨h, fun name values => hasSeries_insert⟩

theorem foldl_setEntry_hasSeries {entries : List SeriesEntry} {builder : SnapshotBuilder}
    (h : (entries.foldl setEntry builder).error = none) :
    builder.error = none ∧ ∀ name values,
      HasSeries (entries.foldl setEntry builder).families name values ↔
        HasSeries builder.families name values ∨
          ∃ entry ∈ entries, name = entry.desc.name ∧ values = entry.desc.values entry.labels := by
  induction entries generalizing builder with
  | nil => exact ⟨h, by simp⟩
  | cons entry entries ih =>
    obtain ⟨hfirst, hrest⟩ := ih h
    obtain ⟨hbuilder, hentry⟩ := setEntry_hasSeries hfirst
    refine ⟨hbuilder, fun name values => ?_⟩
    rw [List.foldl_cons, hrest, hentry, or_assoc, List.exists_mem_cons_iff]

/-- **Series whose label sets fit their families fail no build.** -/
theorem foldl_setEntry_error {entries : List SeriesEntry} {builder : SnapshotBuilder}
    (h : ∀ entry ∈ entries, entry.desc.Fits entry.labels) :
    (entries.foldl setEntry builder).error = builder.error := by
  induction entries generalizing builder with
  | nil => rfl
  | cons entry entries ih =>
    rw [List.forall_mem_cons] at h
    rw [List.foldl_cons, ih h.2, setEntry, set_of_fits builder h.1]

/-- Recording a series writes its value and no other. -/
theorem seriesValue_setEntry {builder : SnapshotBuilder} {entry : SeriesEntry}
    (h : (builder.setEntry entry).error = none) {name : String} {values : List String} :
    (entry.Names name values →
      seriesValue (builder.setEntry entry).families name values = some entry.value) ∧
    (¬entry.Names name values → seriesValue (builder.setEntry entry).families name values =
      seriesValue builder.families name values) := by
  unfold setEntry set at h ⊢
  simp only [foldl_insert_toList] at h ⊢
  split
  · rename_i hsize
    rw [if_pos hsize] at h
    exact absurd h (fail_error _ _)
  · rename_i hsize
    rw [if_neg hsize] at h
    split
    · rename_i missing hmissing
      rw [hmissing] at h
      exact absurd h (fail_error _ _)
    · unfold SeriesEntry.Names Desc.values seriesValue
      refine ⟨?_, fun hother => ?_⟩
      · rintro ⟨rfl, rfl⟩
        simp
      · by_cases hname : entry.desc.name = name
        · subst hname
          have hvalues : entry.desc.labelNames.filterMap (entry.labels[·]?) ≠ values :=
            fun heq => hother ⟨rfl, heq.symm⟩
          rw [Std.ExtTreeMap.getElem?_insert_self, Option.bind_some, Std.ExtTreeMap.getElem?_insert,
            if_neg (by simpa using hvalues), Std.ExtTreeMap.getD_eq_getD_getElem?]
          cases builder.families[entry.desc.name]? <;> simp
        · rw [Std.ExtTreeMap.getElem?_insert, if_neg (by simpa using hname)]

/-- A series that is recorded with one value only has it. -/
theorem seriesValue_foldl_setEntry {entries : List SeriesEntry} {builder : SnapshotBuilder}
    (h : (entries.foldl setEntry builder).error = none) {name : String} {values : List String}
    {value : Gauge} (hmem : ∃ entry ∈ entries, entry.Names name values)
    (hvalue : ∀ entry ∈ entries, entry.Names name values → entry.value = value) :
    seriesValue (entries.foldl setEntry builder).families name values = some value := by
  induction entries using List.reverseRecOn with
  | nil => simp at hmem
  | append_singleton entries entry ih =>
    rw [List.foldl_append, List.foldl_cons, List.foldl_nil] at h ⊢
    obtain ⟨hnamed, hother⟩ := @seriesValue_setEntry _ _ h name values
    by_cases hentry : entry.Names name values
    · rw [hnamed hentry, hvalue entry (by simp) hentry]
    · rw [hother hentry]
      refine ih (setEntry_hasSeries h).1 ?_ fun earlier hearlier =>
        hvalue earlier (List.mem_append_left _ hearlier)
      obtain ⟨found, hfound, hnames⟩ := hmem
      rcases List.mem_append.1 hfound with hfound | hfound
      · exact ⟨found, hfound, hnames⟩
      · rw [List.mem_singleton.1 hfound] at hnames
        exact absurd hnames hentry

/-- A series that is not recorded keeps its value. -/
theorem seriesValue_foldl_of_not_names {entries : List SeriesEntry} {builder : SnapshotBuilder}
    (h : (entries.foldl setEntry builder).error = none) {name : String} {values : List String}
    (hother : ∀ entry ∈ entries, ¬entry.Names name values) :
    seriesValue (entries.foldl setEntry builder).families name values =
      seriesValue builder.families name values := by
  induction entries generalizing builder with
  | nil => rfl
  | cons entry entries ih =>
    rw [List.foldl_cons] at h ⊢
    obtain ⟨hnamed, hrest⟩ := List.forall_mem_cons.1 hother
    rw [ih h hrest]
    exact (seriesValue_setEntry (foldl_setEntry_hasSeries h).1).2 hnamed

end SnapshotBuilder

namespace ReplicasState

/-- The series of one counter. -/
def series (families : ReplicasState) (counter : TaskCounter) : List SeriesEntry :=
  let base := sanitizeMetricLabels counter.labels
  knownTaskStates.map (fun state =>
      ⟨families.stateDesc, base.insert labelState state, counter.state state⟩) ++
    [⟨families.runningDesc, base, counter.state taskStateRunning⟩,
      ⟨families.atDesiredDesc, base, atDesired base counter⟩]

theorem buildCounter_eq (families : ReplicasState) (builder : SnapshotBuilder)
    (counter : TaskCounter) : families.buildCounter builder counter =
      (families.series counter).foldl SnapshotBuilder.setEntry builder := by
  simp only [buildCounter, series, List.foldl_append, List.foldl_map, List.foldl_cons, List.foldl_nil,
    SnapshotBuilder.setEntry]

theorem build_eq (families : ReplicasState) (counters : ServiceCounter) (visit : List String) :
    families.build counters visit =
      ((visit.filterMap (counters[·]?)).flatMap families.series).foldl SnapshotBuilder.setEntry {} := by
  unfold build
  generalize ({} : SnapshotBuilder) = builder
  induction visit generalizing builder with
  | nil => rfl
  | cons id visit ih =>
    rw [List.foldl_cons, ih]
    cases hcounter : counters[id]? with
    | none => simp [hcounter]
    | some counter => simp [hcounter, buildCounter_eq, List.foldl_append]

/-- **A build that succeeds holds exactly the series of its counters.** -/
theorem hasSeries_of_build {families : ReplicasState} {counters : ServiceCounter} {visit : List String}
    {built : Map String BuiltFamily} (hvisit : Enumerates visit counters)
    (h : (families.build counters visit).build = .ok built) (name : String) (values : List String) :
    HasSeries built name values ↔ ∃ (id : String) (counter : TaskCounter),
      counters[id]? = some counter ∧ ∃ entry ∈ families.series counter,
        name = entry.desc.name ∧ values = entry.desc.values entry.labels := by
  unfold SnapshotBuilder.build at h
  split at h
  · cases h
  · rename_i herror
    cases h
    rw [build_eq] at herror ⊢
    obtain ⟨-, hseries⟩ := SnapshotBuilder.foldl_setEntry_hasSeries herror
    rw [hseries]
    constructor
    · rintro (⟨family, hfamily, -⟩ | ⟨entry, hentry, hname⟩)
      · simp at hfamily
      · obtain ⟨counter, hcounter, hentry⟩ := List.mem_flatMap.1 hentry
        obtain ⟨id, -, hid⟩ := List.mem_filterMap.1 hcounter
        exact ⟨id, counter, hid, entry, hentry, hname⟩
    · rintro ⟨id, counter, hcounter, entry, hentry, hname⟩
      refine .inr ⟨entry, List.mem_flatMap.2 ⟨counter, ?_, hentry⟩, hname⟩
      exact List.mem_filterMap.2 ⟨id, (hvisit.2 id).2 (mem_iff_getElem?.2 ⟨counter, hcounter⟩), hcounter⟩

/-- A series whose entries in a build agree has their value. -/
theorem seriesValue_of_build {families : ReplicasState} {counters : ServiceCounter}
    {visit : List String} {built : Map String BuiltFamily} (hvisit : Enumerates visit counters)
    (h : (families.build counters visit).build = .ok built) {id : String} {counter : TaskCounter}
    (hcounter : counters[id]? = some counter) {entry : SeriesEntry}
    (hentry : entry ∈ families.series counter)
    (hvalue : ∀ (other : String) (counter' : TaskCounter), counters[other]? = some counter' →
      ∀ entry' ∈ families.series counter',
        entry'.Names entry.desc.name (entry.desc.values entry.labels) → entry'.value = entry.value) :
    seriesValue built entry.desc.name (entry.desc.values entry.labels) = some entry.value := by
  unfold SnapshotBuilder.build at h
  split at h
  · cases h
  · rename_i herror
    cases h
    rw [build_eq] at herror ⊢
    apply SnapshotBuilder.seriesValue_foldl_setEntry herror
    · refine ⟨entry, List.mem_flatMap.2 ⟨counter, ?_, hentry⟩, rfl, rfl⟩
      exact List.mem_filterMap.2 ⟨id, (hvisit.2 id).2 (mem_iff_getElem?.2 ⟨counter, hcounter⟩), hcounter⟩
    · intro entry' hentry' hnames
      obtain ⟨counter', hcounter', hentry'⟩ := List.mem_flatMap.1 hentry'
      obtain ⟨other, -, hother⟩ := List.mem_filterMap.1 hcounter'
      exact hvalue other counter' hother entry' hentry' hnames

end ReplicasState

end SwarmExporter
