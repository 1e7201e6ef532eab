import SwarmExporter.Collector.Published
import SwarmExporter.Labels
import SwarmExporter.Lib.Sorting

/-!
# What a scrape is given

The collectors write gauge families into the exposition: the descriptor of a family, then its series in the
order of their label values, each with its labels in the order of their names; a family without series is
left out. A published set is a list in the order of the builder's `HashMap`, which is sorted before it is
written.

A scraper refuses an exposition that has a family twice, a series twice or a label twice. What the
collectors write has none of these (`encodeGaugeFamily_wellFormed`), and does not depend on the order the
`HashMap` gave (`encodePublished_perm`), as long as the families are `Shaped`: each under its own name, with
a value for every label in every series. A builder makes no other.
-/

namespace SwarmExporter

open Lib

/-- One series as it is written. -/
structure EncodedSeries where
  labels : List (String × String)
  value : Gauge
  deriving DecidableEq, Repr

/-- One family as it is written. -/
structure EncodedFamily where
  name : String
  help : String
  series : List EncodedSeries
  deriving DecidableEq, Repr

/-- The order of pairs: by name, then by value. -/
def comparePairs : String × String → String × String → Ordering :=
  compareLex (compareOn Prod.fst) (compareOn Prod.snd)

instance : Std.TransCmp comparePairs :=
  inferInstanceAs (Std.TransCmp (compareLex (compareOn Prod.fst) (compareOn Prod.snd)))

/-- `values` paired with the label names, sorted by name. -/
def Desc.pairs (desc : Desc) (values : List String) : List (String × String) :=
  sortBy comparePairs (desc.labelNames.zip values)

/-- One gauge family: its descriptor, then a series per label values. Nothing when there are none. -/
def encodeGaugeFamily (desc : Desc) (series : Map (List String) Gauge) : List EncodedFamily :=
  if series.isEmpty then []
  else [⟨desc.name, desc.help, series.toList.map fun entry => ⟨desc.pairs entry.1, entry.2⟩⟩]

def GaugeVec.encode (vec : GaugeVec) : List EncodedFamily := encodeGaugeFamily vec.desc vec.children

/-- The order of families: by name. -/
def compareFamilies : BuiltFamily → BuiltFamily → Ordering := compareOn fun family => family.desc.name

instance : Std.TransCmp compareFamilies :=
  inferInstanceAs (Std.TransCmp (compareOn fun family : BuiltFamily => family.desc.name))

/-- A snapshot collector; `published` is in the order in which the set was built. -/
def encodePublished (published : Option (List BuiltFamily)) : List EncodedFamily :=
  match published with
  | none => []
  | some families =>
    (sortBy compareFamilies families).flatMap fun family => encodeGaugeFamily family.desc family.series

/-! ## Well-formed expositions -/

/-- The label names of a family in the order in which its series carry them. -/
def Desc.sortedNames (desc : Desc) : List String := sortBy compare desc.labelNames

/-- What a scraper asks of a family with this descriptor: it has series, all with the labels of the
descriptor, which are valid, distinct and in order, and no two with the same values. -/
structure EncodedFamily.WellFormed (family : EncodedFamily) (desc : Desc) : Prop where
  name : family.name = desc.name
  help : family.help = desc.help
  written : family.series ≠ []
  labels : ∀ series ∈ family.series, series.labels.map Prod.fst = desc.sortedNames
  ordered : desc.sortedNames.Pairwise fun left right => compare left right = .lt
  valid : ∀ name ∈ desc.sortedNames, isValidLabelName name = true
  distinct : (family.series.map (·.labels)).Nodup

/-- What a scraper asks of an exposition with these descriptors: no family comes twice. -/
structure WellFormed (descs : List Desc) (families : List EncodedFamily) : Prop where
  names : (families.map (·.name)).Nodup
  families : ∀ family ∈ families, ∃ desc ∈ descs, family.WellFormed desc

/-- A descriptor whose label names are valid and distinct. -/
structure Desc.Proper (desc : Desc) : Prop where
  nodup : desc.labelNames.Nodup
  valid : ∀ name ∈ desc.labelNames, isValidLabelName name = true

theorem WellFormed.nil (descs : List Desc) : WellFormed descs [] :=
  ⟨List.nodup_nil, fun family hfamily => by cases hfamily⟩

theorem WellFormed.name_mem {descs : List Desc} {families : List EncodedFamily}
    (h : WellFormed descs families) {family : EncodedFamily} (hfamily : family ∈ families) :
    family.name ∈ descs.map (·.name) := by
  obtain ⟨desc, hdesc, hwellFormed⟩ := h.families family hfamily
  rw [hwellFormed.name]
  exact List.mem_map_of_mem hdesc

namespace Desc

variable {desc : Desc} {values values' : List String}

theorem map_fst_pairs (hlength : values.length = desc.labelNames.length) :
    ((desc.pairs values).map Prod.fst).Perm desc.labelNames := by
  have hperm := (sortBy_perm comparePairs (desc.labelNames.zip values)).map Prod.fst
  rwa [List.map_fst_zip (le_of_eq hlength.symm)] at hperm

theorem sorted_pairs (desc : Desc) (values : List String) :
    ((desc.pairs values).map Prod.fst).Pairwise fun left right => (compare left right).isLE = true := by
  rw [List.pairwise_map]
  refine (pairwise_sortBy comparePairs _).imp fun {left right} hle => ?_
  simp only [comparePairs, compareLex, Ordering.isLE_then_iff_and] at hle
  exact hle.1

/-- **The labels of every series are those of the family, in name order.** -/
theorem map_fst_pairs_eq (hlength : values.length = desc.labelNames.length) :
    (desc.pairs values).map Prod.fst = desc.sortedNames := by
  refine eq_of_perm_of_sorted (fun a _ b _ heq => Std.LawfulEqCmp.eq_of_compare heq)
    (desc.sorted_pairs values) (pairwise_sortBy compare _) ?_
  exact (map_fst_pairs hlength).trans (sortBy_perm compare _).symm

/-- Two series with the same labels are one. -/
theorem pairs_inj (hnodup : desc.labelNames.Nodup) (hlength : values.length = desc.labelNames.length)
    (hlength' : values'.length = desc.labelNames.length) (h : desc.pairs values = desc.pairs values') :
    values = values' := by
  refine zip_inj_of_perm hnodup hlength hlength' ?_
  have hperm := sortBy_perm comparePairs (desc.labelNames.zip values)
  rw [show sortBy comparePairs (desc.labelNames.zip values) = desc.pairs values' from h] at hperm
  exact hperm.symm.trans (sortBy_perm comparePairs _)

end Desc

/-- **A family with a value for every label is written well-formed.** -/
theorem encodeGaugeFamily_wellFormed {desc : Desc} {series : Map (List String) Gauge}
    (hproper : desc.Proper) (hlength : ∀ values ∈ series, values.length = desc.labelNames.length)
    {family : EncodedFamily} (h : family ∈ encodeGaugeFamily desc series) : family.WellFormed desc := by
  unfold encodeGaugeFamily at h
  split at h
  · cases h
  · rename_i hsome
    obtain rfl := List.mem_singleton.1 h
    have hkeys : ∀ entry ∈ series.toList, entry.1.length = desc.labelNames.length := by
      rintro ⟨values, value⟩ hentry
      refine hlength values (mem_iff_getElem?.2 ⟨value, ?_⟩)
      exact Std.ExtTreeMap.mem_toList_iff_getElem?_eq_some.1 hentry
    refine ⟨rfl, rfl, ?_, ?_, ?_, ?_, ?_⟩
    · intro hnone
      rw [List.map_eq_nil_iff, Std.ExtTreeMap.toList_eq_nil_iff] at hnone
      exact hsome (by simp [hnone])
    · intro written hwritten
      obtain ⟨entry, hentry, rfl⟩ := List.mem_map.1 hwritten
      exact Desc.map_fst_pairs_eq (hkeys entry hentry)
    · exact pairwise_lt_of_nodup ((sortBy_perm compare _).nodup_iff.2 hproper.nodup)
        (pairwise_sortBy compare _)
    · intro name hname
      exact hproper.valid name (mem_sortBy.1 hname)
    · have hkeys_map : (series.toList.map fun entry : List String × Gauge =>
          EncodedSeries.mk (desc.pairs entry.1) entry.2).map (·.labels) =
          series.keys.map desc.pairs := by
        rw [← Std.ExtTreeMap.map_fst_toList_eq_keys, List.map_map, List.map_map]
        rfl
      rw [hkeys_map]
      refine List.Nodup.map_on (fun values hvalues values' hvalues' => ?_) Std.ExtTreeMap.nodup_keys
      exact Desc.pairs_inj hproper.nodup (hlength values (Std.ExtTreeMap.mem_keys.1 hvalues))
        (hlength values' (Std.ExtTreeMap.mem_keys.1 hvalues'))

/-! ## Published sets -/

/-- The families of a published set: each under its own name, one of `descs`, with a value for every label
in every series. -/
def Shaped (descs : List Desc) (families : Map String BuiltFamily) : Prop :=
  ∀ (name : String) (family : BuiltFamily), families[name]? = some family →
    family.desc ∈ descs ∧ family.desc.name = name ∧
    ∀ values ∈ family.series, values.length = family.desc.labelNames.length

/-- Descriptors of distinct names. -/
def Apart (descs : List Desc) : Prop := (descs.map (·.name)).Nodup

theorem apart_singleton (desc : Desc) : Apart [desc] := List.nodup_singleton _

theorem apart_append {descs descs' : List Desc} : Apart (descs ++ descs') ↔ Apart descs ∧ Apart descs' ∧
    ∀ name ∈ descs.map (·.name), ∀ name' ∈ descs'.map (·.name), name ≠ name' := by
  rw [Apart, List.map_append, List.nodup_append]
  rfl

theorem Apart.eq_of_name {descs : List Desc} (h : Apart descs) {left right : Desc}
    (hleft : left ∈ descs) (hright : right ∈ descs) (hname : left.name = right.name) : left = right :=
  List.inj_on_of_nodup_map h hleft hright hname

namespace SnapshotBuilder

variable {descs : List Desc} {builder : SnapshotBuilder}

/-- The family a series is recorded in, new or not. -/
theorem previous_shaped (hapart : Apart descs) {families : Map String BuiltFamily}
    (h : Shaped descs families) {desc : Desc} (hdesc : desc ∈ descs) :
    (families.getD desc.name ⟨desc, ∅⟩).desc = desc ∧
      ∀ values ∈ (families.getD desc.name ⟨desc, ∅⟩).series,
        values.length = desc.labelNames.length := by
  rw [Std.ExtTreeMap.getD_eq_getD_getElem?]
  cases hfamily : families[desc.name]? with
  | none =>
    refine ⟨rfl, fun values hvalues => ?_⟩
    simp at hvalues
  | some family =>
    obtain ⟨hmem, hname, hlength⟩ := h desc.name family hfamily
    obtain rfl := hapart.eq_of_name hmem hdesc hname
    exact ⟨rfl, hlength⟩

/-- **A builder keeps its families in shape**, whatever labels it is given: a set that does not fit is not
recorded. -/
theorem set_shaped (hapart : Apart descs) (h : Shaped descs builder.families) {desc : Desc}
    (hdesc : desc ∈ descs) (labels : List (String × String)) (value : Gauge) :
    Shaped descs (builder.set desc labels value).families := by
  have hfail : ∀ error, (builder.fail error).families = builder.families := by
    intro error
    unfold fail
    split <;> rfl
  unfold set
  generalize hlabels : labels.foldl (fun (out : Labels) entry => out.insert entry.1 entry.2) ∅ = set
  simp only
  split
  · rw [hfail]
    exact h
  · split
    · rw [hfail]
      exact h
    · rename_i hnone
      intro name family hfamily
      rw [Std.ExtTreeMap.getElem?_insert] at hfamily
      split at hfamily
      · rename_i hname
        obtain rfl : desc.name = name := by simpa using hname
        obtain rfl := Option.some.inj hfamily
        obtain ⟨hprevious, hlength⟩ := previous_shaped hapart h hdesc
        generalize builder.families.getD desc.name ⟨desc, ∅⟩ = previous at hprevious hlength ⊢
        subst hprevious
        refine ⟨hdesc, rfl, fun values hvalues => ?_⟩
        rcases Std.ExtTreeMap.mem_insert.1 hvalues with hnew | hold
        · obtain rfl := Std.LawfulEqCmp.eq_of_compare hnew
          rw [List.filterMap_length_eq_length]
          intro name hname
          have hmem : name ∈ set := by simpa using List.find?_eq_none.1 hnone name hname
          simpa using hmem
        · exact hlength values hold
      · exact h name family hfamily

theorem setEntry_shaped (hapart : Apart descs) (h : Shaped descs builder.families)
    {entry : SeriesEntry} (hentry : entry.desc ∈ descs) :
    Shaped descs (builder.setEntry entry).families :=
  set_shaped hapart h hentry _ _

theorem foldl_setEntry_shaped (hapart : Apart descs) (h : Shaped descs builder.families)
    {entries : List SeriesEntry} (hentries : ∀ entry ∈ entries, entry.desc ∈ descs) :
    Shaped descs (entries.foldl setEntry builder).families := by
  induction entries generalizing builder with
  | nil => exact h
  | cons entry entries ih =>
    rw [List.forall_mem_cons] at hentries
    exact ih (setEntry_shaped hapart h hentries.1) hentries.2

end SnapshotBuilder

theorem shaped_empty (descs : List Desc) : Shaped descs ∅ := by
  intro name family hfamily
  simp at hfamily

/-- `order` is how the `HashMap` of a build handed the set over. -/
def HandsOver (current : Option (Map String BuiltFamily)) (order : Option (List BuiltFamily)) : Prop :=
  match current, order with
  | none, none => True
  | some families, some order => order.Perm (families.toList.map Prod.snd)
  | _, _ => False

section Published

variable {descs : List Desc} {current : Option (Map String BuiltFamily)}
  {order order' : Option (List BuiltFamily)}

theorem mem_handsOver {families : Map String BuiltFamily} {list : List BuiltFamily}
    (h : HandsOver (some families) (some list)) {family : BuiltFamily} :
    family ∈ list ↔ ∃ name : String, families[name]? = some family := by
  rw [List.Perm.mem_iff h, List.mem_map]
  constructor
  · rintro ⟨⟨name, family⟩, hmem, rfl⟩
    exact ⟨name, Std.ExtTreeMap.mem_toList_iff_getElem?_eq_some.1 hmem⟩
  · rintro ⟨name, hfamily⟩
    exact ⟨(name, family), Std.ExtTreeMap.mem_toList_iff_getElem?_eq_some.2 hfamily, rfl⟩

/-- **What is written does not depend on the order of the `HashMap`.** -/
theorem encodePublished_perm (hshaped : ∀ families, current = some families → Shaped descs families)
    (h : HandsOver current order) (h' : HandsOver current order') :
    encodePublished order = encodePublished order' := by
  cases current with
  | none =>
    cases order with
    | some _ => cases h
    | none =>
      cases order' with
      | some _ => cases h'
      | none => rfl
  | some families =>
    cases order with
    | none => cases h
    | some list =>
      cases order' with
      | none => cases h'
      | some list' =>
        have hsorted : sortBy compareFamilies list = sortBy compareFamilies list' := by
          refine sortBy_eq_of_perm (fun a ha b hb heq => ?_) (List.Perm.trans h (List.Perm.symm h'))
          -- Two families of one name are stored under it.
          obtain ⟨name, hfound⟩ := (mem_handsOver h).1 ha
          obtain ⟨name', hfound'⟩ := (mem_handsOver h).1 hb
          have hname := (hshaped families rfl name a hfound).2.1
          have hname' := (hshaped families rfl name' b hfound').2.1
          have hsame : name = name' := by
            rw [← hname, ← hname']
            exact Std.LawfulEqCmp.eq_of_compare heq
          rw [hsame, hfound'] at hfound
          exact (Option.some.inj hfound).symm
        simp only [encodePublished, hsorted]

theorem flatMap_encode_names (list : List BuiltFamily) :
    ((list.flatMap fun family => encodeGaugeFamily family.desc family.series).map (·.name)).Sublist
      (list.map (·.desc.name)) := by
  induction list with
  | nil => exact List.Sublist.slnil
  | cons family list ih =>
    rw [List.flatMap_cons, List.map_append, List.map_cons]
    unfold encodeGaugeFamily
    split
    · exact ih.cons _
    · exact ih.cons_cons _

/-- **A published set is written well-formed**, under its descriptors. -/
theorem encodePublished_wellFormed (hproper : ∀ desc ∈ descs, desc.Proper)
    (hshaped : ∀ families, current = some families → Shaped descs families)
    (h : HandsOver current order) : WellFormed descs (encodePublished order) := by
  cases order with
  | none => exact WellFormed.nil descs
  | some list =>
    cases current with
    | none => cases h
    | some families =>
      have hnames : (list.map (·.desc.name)).Nodup := by
        have hkeys : (families.toList.map Prod.snd).map (·.desc.name) = families.keys := by
          rw [← Std.ExtTreeMap.map_fst_toList_eq_keys, List.map_map]
          refine List.map_congr_left fun entry hentry => ?_
          exact (hshaped families rfl entry.1 entry.2
            (Std.ExtTreeMap.mem_toList_iff_getElem?_eq_some.1 hentry)).2.1
        rw [(List.Perm.map _ h).nodup_iff, hkeys]
        exact Std.ExtTreeMap.nodup_keys
      constructor
      · refine (flatMap_encode_names _).nodup ?_
        exact ((sortBy_perm compareFamilies list).map _).nodup_iff.2 hnames
      · intro encoded hencoded
        obtain ⟨family, hfamily, hencoded⟩ := List.mem_flatMap.1 hencoded
        obtain ⟨name, hname⟩ := (mem_handsOver h).1 (mem_sortBy.1 hfamily)
        obtain ⟨hdesc, -, hlength⟩ := hshaped families rfl name family hname
        exact ⟨family.desc, hdesc, encodeGaugeFamily_wellFormed (hproper _ hdesc) hlength hencoded⟩

end Published

/-- Parts under different names are well-formed together. -/
theorem WellFormed.append {descs descs' : List Desc} {left right : List EncodedFamily}
    (hleft : WellFormed descs left) (hright : WellFormed descs' right) (hapart : Apart (descs ++ descs')) :
    WellFormed (descs ++ descs') (left ++ right) := by
  obtain ⟨-, -, hdisjoint⟩ := apart_append.1 hapart
  constructor
  · rw [List.map_append, List.nodup_append]
    refine ⟨hleft.names, hright.names, fun name hname name' hname' => ?_⟩
    obtain ⟨family, hfamily, rfl⟩ := List.mem_map.1 hname
    obtain ⟨family', hfamily', rfl⟩ := List.mem_map.1 hname'
    exact hdisjoint _ (hleft.name_mem hfamily) _ (hright.name_mem hfamily')
  · intro family hfamily
    rcases List.mem_append.1 hfamily with hfamily | hfamily
    · obtain ⟨desc, hdesc, hwellFormed⟩ := hleft.families family hfamily
      exact ⟨desc, List.mem_append_left _ hdesc, hwellFormed⟩
    · obtain ⟨desc, hdesc, hwellFormed⟩ := hright.families family hfamily
      exact ⟨desc, List.mem_append_right _ hdesc, hwellFormed⟩

theorem wellFormed_flatten {descs : List (List Desc)} {parts : List (List EncodedFamily)}
    (h : List.Forall₂ WellFormed descs parts) (hapart : Apart descs.flatten) :
    WellFormed descs.flatten parts.flatten := by
  induction h with
  | nil => exact WellFormed.nil _
  | cons hpart _ ih =>
    rw [List.flatten_cons] at hapart ⊢
    obtain ⟨-, hrest, -⟩ := apart_append.1 hapart
    exact hpart.append (ih hrest) hapart

theorem GaugeVec.encode_wellFormed {vec : GaugeVec} (hproper : vec.desc.Proper)
    (hlength : ∀ values ∈ vec.children, values.length = vec.desc.labelNames.length) :
    WellFormed [vec.desc] vec.encode := by
  constructor
  · unfold encode encodeGaugeFamily
    split
    · exact List.nodup_nil
    · exact List.nodup_singleton _
  · intro family hfamily
    exact ⟨vec.desc, List.mem_singleton.2 rfl, encodeGaugeFamily_wellFormed hproper hlength hfamily⟩

end SwarmExporter
