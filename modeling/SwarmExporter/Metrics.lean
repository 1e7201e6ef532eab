import SwarmExporter.Basic

/-!
# The metric building blocks

* `GaugeVec`: a gauge with labels, one series per label-value list, each kept until deleted.
* `SnapshotBuilder`: gauge families built whole from one poll, to be swapped in at once; one label
  set that does not fit its family fails the whole build.

A label set is written under its values in the order of the family's label names
(`valuesInOrder`). When it has exactly the family's names (`Desc.Fits`) that order exists, and two
label sets that fit one family are equal as soon as their values are (`Desc.Fits.key_inj`), so a
series key and a label set are the same thing.
-/

namespace SwarmExporter

open Lib

/-- A family's name, help text and label names. -/
structure Desc where
  name : String
  help : String
  labelNames : List String
  deriving DecidableEq, Repr

/-- A label set whose names are not exactly the family's; `missing` is a name the label map lacks. -/
structure LabelsMismatch where
  family : String
  want : Nat
  got : Nat
  missing : Option String
  deriving DecidableEq, Repr

/-- The label values of `labels` in the label-name order of `desc`. -/
def valuesInOrder (desc : Desc) (labels : Labels) : Except LabelsMismatch (List String) :=
  let mismatch (missing : Option String) : LabelsMismatch :=
    ⟨desc.name, desc.labelNames.length, labels.size, missing⟩
  if labels.size ≠ desc.labelNames.length then .error (mismatch none)
  else
    desc.labelNames.mapM fun name =>
      match labels[name]? with
      | some value => .ok value
      | none => .error (mismatch (some name))

structure GaugeVec where
  desc : Desc
  children : Map (List String) Gauge
  deriving DecidableEq

namespace GaugeVec

def new (desc : Desc) : GaugeVec := ⟨desc, ∅⟩

/-- Sets the series `labels` name. -/
def setWith (vec : GaugeVec) (labels : Labels) (value : Gauge) : Except LabelsMismatch GaugeVec := do
  let key ← valuesInOrder vec.desc labels
  return { vec with children := vec.children.insert key value }

/-- Deletes the series `labels` name, and whether it existed; nothing happens when `labels` does not
name exactly the family's labels. -/
def deleteWith (vec : GaugeVec) (labels : Labels) : Bool × GaugeVec :=
  match valuesInOrder vec.desc labels with
  | .ok key => (key ∈ vec.children, { vec with children := vec.children.erase key })
  | .error _ => (false, vec)

end GaugeVec

/-- A label set whose keys are not exactly its family's label names: a build fails instead of
publishing it. -/
structure BuildError where
  text : String
  deriving DecidableEq, Repr

def BuildError.display (error : BuildError) : String :=
  "label set does not match the family's label names: " ++ error.text

/-- `[a b]`, a list of names. -/
def listNames (names : List String) : String :=
  "[" ++ " ".intercalate names ++ "]"

/-- One built family: its descriptor and series, by label values. -/
structure BuiltFamily where
  desc : Desc
  series : Map (List String) Gauge
  deriving DecidableEq

/-- The series of one update, by family name, before it is published. -/
structure SnapshotBuilder where
  families : Map String BuiltFamily := ∅
  error : Option BuildError := none
  deriving DecidableEq

namespace SnapshotBuilder

/-- Keeps the first error. -/
def fail (builder : SnapshotBuilder) (error : BuildError) : SnapshotBuilder :=
  if builder.error.isNone then { builder with error := some error } else builder

/-- Records `value` for the series of `desc` with `labels`, which must name exactly the family's
labels; a name given twice keeps its last value. -/
def set (builder : SnapshotBuilder) (desc : Desc) (labels : List (String × String)) (value : Gauge) :
    SnapshotBuilder :=
  let labels : Labels := labels.foldl (fun out entry => out.insert entry.1 entry.2) ∅
  if labels.size ≠ desc.labelNames.length then
    builder.fail ⟨"got " ++ toString labels.size ++ " labels, want " ++ listNames desc.labelNames⟩
  else
    match desc.labelNames.find? (· ∉ labels) with
    | some name =>
      builder.fail ⟨"missing \"" ++ name ++ "\", want " ++ listNames desc.labelNames⟩
    | none =>
      let labelValues := desc.labelNames.filterMap (labels[·]?)
      let family := builder.families.getD desc.name ⟨desc, ∅⟩
      { builder with
        families := builder.families.insert desc.name
          { family with series := family.series.insert labelValues value } }

/-- The recorded families; any error fails the whole build. -/
def build (builder : SnapshotBuilder) : Except BuildError (Map String BuiltFamily) :=
  match builder.error with
  | some error => .error error
  | none => .ok builder.families

end SnapshotBuilder

/-! ## Label sets that fit a family -/

/-- `labels` has exactly the label names of `desc`, which are distinct. -/
structure Desc.Fits (desc : Desc) (labels : Labels) : Prop where
  nodup : desc.labelNames.Nodup
  names : ∀ name, name ∈ labels ↔ name ∈ desc.labelNames

/-- The series key of a fitting label set: its values in label-name order. -/
def Desc.key (desc : Desc) (labels : Labels) : List String :=
  desc.labelNames.map fun name => labels.getD name ""

namespace Desc.Fits

variable {desc : Desc} {labels : Labels}

theorem size_eq (h : desc.Fits labels) : labels.size = desc.labelNames.length :=
  Enumerates.size_eq ⟨h.nodup, fun name => (h.names name).symm⟩

theorem getElem?_eq (h : desc.Fits labels) {name : String} (hname : name ∈ desc.labelNames) :
    labels[name]? = some (labels.getD name "") := by
  obtain ⟨value, hvalue⟩ := mem_iff_getElem?.1 ((h.names name).2 hname)
  rw [Std.ExtTreeMap.getD_eq_getD_getElem?, hvalue, Option.getD_some]

theorem valuesInOrder_eq (h : desc.Fits labels) :
    valuesInOrder desc labels = .ok (desc.key labels) := by
  have hmapM : ∀ names : List String, (∀ name ∈ names, name ∈ desc.labelNames) →
      (names.mapM fun name =>
        match labels[name]? with
        | some value => .ok value
        | none => .error (⟨desc.name, desc.labelNames.length, labels.size, some name⟩ :
            LabelsMismatch)) = Except.ok (names.map fun name => labels.getD name "") := by
    intro names hnames
    induction names with
    | nil => rfl
    | cons name names ih =>
      rw [List.mapM_cons, h.getElem?_eq (hnames name List.mem_cons_self),
        ih fun n hn => hnames n (List.mem_cons_of_mem _ hn)]
      rfl
  unfold valuesInOrder
  rw [if_neg (not_not_intro h.size_eq)]
  exact hmapM desc.labelNames fun _ hname => hname

/-- Two label sets that fit one family and have the same values are the same. -/
theorem key_inj {labels' : Labels} (h : desc.Fits labels) (h' : desc.Fits labels')
    (heq : desc.key labels = desc.key labels') : labels = labels' := by
  have hvalue : ∀ name ∈ desc.labelNames, labels.getD name "" = labels'.getD name "" :=
    List.map_inj_left.1 heq
  apply Std.ExtTreeMap.ext_getElem?
  intro name
  by_cases hname : name ∈ desc.labelNames
  · rw [h.getElem?_eq hname, h'.getElem?_eq hname, hvalue name hname]
  · rw [notMem_iff_getElem?.1 (mt (h.names name).1 hname),
      notMem_iff_getElem?.1 (mt (h'.names name).1 hname)]

end Desc.Fits

namespace GaugeVec

/-- The series of a fitting label set, written. -/
def put (vec : GaugeVec) (labels : Labels) (value : Gauge) : GaugeVec :=
  { vec with children := vec.children.insert (vec.desc.key labels) value }

/-- The series of a fitting label set, dropped. -/
def drop (vec : GaugeVec) (labels : Labels) : GaugeVec :=
  { vec with children := vec.children.erase (vec.desc.key labels) }

@[simp] theorem put_desc (vec : GaugeVec) (labels : Labels) (value : Gauge) :
    (vec.put labels value).desc = vec.desc := rfl

@[simp] theorem deleteWith_desc (vec : GaugeVec) (labels : Labels) :
    (vec.deleteWith labels).2.desc = vec.desc := by
  unfold deleteWith
  cases valuesInOrder vec.desc labels <;> rfl

theorem getElem?_put (vec : GaugeVec) (labels : Labels) (value : Gauge) (key : List String) :
    (vec.put labels value).children[key]? =
      if key = vec.desc.key labels then some value else vec.children[key]? := by
  simp only [put, Std.ExtTreeMap.getElem?_insert, Std.LawfulEqCmp.compare_eq_iff_eq,
    eq_comm (a := key)]

theorem getElem?_drop (vec : GaugeVec) (labels : Labels) (key : List String) :
    (vec.drop labels).children[key]? =
      if key = vec.desc.key labels then none else vec.children[key]? := by
  simp only [drop, Std.ExtTreeMap.getElem?_erase, Std.LawfulEqCmp.compare_eq_iff_eq,
    eq_comm (a := key)]

variable {vec : GaugeVec} {labels : Labels}

theorem setWith_of_fits (h : vec.desc.Fits labels) (value : Gauge) :
    vec.setWith labels value = .ok (vec.put labels value) := by
  unfold setWith
  rw [h.valuesInOrder_eq]
  rfl

theorem deleteWith_of_fits (h : vec.desc.Fits labels) :
    vec.deleteWith labels = (decide (vec.desc.key labels ∈ vec.children), vec.drop labels) := by
  unfold deleteWith
  rw [h.valuesInOrder_eq]
  rfl

end GaugeVec

namespace SnapshotBuilder

/-- A label set that fits its family is recorded under its values. -/
theorem set_of_fits {desc : Desc} {labels : Labels} (builder : SnapshotBuilder)
    (h : desc.Fits labels) (value : Gauge) :
    builder.set desc labels.toList value =
      { builder with
        families := builder.families.insert desc.name
          { builder.families.getD desc.name ⟨desc, ∅⟩ with
            series :=
              (builder.families.getD desc.name ⟨desc, ∅⟩).series.insert (desc.key labels) value } } := by
  have hfind : desc.labelNames.find? (· ∉ labels) = none := by
    rw [List.find?_eq_none]
    intro name hname
    simp [(h.names name).2 hname]
  have hvalues : desc.labelNames.filterMap (labels[·]?) = desc.key labels := by
    unfold Desc.key
    rw [← List.filterMap_eq_map]
    exact List.filterMap_congr fun name hname => h.getElem?_eq hname
  simp only [set, foldl_insert_toList, h.size_eq, ne_eq, not_true_eq_false, ↓reduceIte, hfind, hvalues]

end SnapshotBuilder

end SwarmExporter
