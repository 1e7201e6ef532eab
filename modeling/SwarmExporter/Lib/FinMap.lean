import Mathlib.Data.List.Nodup
import Std.Data.ExtTreeMap

/-!
# Finite maps

`Map α β` is the finite map of an ordered key type, with extensional equality. A map whose iteration
order is not a function of its content is iterated along a list that `Enumerates` its keys; what an
iteration computes then has to be shown for every such list.
-/

namespace SwarmExporter.Lib

/-- A finite map keyed by an ordered type. -/
abbrev Map (α β : Type) [Ord α] := Std.ExtTreeMap α β compare

variable {α β : Type} [Ord α] [Std.TransOrd α] [Std.LawfulEqOrd α]

/-- `order` lists every key of `map` once. -/
def Enumerates (order : List α) (map : Map α β) : Prop :=
  order.Nodup ∧ ∀ key, key ∈ order ↔ key ∈ map

instance [DecidableEq α] (order : List α) (map : Map α β) : Decidable (Enumerates order map) :=
  decidable_of_iff (order.Nodup ∧ (∀ key ∈ order, key ∈ map) ∧ ∀ key ∈ map.keys, key ∈ order) <| by
    simp only [Enumerates, Std.ExtTreeMap.mem_keys]
    constructor
    · rintro ⟨hnodup, hmem, hkeys⟩
      exact ⟨hnodup, fun key => ⟨hmem key, hkeys key⟩⟩
    · rintro ⟨hnodup, hiff⟩
      exact ⟨hnodup, fun key => (hiff key).1, fun key => (hiff key).2⟩

theorem enumerates_keys (map : Map α β) : Enumerates map.keys map :=
  ⟨Std.ExtTreeMap.nodup_keys, fun _ => Std.ExtTreeMap.mem_keys⟩

omit [Std.LawfulEqOrd α] in
theorem Enumerates.perm {order order' : List α} {map : Map α β} (h : Enumerates order map)
    (h' : Enumerates order' map) : order.Perm order' :=
  (List.perm_ext_iff_of_nodup h.1 h'.1).2 fun key => (h.2 key).trans (h'.2 key).symm

theorem Enumerates.size_eq {order : List α} {map : Map α β} (h : Enumerates order map) :
    map.size = order.length := by
  rw [← Std.ExtTreeMap.length_keys]
  exact ((enumerates_keys map).perm h).length_eq

omit [Std.LawfulEqOrd α] in
theorem enumerates_empty_iff {order : List α} : Enumerates order (∅ : Map α β) ↔ order = [] := by
  constructor
  · intro h
    exact List.eq_nil_iff_forall_not_mem.2 fun key hkey => by simpa using (h.2 key).1 hkey
  · rintro rfl
    exact ⟨List.nodup_nil, by simp⟩

omit [Std.LawfulEqOrd α] in
theorem mem_iff_getElem? {map : Map α β} {key : α} : key ∈ map ↔ ∃ value, map[key]? = some value := by
  rw [Std.ExtTreeMap.mem_iff_isSome_getElem?, Option.isSome_iff_exists]

omit [Std.LawfulEqOrd α] in
theorem notMem_iff_getElem? {map : Map α β} {key : α} : key ∉ map ↔ map[key]? = none := by
  rw [mem_iff_getElem?]
  cases map[key]? <;> simp

/-! ## Writing a list of entries -/

/-- A key the entries do not have keeps what the map had. -/
theorem getElem?_foldl_insert_of_notMem (entries : List (α × β)) (map : Map α β) {key : α}
    (h : key ∉ entries.map Prod.fst) :
    (entries.foldl (fun out entry => out.insert entry.1 entry.2) map)[key]? = map[key]? := by
  induction entries generalizing map with
  | nil => rfl
  | cons entry entries ih =>
    simp only [List.map_cons, List.mem_cons, not_or] at h
    rw [List.foldl_cons, ih _ h.2, Std.ExtTreeMap.getElem?_insert]
    simp [Ne.symm h.1]

/-- An entry of a list of entries with distinct keys is in the map they are written to. -/
theorem getElem?_foldl_insert_of_mem {entries : List (α × β)}
    (hentries : (entries.map Prod.fst).Nodup) (map : Map α β) {key : α} {value : β}
    (h : (key, value) ∈ entries) :
    (entries.foldl (fun out entry => out.insert entry.1 entry.2) map)[key]? = some value := by
  induction entries generalizing map with
  | nil => cases h
  | cons entry entries ih =>
    simp only [List.map_cons, List.nodup_cons] at hentries
    rw [List.foldl_cons]
    rcases List.mem_cons.1 h with rfl | h
    · rw [getElem?_foldl_insert_of_notMem _ _ hentries.1, Std.ExtTreeMap.getElem?_insert]
      simp
    · exact ih hentries.2 _ h

/-- A key that is not dropped keeps what the map had. -/
theorem getElem?_foldl_erase_of_notMem (keys : List α) (map : Map α β) {key : α} (h : key ∉ keys) :
    (keys.foldl (fun out key => out.erase key) map)[key]? = map[key]? := by
  induction keys generalizing map with
  | nil => rfl
  | cons first keys ih =>
    simp only [List.mem_cons, not_or] at h
    rw [List.foldl_cons, ih _ h.2, Std.ExtTreeMap.getElem?_erase]
    simp [Ne.symm h.1]

/-- A dropped key is gone. -/
theorem getElem?_foldl_erase_of_mem {keys : List α} (map : Map α β) {key : α} (h : key ∈ keys) :
    (keys.foldl (fun out key => out.erase key) map)[key]? = none := by
  induction keys generalizing map with
  | nil => cases h
  | cons first keys ih =>
    rw [List.foldl_cons]
    by_cases hkeys : key ∈ keys
    · exact ih _ hkeys
    · obtain rfl : key = first := (List.mem_cons.1 h).resolve_right hkeys
      rw [getElem?_foldl_erase_of_notMem keys _ hkeys]
      simp

/-- Writing the value a key has changes nothing. -/
theorem insert_eq_self {map : Map α β} {key : α} {value : β} (h : map[key]? = some value) :
    map.insert key value = map := by
  apply Std.ExtTreeMap.ext_getElem?
  intro other
  rw [Std.ExtTreeMap.getElem?_insert]
  split
  · rename_i heq
    rw [Std.LawfulEqCmp.compare_eq_iff_eq] at heq
    rw [← heq, h]
  · rfl

/-- Erasing a key that is not there changes nothing. -/
theorem erase_eq_self {map : Map α β} {key : α} (h : key ∉ map) : map.erase key = map := by
  apply Std.ExtTreeMap.ext_getElem?
  intro other
  rw [Std.ExtTreeMap.getElem?_erase]
  split
  · rename_i heq
    rw [Std.LawfulEqCmp.compare_eq_iff_eq] at heq
    rw [← heq, notMem_iff_getElem?.1 h]
  · rfl

/-- A write tells its value and the rest of the map. -/
theorem insert_inj {map map' : Map α β} {key : α} {value value' : β}
    (h : map.insert key value = map'.insert key value') :
    value = value' ∧ map.erase key = map'.erase key := by
  have hget : ∀ other : α, (map.insert key value)[other]? = (map'.insert key value')[other]? :=
    fun other => by rw [h]
  constructor
  · have := hget key
    rwa [Std.ExtTreeMap.getElem?_insert_self, Std.ExtTreeMap.getElem?_insert_self,
      Option.some.injEq] at this
  · apply Std.ExtTreeMap.ext_getElem?
    intro other
    rw [Std.ExtTreeMap.getElem?_erase, Std.ExtTreeMap.getElem?_erase]
    split
    · rfl
    · rename_i hother
      have := hget other
      rwa [Std.ExtTreeMap.getElem?_insert, Std.ExtTreeMap.getElem?_insert, if_neg hother,
        if_neg hother] at this

/-- Writing the entries of a map to the empty one gives it back. -/
theorem foldl_insert_toList (map : Map α β) :
    map.toList.foldl (fun out entry => out.insert entry.1 entry.2) ∅ = map := by
  have hkeys : (map.toList.map Prod.fst).Nodup := by
    rw [Std.ExtTreeMap.map_fst_toList_eq_keys]
    exact Std.ExtTreeMap.nodup_keys
  apply Std.ExtTreeMap.ext_getElem?
  intro key
  cases h : map[key]? with
  | some value =>
    exact getElem?_foldl_insert_of_mem hkeys _ (Std.ExtTreeMap.mem_toList_iff_getElem?_eq_some.2 h)
  | none =>
    rw [getElem?_foldl_insert_of_notMem]
    · simp
    · rw [Std.ExtTreeMap.map_fst_toList_eq_keys, Std.ExtTreeMap.mem_keys, notMem_iff_getElem?]
      exact h

end SwarmExporter.Lib
