import Mathlib.Data.List.Basic

/-!
# Sorting by a comparison

A list sorted by a lawful comparison is in its order (`pairwise_sortBy`), and two lists with the same
elements sort to the same list when the comparison tells the elements apart (`sortBy_eq_of_perm`). Pairs of
distinct keys with values are determined by their set (`zip_inj_of_perm`). Sorting by a Boolean key puts
one group before the other (`sortBy_bool`).
-/

namespace SwarmExporter.Lib

variable {α β : Type}

/-- `items` in the order of `cmp`, equal ones as they were. -/
def sortBy (cmp : α → α → Ordering) (items : List α) : List α :=
  items.mergeSort fun left right => (cmp left right).isLE

variable {cmp : α → α → Ordering}

theorem sortBy_perm (cmp : α → α → Ordering) (items : List α) : (sortBy cmp items).Perm items := List.mergeSort_perm _ _

@[simp] theorem mem_sortBy {item : α} {items : List α} : item ∈ sortBy cmp items ↔ item ∈ items :=
  (sortBy_perm cmp items).mem_iff

theorem pairwise_sortBy (cmp : α → α → Ordering) [Std.TransCmp cmp] (items : List α) :
    (sortBy cmp items).Pairwise fun left right => (cmp left right).isLE = true := by
  refine List.pairwise_mergeSort (fun a b c => Std.TransCmp.isLE_trans) (fun a b => ?_) items
  cases hcmp : cmp a b with
  | gt => simp [Std.OrientedCmp.lt_of_gt hcmp]
  | _ => simp

section Trans

variable [Std.TransCmp cmp]

theorem eq_of_isLE {left right : α} (hle : (cmp left right).isLE = true)
    (hge : (cmp right left).isLE = true) : cmp left right = .eq := by
  cases hcmp : cmp left right with
  | eq => rfl
  | lt =>
    rw [Std.OrientedCmp.gt_of_lt hcmp] at hge
    cases hge
  | gt =>
    rw [hcmp] at hle
    cases hle

/-- Lists in order that have the same elements are the same, if the comparison tells them apart. -/
theorem eq_of_perm_of_sorted {items items' : List α}
    (hapart : ∀ a ∈ items, ∀ b ∈ items, cmp a b = .eq → a = b)
    (hsorted : items.Pairwise fun left right => (cmp left right).isLE = true)
    (hsorted' : items'.Pairwise fun left right => (cmp left right).isLE = true)
    (hperm : items.Perm items') : items = items' := by
  refine hperm.eq_of_pairwise (fun a b ha hb hle hge => ?_) hsorted hsorted'
  exact hapart a ha b (hperm.mem_iff.2 hb) (eq_of_isLE hle hge)

theorem sortBy_eq_of_perm {items items' : List α}
    (hapart : ∀ a ∈ items, ∀ b ∈ items, cmp a b = .eq → a = b) (hperm : items.Perm items') :
    sortBy cmp items = sortBy cmp items' := by
  refine eq_of_perm_of_sorted (fun a ha b hb => ?_) (pairwise_sortBy cmp _) (pairwise_sortBy cmp _)
    ((sortBy_perm cmp items).trans (hperm.trans (sortBy_perm cmp items').symm))
  exact hapart a (mem_sortBy.1 ha) b (mem_sortBy.1 hb)

omit [Std.TransCmp cmp] in
/-- A list in order without repetitions is in strict order. -/
theorem pairwise_lt_of_nodup [Std.LawfulEqCmp cmp] {items : List α} (hnodup : items.Nodup)
    (hsorted : items.Pairwise fun left right => (cmp left right).isLE = true) :
    items.Pairwise fun left right => cmp left right = .lt := by
  refine (hsorted.and hnodup).imp fun {left right} h => ?_
  obtain ⟨hle, hne⟩ := h
  cases hcmp : cmp left right with
  | lt => rfl
  | eq => exact absurd (Std.LawfulEqCmp.eq_of_compare hcmp) hne
  | gt =>
    rw [hcmp] at hle
    cases hle

end Trans

/-- Keys that do not repeat, paired with values: the pairs determine the values. -/
theorem zip_inj_of_perm {keys : List α} {values values' : List β} (hnodup : keys.Nodup)
    (hlength : values.length = keys.length) (hlength' : values'.length = keys.length)
    (hperm : (keys.zip values).Perm (keys.zip values')) : values = values' := by
  induction keys generalizing values values' with
  | nil =>
    rw [List.length_eq_zero_iff.1 hlength, List.length_eq_zero_iff.1 hlength']
  | cons key keys ih =>
    obtain ⟨value, values, rfl⟩ := List.exists_cons_of_length_eq_add_one hlength
    obtain ⟨value', values', rfl⟩ := List.exists_cons_of_length_eq_add_one hlength'
    obtain ⟨hnew, hnodup⟩ := List.nodup_cons.1 hnodup
    obtain rfl : value = value' := by
      have hmem : (key, value) ∈ (key :: keys).zip (value' :: values') :=
        hperm.mem_iff.1 List.mem_cons_self
      rcases List.mem_cons.1 hmem with heq | hmem
      · exact (Prod.mk.inj heq).2
      · exact absurd (List.of_mem_zip hmem).1 hnew
    rw [ih hnodup (Nat.succ.inj hlength) (Nat.succ.inj hlength') (List.Perm.cons_inv hperm)]

section Key

/-- A list with those without `key` before those with it is the two one after the other. -/
theorem eq_filter_append {key : α → Bool} {items : List α}
    (h : items.Pairwise fun left right => key left = true → key right = true) :
    items = items.filter (!key ·) ++ items.filter key := by
  induction items with
  | nil => rfl
  | cons item items ih =>
    rw [List.pairwise_cons] at h
    cases hkey : key item with
    | false =>
      rw [List.filter_cons_of_pos (by simp [hkey]), List.filter_cons_of_neg (by simp [hkey]),
        List.cons_append, ← ih h.2]
    | true =>
      have hall : ∀ item' ∈ items, key item' = true := fun item' hmem => h.1 item' hmem hkey
      have hnone : items.filter (!key ·) = [] := by
        apply List.filter_eq_nil_iff.2
        intro item' hmem
        simp [hall item' hmem]
      rw [List.filter_cons_of_neg (by simp [hkey]), List.filter_cons_of_pos hkey, hnone, List.nil_append,
        List.filter_eq_self.2 hall]

/-- Sorted by a Boolean key, the items without it come first, each group as it was. -/
theorem sortBy_bool (key : α → Bool) (items : List α) :
    sortBy (compareOn key) items = items.filter (!key ·) ++ items.filter key := by
  have hle : ∀ left right, (compareOn key left right).isLE = true ↔
      (key left = true → key right = true) := by
    intro left right
    unfold compareOn
    cases key left <;> cases key right <;> decide
  have hsorted := pairwise_sortBy (compareOn key) items
  have hperm := sortBy_perm (compareOn key) items
  rw [eq_filter_append (hsorted.imp fun h => (hle _ _).1 h)]
  -- A group is in order as it is, so the stable sort keeps it.
  have hgroup : ∀ group : α → Bool, (∀ left right, group left = true → group right = true →
      (compareOn key left right).isLE = true) →
      (sortBy (compareOn key) items).filter group = items.filter group := by
    intro group hgroup
    have hkept : (items.filter group).Sublist (sortBy (compareOn key) items) := by
      apply List.sublist_mergeSort (fun a b c => Std.TransCmp.isLE_trans) _ _ List.filter_sublist
      · intro left right
        unfold compareOn
        cases key left <;> cases key right <;> decide
      · apply List.pairwise_of_forall_mem_list
        intro left hleft right hright
        exact hgroup left right (List.mem_filter.1 hleft).2 (List.mem_filter.1 hright).2
    have hfiltered := hkept.filter group
    rw [List.filter_filter] at hfiltered
    simp only [Bool.and_self] at hfiltered
    exact (hfiltered.eq_of_length (hperm.filter group).length_eq.symm).symm
  rw [hgroup key fun left right _ hright => (hle left right).2 fun _ => hright,
    hgroup (!key ·) fun left right hleft _ => (hle left right).2 fun hkey => by simp [hkey] at hleft]

end Key

end SwarmExporter.Lib
