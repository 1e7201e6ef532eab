import Mathlib.Data.List.Chain
import Mathlib.Data.List.Perm.Basic

/-!
# The last one standing

A fold that keeps its current element until a later one beats it. Which element is left may depend on
the order, as soon as `beats` leaves two elements undecided or has a cycle. `Crowned` says which ones
can be left, without an order: the heads of a chain in which each beats the next and which no element
outside it beats throughout.
-/

namespace SwarmExporter.Lib

section

variable {α : Type} (beats : α → α → Bool)

/-- `item` replaces the current element if it beats it, or if there is none. -/
def challenge (current : Option α) (item : α) : Option α :=
  if current.all fun previous => beats item previous then some item else current

/-- The element left after all of `items`, in order. -/
def champion (items : List α) : Option α := items.foldl (challenge beats) none

/-- `winner` heads a chain of `group` in which each beats the next, and each of the others fails to
beat one of the chain. -/
def Crowned (group : List α) (winner : α) : Prop :=
  ∃ chain rest, group.Perm (winner :: chain ++ rest) ∧
    (winner :: chain).IsChain (fun first second => beats first second = true) ∧
    ∀ item ∈ rest, ∃ member ∈ winner :: chain, beats item member = false

end

section

variable {α : Type} {beats : α → α → Bool} {items group : List α} {item winner : α}

theorem champion_snoc (items : List α) (item : α) :
    champion beats (items ++ [item]) = challenge beats (champion beats items) item := by
  unfold champion
  rw [List.foldl_append]
  rfl

theorem challenge_of_beats (h : beats item winner = true) :
    challenge beats (some winner) item = some item := by
  simp [challenge, h]

theorem challenge_of_not_beats (h : beats item winner = false) :
    challenge beats (some winner) item = some winner := by
  simp [challenge, h]

/-- Only an empty list leaves nothing. -/
theorem champion_eq_none : champion beats items = none ↔ items = [] := by
  constructor
  · intro h
    rcases List.eq_nil_or_concat items with hnil | ⟨before, item, hlast⟩
    · exact hnil
    · rw [hlast, List.concat_eq_append, champion_snoc] at h
      unfold challenge at h
      split at h
      · cases h
      · rename_i hstays
        rw [h] at hstays
        simp at hstays
  · rintro rfl
    rfl

/-- Elements that do not beat the current one leave it there. -/
theorem champion_append_of_not_beats (hwinner : champion beats items = some winner)
    (h : ∀ item ∈ group, beats item winner = false) :
    champion beats (items ++ group) = some winner := by
  induction group using List.reverseRecOn with
  | nil => rwa [List.append_nil]
  | append_singleton group item ih =>
    rw [← List.append_assoc, champion_snoc, ih fun other hother => h other (List.mem_append_left _ hother)]
    exact challenge_of_not_beats (h item (List.mem_append_right _ (List.mem_singleton.2 rfl)))

theorem Crowned.perm {group' : List α} (h : Crowned beats group winner) (hperm : group'.Perm group) :
    Crowned beats group' winner := by
  obtain ⟨chain, rest, hgroup, hchain, hrest⟩ := h
  exact ⟨chain, rest, hperm.trans hgroup, hchain, hrest⟩

theorem Crowned.mem (h : Crowned beats group winner) : winner ∈ group := by
  obtain ⟨chain, rest, hgroup, -, -⟩ := h
  exact hgroup.mem_iff.2 (List.mem_cons_self ..)

/-- What is left heads a chain: those that were current before it. -/
theorem crowned_of_champion (h : champion beats items = some winner) : Crowned beats items winner := by
  induction items using List.reverseRecOn generalizing winner with
  | nil => cases h
  | append_singleton items item ih =>
    rw [champion_snoc] at h
    cases hcurrent : champion beats items with
    | none =>
      obtain rfl := champion_eq_none.1 hcurrent
      cases h
      exact ⟨[], [], .refl _, .singleton _, by simp⟩
    | some current =>
      obtain ⟨chain, rest, hperm, hchain, hrest⟩ := ih hcurrent
      rw [hcurrent] at h
      cases hbeats : beats item current with
      | true =>
        rw [challenge_of_beats hbeats] at h
        cases h
        refine ⟨current :: chain, rest, ?_, hchain.cons_cons hbeats, fun other hother => ?_⟩
        · exact (List.perm_append_singleton ..).trans (hperm.cons _)
        · obtain ⟨member, hmember, hfails⟩ := hrest other hother
          exact ⟨member, List.mem_cons_of_mem _ hmember, hfails⟩
      | false =>
        rw [challenge_of_not_beats hbeats] at h
        cases h
        refine ⟨chain, rest ++ [item], ?_, hchain, fun other hother => ?_⟩
        · rw [← List.append_assoc]
          exact hperm.append_right _
        · rcases List.mem_append.1 hother with hother | hother
          · exact hrest other hother
          · obtain rfl := List.mem_singleton.1 hother
            exact ⟨winner, List.mem_cons_self .., hbeats⟩

/-- A chain is climbed from its end: an element that fails to beat one of the chain is placed where
that one is current. -/
theorem exists_order_of_chain {chain rest : List α}
    (hchain : (winner :: chain).IsChain fun first second => beats first second = true)
    (hrest : ∀ item ∈ rest, ∃ member ∈ winner :: chain, beats item member = false) :
    ∃ order : List α, order.Perm (winner :: chain ++ rest) ∧ champion beats order = some winner := by
  induction chain generalizing winner rest with
  | nil =>
    refine ⟨winner :: rest, .refl _, ?_⟩
    have hfirst : champion beats [winner] = some winner := rfl
    refine champion_append_of_not_beats hfirst fun item hitem => ?_
    obtain ⟨member, hmember, hfails⟩ := hrest item hitem
    obtain rfl := List.mem_singleton.1 hmember
    exact hfails
  | cons next chain ih =>
    -- Those that fail to beat the winner come last, the others while the rest of the chain is climbed.
    let late := rest.filter fun item => !beats item winner
    let early := rest.filter fun item => beats item winner
    have hearly : ∀ item ∈ early, ∃ member ∈ next :: chain, beats item member = false := by
      intro item hitem
      obtain ⟨hmem, hbeats⟩ := List.mem_filter.1 hitem
      obtain ⟨member, hmember, hfails⟩ := hrest item hmem
      rcases List.mem_cons.1 hmember with rfl | hmember
      · rw [hfails] at hbeats
        cases hbeats
      · exact ⟨member, hmember, hfails⟩
    obtain ⟨hnext, hchain⟩ := List.isChain_cons_cons.1 hchain
    obtain ⟨order, hperm, hchampion⟩ := ih hchain hearly
    refine ⟨order ++ [winner] ++ late, ?_, ?_⟩
    · have hsplit : (early ++ late).Perm rest := List.filter_append_perm _ _
      calc (order ++ [winner] ++ late).Perm (winner :: order ++ late) :=
            (List.perm_append_singleton winner order).append_right late
        _ |>.Perm (winner :: (next :: chain ++ early) ++ late) := (hperm.cons winner).append_right late
        _ = winner :: next :: chain ++ (early ++ late) := by simp
        _ |>.Perm (winner :: next :: chain ++ rest) := hsplit.append_left _
    · refine champion_append_of_not_beats ?_ fun item hitem => ?_
      · rw [champion_snoc, hchampion]
        exact challenge_of_beats hnext
      · simpa using (List.mem_filter.1 hitem).2

/-- **The elements some order leaves are the crowned ones.** -/
theorem exists_champion_iff : (∃ order : List α, order.Perm group ∧ champion beats order = some winner) ↔
    Crowned beats group winner := by
  constructor
  · rintro ⟨order, hperm, hchampion⟩
    exact (crowned_of_champion hchampion).perm hperm.symm
  · rintro ⟨chain, rest, hperm, hchain, hrest⟩
    obtain ⟨order, horder, hchampion⟩ := exists_order_of_chain hchain hrest
    exact ⟨order, horder.trans hperm.symm, hchampion⟩

/-- What the head of a chain lacks, the whole chain lacks, if none without it beats one that has it. -/
theorem not_of_isChain {p : α → Prop} {chain : List α}
    (hchain : (winner :: chain).IsChain fun first second => beats first second = true)
    (hloses : ∀ item ∈ winner :: chain, ∀ other ∈ winner :: chain, p item → ¬p other →
      beats other item = false) (hwinner : ¬p winner) : ∀ member ∈ winner :: chain, ¬p member := by
  induction chain generalizing winner with
  | nil => simpa using hwinner
  | cons next chain ih =>
    obtain ⟨hbeats, hchain⟩ := List.isChain_cons_cons.1 hchain
    have hnext : ¬p next := by
      intro hp
      have hfails := hloses next (by simp) winner (by simp) hp hwinner
      rw [hbeats] at hfails
      cases hfails
    have hlower := ih hchain (fun item hitem other hother => hloses item (List.mem_cons_of_mem _ hitem)
      other (List.mem_cons_of_mem _ hother)) hnext
    intro member hmember
    rcases List.mem_cons.1 hmember with rfl | hmember
    · exact hwinner
    · exact hlower member hmember

/-- If the elements with `p` beat those without it and are beaten by none of them, the winner has `p` as
soon as one element has. -/
theorem Crowned.of_dominated {p : α → Prop} (h : Crowned beats group winner)
    (hdominates : ∀ item ∈ group, ∀ other ∈ group, p item → ¬p other →
      beats item other = true ∧ beats other item = false) (hmem : item ∈ group) (hitem : p item) :
    p winner := by
  by_contra hlost
  obtain ⟨chain, rest, hperm, hchain, hrest⟩ := h
  have hgroup : ∀ member ∈ winner :: chain, member ∈ group := fun member hmember =>
    hperm.mem_iff.2 (List.mem_append_left _ hmember)
  have hbelow : ∀ member ∈ winner :: chain, ¬p member := by
    refine not_of_isChain hchain (fun item hitem other hother hp hnot => ?_) hlost
    exact (hdominates item (hgroup item hitem) other (hgroup other hother) hp hnot).2
  rcases List.mem_append.1 (hperm.mem_iff.1 hmem) with hin | hout
  · exact hbelow item hin hitem
  · obtain ⟨member, hmember, hfails⟩ := hrest item hout
    have hbeats := (hdominates item hmem member (hgroup member hmember) hitem (hbelow member hmember)).1
    rw [hfails] at hbeats
    cases hbeats

end

end SwarmExporter.Lib
