import Mathlib.Data.List.Basic

/-!
# A queue served in batches

Of a queue, one call takes the first `share` items that are ready and leaves the rest in order. An item
that is ready and not taken had `share` items taken from ahead of it (`length_ahead_le`), so an item with
`ahead` items before it waits for at most `ahead / share` calls, whatever is added behind it.
-/

namespace SwarmExporter.Lib

variable {α : Type} [DecidableEq α] {share : Nat} {ready : α → Bool} {item : α}
  {queue ahead behind : List α}

/-- Of `queue`, the first `share` items that are ready. -/
def readyBatch (share : Nat) (ready : α → Bool) (queue : List α) : List α :=
  (queue.filter ready).take share

omit [DecidableEq α] in
theorem length_readyBatch (share : Nat) (ready : α → Bool) (queue : List α) :
    (readyBatch share ready queue).length = min share (queue.countP ready) := by
  rw [readyBatch, List.length_take, List.countP_eq_length_filter]

omit [DecidableEq α] in
/-- The batch before an item that is ready and not in it is full, and taken from ahead of the item. -/
theorem readyBatch_eq_of_notMem (hready : ready item = true)
    (hmissed : item ∉ readyBatch share ready (ahead ++ item :: behind)) :
    share ≤ (ahead.filter ready).length ∧
      readyBatch share ready (ahead ++ item :: behind) = (ahead.filter ready).take share := by
  unfold readyBatch at hmissed ⊢
  rw [List.filter_append, List.filter_cons_of_pos hready] at hmissed ⊢
  have hfull : share ≤ (ahead.filter ready).length := by
    by_contra hroom
    obtain ⟨room, hshare⟩ : ∃ room, share = (ahead.filter ready).length + (room + 1) :=
      ⟨share - (ahead.filter ready).length - 1, by omega⟩
    apply hmissed
    rw [hshare, List.take_length_add_append, List.take_succ_cons]
    simp
  exact ⟨hfull, List.take_append_of_le_length hfull⟩

/-- **An item that is ready and not taken moves up by a full batch.** -/
theorem length_ahead_le (hready : ready item = true)
    (hmissed : item ∉ readyBatch share ready (ahead ++ item :: behind)) :
    (ahead.filter (· ∉ readyBatch share ready (ahead ++ item :: behind))).length + share ≤
      ahead.length := by
  obtain ⟨hfull, hbatch⟩ := readyBatch_eq_of_notMem hready hmissed
  rw [hbatch]
  generalize hdef : (ahead.filter ready).take share = batch
  have hlength : batch.length = share := hdef ▸ List.length_take_of_le hfull
  have hahead : batch.Sublist ahead := hdef ▸ (List.take_sublist ..).trans List.filter_sublist
  have htaken : batch.length ≤ (ahead.filter (· ∈ batch)).length := by
    calc batch.length = (batch.filter (· ∈ batch)).length := by
          rw [List.filter_eq_self.2 (by simp)]
      _ ≤ (ahead.filter (· ∈ batch)).length := (hahead.filter _).length_le
  have hsplit := List.length_eq_length_filter_add (l := ahead) (· ∈ batch)
  simp only [decide_not] at hsplit ⊢
  omega

end SwarmExporter.Lib
