import Mathlib.Order.Lattice

/-!
# Resuming a stream of stamped items

A reader follows a stream that starts at a stamp, `since`, and may break off anywhere; the next stream
starts at a stamp the reader chooses. `Serves` is what a stream owes its reader, and `NoGap` what the
reader keeps: nothing it wants and has not seen is stamped before the point it resumes from. Resuming
at or before the stamp of any item the last stream sent keeps it (`NoGap.resume`), even if that is
before the point the last stream started from.
-/

namespace SwarmExporter.Lib

variable {ε τ : Type} [LinearOrder τ] {stamp : ε → τ} {history wanted : ε → Prop} {since next : τ}
  {sent seen : List ε}

/-- `sent` is what a stream from `since` sends first of `history`: items stamped at or after `since`,
and nothing of them left out that is stamped before one it sent. -/
structure Serves (stamp : ε → τ) (history : ε → Prop) (since : τ) (sent : List ε) : Prop where
  mem : ∀ item ∈ sent, history item ∧ since ≤ stamp item
  complete : ∀ item, history item → since ≤ stamp item → item ∉ sent →
    ∀ other ∈ sent, stamp other ≤ stamp item

/-- Whatever is wanted and not among `seen` is stamped at or after `since`. -/
def NoGap (stamp : ε → τ) (wanted : ε → Prop) (since : τ) (seen : List ε) : Prop :=
  ∀ item, wanted item → item ∉ seen → since ≤ stamp item

theorem Serves.nil : Serves stamp history since [] := by
  refine ⟨fun item hitem => ?_, fun _ _ _ _ other hother => ?_⟩
  · cases hitem
  · cases hother

/-- Over a finite history a stream can be checked. -/
instance [DecidableEq ε] (items : List ε) : Decidable (Serves stamp (· ∈ items) since sent) :=
  decidable_of_iff ((∀ item ∈ sent, item ∈ items ∧ since ≤ stamp item) ∧
      ∀ item ∈ items, since ≤ stamp item → item ∉ sent → ∀ other ∈ sent, stamp other ≤ stamp item)
    ⟨fun h => ⟨h.1, h.2⟩, fun h => ⟨h.1, h.2⟩⟩

namespace NoGap

theorem mono (h : NoGap stamp wanted since seen) (hle : next ≤ since) {seen' : List ε}
    (hseen : ∀ item ∈ seen, item ∈ seen') : NoGap stamp wanted next seen' :=
  fun item hwanted hnot => hle.trans (h item hwanted fun hitem => hnot (hseen item hitem))

variable (hwanted : ∀ item, wanted item → history item) (hgap : NoGap stamp wanted since seen)
  (hserves : Serves stamp history since sent)

include hwanted hgap hserves

/-- What the stream sent is not stamped after anything still missing. -/
theorem le_of_missing {item other : ε} (hitem : wanted item) (hseen : item ∉ seen)
    (hsent : item ∉ sent) (hother : other ∈ sent) : stamp other ≤ stamp item :=
  hserves.complete item (hwanted item hitem) (hgap item hitem hseen) hsent other hother

/-- **Resuming at or before an item the stream sent leaves no gap.** -/
theorem resume {last : ε} (hlast : last ∈ sent) (hle : next ≤ stamp last) :
    NoGap stamp wanted next (seen ++ sent) := by
  intro item hitem hnot
  simp only [List.mem_append, not_or] at hnot
  exact hle.trans (le_of_missing hwanted hgap hserves hitem hnot.1 hnot.2 hlast)

/-- **Nothing wanted is skipped**: what is stamped before an item the stream sent was seen. -/
theorem seen_of_lt {item other : ε} (hother : other ∈ sent) (hitem : wanted item)
    (hlt : stamp item < stamp other) : item ∈ seen ++ sent := by
  by_contra hnot
  simp only [List.mem_append, not_or] at hnot
  exact not_lt_of_ge (le_of_missing hwanted hgap hserves hitem hnot.1 hnot.2 hother) hlt

end NoGap

end SwarmExporter.Lib
