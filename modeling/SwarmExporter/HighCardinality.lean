import Mathlib.Data.List.Infix
import SwarmExporter.Lib.Text

/-!
# The high-cardinality warning

A label value that looks like a UUID or a long hex token is warned about, once per label key, with a
sample of at most 64 bytes. The value is any text, and it is looked at by byte offsets: a fixed index
for every dash of a UUID, a slice for every group between them, and a cut for the sample. These run
where no panic is recovered, so there must be none. The slices are safe because of the dashes checked
before them: an ASCII byte is a character of its own, so the text can be cut on both sides of it
(`groups_of_dashes`).

An index or a slice that would panic is `none`.
-/

namespace SwarmExporter

open Lib

/-! ## The heuristic -/

def isLowerHexDigit (char : Char) : Bool :=
  ('0' ≤ char && char ≤ '9') || ('a' ≤ char && char ≤ 'f')

/-- Whether every character is a lowercase hex digit; the empty string is. -/
def isHexString (hex : List Char) : Bool := hex.all isLowerHexDigit

/-- Whether `lower` is 36 bytes with dashes in the places of a UUID's and hex digits between them. -/
def isUuid (lower : List Char) : Option Bool :=
  let bytes := textBytes lower
  if bytes.length = 36 then do
    let dashed ← [8, 13, 18, 23].allM fun dash => bytes[dash]?.map (· == '-'.toUInt8)
    if dashed then
      [(0, 8), (9, 13), (14, 18), (19, 23), (24, 36)].allM fun range =>
        (slice lower range.1 range.2).map isHexString
    else some false
  else some false

/-- A UUID shape (8-4-4-4-12 hex digits with dashes) or 16 or more hex digits, in either case. -/
def isLikelyHighCardinalityValue (value : String) : Option Bool := do
  let lower := value.toList.map Char.toLower
  if ← isUuid lower then return true
  return decide (16 ≤ (textBytes lower).length) && isHexString lower

/-! ## The sample -/

/-- The loop of `truncate`: the nearest offset at or below `cut` that is a character boundary; none
when it would go below 0. -/
def boundaryBelow (input : List Char) (cut : Nat) : Option Nat :=
  if isCharBoundary input cut then some cut
  else
    match cut with
    | 0 => none
    | cut + 1 => boundaryBelow input cut

/-- At most `maxLength` bytes of `input`, cut on a character boundary so a multi-byte character is never
split. -/
def truncate (input : List Char) (maxLength : Nat) : Option (List Char) :=
  if byteLen input ≤ maxLength then some input
  else do
    let cut ← boundaryBelow input maxLength
    sliceTo input cut

/-- How many bytes of the value a warning shows. -/
def highCardinalitySampleSize : Nat := 64

/-- The attributes of the warning. -/
structure HighCardinalityWarning where
  label : String
  /-- At most the first 64 bytes of the value, cut on a character boundary. -/
  sampleValue : String
  deriving DecidableEq, Repr

/-- The warning for a value that looks like a UUID or a long hex token, and the label keys warned about
so far, `labelKey` among them then; each is warned about once. -/
def maybeWarnHighCardinality (warned : List String) (labelKey labelValue : String) :
    Option (Option HighCardinalityWarning × List String) := do
  if labelValue.isEmpty then return (none, warned)
  let likely ← isLikelyHighCardinalityValue labelValue
  if !likely then return (none, warned)
  if warned.contains labelKey then return (none, warned)
  let sample ← truncate labelValue.toList highCardinalitySampleSize
  return (some ⟨labelKey, String.ofList sample⟩, labelKey :: warned)

/-- The loop of `labels_for_metadata` over the custom labels, as far as it warns: the warnings in order,
and the label keys warned about after it. -/
def warnCustomLabels (warned : List String) :
    List (String × String) → Option (List HighCardinalityWarning × List String)
  | [] => some ([], warned)
  | (key, value) :: rest => do
    let (warning, warned) ← maybeWarnHighCardinality warned key value
    let (warnings, warned) ← warnCustomLabels warned rest
    return (warning.toList ++ warnings, warned)

/-! ## The cut of the sample -/

section Truncate

variable {input : List Char}

/-- **The loop ends at the last boundary at or below `cut`.** -/
theorem boundaryBelow_spec (input : List Char) (cut : Nat) :
    ∃ left right, input = left ++ right ∧ boundaryBelow input cut = some (byteLen left) ∧
      byteLen left ≤ cut ∧ ∀ left' right', input = left' ++ right' → byteLen left' ≤ cut →
        byteLen left' ≤ byteLen left := by
  induction cut with
  | zero =>
    have hzero : isCharBoundary input 0 = true := isCharBoundary_iff.2 ⟨[], input, rfl, rfl⟩
    refine ⟨[], input, rfl, ?_, Nat.le_refl _, fun _ _ _ hle => hle⟩
    rw [boundaryBelow, if_pos hzero]
    rfl
  | succ cut ih =>
    by_cases hboundary : isCharBoundary input (cut + 1) = true
    · obtain ⟨left, right, hsplit, hlen⟩ := isCharBoundary_iff.1 hboundary
      refine ⟨left, right, hsplit, ?_, hlen.le, fun _ _ _ hle => hlen ▸ hle⟩
      rw [boundaryBelow, if_pos hboundary, hlen]
    · obtain ⟨left, right, hsplit, hfound, hle, hlast⟩ := ih
      refine ⟨left, right, hsplit, ?_, Nat.le_succ_of_le hle, fun left' right' hsplit' hle' => ?_⟩
      · rw [boundaryBelow, if_neg hboundary]
        exact hfound
      · have hne : byteLen left' ≠ cut + 1 :=
          fun heq => hboundary (isCharBoundary_iff.2 ⟨left', right', hsplit', heq⟩)
        exact hlast left' right' hsplit' (by omega)

/-- **`truncate` returns the longest prefix of at most `maxLength` bytes.** -/
theorem truncate_spec (input : List Char) (maxLength : Nat) :
    ∃ sample, truncate input maxLength = some sample ∧ sample <+: input ∧ byteLen sample ≤ maxLength ∧
      ∀ other, other <+: input → byteLen other ≤ maxLength → other <+: sample := by
  by_cases hshort : byteLen input ≤ maxLength
  · exact ⟨input, if_pos hshort, List.prefix_refl input, hshort, fun _ hstarts _ => hstarts⟩
  · obtain ⟨sample, rest, hsplit, hfound, hle, hlast⟩ := boundaryBelow_spec input maxLength
    have hstarts : sample <+: input := ⟨rest, hsplit.symm⟩
    refine ⟨sample, ?_, hstarts, hle, fun other hother hfits => ?_⟩
    · have hcut : sliceTo input (byteLen sample) = some sample := by
        rw [hsplit]
        exact sliceTo_append sample rest
      rw [truncate, if_neg hshort, hfound]
      exact hcut
    · obtain ⟨right, hright⟩ := hother
      exact isPrefix_of_byteLen_le ⟨right, hright⟩ hstarts (hlast other right hright.symm hfits)

end Truncate

/-! ## Dashes and groups -/

/-- A check that fails at no item. -/
theorem allM_of_isSome {α : Type} {p : α → Option Bool} {l : List α}
    (h : ∀ item ∈ l, (p item).isSome) : l.allM p = some (l.all fun item => p item == some true) := by
  induction l with
  | nil => rfl
  | cons item rest ih =>
    rw [List.forall_mem_cons] at h
    obtain ⟨passed, hpassed⟩ := Option.isSome_iff_exists.1 h.1
    rw [List.allM, hpassed, List.all_cons, hpassed]
    cases passed with
    | true => exact ih h.2
    | false => rfl

section Groups

/-- `text` is five groups with dashes between them, of 8, 4, 4, 4 and 12 characters that satisfy
`isDigit`. -/
def UuidShape (isDigit : Char → Bool) (text : List Char) : Prop :=
  ∃ a b c d e, text = a ++ '-' :: (b ++ '-' :: (c ++ '-' :: (d ++ '-' :: e))) ∧
    a.length = 8 ∧ b.length = 4 ∧ c.length = 4 ∧ d.length = 4 ∧ e.length = 12 ∧
    ∀ group ∈ [a, b, c, d, e], group.all isDigit = true

variable {text : List Char}

/-- The bytes after a dash. -/
theorem getElem?_textBytes_dash (left right : List Char) (i : Nat) :
    (textBytes (left ++ '-' :: right))[byteLen left + 1 + i]? = (textBytes right)[i]? := by
  have hlen : (textBytes (left ++ ['-'])).length = byteLen left + 1 := by
    rw [length_textBytes, byteLen_append]
    rfl
  have hbytes : textBytes (left ++ '-' :: right) = textBytes (left ++ ['-']) ++ textBytes right := by
    rw [textBytes, List.append_cons, List.flatMap_append]
    rfl
  rw [hbytes, ← hlen, List.getElem?_append_right (Nat.le_add_right _ _), Nat.add_sub_cancel_left]

/-- A dash byte splits the text. -/
theorem exists_of_dash {i : Nat} (h : (textBytes text)[i]? = some '-'.toUInt8) :
    ∃ left right, text = left ++ '-' :: right ∧ byteLen left = i := by
  obtain ⟨left, char, right, hsplit, hlen, hchar⟩ := exists_of_ascii_byte h (by decide)
  obtain rfl : char = '-' := Char.toNat_inj.1 hchar
  exact ⟨left, right, hsplit, hlen⟩

/-- **Four dashes in their places part a text of 36 bytes into the groups of a UUID**: every slice is
cut beside a dash. -/
theorem groups_of_dashes (hlen : byteLen text = 36)
    (hdashes : ∀ dash ∈ [8, 13, 18, 23], (textBytes text)[dash]? = some '-'.toUInt8) :
    ∃ a b c d e, text = a ++ '-' :: (b ++ '-' :: (c ++ '-' :: (d ++ '-' :: e))) ∧
      byteLen a = 8 ∧ byteLen b = 4 ∧ byteLen c = 4 ∧ byteLen d = 4 ∧ byteLen e = 12 := by
  simp only [List.forall_mem_cons, List.not_mem_nil, false_implies, implies_true, and_true] at hdashes
  obtain ⟨h8, h13, h18, h23⟩ := hdashes
  obtain ⟨a, rest, rfl, ha⟩ := exists_of_dash h8
  have hskip : ∀ i, (textBytes (a ++ '-' :: rest))[9 + i]? = (textBytes rest)[i]? := by
    intro i
    rw [← getElem?_textBytes_dash a rest i, ha]
  rw [show 13 = 9 + 4 from rfl, hskip] at h13
  rw [show 18 = 9 + 9 from rfl, hskip] at h18
  rw [show 23 = 9 + 14 from rfl, hskip] at h23
  obtain ⟨b, rest, rfl, hb⟩ := exists_of_dash h13
  have hskip : ∀ i, (textBytes (b ++ '-' :: rest))[5 + i]? = (textBytes rest)[i]? := by
    intro i
    rw [← getElem?_textBytes_dash b rest i, hb]
  rw [show 9 = 5 + 4 from rfl, hskip] at h18
  rw [show 14 = 5 + 9 from rfl, hskip] at h23
  obtain ⟨c, rest, rfl, hc⟩ := exists_of_dash h18
  have hskip : ∀ i, (textBytes (c ++ '-' :: rest))[5 + i]? = (textBytes rest)[i]? := by
    intro i
    rw [← getElem?_textBytes_dash c rest i, hc]
  rw [show 9 = 5 + 4 from rfl, hskip] at h23
  obtain ⟨d, e, rfl, hd⟩ := exists_of_dash h23
  refine ⟨a, b, c, d, e, rfl, ha, hb, hc, hd, ?_⟩
  simp only [byteLen_append, byteLen_cons, show Char.utf8Size '-' = 1 from rfl] at hlen
  omega

section Parts

variable {a b c d e : List Char} (htext : text = a ++ '-' :: (b ++ '-' :: (c ++ '-' :: (d ++ '-' :: e))))
  (ha : byteLen a = 8) (hb : byteLen b = 4) (hc : byteLen c = 4) (hd : byteLen d = 4)

include htext ha hb hc hd

/-- A text in five groups has its dashes in their places. -/
theorem dashes_of_groups : [8, 13, 18, 23].allM
    (fun dash => (textBytes text)[dash]?.map (· == '-'.toUInt8)) = some true := by
  have hdash : ∀ (i : Nat) (left right : List Char), text = left ++ '-' :: right → byteLen left = i →
      (textBytes text)[i]?.map (· == '-'.toUInt8) = some true := by
    rintro i left right rfl rfl
    rw [getElem?_textBytes_append]
    rfl
  have hsize : Char.utf8Size '-' = 1 := rfl
  have h8 := hdash 8 a _ htext ha
  have h13 := hdash 13 (a ++ '-' :: b) (c ++ '-' :: (d ++ '-' :: e)) (by simp [htext])
    (by simp only [byteLen_append, byteLen_cons, hsize, ha, hb])
  have h18 := hdash 18 (a ++ '-' :: (b ++ '-' :: c)) (d ++ '-' :: e) (by simp [htext])
    (by simp only [byteLen_append, byteLen_cons, hsize, ha, hb, hc])
  have h23 := hdash 23 (a ++ '-' :: (b ++ '-' :: (c ++ '-' :: d))) e (by simp [htext])
    (by simp only [byteLen_append, byteLen_cons, hsize, ha, hb, hc, hd])
  rw [allM_of_isSome]
  · simp only [List.all_cons, List.all_nil, h8, h13, h18, h23, beq_self_eq_true, Bool.and_self]
  · simp only [List.forall_mem_cons, h8, h13, h18, h23, Option.isSome_some, List.not_mem_nil,
      false_implies, implies_true, and_self]

/-- Every slice of a text in five groups is a group. -/
theorem slices_of_groups (he : byteLen e = 12) :
    [(0, 8), (9, 13), (14, 18), (19, 23), (24, 36)].allM
      (fun range => (slice text range.1 range.2).map isHexString) =
        some ([a, b, c, d, e].all isHexString) := by
  have hslice : ∀ (start stop : Nat) (left middle right : List Char), text = left ++ middle ++ right →
      byteLen left = start → start + byteLen middle = stop → slice text start stop = some middle := by
    rintro start stop left middle right rfl rfl rfl
    exact slice_append left middle right
  have hsize : Char.utf8Size '-' = 1 := rfl
  have ga := hslice 0 8 [] a _ htext rfl (by rw [ha])
  have gb := hslice 9 13 (a ++ ['-']) b ('-' :: (c ++ '-' :: (d ++ '-' :: e))) (by simp [htext])
    (by simp only [byteLen_append, byteLen_cons, byteLen_nil, hsize, ha]) (by rw [hb])
  have gc := hslice 14 18 (a ++ '-' :: (b ++ ['-'])) c ('-' :: (d ++ '-' :: e)) (by simp [htext])
    (by simp only [byteLen_append, byteLen_cons, byteLen_nil, hsize, ha, hb]) (by rw [hc])
  have gd := hslice 19 23 (a ++ '-' :: (b ++ '-' :: (c ++ ['-']))) d ('-' :: e) (by simp [htext])
    (by simp only [byteLen_append, byteLen_cons, byteLen_nil, hsize, ha, hb, hc]) (by rw [hd])
  have ge := hslice 24 36 (a ++ '-' :: (b ++ '-' :: (c ++ '-' :: (d ++ ['-'])))) e [] (by simp [htext])
    (by simp only [byteLen_append, byteLen_cons, byteLen_nil, hsize, ha, hb, hc, hd]) (by rw [he])
  rw [allM_of_isSome]
  · simp only [List.all_cons, List.all_nil, ga, gb, gc, gd, ge, Option.map_some]
    simp
  · simp only [List.forall_mem_cons, ga, gb, gc, gd, ge, Option.map_some, Option.isSome_some,
      List.not_mem_nil, false_implies, implies_true, and_self]

/-- **A text in five groups is a UUID if they are hex.** -/
theorem isUuid_of_groups (he : byteLen e = 12) :
    isUuid text = some ([a, b, c, d, e].all isHexString) := by
  have hlen : (textBytes text).length = 36 := by
    have hsize : Char.utf8Size '-' = 1 := rfl
    rw [length_textBytes, htext]
    simp only [byteLen_append, byteLen_cons, hsize, ha, hb, hc, hd, he]
  unfold isUuid
  simp only [hlen, if_true, dashes_of_groups htext ha hb hc hd]
  exact slices_of_groups htext ha hb hc hd he

end Parts

/-- A hex digit is ASCII. -/
theorem toNat_lt_of_isLowerHexDigit {char : Char} (h : isLowerHexDigit char = true) :
    char.toNat < 128 := by
  unfold isLowerHexDigit at h
  simp only [Bool.or_eq_true, Bool.and_eq_true, decide_eq_true_eq] at h
  rcases h with ⟨-, h⟩ | ⟨-, h⟩
  · exact Nat.lt_of_le_of_lt h (by decide)
  · exact Nat.lt_of_le_of_lt h (by decide)

theorem byteLen_of_isHexString {hex : List Char} (h : isHexString hex = true) :
    byteLen hex = hex.length :=
  byteLen_of_ascii fun char hchar => toNat_lt_of_isLowerHexDigit (List.all_eq_true.1 h char hchar)

/-- Groups of hex digits have a byte per character. -/
theorem byteLen_of_groups {a b c d e : List Char}
    (h : ∀ group ∈ [a, b, c, d, e], group.all isLowerHexDigit = true) :
    byteLen a = a.length ∧ byteLen b = b.length ∧ byteLen c = c.length ∧ byteLen d = d.length ∧
      byteLen e = e.length := by
  have hlen : ∀ group ∈ [a, b, c, d, e], byteLen group = group.length :=
    fun group hgroup => byteLen_of_isHexString (h group hgroup)
  simpa only [List.forall_mem_cons, List.not_mem_nil, false_implies, implies_true, and_true] using hlen

/-- **A text in the shape of a UUID is recognised.** -/
theorem isUuid_of_shape (h : UuidShape isLowerHexDigit text) : isUuid text = some true := by
  obtain ⟨a, b, c, d, e, htext, ha, hb, hc, hd, he, hdigits⟩ := h
  have hgroups : [a, b, c, d, e].all isHexString = true := List.all_eq_true.2 hdigits
  obtain ⟨la, lb, lc, ld, le⟩ := byteLen_of_groups hdigits
  rw [isUuid_of_groups htext (la.trans ha) (lb.trans hb) (lc.trans hc) (ld.trans hd) (le.trans he),
    hgroups]

/-- **No text makes the checks of a UUID panic, and only one in its shape passes them.** -/
theorem isUuid_spec (text : List Char) :
    ∃ uuid, isUuid text = some uuid ∧ (uuid = true ↔ UuidShape isLowerHexDigit text) := by
  have hpass : ∀ uuid, isUuid text = some uuid → (uuid = true → UuidShape isLowerHexDigit text) →
      ∃ uuid, isUuid text = some uuid ∧ (uuid = true ↔ UuidShape isLowerHexDigit text) := by
    intro uuid huuid hshape
    refine ⟨uuid, huuid, hshape, fun h => ?_⟩
    rw [isUuid_of_shape h] at huuid
    exact (Option.some.inj huuid).symm
  by_cases hlen : (textBytes text).length = 36
  · have hsome : ∀ dash ∈ [8, 13, 18, 23],
        ((textBytes text)[dash]?.map (· == '-'.toUInt8)).isSome := by
      intro dash hdash
      have hlt : dash < (textBytes text).length := by
        rw [hlen]
        revert dash
        decide
      rw [Option.isSome_map, List.getElem?_eq_getElem hlt]
      rfl
    have hchecked := allM_of_isSome hsome
    cases hdashed : [8, 13, 18, 23].all fun dash =>
        (textBytes text)[dash]?.map (· == '-'.toUInt8) == some true with
    | true =>
      obtain ⟨a, b, c, d, e, htext, ha, hb, hc, hd, he⟩ := groups_of_dashes
        (by rw [← length_textBytes, hlen]) fun dash hdash => by
          have := List.all_eq_true.1 hdashed dash hdash
          rw [beq_iff_eq, Option.map_eq_some_iff] at this
          obtain ⟨byte, hbyte, heq⟩ := this
          rw [hbyte, eq_of_beq heq]
      refine hpass _ (isUuid_of_groups htext ha hb hc hd he) fun hgroups => ?_
      have hdigits := List.all_eq_true.1 hgroups
      obtain ⟨la, lb, lc, ld, le⟩ := byteLen_of_groups hdigits
      exact ⟨a, b, c, d, e, htext, la ▸ ha, lb ▸ hb, lc ▸ hc, ld ▸ hd, le ▸ he, hdigits⟩
    | false =>
      refine hpass false ?_ fun h => by cases h
      rw [hdashed] at hchecked
      unfold isUuid
      simp only [hlen, if_true, hchecked]
      rfl
  · refine hpass false ?_ fun h => by cases h
    unfold isUuid
    exact if_neg hlen

end Groups

/-! ## Either case -/

section Case

/-- A hex digit of either case. -/
def isHexDigit (char : Char) : Bool := isLowerHexDigit char || ('A' ≤ char && char ≤ 'F')

theorem toNat_toLower (char : Char) :
    char.toLower.toNat = if 65 ≤ char.toNat ∧ char.toNat ≤ 90 then char.toNat + 32 else char.toNat := by
  unfold Char.toLower
  split
  · rename_i h
    have hle : 65 ≤ char.toNat := h.1
    have hge : char.toNat ≤ 90 := h.2
    rw [if_pos ⟨hle, hge⟩]
    have hsum : (char.val + 32).toNat = (char.toNat + 32) % 4294967296 := UInt32.toNat_add _ _
    rw [Nat.mod_eq_of_lt (by omega)] at hsum
    exact hsum
  · rename_i h
    rw [if_neg]
    exact h

theorem toLower_eq_dash_iff (char : Char) : char.toLower = '-' ↔ char = '-' := by
  have hlower := toNat_toLower char
  have hdash : Char.toNat '-' = 45 := rfl
  rw [← Char.toNat_inj, ← Char.toNat_inj, hdash, hlower]
  split
  · omega
  · rfl

theorem isLowerHexDigit_iff (char : Char) : isLowerHexDigit char = true ↔
    48 ≤ char.toNat ∧ char.toNat ≤ 57 ∨ 97 ≤ char.toNat ∧ char.toNat ≤ 102 := by
  unfold isLowerHexDigit
  rw [Bool.or_eq_true, Bool.and_eq_true, Bool.and_eq_true, decide_eq_true_iff, decide_eq_true_iff,
    decide_eq_true_iff, decide_eq_true_iff]
  exact Iff.rfl

theorem isLowerHexDigit_toLower (char : Char) : isLowerHexDigit char.toLower = isHexDigit char := by
  have hupper : (decide ('A' ≤ char) && decide (char ≤ 'F')) = true ↔
      65 ≤ char.toNat ∧ char.toNat ≤ 70 := by
    rw [Bool.and_eq_true, decide_eq_true_iff, decide_eq_true_iff]
    exact Iff.rfl
  rw [Bool.eq_iff_iff, isHexDigit, Bool.or_eq_true, hupper, isLowerHexDigit_iff, isLowerHexDigit_iff,
    toNat_toLower]
  split
  · omega
  · omega

theorem all_toLower (text : List Char) :
    (text.map Char.toLower).all isLowerHexDigit = text.all isHexDigit := by
  rw [List.all_map]
  congr 1
  funext char
  exact isLowerHexDigit_toLower char

/-- A text whose lowercase is cut by a dash is cut by it. -/
theorem map_toLower_eq_dash {text left right : List Char}
    (h : text.map Char.toLower = left ++ '-' :: right) :
    ∃ left' right', text = left' ++ '-' :: right' ∧ left'.map Char.toLower = left ∧
      right'.map Char.toLower = right := by
  obtain ⟨left', rest, rfl, hleft, hrest⟩ := List.map_eq_append_iff.1 h
  obtain ⟨dash, right', rfl, hdash, hright⟩ := List.map_eq_cons_iff.1 hrest
  obtain rfl := (toLower_eq_dash_iff dash).1 hdash
  exact ⟨left', right', rfl, hleft, hright⟩

/-- **The shape of a UUID ignores ASCII case.** -/
theorem uuidShape_toLower_iff (text : List Char) :
    UuidShape isLowerHexDigit (text.map Char.toLower) ↔ UuidShape isHexDigit text := by
  constructor
  · rintro ⟨a, b, c, d, e, htext, ha, hb, hc, hd, he, hdigits⟩
    obtain ⟨a, restA, rfl, rfl, hrestA⟩ := map_toLower_eq_dash htext
    obtain ⟨b, restB, rfl, rfl, hrestB⟩ := map_toLower_eq_dash hrestA
    obtain ⟨c, restC, rfl, rfl, hrestC⟩ := map_toLower_eq_dash hrestB
    obtain ⟨d, e, rfl, rfl, rfl⟩ := map_toLower_eq_dash hrestC
    simp only [List.length_map] at ha hb hc hd he
    refine ⟨a, b, c, d, e, rfl, ha, hb, hc, hd, he, fun group hgroup => ?_⟩
    rw [← all_toLower]
    exact hdigits _ (List.mem_map_of_mem (f := List.map Char.toLower) hgroup)
  · rintro ⟨a, b, c, d, e, rfl, ha, hb, hc, hd, he, hdigits⟩
    refine ⟨a.map Char.toLower, b.map Char.toLower, c.map Char.toLower, d.map Char.toLower,
      e.map Char.toLower, ?_, by rwa [List.length_map], by rwa [List.length_map],
      by rwa [List.length_map], by rwa [List.length_map], by rwa [List.length_map], ?_⟩
    · have hdash : Char.toLower '-' = '-' := rfl
      simp only [List.map_append, List.map_cons, hdash]
    · intro group hgroup
      obtain ⟨original, horiginal, rfl⟩ := List.mem_map.1
        (show group ∈ [a, b, c, d, e].map (List.map Char.toLower) from hgroup)
      rw [all_toLower]
      exact hdigits original horiginal

/-- **The heuristic never panics, and holds of UUIDs and long hex tokens only.** -/
theorem isLikelyHighCardinalityValue_spec (value : String) :
    ∃ likely, isLikelyHighCardinalityValue value = some likely ∧
      (likely = true ↔ UuidShape isHexDigit value.toList ∨
        16 ≤ value.toList.length ∧ value.toList.all isHexDigit = true) := by
  obtain ⟨uuid, huuid, hshape⟩ := isUuid_spec (value.toList.map Char.toLower)
  rw [uuidShape_toLower_iff] at hshape
  have hhex : isHexString (value.toList.map Char.toLower) = value.toList.all isHexDigit :=
    all_toLower value.toList
  cases uuid with
  | true =>
    refine ⟨true, ?_, by simp [hshape.1 rfl]⟩
    rw [isLikelyHighCardinalityValue, huuid]
    rfl
  | false =>
    have hnot : ¬ UuidShape isHexDigit value.toList := by
      rw [← hshape]
      exact Bool.false_ne_true
    let lower := value.toList.map Char.toLower
    refine ⟨decide (16 ≤ (textBytes lower).length) && isHexString lower, ?_, ?_⟩
    · rw [isLikelyHighCardinalityValue, huuid]
      rfl
    · rw [or_iff_right hnot, hhex, Bool.and_eq_true, decide_eq_true_iff]
      refine and_congr_left fun hall => ?_
      rw [length_textBytes, byteLen_of_isHexString (hhex.trans hall), List.length_map]

end Case

/-! ## The warning -/

/-- **One value**: no panic, and a warning only about a key not warned about before. -/
theorem maybeWarnHighCardinality_spec (warned : List String) (labelKey labelValue : String) :
    maybeWarnHighCardinality warned labelKey labelValue = some (none, warned) ∨
    labelKey ∉ warned ∧ ∃ sampleValue, maybeWarnHighCardinality warned labelKey labelValue =
      some (some ⟨labelKey, sampleValue⟩, labelKey :: warned) := by
  obtain ⟨likely, hlikely, -⟩ := isLikelyHighCardinalityValue_spec labelValue
  obtain ⟨sample, hsample, -⟩ := truncate_spec labelValue.toList highCardinalitySampleSize
  unfold maybeWarnHighCardinality
  rw [hlikely]
  by_cases hempty : labelValue.isEmpty = true
  · left
    rw [if_pos hempty]
    rfl
  · rw [if_neg hempty]
    cases likely with
    | false =>
      left
      rfl
    | true =>
      by_cases hwarned : warned.contains labelKey = true
      · left
        simp only [Option.bind_eq_bind, Option.bind_some, hwarned]
        rfl
      · right
        refine ⟨by simpa using hwarned, String.ofList sample, ?_⟩
        simp only [Option.bind_eq_bind, Option.bind_some, hwarned, hsample]
        rfl

/-- **A whole loop**: no panic, every warning is remembered, and no key is warned about twice. -/
theorem warnCustomLabels_spec (warned : List String) (entries : List (String × String)) :
    ∃ warnings warned', warnCustomLabels warned entries = some (warnings, warned') ∧
      warned' = (warnings.map HighCardinalityWarning.label).reverse ++ warned ∧
      (warned.Nodup → warned'.Nodup) := by
  induction entries generalizing warned with
  | nil => exact ⟨[], warned, rfl, rfl, id⟩
  | cons entry rest ih =>
    obtain ⟨key, value⟩ := entry
    rcases maybeWarnHighCardinality_spec warned key value with hquiet | ⟨hnew, sampleValue, hwarns⟩
    · obtain ⟨warnings, warned', hrest, hkeys, hnodup⟩ := ih warned
      refine ⟨warnings, warned', ?_, hkeys, hnodup⟩
      simp only [warnCustomLabels, hquiet, Option.bind_eq_bind, Option.bind_some, hrest]
      rfl
    · obtain ⟨warnings, warned', hrest, hkeys, hnodup⟩ := ih (key :: warned)
      refine ⟨⟨key, sampleValue⟩ :: warnings, warned', ?_, ?_, fun h =>
        hnodup (List.nodup_cons.2 ⟨hnew, h⟩)⟩
      · simp only [warnCustomLabels, hwarns, Option.bind_eq_bind, Option.bind_some, hrest]
        rfl
      · rw [hkeys]
        simp

/-- **The high-cardinality heuristic is safe and exact on every label value.** The sample is the longest
prefix of at most `maxLength` bytes; the heuristic holds exactly of 8-4-4-4-12 hex digits separated by
dashes and of 16 or more hex digits, in either case; and no value makes either of them panic, nor any
labels the loop that runs them. -/
theorem high_cardinality_safe_exact :
    (∀ (input : String) (maxLength : Nat), ∃ sample, truncate input.toList maxLength = some sample ∧
      sample <+: input.toList ∧ byteLen sample ≤ maxLength ∧
      ∀ other, other <+: input.toList → byteLen other ≤ maxLength → other <+: sample) ∧
    (∀ value : String, ∃ likely, isLikelyHighCardinalityValue value = some likely ∧
      (likely = true ↔ UuidShape isHexDigit value.toList ∨
        16 ≤ value.toList.length ∧ value.toList.all isHexDigit = true)) ∧
    ∀ (warned : List String) (customLabels : List (String × String)),
      warnCustomLabels warned customLabels ≠ none := by
  refine ⟨fun input maxLength => truncate_spec input.toList maxLength,
    isLikelyHighCardinalityValue_spec, fun warned customLabels => ?_⟩
  obtain ⟨warnings, warned', hruns, -, -⟩ := warnCustomLabels_spec warned customLabels
  rw [hruns]
  simp

-- A two-byte character across the cut goes. One in the first group can leave every dash in its place.
example : truncate "aé".toList 2 = some ['a'] := by decide +kernel
example : isLikelyHighCardinalityValue "é123456-0123-4567-89ab-0123456789ab" = some false := by
  decide +kernel

end SwarmExporter
