import SwarmExporter.Lib.Utf8

/-!
# Texts by byte offsets

A text is the list of its characters, addressed by offsets into its UTF-8 bytes. An offset inside a
character is none a text can be cut at: a slice there is none, where the program would panic. The
operations are those of a text searched and cut at byte offsets; each is related to the characters
before and after the offset, so that a proof about them never counts bytes.
-/

namespace SwarmExporter.Lib

variable {text left right : List Char} {char : Char}

/-- The length of `text` in bytes. -/
def byteLen : List Char → Nat
  | [] => 0
  | char :: text => char.utf8Size + byteLen text

@[simp] theorem byteLen_nil : byteLen [] = 0 := rfl

@[simp] theorem byteLen_cons (char : Char) (text : List Char) :
    byteLen (char :: text) = char.utf8Size + byteLen text := rfl

@[simp] theorem byteLen_append (left right : List Char) :
    byteLen (left ++ right) = byteLen left + byteLen right := by
  induction left with
  | nil => simp
  | cons char left ih => rw [List.cons_append, byteLen_cons, byteLen_cons, ih, Nat.add_assoc]

theorem byteLen_eq_zero_iff : byteLen text = 0 ↔ text = [] := by
  cases text with
  | nil => simp
  | cons char rest =>
    have := char.utf8Size_pos
    simp only [byteLen_cons, reduceCtorEq, iff_false]
    omega

theorem utf8Size_of_ascii (h : char.toNat < 128) : char.utf8Size = 1 := by
  rw [Char.utf8Size_eq_one_iff]
  exact Nat.le_of_lt_succ h

/-- A character of ASCII text is a byte. -/
theorem byteLen_of_ascii (h : ∀ char ∈ text, char.toNat < 128) : byteLen text = text.length := by
  induction text with
  | nil => rfl
  | cons char rest ih =>
    rw [List.forall_mem_cons] at h
    rw [byteLen_cons, utf8Size_of_ascii h.1, ih h.2, List.length_cons, Nat.add_comm]

/-! ## Bytes -/

/-- The UTF-8 bytes of `text`. -/
def textBytes (text : List Char) : List UInt8 := text.flatMap String.utf8EncodeChar

theorem length_textBytes (text : List Char) : (textBytes text).length = byteLen text := by
  induction text with
  | nil => rfl
  | cons char text ih =>
    rw [textBytes, List.flatMap_cons, List.length_append, String.length_utf8EncodeChar, byteLen_cons,
      ← ih, textBytes]

/-- The byte where a character starts. -/
theorem getElem?_textBytes_append (left : List Char) (char : Char) (right : List Char) :
    (textBytes (left ++ char :: right))[byteLen left]? = (String.utf8EncodeChar char).head? := by
  have hne := @String.utf8EncodeChar_ne_nil char
  unfold textBytes
  rw [List.flatMap_append, ← length_textBytes, textBytes, List.getElem?_append_right (Nat.le_refl _),
    Nat.sub_self, List.flatMap_cons, ← List.head?_eq_getElem?, List.head?_append_of_ne_nil _ hne]

/-- **An ASCII byte is where a character starts, and it is that character.** -/
theorem exists_of_ascii_byte {i : Nat} {byte : UInt8} (h : (textBytes text)[i]? = some byte)
    (hascii : byte.toNat < 0x80) : ∃ left char right, text = left ++ char :: right ∧
      byteLen left = i ∧ char.toNat = byte.toNat := by
  induction text generalizing i with
  | nil => simp [textBytes] at h
  | cons first rest ih =>
    rw [textBytes, List.flatMap_cons] at h
    by_cases hi : i < first.utf8Size
    · rw [List.getElem?_append_left (by rwa [String.length_utf8EncodeChar])] at h
      obtain ⟨hchar, hencoding⟩ := ascii_of_mem_encoding (List.mem_of_getElem? h) hascii
      have hsize : first.utf8Size = 1 := by rw [← String.length_utf8EncodeChar, hencoding]; rfl
      exact ⟨[], first, rest, rfl, by rw [byteLen_nil]; omega, hchar⟩
    · rw [List.getElem?_append_right (by rw [String.length_utf8EncodeChar]; omega),
        String.length_utf8EncodeChar] at h
      obtain ⟨left, char, right, rfl, hlen, hchar⟩ := ih h
      exact ⟨first :: left, char, right, rfl, by rw [byteLen_cons]; omega, hchar⟩

/-- An ASCII text starts another where its bytes do. -/
theorem textBytes_prefix_iff {start : List Char} (hascii : ∀ char ∈ start, char.toNat < 128) :
    textBytes start <+: textBytes text ↔ start <+: text := by
  constructor
  · intro h
    induction start generalizing text with
    | nil => exact List.nil_prefix
    | cons char start ih =>
      rw [List.forall_mem_cons] at hascii
      have hencoding : String.utf8EncodeChar char = [char.toUInt8] := by
        have hmem := List.mem_of_head? ((head?_encoding_eq_iff hascii.1).2 rfl)
        exact (ascii_of_mem_encoding hmem (by rw [toNat_toUInt8 hascii.1]; exact hascii.1)).2
      rw [textBytes, List.flatMap_cons, hencoding] at h
      cases text with
      | nil => exact absurd (List.prefix_nil.1 h) (List.cons_ne_nil _ _)
      | cons first text =>
        have hne := @String.utf8EncodeChar_ne_nil first
        have hhead : (String.utf8EncodeChar first ++ textBytes text).head? = some char.toUInt8 := by
          obtain ⟨rest, hrest⟩ := h
          rw [textBytes, List.flatMap_cons] at hrest
          exact hrest ▸ rfl
        rw [List.head?_append_of_ne_nil _ hne] at hhead
        obtain rfl := (head?_encoding_eq_iff hascii.1).1 hhead
        rw [textBytes, List.flatMap_cons, hencoding, List.singleton_append, List.singleton_append,
          List.cons_prefix_cons] at h
        rw [List.cons_prefix_cons]
        exact ⟨rfl, ih hascii.2 h.2⟩
  · rintro ⟨rest, rfl⟩
    exact ⟨textBytes rest, by rw [textBytes, textBytes, textBytes, List.flatMap_append]⟩

/-- Valid bytes are those of a text. -/
theorem validateUTF8_iff (bytes : List UInt8) :
    (ByteArray.mk bytes.toArray).validateUTF8 = true ↔ ∃ text, bytes = textBytes text := by
  have hbytes : ByteArray.mk bytes.toArray = bytes.toByteArray := by
    rw [ByteArray.ext_iff, List.data_toByteArray]
  rw [ByteArray.validateUTF8_eq_true_iff, hbytes]
  constructor
  · rintro ⟨text, htext⟩
    exact ⟨text, List.toByteArray_inj.1 htext⟩
  · rintro ⟨text, rfl⟩
    exact ⟨text, rfl⟩

theorem utf8ByteSize_eq_byteLen (text : String) : text.utf8ByteSize = byteLen text.toList := by
  have hsize : text.toByteArray.size = (textBytes text.toList).length := by
    rw [← String.utf8Encode_toList, List.utf8Encode, List.size_toByteArray, textBytes]
  rw [← length_textBytes, ← hsize]
  rfl

/-! ## Cutting -/

/-- `text` cut at a byte offset; none when the offset lies inside a character or past the end. -/
def splitAtByte : Nat → List Char → Option (List Char × List Char)
  | 0, text => some ([], text)
  | _ + 1, [] => none
  | offset + 1, char :: rest =>
    if char.utf8Size ≤ offset + 1 then
      (splitAtByte (offset + 1 - char.utf8Size) rest).map fun split => (char :: split.1, split.2)
    else none

theorem splitAtByte_append (left right : List Char) :
    splitAtByte (byteLen left) (left ++ right) = some (left, right) := by
  induction left with
  | nil => rw [byteLen_nil, List.nil_append, splitAtByte]
  | cons char left ih =>
    have hpos := char.utf8Size_pos
    obtain ⟨offset, hoffset⟩ : ∃ offset, byteLen (char :: left) = offset + 1 :=
      Nat.exists_eq_succ_of_ne_zero (by rw [byteLen_cons]; omega)
    have hrest : offset + 1 - char.utf8Size = byteLen left := by
      rw [byteLen_cons] at hoffset
      omega
    rw [hoffset, List.cons_append, splitAtByte, if_pos, hrest, ih]
    · rfl
    · rw [byteLen_cons] at hoffset
      omega

/-- **A cut is a way to write the text as two.** -/
theorem splitAtByte_eq_some_iff {offset : Nat} :
    splitAtByte offset text = some (left, right) ↔ text = left ++ right ∧ byteLen left = offset := by
  constructor
  · intro h
    induction text generalizing offset left with
    | nil =>
      cases offset with
      | zero =>
        cases h
        exact ⟨rfl, rfl⟩
      | succ offset => cases h
    | cons char text ih =>
      cases offset with
      | zero =>
        cases h
        exact ⟨rfl, rfl⟩
      | succ offset =>
        rw [splitAtByte] at h
        split at h
        · rename_i hsize
          obtain ⟨⟨before, after⟩, hsplit, heq⟩ := Option.map_eq_some_iff.1 h
          cases heq
          obtain ⟨rfl, hlen⟩ := ih hsplit
          refine ⟨rfl, ?_⟩
          rw [byteLen_cons, hlen]
          omega
        · cases h
  · rintro ⟨rfl, rfl⟩
    exact splitAtByte_append left right

/-- A text is cut in one way at an offset. -/
theorem append_inj_of_byteLen {left' right' : List Char} (h : left ++ right = left' ++ right')
    (hlen : byteLen left = byteLen left') : left = left' ∧ right = right' := by
  have hcut := splitAtByte_append left right
  rw [h, hlen, splitAtByte_append, Option.some.injEq, Prod.mk.injEq] at hcut
  exact ⟨hcut.1.symm, hcut.2.symm⟩

/-- Whether a text can be cut at `offset`. -/
def isCharBoundary (text : List Char) (offset : Nat) : Bool := (splitAtByte offset text).isSome

theorem isCharBoundary_iff {offset : Nat} :
    isCharBoundary text offset = true ↔ ∃ left right, text = left ++ right ∧ byteLen left = offset := by
  unfold isCharBoundary
  rw [Option.isSome_iff_exists]
  constructor
  · rintro ⟨⟨left, right⟩, h⟩
    exact ⟨left, right, splitAtByte_eq_some_iff.1 h⟩
  · rintro ⟨left, right, h⟩
    exact ⟨(left, right), splitAtByte_eq_some_iff.2 h⟩

/-- The bytes before `offset`. -/
def sliceTo (text : List Char) (offset : Nat) : Option (List Char) :=
  (splitAtByte offset text).map Prod.fst

/-- The bytes from `offset` on. -/
def sliceFrom (text : List Char) (offset : Nat) : Option (List Char) :=
  (splitAtByte offset text).map Prod.snd

/-- The bytes from `start` on and before `stop`. -/
def slice (text : List Char) (start stop : Nat) : Option (List Char) :=
  if start ≤ stop then (sliceTo text stop).bind fun head => sliceFrom head start else none

theorem sliceTo_append (left right : List Char) :
    sliceTo (left ++ right) (byteLen left) = some left := by
  rw [sliceTo, splitAtByte_append]
  rfl

theorem sliceFrom_append (left right : List Char) :
    sliceFrom (left ++ right) (byteLen left) = some right := by
  rw [sliceFrom, splitAtByte_append]
  rfl

theorem sliceFrom_zero (text : List Char) : sliceFrom text 0 = some text :=
  sliceFrom_append [] text

theorem slice_append (left middle right : List Char) :
    slice (left ++ middle ++ right) (byteLen left) (byteLen left + byteLen middle) = some middle := by
  rw [slice, if_pos (Nat.le_add_right _ _), ← byteLen_append, sliceTo_append, Option.bind_some,
    sliceFrom_append]

/-- Of two prefixes of a text the one with fewer bytes is a prefix of the other. -/
theorem isPrefix_of_byteLen_le (h : left <+: text) (h' : right <+: text)
    (hle : byteLen left ≤ byteLen right) : left <+: right := by
  rcases List.prefix_or_prefix_of_prefix h h' with hstarts | ⟨rest, rfl⟩
  · exact hstarts
  · rw [byteLen_append] at hle
    have hrest : rest = [] := byteLen_eq_zero_iff.1 (by omega)
    simp [hrest]

/-! ## Searching -/

/-- The offset of the first `char`. -/
def find (char : Char) : List Char → Option Nat
  | [] => none
  | first :: rest => if first = char then some 0 else (find char rest).map (first.utf8Size + ·)

/-- The offset of the last `char`. -/
def rfind (char : Char) : List Char → Option Nat
  | [] => none
  | first :: rest =>
    match rfind char rest with
    | some offset => some (first.utf8Size + offset)
    | none => if first = char then some 0 else none

theorem find_eq_none_iff : find char text = none ↔ char ∉ text := by
  induction text with
  | nil => simp [find]
  | cons first rest ih =>
    rw [find]
    split
    · rename_i hfirst
      simp [hfirst]
    · rename_i hfirst
      rw [Option.map_eq_none_iff, ih, List.mem_cons, not_or, and_iff_right (Ne.symm hfirst)]

theorem rfind_eq_none_iff : rfind char text = none ↔ char ∉ text := by
  induction text with
  | nil => simp [rfind]
  | cons first rest ih =>
    rw [rfind]
    split
    · rename_i offset hrest
      have hmem : char ∈ rest := by
        by_contra hnot
        rw [ih.2 hnot] at hrest
        cases hrest
      simp [hmem]
    · rename_i hrest
      have hnot := ih.1 hrest
      split
      · rename_i hfirst
        simp [hfirst]
      · rename_i hfirst
        simp [hnot, Ne.symm hfirst]

/-- **The first `char`**: what stands before it has none. -/
theorem find_append (hleft : char ∉ left) (right : List Char) :
    find char (left ++ char :: right) = some (byteLen left) := by
  induction left with
  | nil => simp [find]
  | cons first left ih =>
    rw [List.mem_cons, not_or] at hleft
    rw [List.cons_append, find, if_neg (Ne.symm hleft.1), ih hleft.2, byteLen_cons]
    rfl

/-- **The last `char`**: what stands after it has none. -/
theorem rfind_append (left : List Char) (hright : char ∉ right) :
    rfind char (left ++ char :: right) = some (byteLen left) := by
  induction left with
  | nil => simp [rfind, rfind_eq_none_iff.2 hright]
  | cons first left ih =>
    rw [List.cons_append, rfind, ih, byteLen_cons]

/-- A text with a `char` has a last one. -/
theorem exists_last_of_mem (h : char ∈ text) :
    ∃ left right, text = left ++ char :: right ∧ char ∉ right := by
  obtain ⟨left, right, hsplit, hleft⟩ := List.eq_append_cons_of_mem (List.mem_reverse.2 h)
  refine ⟨right.reverse, left.reverse, ?_, by rwa [List.mem_reverse]⟩
  have := congrArg List.reverse hsplit
  simpa using this

end SwarmExporter.Lib
