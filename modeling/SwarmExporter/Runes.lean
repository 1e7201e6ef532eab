import SwarmExporter.Labels
import SwarmExporter.Lib.Text

/-!
# Sanitizing arbitrary bytes

A name is any byte string. `sanitize_name` walks it by an index that `go_rune_len` advances, and writes
one character per rune. What a rune is follows Go: a scalar's encoding counts whole, any byte where none
starts counts one (`Runes`). The lead byte only announces a width, so truncated, overlong, surrogate and
out-of-range sequences all reach `from_utf8` and fail there; `goRuneLen_encoding` and
`goRuneLen_of_no_encoding` say that this is the segmentation, and everything else is read off it: the
characters written (`sanitizeRunes_of_runes`), the length, and the result on valid UTF-8.
-/

namespace SwarmExporter

open Lib
open String (utf8EncodeChar)

/-! ## The loop by index -/

/-- The bytes from `index` on; none past the end, where the program would panic. -/
def bytesFrom (bytes : List UInt8) (index : Nat) : Option (List UInt8) :=
  if index ≤ bytes.length then some (bytes.drop index) else none

/-- The loop of `sanitize_name`, with every index and slice it takes. -/
def sanitizeLoop (bytes : List UInt8) (index : Nat) (out : List Char) : Option (List Char) :=
  if index < bytes.length then do
    let byte ← bytes[index]?
    let rest ← bytesFrom bytes index
    sanitizeLoop bytes (index + goRuneLen rest)
      (out ++ [if isLabelNameByte byte then Char.ofUInt8 byte else '_'])
  else some out
termination_by bytes.length - index
decreasing_by
  have := goRuneLen_pos rest
  omega

/-- `sanitize_name` with every index it takes: those of the loop, and the first byte of its output. -/
def sanitizeNameIndexed (bytes : List UInt8) : Option String :=
  if bytes.isEmpty then some "_"
  else do
    let out ← sanitizeLoop bytes 0 []
    let first ← (textBytes out)[0]?
    return String.ofList (if isLabelNameStartByte first then out else '_' :: out)

/-- **No index is out of range**: from any index the loop writes what is left. -/
theorem sanitizeLoop_eq (bytes : List UInt8) (index : Nat) (out : List Char) :
    sanitizeLoop bytes index out = some (out ++ sanitizeRunes (bytes.drop index)) := by
  induction hleft : bytes.length - index using Nat.strong_induction_on generalizing index out with
  | _ left ih =>
    rw [sanitizeLoop]
    by_cases hindex : index < bytes.length
    · obtain ⟨byte, hbyte⟩ : ∃ byte, bytes[index]? = some byte :=
        ⟨bytes[index], List.getElem?_eq_getElem hindex⟩
      have hdrop : bytes.drop index = byte :: bytes.drop (index + 1) := by
        rw [List.getElem?_eq_getElem hindex, Option.some.injEq] at hbyte
        rw [← hbyte, List.drop_eq_getElem_cons hindex]
      have hpos := goRuneLen_pos (bytes.drop index)
      have hfrom : bytesFrom bytes index = some (bytes.drop index) := if_pos (Nat.le_of_lt hindex)
      rw [if_pos hindex, hbyte, hfrom, Option.bind_eq_bind, Option.bind_some, Option.bind_eq_bind,
        Option.bind_some, ih _ (by omega) _ _ rfl, List.append_assoc, List.singleton_append,
        ← List.drop_drop]
      rw [hdrop, sanitizeRunes_cons]
    · rw [if_neg hindex, List.drop_of_length_le (Nat.not_lt.1 hindex), sanitizeRunes, List.append_nil]

/-- The first byte of the output is its first character. -/
theorem getElem?_zero_sanitizeRunes {bytes : List UInt8} {first : Char} {rest : List Char}
    (h : sanitizeRunes bytes = first :: rest) :
    (textBytes (first :: rest))[0]? = some first.toUInt8 := by
  obtain ⟨byte, hbyte, rfl⟩ := exists_byte_of_mem_sanitizeRunes (h ▸ List.mem_cons_self)
  have hascii : (Char.ofUInt8 byte).toNat < 0x80 := by
    have hval : (Char.ofUInt8 byte).toNat = byte.toNat := UInt8.toNat_toUInt32 byte
    rw [hval]
    exact lt_of_isLabelNameByte hbyte
  rw [← (head?_encoding_eq_iff hascii).2 rfl]
  exact getElem?_textBytes_append [] (Char.ofUInt8 byte) rest

/-- **`sanitize_name` takes no index out of range, and returns `sanitizeName`.** -/
theorem sanitizeNameIndexed_eq (bytes : List UInt8) :
    sanitizeNameIndexed bytes = some (sanitizeName bytes) := by
  unfold sanitizeNameIndexed sanitizeName
  cases bytes with
  | nil =>
    rw [sanitizeRunes]
    rfl
  | cons byte rest =>
    have hout := sanitizeLoop_eq (byte :: rest) 0 []
    rw [List.nil_append, List.drop_zero] at hout
    obtain ⟨first, tail, hrunes⟩ : ∃ first tail, sanitizeRunes (byte :: rest) = first :: tail :=
      ⟨_, _, sanitizeRunes_cons byte rest⟩
    have hfirst := getElem?_zero_sanitizeRunes hrunes
    rw [hrunes] at hout
    simp only [List.isEmpty_cons, Bool.false_eq_true, if_false, hout, Option.bind_eq_bind,
      Option.bind_some, hfirst, hrunes]
    split
    · rfl
    · rfl

/-! ## Runes -/

/-- The runes of a byte string as Go's `utf8.DecodeRune` reads them: a scalar's encoding is one, and so
is a byte at which none starts. No encoding is a proper prefix of another, so there is only one to take. -/
inductive Runes : List UInt8 → List (List UInt8) → Prop
  | nil : Runes [] []
  | scalar (char : Char) {rest : List UInt8} {runes : List (List UInt8)} (htail : Runes rest runes) :
    Runes (utf8EncodeChar char ++ rest) (utf8EncodeChar char :: runes)
  | other {byte : UInt8} {rest : List UInt8} {runes : List (List UInt8)}
    (hnone : ∀ char, ¬ utf8EncodeChar char <+: byte :: rest) (htail : Runes rest runes) :
    Runes (byte :: rest) ([byte] :: runes)

/-- A lead byte announces the length of the encodings it leads. -/
theorem leadWidth_of_lead {lead : UInt8} {tail : List UInt8} (rest : List UInt8)
    (h : 0xC2 ≤ lead.toNat ∧ lead.toNat ≤ 0xDF ∧ tail.length = 1 ∨
      0xE0 ≤ lead.toNat ∧ lead.toNat ≤ 0xEF ∧ tail.length = 2 ∨
      0xF0 ≤ lead.toNat ∧ lead.toNat ≤ 0xF4 ∧ tail.length = 3) :
    leadWidth (lead :: rest) = some (tail.length + 1) := by
  simp only [leadWidth, Bool.and_eq_true, decide_eq_true_iff, UInt8.le_iff_toNat_le,
    UInt8.reduceToNat]
  rcases h with ⟨hlow, hhigh, hlen⟩ | ⟨hlow, hhigh, hlen⟩ | ⟨hlow, hhigh, hlen⟩
  · rw [hlen, if_pos ⟨hlow, hhigh⟩]
  · rw [hlen, if_neg (by omega), if_pos ⟨hlow, hhigh⟩]
  · rw [hlen, if_neg (by omega), if_neg (by omega), if_pos ⟨hlow, hhigh⟩]

/-- An encoding is read whole. -/
theorem goRuneLen_encoding (char : Char) (rest : List UInt8) :
    goRuneLen (utf8EncodeChar char ++ rest) = (utf8EncodeChar char).length := by
  rcases encoding_cases char with ⟨hchar, hencoding⟩ | ⟨lead, tail, hencoding, -, hlead, -⟩
  · rw [hencoding, List.singleton_append, List.length_singleton]
    exact goRuneLen_of_lt rest (by rw [toNat_ofNat_of_lt (by omega)]; exact hchar)
  · have hvalid : (ByteArray.mk (utf8EncodeChar char).toArray).validateUTF8 = true :=
      (validateUTF8_iff _).2 ⟨[char], (List.append_nil _).symm⟩
    have hwidth : leadWidth (utf8EncodeChar char ++ rest) = some (utf8EncodeChar char).length := by
      rw [hencoding, List.cons_append, List.length_cons]
      exact leadWidth_of_lead (tail ++ rest) hlead
    unfold goRuneLen
    rw [hwidth]
    simp only [List.length_append, Nat.le_add_right, List.take_left, hvalid, decide_true,
      Bool.and_self, if_true]

/-- Where no encoding starts, one byte is read. -/
theorem goRuneLen_of_no_encoding {bytes : List UInt8}
    (h : ∀ char, ¬ utf8EncodeChar char <+: bytes) : goRuneLen bytes = 1 := by
  unfold goRuneLen
  split
  · rfl
  · rename_i width hwidth
    split
    · -- A valid sequence of that width starts with the encoding of its first character.
      rename_i hvalid
      rw [Bool.and_eq_true, decide_eq_true_iff, validateUTF8_iff] at hvalid
      obtain ⟨hle, text, htext⟩ := hvalid
      have hpos := leadWidth_pos hwidth
      cases text with
      | nil =>
        have hlen := congrArg List.length htext
        rw [List.length_take_of_le hle] at hlen
        exact absurd hlen (Nat.ne_of_gt hpos)
      | cons char text =>
        refine absurd ?_ (h char)
        have hstarts : utf8EncodeChar char <+: bytes.take width := by
          rw [htext]
          exact List.prefix_append _ _
        exact hstarts.trans (List.take_prefix width bytes)
    · rfl

/-- What one rune takes off the front. -/
theorem Runes.step {bytes : List UInt8} {runes : List (List UInt8)} (h : Runes bytes runes) :
    (bytes = [] ∧ runes = []) ∨ ∃ rune rest tail, bytes = rune ++ rest ∧ runes = rune :: tail ∧
      rune ≠ [] ∧ goRuneLen bytes = rune.length ∧ Runes rest tail := by
  cases h with
  | nil => exact .inl ⟨rfl, rfl⟩
  | scalar char htail =>
    exact .inr ⟨_, _, _, rfl, rfl, String.utf8EncodeChar_ne_nil, goRuneLen_encoding char _, htail⟩
  | other hnone htail =>
    exact .inr ⟨_, _, _, rfl, rfl, List.cons_ne_nil _ _, goRuneLen_of_no_encoding hnone, htail⟩

/-- **Every byte string has runes.** -/
theorem Runes.exists (bytes : List UInt8) : ∃ runes, Runes bytes runes := by
  induction hlen : bytes.length using Nat.strong_induction_on generalizing bytes with
  | _ length ih =>
    cases bytes with
    | nil => exact ⟨[], .nil⟩
    | cons byte rest =>
      by_cases hscalar : ∃ char, utf8EncodeChar char <+: byte :: rest
      · obtain ⟨char, after, hafter⟩ := hscalar
        have hpos := List.length_pos_of_ne_nil (@String.utf8EncodeChar_ne_nil char)
        have hsum := congrArg List.length hafter
        rw [List.length_append] at hsum
        obtain ⟨runes, hrunes⟩ := ih after.length (by omega) after rfl
        rw [← hafter]
        exact ⟨_, .scalar char hrunes⟩
      · obtain ⟨runes, hrunes⟩ := ih rest.length (by rw [← hlen]; exact Nat.lt_succ_self _) rest rfl
        exact ⟨_, .other (fun char hstarts => hscalar ⟨char, hstarts⟩) hrunes⟩

/-- **Its runes are told by their lengths, so there is one way to read it.** -/
theorem Runes.unique {bytes : List UInt8} {runes runes' : List (List UInt8)} (h : Runes bytes runes)
    (h' : Runes bytes runes') : runes = runes' := by
  induction runes generalizing bytes runes' with
  | nil =>
    rcases h.step with ⟨rfl, -⟩ | ⟨_, _, _, -, hruns, -⟩
    · rcases h'.step with ⟨-, rfl⟩ | ⟨rune, rest, _, hempty, -, hne, -⟩
      · rfl
      · exact absurd (List.append_eq_nil_iff.1 hempty.symm).1 hne
    · cases hruns
  | cons rune tail ih =>
    rcases h.step with ⟨-, hruns⟩ | ⟨_, rest, _, hbytes, hruns, hne, hlen, htail⟩
    · cases hruns
    · cases hruns
      rcases h'.step with ⟨hempty, -⟩ | ⟨rune', rest', tail', hbytes', rfl, -, hlen', htail'⟩
      · rw [hempty] at hbytes
        exact absurd (List.append_eq_nil_iff.1 hbytes.symm).1 hne
      · obtain ⟨rfl, rfl⟩ := List.append_inj (hbytes.symm.trans hbytes') (hlen.symm.trans hlen')
        rw [ih htail htail']

/-! ## What is written -/

/-- The character written for a rune: its byte if that is one of a label name, else `_`. -/
def runeChar : List UInt8 → Char
  | [] => '_'
  | byte :: _ => if isLabelNameByte byte then Char.ofUInt8 byte else '_'

/-- **One character per rune.** -/
theorem sanitizeRunes_of_runes {bytes : List UInt8} {runes : List (List UInt8)}
    (h : Runes bytes runes) : sanitizeRunes bytes = runes.map runeChar := by
  induction runes generalizing bytes with
  | nil =>
    rcases h.step with ⟨rfl, -⟩ | ⟨_, _, _, -, hruns, -⟩
    · rw [sanitizeRunes, List.map_nil]
    · cases hruns
  | cons rune tail ih =>
    rcases h.step with ⟨-, hruns⟩ | ⟨_, rest, _, rfl, hruns, hne, hlen, htail⟩
    · cases hruns
    · cases hruns
      obtain ⟨byte, more, rfl⟩ := List.exists_cons_of_ne_nil hne
      rw [List.cons_append] at hlen ⊢
      rw [sanitizeRunes_cons, hlen, ← List.cons_append, List.drop_left, ih htail, List.map_cons]
      rfl

/-- A character that may start a label name: `[A-Za-z_]`. -/
def isLabelNameStartChar (char : Char) : Bool := char.isAlpha || char == '_'

/-- A character that may appear in a label name: `[A-Za-z0-9_]`. -/
def isLabelNameChar (char : Char) : Bool := isLabelNameStartChar char || char.isDigit

/-- The digit prefix: `_` before a name that starts with a digit, and for the empty one. -/
def digitPrefix : List Char → List Char
  | [] => ['_']
  | first :: rest => if first.isDigit then '_' :: first :: rest else first :: rest

theorem isLabelNameStartByte_iff (byte : UInt8) : isLabelNameStartByte byte = true ↔
    byte.toNat = 95 ∨ 65 ≤ byte.toNat ∧ byte.toNat ≤ 90 ∨ 97 ≤ byte.toNat ∧ byte.toNat ≤ 122 := by
  simp [isLabelNameStartByte, UInt8.le_iff_toNat_le, ← UInt8.toNat_inj, or_assoc]

theorem isLabelNameStartChar_iff (char : Char) : isLabelNameStartChar char = true ↔
    char.toNat = 95 ∨ 65 ≤ char.toNat ∧ char.toNat ≤ 90 ∨ 97 ≤ char.toNat ∧ char.toNat ≤ 122 := by
  have hunderscore : char = '_' ↔ char.toNat = 95 := by
    rw [← Char.toNat_inj]
    rfl
  have hupper : char.isUpper = true ↔ 65 ≤ char.toNat ∧ char.toNat ≤ 90 := decide_eq_true_iff
  have hlower : char.isLower = true ↔ 97 ≤ char.toNat ∧ char.toNat ≤ 122 := by
    refine (Bool.and_eq_true _ _).to_iff.trans ?_
    exact and_congr decide_eq_true_iff decide_eq_true_iff
  have halpha : char.isAlpha = true ↔ char.isUpper = true ∨ char.isLower = true :=
    (Bool.or_eq_true _ _).to_iff
  rw [isLabelNameStartChar, Bool.or_eq_true, beq_iff_eq, hunderscore, halpha, hupper, hlower]
  omega

theorem isDigit_iff (char : Char) : char.isDigit = true ↔ 48 ≤ char.toNat ∧ char.toNat ≤ 57 := by
  have hval : char.val.toNat = char.toNat := rfl
  simp [Char.isDigit, UInt32.le_iff_toNat_le, hval]

theorem isLabelNameByte_iff (byte : UInt8) : isLabelNameByte byte = true ↔
    isLabelNameStartByte byte = true ∨ 48 ≤ byte.toNat ∧ byte.toNat ≤ 57 := by
  simp [isLabelNameByte, UInt8.le_iff_toNat_le]

theorem isLabelNameChar_iff (char : Char) : isLabelNameChar char = true ↔
    isLabelNameStartChar char = true ∨ 48 ≤ char.toNat ∧ char.toNat ≤ 57 := by
  rw [isLabelNameChar, Bool.or_eq_true, isDigit_iff]

theorem toNat_ofUInt8 (byte : UInt8) : (Char.ofUInt8 byte).toNat = byte.toNat :=
  UInt8.toNat_toUInt32 byte

theorem isLabelNameStartChar_ofUInt8 (byte : UInt8) :
    isLabelNameStartChar (Char.ofUInt8 byte) = isLabelNameStartByte byte := by
  rw [Bool.eq_iff_iff, isLabelNameStartChar_iff, isLabelNameStartByte_iff, toNat_ofUInt8]

theorem isLabelNameChar_ofUInt8 (byte : UInt8) :
    isLabelNameChar (Char.ofUInt8 byte) = isLabelNameByte byte := by
  rw [Bool.eq_iff_iff, isLabelNameChar_iff, isLabelNameByte_iff, toNat_ofUInt8,
    isLabelNameStartChar_ofUInt8]

/-- Every character the loop writes is one of a label name. -/
theorem isLabelNameChar_of_mem {char : Char} {bytes : List UInt8} (h : char ∈ sanitizeRunes bytes) :
    isLabelNameChar char = true := by
  obtain ⟨byte, hbyte, rfl⟩ := exists_byte_of_mem_sanitizeRunes h
  rwa [isLabelNameChar_ofUInt8]

/-- **The name is what the loop wrote, with the digit prefix.** -/
theorem toList_sanitizeName (bytes : List UInt8) :
    (sanitizeName bytes).toList = digitPrefix (sanitizeRunes bytes) := by
  unfold sanitizeName
  cases hrunes : sanitizeRunes bytes with
  | nil => rfl
  | cons first rest =>
    have hmem : first ∈ sanitizeRunes bytes := hrunes ▸ List.mem_cons_self
    obtain ⟨byte, hbyte, rfl⟩ := exists_byte_of_mem_sanitizeRunes hmem
    -- A label name byte that may not start a name is a digit, and no other is.
    have hdigit : isLabelNameStartByte byte = true ↔ ¬ (Char.ofUInt8 byte).isDigit = true := by
      rw [isLabelNameByte_iff, isLabelNameStartByte_iff] at hbyte
      rw [isLabelNameStartByte_iff, isDigit_iff, toNat_ofUInt8]
      omega
    simp only [digitPrefix, toUInt8_ofUInt8]
    by_cases hstart : isLabelNameStartByte byte = true
    · rw [if_pos hstart, if_neg (hdigit.1 hstart), String.toList_ofList]
    · rw [if_neg hstart, if_pos (not_not.1 (mt hdigit.2 hstart)), String.toList_ofList]

/-- `name` matches `[a-zA-Z_][a-zA-Z0-9_]*`. -/
def MatchesLabelName (name : List Char) : Prop :=
  ∃ first rest, name = first :: rest ∧ isLabelNameStartChar first = true ∧
    ∀ char ∈ rest, isLabelNameChar char = true

theorem matchesLabelName_digitPrefix {text : List Char}
    (h : ∀ char ∈ text, isLabelNameChar char = true) : MatchesLabelName (digitPrefix text) := by
  cases text with
  | nil => exact ⟨'_', [], rfl, rfl, fun char hchar => by cases hchar⟩
  | cons first rest =>
    rw [digitPrefix]
    split
    · exact ⟨'_', _, rfl, rfl, h⟩
    · rename_i hdigit
      have hfirst := h first List.mem_cons_self
      rw [isLabelNameChar, Bool.or_eq_true, or_iff_left hdigit] at hfirst
      exact ⟨first, rest, rfl, hfirst, fun char hchar => h char (List.mem_cons_of_mem _ hchar)⟩

/-- **A sanitized name matches the label name pattern.** -/
theorem matchesLabelName_sanitizeName (bytes : List UInt8) :
    MatchesLabelName (sanitizeName bytes).toList := by
  rw [toList_sanitizeName]
  exact matchesLabelName_digitPrefix fun char hchar => isLabelNameChar_of_mem hchar

theorem MatchesLabelName.ascii {name : List Char} (h : MatchesLabelName name) :
    ∀ char ∈ name, char.toNat < 128 := by
  obtain ⟨first, rest, rfl, hfirst, hrest⟩ := h
  have hall : ∀ char ∈ first :: rest, isLabelNameChar char = true :=
    List.forall_mem_cons.2 ⟨(isLabelNameChar_iff first).2 (.inl hfirst), hrest⟩
  intro char hchar
  have := hall char hchar
  rw [isLabelNameChar_iff, isLabelNameStartChar_iff] at this
  omega

theorem bytesOf_eq_textBytes (text : String) : bytesOf text = textBytes text.toList := by
  rw [bytesOf, ← String.utf8Encode_toList, List.utf8Encode, List.data_toByteArray]
  rfl

/-! ## The length -/

/-- Whether the first rune is an ASCII digit. -/
def startsWithDigit : List (List UInt8) → Bool
  | [digit] :: _ => 48 ≤ digit && digit ≤ 57
  | _ => false

theorem isDigit_runeChar {bytes rune : List UInt8} {tail : List (List UInt8)}
    (h : Runes bytes (rune :: tail)) : (runeChar rune).isDigit = startsWithDigit (rune :: tail) := by
  rcases h.step with ⟨-, hruns⟩ | ⟨_, rest, _, rfl, hruns, hne, hlen, -⟩
  · cases hruns
  · cases hruns
    obtain ⟨byte, more, rfl⟩ := List.exists_cons_of_ne_nil hne
    by_cases hascii : byte.toNat < 128
    · rw [List.cons_append, goRuneLen_of_lt _ hascii, List.length_cons] at hlen
      obtain rfl : more = [] := List.eq_nil_of_length_eq_zero (by omega)
      simp only [runeChar, startsWithDigit]
      rw [Bool.eq_iff_iff, Bool.and_eq_true, decide_eq_true_iff, decide_eq_true_iff,
        UInt8.le_iff_toNat_le, UInt8.le_iff_toNat_le]
      split
      · rw [isDigit_iff, toNat_ofUInt8]
        rfl
      · rename_i hother
        rw [isLabelNameByte_iff, not_or] at hother
        exact iff_of_false (by decide) hother.2
    · have hother : ¬ isLabelNameByte byte = true := fun h => hascii (lt_of_isLabelNameByte h)
      rw [runeChar, if_neg hother]
      cases more with
      | nil =>
        rw [isLabelNameByte_iff, not_or] at hother
        simp only [startsWithDigit]
        rw [Bool.eq_iff_iff, Bool.and_eq_true, decide_eq_true_iff, decide_eq_true_iff,
          UInt8.le_iff_toNat_le, UInt8.le_iff_toNat_le]
        exact iff_of_false (by decide) hother.2
      | cons => rfl

/-- **The length of a sanitized name**: a byte per rune, one more when the first is an ASCII digit, and 1
for the empty name. -/
theorem length_sanitizeName {bytes : List UInt8} {runes : List (List UInt8)} (h : Runes bytes runes) :
    (bytesOf (sanitizeName bytes)).length =
      if bytes = [] then 1 else runes.length + if startsWithDigit runes then 1 else 0 := by
  rw [bytesOf_eq_textBytes, length_textBytes,
    byteLen_of_ascii (matchesLabelName_sanitizeName bytes).ascii, toList_sanitizeName,
    sanitizeRunes_of_runes h]
  cases runes with
  | nil =>
    rcases h.step with ⟨rfl, -⟩ | ⟨_, _, _, -, hruns, -⟩
    · rfl
    · cases hruns
  | cons rune tail =>
    have hne : bytes ≠ [] := by
      rintro rfl
      have := h.unique .nil
      cases this
    rw [if_neg hne, ← isDigit_runeChar h, List.map_cons, digitPrefix]
    split
    · simp
    · simp

/-! ## Valid UTF-8 -/

theorem Runes.of_text (text : List Char) : Runes (textBytes text) (text.map utf8EncodeChar) := by
  induction text with
  | nil => exact .nil
  | cons char text ih => exact .scalar char ih

theorem runeChar_encoding (char : Char) :
    runeChar (utf8EncodeChar char) = if isLabelNameChar char then char else '_' := by
  rcases encoding_cases char with ⟨hchar, hencoding⟩ | ⟨lead, tail, hencoding, hlarge, hlead, -⟩
  · have hbyte : Char.ofUInt8 (UInt8.ofNat char.toNat) = char := by
      rw [← Char.toNat_inj, toNat_ofUInt8, toNat_ofNat_of_lt (by omega)]
    rw [hencoding, runeChar, hbyte, ← isLabelNameChar_ofUInt8, hbyte]
  · have hbyte : ¬ isLabelNameByte lead = true := fun h => by
      have := lt_of_isLabelNameByte h
      omega
    have hother : ¬ isLabelNameChar char = true := fun h => by
      rw [isLabelNameChar_iff, isLabelNameStartChar_iff] at h
      omega
    rw [hencoding, runeChar, if_neg hbyte, if_neg hother]

/-- **On valid UTF-8 every character is mapped on its own.** -/
theorem sanitizeName_text (text : String) : (sanitizeName (bytesOf text)).toList =
    digitPrefix (text.toList.map fun char => if isLabelNameChar char then char else '_') := by
  rw [toList_sanitizeName, bytesOf_eq_textBytes, sanitizeRunes_of_runes (Runes.of_text text.toList),
    List.map_map]
  congr 2
  funext char
  exact runeChar_encoding char

/-! ## Validating -/

/-- Whether `byte` continues an encoding. -/
def isContinuation (byte : UInt8) : Bool := 0x80 ≤ byte && byte ≤ 0xBF

/-- Whether `second` may follow `lead` in an encoding of three or four bytes. -/
def secondFits (lead second : UInt8) : Bool :=
  if lead == 0xE0 then 0xA0 ≤ second && second ≤ 0xBF
  else if lead == 0xED then 0x80 ≤ second && second ≤ 0x9F
  else if lead == 0xF0 then 0x90 ≤ second && second ≤ 0xBF
  else if lead == 0xF4 then 0x80 ≤ second && second ≤ 0x8F
  else 0xE1 ≤ lead && lead ≤ 0xF3 && isContinuation second

/-- How many bytes lossy decoding replaces by one U+FFFD where no encoding starts: the longest start of
one, and at least a byte. -/
def invalidLen : List UInt8 → Nat
  | lead :: second :: rest =>
    if secondFits lead second then
      match rest with
      | third :: _ => if 0xF0 ≤ lead && isContinuation third then 3 else 2
      | [] => 2
    else 1
  | _ => 1

theorem invalidLen_pos (bytes : List UInt8) : 0 < invalidLen bytes := by
  unfold invalidLen
  repeat' split
  all_goals decide

/-- The characters of `String::from_utf8_lossy`. -/
def lossyChars (bytes : List UInt8) : List Char :=
  match bytes with
  | [] => []
  | byte :: rest =>
    match (byte :: rest).toByteArray.utf8DecodeChar? 0 with
    | some char => char :: lossyChars ((byte :: rest).drop char.utf8Size)
    | none => Char.ofNat 0xFFFD :: lossyChars ((byte :: rest).drop (invalidLen (byte :: rest)))
termination_by bytes.length
decreasing_by
  · have := char.utf8Size_pos
    simp only [List.length_drop, List.length_cons]
    omega
  · have := invalidLen_pos (byte :: rest)
    simp only [List.length_drop, List.length_cons]
    omega

/-- The text `bytes` stand for in a message: what is not UTF-8 shows as U+FFFD. -/
def fromUtf8Lossy (bytes : List UInt8) : String := String.ofList (lossyChars bytes)

/-- `validate_and_sanitize_label_names` on names of any bytes. -/
def validateAndSanitizeByteNames (names : List (List UInt8)) : Except LabelError (List String) := do
  let sanitizedNames := names.map sanitizeName
  validateLabelNames [] ((names.map fromUtf8Lossy).zip sanitizedNames)
  return sanitizedNames

theorem lossyChars_textBytes (text : List Char) : lossyChars (textBytes text) = text := by
  induction text with
  | nil => rw [textBytes, List.flatMap_nil, lossyChars]
  | cons char text ih =>
    obtain ⟨lead, tail, hencoding⟩ :=
      List.exists_cons_of_ne_nil (@String.utf8EncodeChar_ne_nil char)
    have hdecode : (lead :: (tail ++ textBytes text)).toByteArray.utf8DecodeChar? 0 = some char := by
      rw [← List.cons_append, ← hencoding, List.toByteArray_append]
      exact ByteArray.utf8DecodeChar?_utf8EncodeChar_append
    have hbytes : textBytes (char :: text) = lead :: (tail ++ textBytes text) := by
      rw [textBytes, List.flatMap_cons, hencoding]
      rfl
    have hdrop : (lead :: (tail ++ textBytes text)).drop char.utf8Size = textBytes text := by
      rw [← List.cons_append, ← hencoding, ← String.length_utf8EncodeChar, List.drop_left]
    rw [hbytes, lossyChars, hdecode]
    simp only [hdrop, ih]

/-- **On texts the two validations are one.** -/
theorem validateAndSanitizeLabelNames_eq (names : List String) :
    validateAndSanitizeLabelNames names = validateAndSanitizeByteNames (names.map bytesOf) := by
  have hlossy : (names.map bytesOf).map fromUtf8Lossy = names := by
    rw [List.map_map]
    conv_rhs => rw [← List.map_id names]
    refine List.map_congr_left fun name _ => ?_
    rw [Function.comp_apply, fromUtf8Lossy, bytesOf_eq_textBytes, lossyChars_textBytes,
      String.ofList_toList]
    rfl
  rw [validateAndSanitizeLabelNames, validateAndSanitizeByteNames, hlossy, List.map_map]
  rfl

theorem isPrefixOf_bytesOf_iff (name : String) :
    [95, 95].isPrefixOf (bytesOf name) = true ↔ ['_', '_'] <+: name.toList := by
  have hascii : ∀ char ∈ ['_', '_'], char.toNat < 128 := by simp
  rw [List.isPrefixOf_iff_prefix, bytesOf_eq_textBytes, ← textBytes_prefix_iff hascii]
  rfl

/-- **Validation accepts exactly the short, unreserved and distinct names.** The other two checks of the
loop never fail: a sanitized name is not empty and matches the pattern. -/
theorem validateAndSanitizeByteNames_eq_ok_iff (names : List (List UInt8)) (sanitized : List String) :
    validateAndSanitizeByteNames names = .ok sanitized ↔
      sanitized = names.map sanitizeName ∧
      (∀ name ∈ names, (bytesOf (sanitizeName name)).length ≤ maxLabelNameLen ∧
        ¬ ['_', '_'] <+: (sanitizeName name).toList) ∧
      (names.map sanitizeName).Nodup := by
  have hsnd : ((names.map fromUtf8Lossy).zip (names.map sanitizeName)).map Prod.snd =
      names.map sanitizeName := List.map_snd_zip (by rw [List.length_map, List.length_map])
  have hchecks : validateLabelNames [] ((names.map fromUtf8Lossy).zip (names.map sanitizeName)) = .ok ()
      ↔ (∀ name ∈ names, (bytesOf (sanitizeName name)).length ≤ maxLabelNameLen ∧
        ¬ ['_', '_'] <+: (sanitizeName name).toList) ∧ (names.map sanitizeName).Nodup := by
    rw [validateLabelNames_eq_ok_iff, hsnd, List.forall_mem_map]
    constructor
    · rintro ⟨hall, hnodup, -⟩
      refine ⟨fun name hname => ?_, hnodup⟩
      obtain ⟨-, hlen, hfree, -⟩ := hall name hname
      exact ⟨hlen, fun hstarts => hfree ((isPrefixOf_bytesOf_iff _).2 hstarts)⟩
    · rintro ⟨hall, hnodup⟩
      refine ⟨fun name hname => ?_, hnodup, by simp⟩
      obtain ⟨hlen, hfree⟩ := hall name hname
      have hvalid := isValidLabelName_sanitizeName name
      obtain ⟨first, rest, hbytes, -⟩ := isValidLabelName_iff.1 hvalid
      refine ⟨?_, hlen, fun hstarts => hfree ((isPrefixOf_bytesOf_iff _).1 hstarts), hvalid⟩
      rw [hbytes]
      exact List.cons_ne_nil _ _
  rw [← hchecks, validateAndSanitizeByteNames]
  cases validateLabelNames [] ((names.map fromUtf8Lossy).zip (names.map sanitizeName)) with
  | error why => exact iff_of_false (fun h => by cases h) fun h => by cases h.2
  | ok _ =>
    constructor
    · intro h
      cases h
      exact ⟨rfl, rfl⟩
    · rintro ⟨rfl, -⟩
      rfl

/-- **Sanitizing arbitrary bytes.** No index is out of range. The result matches
`[a-zA-Z_][a-zA-Z0-9_]*` and is sanitized already. There is one way to read a byte string as runes, and
the result has a byte for each, one more when the first is an ASCII digit, and one for the empty name. On
valid UTF-8 every character is mapped on its own. Validation accepts exactly the names whose sanitized
forms are short, unreserved and distinct, whether they are given as bytes or as texts. -/
theorem sanitize_name_on_bytes :
    (∀ bytes, sanitizeNameIndexed bytes = some (sanitizeName bytes)) ∧
    (∀ bytes, MatchesLabelName (sanitizeName bytes).toList) ∧
    (∀ bytes, sanitizeName (bytesOf (sanitizeName bytes)) = sanitizeName bytes) ∧
    (∀ bytes, ∃! runes, Runes bytes runes) ∧
    (∀ bytes runes, Runes bytes runes → (bytesOf (sanitizeName bytes)).length =
      if bytes = [] then 1 else runes.length + if startsWithDigit runes then 1 else 0) ∧
    (∀ text : String, (sanitizeName (bytesOf text)).toList =
      digitPrefix (text.toList.map fun char => if isLabelNameChar char then char else '_')) ∧
    (∀ names sanitized, validateAndSanitizeByteNames names = .ok sanitized ↔
      sanitized = names.map sanitizeName ∧
      (∀ name ∈ names, (bytesOf (sanitizeName name)).length ≤ 100 ∧
        ¬ ['_', '_'] <+: (sanitizeName name).toList) ∧
      (names.map sanitizeName).Nodup) ∧
    ∀ names : List String,
      validateAndSanitizeLabelNames names = validateAndSanitizeByteNames (names.map bytesOf) := by
  refine ⟨sanitizeNameIndexed_eq, matchesLabelName_sanitizeName,
    fun bytes => sanitizeName_of_valid (isValidLabelName_sanitizeName bytes), fun bytes => ?_,
    fun bytes runes => length_sanitizeName, sanitizeName_text, validateAndSanitizeByteNames_eq_ok_iff,
    validateAndSanitizeLabelNames_eq⟩
  obtain ⟨runes, hrunes⟩ := Runes.exists bytes
  exact ⟨runes, hrunes, fun other hother => hother.unique hrunes⟩

/-- A digit and a byte that starts no encoding: two runes, and the prefix. -/
theorem sanitize_name_on_bytes_sample :
    (bytesOf (sanitizeName [0x39, 0xFF])).length = 3 := by
  have hvalue : (0xFF : UInt8).toNat = 255 := rfl
  have hnone : ∀ char, ¬ utf8EncodeChar char <+: [0xFF] := by
    rintro char ⟨rest, hrest⟩
    rcases encoding_cases char with ⟨hchar, hencoding⟩ | ⟨lead, tail, hencoding, -, hlead, -⟩
    · rw [hencoding, List.singleton_append, List.cons.injEq] at hrest
      have hbyte : (UInt8.ofNat char.toNat).toNat = char.toNat := toNat_ofNat_of_lt (by omega)
      rw [hrest.1] at hbyte
      omega
    · rw [hencoding, List.cons_append, List.cons.injEq] at hrest
      rw [hrest.1] at hlead
      omega
  have hrunes : Runes [0x39, 0xFF] [[0x39], [0xFF]] := .scalar '9' (.other hnone .nil)
  exact sanitize_name_on_bytes.2.2.2.2.1 _ _ hrunes

end SwarmExporter
