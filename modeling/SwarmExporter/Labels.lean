import SwarmExporter.Basic

/-!
# Label names: sanitizing and validating

A label name matches `[a-zA-Z_][a-zA-Z0-9_]*`. `sanitizeName` maps every other character to `_`, one
per rune as Go reads them: names are taken as bytes, because a command-line argument may hold invalid
UTF-8. `validateCustomLabels` is the startup check of the `--label` names: the count, each sanitized
name, then the reserved names.

Names go through `sanitizeName` several times between the command line and a series, so what carries
the label pipeline is that a sanitized name is a valid one (`isValidLabelName_sanitizeName`) and that
sanitizing leaves a valid name alone (`sanitizeName_of_valid`).
-/

namespace SwarmExporter

/-- The UTF-8 bytes of `text`. -/
def bytesOf (text : String) : List UInt8 := text.toByteArray.data.toList

/-- A reasonable upper bound on a sanitized name's length; Prometheus has no hard limit. -/
def maxLabelNameLen : Nat := 100

/-- A guardrail against unbounded cardinality. -/
def maxCustomLabelCount : Nat := 8

/-- Whether `byte` may start a label name: `[A-Za-z_]`. -/
def isLabelNameStartByte (byte : UInt8) : Bool :=
  byte == 95 || (65 ≤ byte && byte ≤ 90) || (97 ≤ byte && byte ≤ 122)

/-- Whether `byte` may appear in a label name: `[A-Za-z0-9_]`. -/
def isLabelNameByte (byte : UInt8) : Bool :=
  isLabelNameStartByte byte || (48 ≤ byte && byte ≤ 57)

/-- The width the lead byte of `bytes` announces; none for a byte that is a rune of its own or starts
none. -/
def leadWidth : List UInt8 → Option Nat
  | [] => none
  | byte :: _ =>
    if 0xC2 ≤ byte && byte ≤ 0xDF then some 2
    else if 0xE0 ≤ byte && byte ≤ 0xEF then some 3
    else if 0xF0 ≤ byte && byte ≤ 0xF4 then some 4
    else none

/-- The length of the rune at the start of `bytes` the way Go's `utf8.DecodeRune` reads it: a
complete, valid UTF-8 sequence counts whole, and anything else counts one byte. -/
def goRuneLen (bytes : List UInt8) : Nat :=
  match leadWidth bytes with
  | none => 1
  | some width =>
    if width ≤ bytes.length && (ByteArray.mk (bytes.take width).toArray).validateUTF8 then width
    else 1

theorem leadWidth_pos {bytes : List UInt8} {width : Nat} (h : leadWidth bytes = some width) :
    0 < width := by
  cases bytes with
  | nil => cases h
  | cons byte rest =>
    simp only [leadWidth] at h
    split at h
    · cases h; decide
    · split at h
      · cases h; decide
      · split at h
        · cases h; decide
        · cases h

theorem goRuneLen_pos (bytes : List UInt8) : 0 < goRuneLen bytes := by
  unfold goRuneLen
  split
  · exact Nat.one_pos
  · rename_i width hwidth
    split
    · exact leadWidth_pos hwidth
    · exact Nat.one_pos

/-- The loop of `sanitizeName`: one character per rune of `bytes`. -/
def sanitizeRunes (bytes : List UInt8) : List Char :=
  match bytes with
  | [] => []
  | byte :: rest =>
    (if isLabelNameByte byte then Char.ofUInt8 byte else '_') ::
      sanitizeRunes ((byte :: rest).drop (goRuneLen (byte :: rest)))
termination_by bytes.length
decreasing_by
  have := goRuneLen_pos (byte :: rest)
  simp only [List.length_drop, List.length_cons]
  omega

/-- Maps a name to a label name: every character outside `[A-Za-z0-9_]` becomes one `_`, and `_` is
prefixed when the result would start with a digit. The empty name becomes `_`. -/
def sanitizeName (bytes : List UInt8) : String :=
  match sanitizeRunes bytes with
  | [] => "_"
  | first :: rest =>
    if isLabelNameStartByte first.toUInt8 then String.ofList (first :: rest)
    else String.ofList ('_' :: first :: rest)

/-- Sanitizes every name, in order. -/
def sanitizeLabelNames (names : List String) : List String :=
  names.map fun name => sanitizeName (bytesOf name)

/-- Sanitizes the keys of a label set; the values pass through unchanged. Two keys that sanitize to
the same name collapse into one, the later in iteration order winning. -/
def sanitizeMetricLabels (labels : Labels) : Labels :=
  labels.toList.foldl (fun out entry => out.insert (sanitizeName (bytesOf entry.1)) entry.2) ∅

/-- Whether `name` matches `[a-zA-Z_][a-zA-Z0-9_]*`. -/
def isValidLabelName (name : String) : Bool :=
  match bytesOf name with
  | [] => false
  | first :: rest => isLabelNameStartByte first && rest.all isLabelNameByte

/-- A label name that failed validation. -/
structure LabelError where
  reason : String
  original : String
  sanitized : String
  deriving DecidableEq, Repr

/-- The checks of `validateAndSanitizeLabelNames` on each name and its sanitized form, in order;
`seen` holds the sanitized names already accepted. -/
def validateLabelNames (seen : List String) : List (String × String) → Except LabelError Unit
  | [] => .ok ()
  | (original, sanitized) :: rest =>
    if (bytesOf sanitized).isEmpty || maxLabelNameLen < (bytesOf sanitized).length then
      .error ⟨"invalid label name length", original, sanitized⟩
    else if [95, 95].isPrefixOf (bytesOf sanitized) then
      .error ⟨"label name uses reserved prefix '__'", original, sanitized⟩
    else if !isValidLabelName sanitized then
      .error ⟨"label name violates Prometheus constraints", original, sanitized⟩
    else if seen.contains sanitized then
      .error ⟨"label name collides after sanitization", original, sanitized⟩
    else validateLabelNames (sanitized :: seen) rest

/-- Sanitizes, then validates the names: length, the reserved `__` prefix, the Prometheus name rule
and collisions after sanitizing, checked in that order per name. -/
def validateAndSanitizeLabelNames (names : List String) : Except LabelError (List String) := do
  let sanitizedNames := sanitizeLabelNames names
  validateLabelNames [] (names.zip sanitizedNames)
  return sanitizedNames

/-- More custom label keys than allowed. -/
structure CountError where
  count : Nat
  maximum : Nat
  deriving DecidableEq, Repr

/-- Enforces the maximum number of custom label keys. -/
def validateCustomLabelCount (count : Nat) : Except CountError Unit :=
  if maxCustomLabelCount < count then .error ⟨count, maxCustomLabelCount⟩ else .ok ()

/-! ## The label names the exporter uses itself -/

def labelStack : String := "stack"
def labelService : String := "service"
def labelServiceMode : String := "service_mode"
def labelDisplayName : String := "display_name"
def labelState : String := "state"

/-- The label names the per-service families already carry, which a custom label must not reuse. -/
def reservedLabelNames : List String :=
  [labelStack, labelService, labelServiceMode, labelDisplayName, labelState]

/-- A custom label: the service label key it reads, and the label name it is exported as. -/
structure CustomLabel where
  raw : String
  sanitized : String
  deriving DecidableEq, Repr

/-- Why the custom labels were refused. -/
inductive CustomLabelsError where
  | count (error : CountError)
  | sanitize (error : LabelError)
  | reserved (name : String)
  deriving DecidableEq, Repr

/-- The count first, then each name sanitized and validated, then the reserved names. -/
def validateCustomLabels (rawKeys : List String) : Except CustomLabelsError (List CustomLabel) := do
  (validateCustomLabelCount rawKeys.length).mapError .count
  let sanitized ← (validateAndSanitizeLabelNames rawKeys).mapError .sanitize
  match sanitized.find? reservedLabelNames.contains with
  | some name => .error (.reserved name)
  | none => .ok (List.zipWith CustomLabel.mk rawKeys sanitized)

/-! ## Sanitizing and valid names -/

theorem isLabelNameByte_of_start {byte : UInt8} (h : isLabelNameStartByte byte = true) :
    isLabelNameByte byte = true := by
  simp [isLabelNameByte, h]

/-- A byte of a label name is ASCII. -/
theorem lt_of_isLabelNameByte {byte : UInt8} (h : isLabelNameByte byte = true) :
    byte.toNat < 128 := by
  simp only [isLabelNameByte, isLabelNameStartByte, Bool.or_eq_true, Bool.and_eq_true,
    decide_eq_true_eq, beq_iff_eq, UInt8.le_iff_toNat_le] at h
  rcases h with ((h | h) | h) | h
  · subst h; decide
  all_goals
    have := h.2
    simp at this
    omega

/-- An ASCII byte is a rune of its own. -/
theorem goRuneLen_of_lt {byte : UInt8} (rest : List UInt8) (h : byte.toNat < 128) :
    goRuneLen (byte :: rest) = 1 := by
  have h2 : ¬(0xC2 ≤ byte) := by simp [UInt8.le_iff_toNat_le]; omega
  have h3 : ¬(0xE0 ≤ byte) := by simp [UInt8.le_iff_toNat_le]; omega
  have h4 : ¬(0xF0 ≤ byte) := by simp [UInt8.le_iff_toNat_le]; omega
  simp [goRuneLen, leadWidth, h2, h3, h4]

theorem sanitizeRunes_cons (byte : UInt8) (rest : List UInt8) :
    sanitizeRunes (byte :: rest) = (if isLabelNameByte byte then Char.ofUInt8 byte else '_') ::
      sanitizeRunes ((byte :: rest).drop (goRuneLen (byte :: rest))) := by
  rw [sanitizeRunes]

/-- The bytes of a label name go through the loop unchanged. -/
theorem sanitizeRunes_of_all {bytes : List UInt8} (h : ∀ byte ∈ bytes, isLabelNameByte byte = true) :
    sanitizeRunes bytes = bytes.map Char.ofUInt8 := by
  induction bytes with
  | nil => rw [sanitizeRunes, List.map_nil]
  | cons byte rest ih =>
    have hbyte := h byte List.mem_cons_self
    rw [sanitizeRunes_cons, goRuneLen_of_lt rest (lt_of_isLabelNameByte hbyte), List.drop_one,
      List.tail_cons, ih fun b hb => h b (List.mem_cons_of_mem _ hb), List.map_cons]
    simp only [hbyte, ↓reduceIte]

/-- Every character the loop writes is one of a label name, as a byte. -/
theorem exists_byte_of_mem_sanitizeRunes {char : Char} :
    ∀ {bytes : List UInt8}, char ∈ sanitizeRunes bytes →
      ∃ byte, isLabelNameByte byte = true ∧ char = Char.ofUInt8 byte := by
  intro bytes
  induction bytes using sanitizeRunes.induct with
  | case1 => intro h; rw [sanitizeRunes] at h; cases h
  | case2 byte rest ih =>
    intro h
    rw [sanitizeRunes_cons] at h
    rcases List.mem_cons.1 h with rfl | h
    · split
      · exact ⟨byte, ‹_›, rfl⟩
      · exact ⟨95, rfl, rfl⟩
    · exact ih h

theorem toUInt8_ofUInt8 (byte : UInt8) : (Char.ofUInt8 byte).toUInt8 = byte :=
  UInt8.toUInt8_toUInt32 byte

/-- The bytes of a text of ASCII characters. -/
theorem bytesOf_ofList_map {bytes : List UInt8} (h : ∀ byte ∈ bytes, byte.toNat < 128) :
    bytesOf (String.ofList (bytes.map Char.ofUInt8)) = bytes := by
  have hchar : ∀ byte ∈ bytes, String.utf8EncodeChar (Char.ofUInt8 byte) = [byte] := by
    intro byte hbyte
    have hlt := h byte hbyte
    have hval : (Char.ofUInt8 byte).val.toNat = byte.toNat := UInt8.toNat_toUInt32 byte
    have hle : byte.toNat ≤ 127 := by omega
    simp [String.utf8EncodeChar, hval, hle]
  have hflat : (bytes.map Char.ofUInt8).flatMap String.utf8EncodeChar = bytes := by
    clear h
    induction bytes with
    | nil => rfl
    | cons byte rest ih =>
      rw [List.map_cons, List.flatMap_cons, hchar byte List.mem_cons_self,
        ih fun b hb => hchar b (List.mem_cons_of_mem _ hb), List.singleton_append]
  rw [bytesOf, String.toByteArray_ofList, List.utf8Encode, hflat]
  simp

theorem eq_of_bytesOf_eq {left right : String} (h : bytesOf left = bytesOf right) :
    left = right := by
  have hdata : left.toByteArray.data = right.toByteArray.data := by
    apply Array.toList_inj.1
    exact h
  have hbytes : left.toByteArray = right.toByteArray := by
    rcases hl : left.toByteArray with ⟨l⟩
    rcases hr : right.toByteArray with ⟨r⟩
    rw [hl, hr] at hdata
    exact congrArg ByteArray.mk hdata
  exact String.toByteArray_inj.1 hbytes

/-- The bytes of a valid label name: one that may start it, then ones that may appear in it. -/
theorem isValidLabelName_iff {name : String} :
    isValidLabelName name = true ↔ ∃ first rest, bytesOf name = first :: rest ∧
      isLabelNameStartByte first = true ∧ ∀ byte ∈ rest, isLabelNameByte byte = true := by
  unfold isValidLabelName
  cases h : bytesOf name with
  | nil => simp
  | cons first rest =>
    simp only [Bool.and_eq_true, List.all_eq_true, List.cons.injEq]
    constructor
    · intro hvalid
      exact ⟨first, rest, ⟨rfl, rfl⟩, hvalid⟩
    · rintro ⟨_, _, ⟨rfl, rfl⟩, hvalid⟩
      exact hvalid

/-- **Sanitizing leaves a valid label name alone.** -/
theorem sanitizeName_of_valid {name : String} (h : isValidLabelName name = true) :
    sanitizeName (bytesOf name) = name := by
  obtain ⟨first, rest, hbytes, hfirst, hrest⟩ := isValidLabelName_iff.1 h
  have hall : ∀ byte ∈ bytesOf name, isLabelNameByte byte = true := by
    rw [hbytes]
    intro byte hbyte
    rcases List.mem_cons.1 hbyte with rfl | hbyte
    · exact isLabelNameByte_of_start hfirst
    · exact hrest byte hbyte
  have hname : String.ofList ((bytesOf name).map Char.ofUInt8) = name :=
    eq_of_bytesOf_eq (bytesOf_ofList_map fun byte hb => lt_of_isLabelNameByte (hall byte hb))
  unfold sanitizeName
  rw [sanitizeRunes_of_all hall]
  rw [hbytes, List.map_cons] at hname ⊢
  simp only [toUInt8_ofUInt8, hfirst, ↓reduceIte]
  exact hname

/-- A text of label name bytes that starts as one must is a valid label name. -/
theorem isValidLabelName_ofList {first : UInt8} {rest : List UInt8}
    (hfirst : isLabelNameStartByte first = true)
    (hrest : ∀ byte ∈ rest, isLabelNameByte byte = true) :
    isValidLabelName (String.ofList ((first :: rest).map Char.ofUInt8)) = true := by
  refine isValidLabelName_iff.2 ⟨first, rest, bytesOf_ofList_map ?_, hfirst, hrest⟩
  intro byte hbyte
  rcases List.mem_cons.1 hbyte with rfl | hbyte
  · exact lt_of_isLabelNameByte (isLabelNameByte_of_start hfirst)
  · exact lt_of_isLabelNameByte (hrest byte hbyte)

/-- **A sanitized name is a valid label name.** -/
theorem isValidLabelName_sanitizeName (bytes : List UInt8) :
    isValidLabelName (sanitizeName bytes) = true := by
  have hrunes : ∃ out : List UInt8, sanitizeRunes bytes = out.map Char.ofUInt8 ∧
      ∀ byte ∈ out, isLabelNameByte byte = true := by
    have hmem := fun char => @exists_byte_of_mem_sanitizeRunes char bytes
    generalize sanitizeRunes bytes = runes at hmem
    induction runes with
    | nil => exact ⟨[], rfl, by simp⟩
    | cons char runes ih =>
      obtain ⟨out, hout, hall⟩ := ih fun c hc => hmem c (List.mem_cons_of_mem _ hc)
      obtain ⟨byte, hbyte, rfl⟩ := hmem char List.mem_cons_self
      refine ⟨byte :: out, by rw [hout, List.map_cons], ?_⟩
      intro b hb
      rcases List.mem_cons.1 hb with rfl | hb
      · exact hbyte
      · exact hall b hb
  obtain ⟨out, hout, hall⟩ := hrunes
  unfold sanitizeName
  rw [hout]
  cases out with
  | nil => decide
  | cons first rest =>
    simp only [List.map_cons]
    rw [toUInt8_ofUInt8]
    split
    · rename_i hfirst
      exact isValidLabelName_ofList hfirst fun b hb => hall b (List.mem_cons_of_mem _ hb)
    · exact @isValidLabelName_ofList 95 _ rfl hall

/-! ## What validation accepts -/

/-- **The names are accepted when each passes its own checks and none was seen before.** -/
theorem validateLabelNames_eq_ok_iff {seen : List String} {names : List (String × String)} :
    validateLabelNames seen names = .ok () ↔
      (∀ name ∈ names.map Prod.snd, bytesOf name ≠ [] ∧ (bytesOf name).length ≤ maxLabelNameLen ∧
        ¬ [95, 95].isPrefixOf (bytesOf name) = true ∧ isValidLabelName name = true) ∧
      (names.map Prod.snd).Nodup ∧ ∀ name ∈ names.map Prod.snd, name ∉ seen := by
  induction names generalizing seen with
  | nil => simp [validateLabelNames]
  | cons entry rest ih =>
    obtain ⟨original, sanitized⟩ := entry
    have hlen : ((bytesOf sanitized).isEmpty || decide (maxLabelNameLen < (bytesOf sanitized).length))
        = true ↔ ¬ (bytesOf sanitized ≠ [] ∧ (bytesOf sanitized).length ≤ maxLabelNameLen) := by
      rw [Bool.or_eq_true, List.isEmpty_iff, decide_eq_true_iff, not_and_or, not_not, Nat.not_le]
    have hseen : ∀ name, name ∉ sanitized :: seen ↔ name ≠ sanitized ∧ name ∉ seen := by
      intro name
      rw [List.mem_cons, not_or]
    simp only [validateLabelNames, hlen, Bool.not_eq_true', List.contains_iff_mem]
    simp only [List.map_cons, List.forall_mem_cons, List.nodup_cons]
    split
    · rename_i hbad
      exact iff_of_false (fun h => by cases h) fun h => hbad ⟨h.1.1.1, h.1.1.2.1⟩
    rename_i hgood
    rw [not_not] at hgood
    split
    · rename_i hreserved
      exact iff_of_false (fun h => by cases h) fun h => h.1.1.2.2.1 hreserved
    rename_i hfree
    split
    · rename_i hinvalid
      exact iff_of_false (fun h => by cases h) fun h => by simp [hinvalid] at h
    rename_i hvalid
    split
    · rename_i hcollides
      exact iff_of_false (fun h => by cases h) fun h => h.2.2.1 hcollides
    rename_i hfresh
    rw [Bool.not_eq_false] at hvalid
    rw [ih]
    simp only [hseen]
    constructor
    · rintro ⟨hall, hnodup, hnew⟩
      exact ⟨⟨⟨hgood.1, hgood.2, hfree, hvalid⟩, hall⟩,
        ⟨fun hmem => (hnew sanitized hmem).1 rfl, hnodup⟩, hfresh, fun name hname => (hnew name hname).2⟩
    · rintro ⟨⟨-, hall⟩, ⟨hfirst, hnodup⟩, -, hnew⟩
      exact ⟨hall, hnodup, fun name hname => ⟨fun heq => hfirst (heq ▸ hname), hnew name hname⟩⟩

end SwarmExporter
