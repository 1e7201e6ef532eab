import Mathlib.Data.List.Basic

/-!
# The UTF-8 encoding of a character

The encodings come in four lengths, told apart by their lead byte, and every byte of a longer one is
outside ASCII (`encoding_cases`). So an ASCII byte is a character of its own wherever it stands
(`ascii_of_mem_encoding`), and the lead byte announces the length.
-/

namespace SwarmExporter.Lib

open String (utf8EncodeChar)

variable {char : Char} {byte : UInt8}

theorem toNat_ofNat_of_lt {value : Nat} (h : value < 256) : (UInt8.ofNat value).toNat = value := by
  rw [UInt8.toNat_ofNat']
  exact Nat.mod_eq_of_lt h

/-- **The four forms of an encoding**: an ASCII byte, or a lead byte that announces the length and
continuation bytes. -/
theorem encoding_cases (char : Char) :
    (char.toNat < 0x80 ∧ utf8EncodeChar char = [UInt8.ofNat char.toNat]) ∨
    (∃ lead tail, utf8EncodeChar char = lead :: tail ∧ 0x80 ≤ char.toNat ∧
      (0xC2 ≤ lead.toNat ∧ lead.toNat ≤ 0xDF ∧ tail.length = 1 ∨
        0xE0 ≤ lead.toNat ∧ lead.toNat ≤ 0xEF ∧ tail.length = 2 ∨
        0xF0 ≤ lead.toNat ∧ lead.toNat ≤ 0xF4 ∧ tail.length = 3) ∧
      ∀ byte ∈ tail, 0x80 ≤ byte.toNat) := by
  have hmax : char.toNat < 0x110000 := by
    have := char.valid
    unfold UInt32.isValidChar Nat.isValidChar at this
    have heq : char.toNat = char.val.toNat := rfl
    omega
  have hval : char.val.toNat = char.toNat := rfl
  unfold utf8EncodeChar
  simp only [hval]
  split
  · exact .inl ⟨by omega, rfl⟩
  · right
    split
    · refine ⟨_, _, rfl, by omega, .inl ?_, ?_⟩
      · rw [toNat_ofNat_of_lt (by omega)]
        exact ⟨by omega, by omega, rfl⟩
      · simp only [List.mem_singleton, forall_eq]
        rw [toNat_ofNat_of_lt (by omega)]
        omega
    · split
      · refine ⟨_, _, rfl, by omega, .inr (.inl ?_), ?_⟩
        · rw [toNat_ofNat_of_lt (by omega)]
          exact ⟨by omega, by omega, rfl⟩
        · simp only [List.forall_mem_cons, List.not_mem_nil, false_implies, implies_true, and_true]
          rw [toNat_ofNat_of_lt (by omega), toNat_ofNat_of_lt (by omega)]
          omega
      · refine ⟨_, _, rfl, by omega, .inr (.inr ?_), ?_⟩
        · rw [toNat_ofNat_of_lt (by omega)]
          exact ⟨by omega, by omega, rfl⟩
        · simp only [List.forall_mem_cons, List.not_mem_nil, false_implies, implies_true, and_true]
          rw [toNat_ofNat_of_lt (by omega), toNat_ofNat_of_lt (by omega), toNat_ofNat_of_lt (by omega)]
          omega

/-- **An ASCII byte is a character of its own.** -/
theorem ascii_of_mem_encoding (hmem : byte ∈ utf8EncodeChar char) (hascii : byte.toNat < 0x80) :
    char.toNat = byte.toNat ∧ utf8EncodeChar char = [byte] := by
  rcases encoding_cases char with ⟨hchar, hencoding⟩ | ⟨lead, tail, hencoding, -, hlead, htail⟩
  · rw [hencoding, List.mem_singleton] at hmem
    subst hmem
    exact ⟨(toNat_ofNat_of_lt (by omega)).symm, hencoding⟩
  · rw [hencoding, List.mem_cons] at hmem
    rcases hmem with rfl | hmem
    · omega
    · have := htail byte hmem
      omega

theorem toNat_toUInt8 (h : char.toNat < 0x80) : char.toUInt8.toNat = char.toNat :=
  toNat_ofNat_of_lt (Nat.lt_trans h (by decide))

/-- The encoding of an ASCII character is told by its first byte. -/
theorem head?_encoding_eq_iff {ascii : Char} (h : ascii.toNat < 0x80) :
    (utf8EncodeChar char).head? = some ascii.toUInt8 ↔ char = ascii := by
  constructor
  · intro hhead
    have hbyte := toNat_toUInt8 h
    obtain ⟨hchar, -⟩ := ascii_of_mem_encoding (List.mem_of_head? hhead) (by omega)
    exact Char.toNat_inj.1 (hchar.trans hbyte)
  · rintro rfl
    rcases encoding_cases char with ⟨-, hencoding⟩ | ⟨_, _, -, hlarge, -⟩
    · rw [hencoding]
      rfl
    · omega

end SwarmExporter.Lib
