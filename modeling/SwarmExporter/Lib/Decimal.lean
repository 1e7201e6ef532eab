import Mathlib.Data.List.Basic

/-!
# Decimal numbers

Reading a number with a limit, the digits of a number with and without zeros before them, and the round
trip. A text of digits is the digits of its value after zeros (`exists_zeros`), so what a reader accepts is
listed by the values it returns.
-/

namespace SwarmExporter.Lib

variable {limit value start : Nat} {text : List Char} {char : Char}

/-- `value` continued with the digits of `text`, up to `limit`. -/
def readDigits (limit : Nat) : Nat → List Char → Option Nat
  | value, [] => some value
  | value, char :: rest =>
    let next := 10 * value + (char.toNat - '0'.toNat)
    if char.isDigit = true ∧ next ≤ limit then readDigits limit next rest else none

/-- An unsigned number: digits, after a plus sign or without it. -/
def readUnsigned (limit : Nat) : List Char → Option Nat
  | [] => none
  | '+' :: rest => if rest.isEmpty then none else readDigits limit 0 rest
  | text => readDigits limit 0 text

/-- `text` writes `value`: its digits, after zeros and a plus sign or without them. -/
def Writes (text : List Char) (value : Nat) : Prop :=
  ∃ sign zeros, (sign = [] ∨ sign = ['+']) ∧
    text = sign ++ (List.replicate zeros '0' ++ Nat.toDigits 10 value)

/-- The digits of `value`, at least `width` of them. -/
def padded (width value : Nat) : List Char :=
  List.replicate (width - (Nat.toDigits 10 value).length) '0' ++ Nat.toDigits 10 value

theorem le_ofDigitChars : start ≤ Nat.ofDigitChars 10 text start := by
  induction text generalizing start with
  | nil => exact Nat.le_of_eq Nat.ofDigitChars_nil.symm
  | cons char rest ih =>
    rw [Nat.ofDigitChars_cons]
    have hle := @ih (10 * start + (char.toNat - '0'.toNat))
    omega

theorem readDigits_eq_some_iff (hstart : start ≤ limit) : readDigits limit start text = some value ↔
    (∀ char ∈ text, char.isDigit = true) ∧ Nat.ofDigitChars 10 text start = value ∧ value ≤ limit := by
  induction text generalizing start with
  | nil =>
    rw [readDigits, Nat.ofDigitChars_nil, Option.some.injEq]
    constructor
    · rintro rfl
      exact ⟨by simp, rfl, hstart⟩
    · rintro ⟨-, rfl, -⟩
      rfl
  | cons char rest ih =>
    rw [readDigits, Nat.ofDigitChars_cons, List.forall_mem_cons]
    simp only [Option.ite_none_right_eq_some]
    constructor
    · rintro ⟨⟨hdigit, hnext⟩, hrest⟩
      obtain ⟨hdigits, hvalue, hlimit⟩ := (ih hnext).1 hrest
      exact ⟨⟨hdigit, hdigits⟩, hvalue, hlimit⟩
    · rintro ⟨⟨hdigit, hdigits⟩, hvalue, hlimit⟩
      have hnext : 10 * start + (char.toNat - '0'.toNat) ≤ limit := by
        refine Nat.le_trans ?_ hlimit
        rw [← hvalue]
        exact le_ofDigitChars
      exact ⟨⟨hdigit, hnext⟩, (ih hnext).2 ⟨hdigits, hvalue, hlimit⟩⟩

/-- A digit is that of its value. -/
theorem digitChar_of_isDigit (h : char.isDigit = true) :
    char.toNat - '0'.toNat < 10 ∧ (char.toNat - '0'.toNat).digitChar = char := by
  obtain ⟨hlow, hhigh⟩ := Char.isDigit_iff_toNat.1 h
  have hzero : '0'.toNat = 48 := rfl
  have hnine : '9'.toNat = 57 := rfl
  have hlt : char.toNat - '0'.toNat < 10 := by omega
  refine ⟨hlt, ?_⟩
  have hvalue := Nat.toNat_digitChar_sub_48_of_lt_ten hlt
  have hdigit : (char.toNat - '0'.toNat).digitChar.isDigit = true := by
    rw [Nat.isDigit_digitChar, decide_eq_true hlt]
  obtain ⟨hlow', -⟩ := Char.isDigit_iff_toNat.1 hdigit
  rw [← Char.toNat_inj]
  omega

/-- A number continued with digits has its own digits first. -/
theorem toDigits_append (hstart : 0 < start) (h : ∀ char ∈ text, char.isDigit = true) :
    Nat.toDigits 10 start ++ text = Nat.toDigits 10 (Nat.ofDigitChars 10 text start) := by
  induction text generalizing start with
  | nil => rw [Nat.ofDigitChars_nil, List.append_nil]
  | cons char rest ih =>
    rw [List.forall_mem_cons] at h
    obtain ⟨hlt, hchar⟩ := digitChar_of_isDigit h.1
    have hnext : Nat.toDigits 10 start ++ [char] =
        Nat.toDigits 10 (10 * start + (char.toNat - '0'.toNat)) := by
      rw [← Nat.toDigits_append_toDigits (by decide) hstart hlt, Nat.toDigits_of_lt_base hlt, hchar]
    rw [Nat.ofDigitChars_cons, ← ih (by omega) h.2, ← hnext, List.append_assoc, List.singleton_append]

/-- **Digits are those of their value, after zeros.** -/
theorem exists_zeros (h : ∀ char ∈ text, char.isDigit = true) (hpos : 0 < Nat.ofDigitChars 10 text 0) :
    ∃ zeros, text = List.replicate zeros '0' ++ Nat.toDigits 10 (Nat.ofDigitChars 10 text 0) := by
  induction text with
  | nil => exact absurd hpos (Nat.lt_irrefl 0)
  | cons char rest ih =>
    rw [List.forall_mem_cons] at h
    obtain ⟨hlt, hchar⟩ := digitChar_of_isDigit h.1
    rw [Nat.ofDigitChars_cons, Nat.mul_zero, Nat.zero_add] at hpos ⊢
    cases hvalue : char.toNat - '0'.toNat with
    | zero =>
      rw [hvalue] at hpos hchar
      obtain ⟨zeros, hrest⟩ := ih h.2 hpos
      refine ⟨zeros + 1, ?_⟩
      rw [List.replicate_succ, List.cons_append, ← hrest, ← hchar]
      rfl
    | succ first =>
      rw [hvalue] at hlt hchar
      refine ⟨0, ?_⟩
      rw [← toDigits_append (Nat.succ_pos first) h.2, Nat.toDigits_of_lt_base hlt, hchar]
      rfl

theorem isDigit_of_mem_zeros {zeros : Nat}
    (h : char ∈ List.replicate zeros '0' ++ Nat.toDigits 10 value) : char.isDigit = true := by
  rcases List.mem_append.1 h with hzero | hdigit
  · rw [List.eq_of_mem_replicate hzero]
    rfl
  · exact Nat.isDigit_of_mem_toDigits (by decide) (by decide) hdigit

/-- Zeros before its digits leave a number as it is. -/
theorem ofDigitChars_zeros (zeros value : Nat) :
    Nat.ofDigitChars 10 (List.replicate zeros '0' ++ Nat.toDigits 10 value) 0 = value := by
  rw [Nat.ofDigitChars_append, Nat.ofDigitChars_replicate_zero, Nat.mul_zero,
    Nat.ofDigitChars_ten_toDigits]

/-- **A number is read from the texts that write it.** -/
theorem readUnsigned_eq_some_iff (hpos : 0 < value) :
    readUnsigned limit text = some value ↔ value ≤ limit ∧ Writes text value := by
  have hread : ∀ {digits : List Char}, readDigits limit 0 digits = some value ↔
      value ≤ limit ∧ ∃ zeros, digits = List.replicate zeros '0' ++ Nat.toDigits 10 value := by
    intro digits
    rw [readDigits_eq_some_iff (Nat.zero_le limit)]
    constructor
    · rintro ⟨hdigits, rfl, hlimit⟩
      exact ⟨hlimit, exists_zeros hdigits hpos⟩
    · rintro ⟨hlimit, zeros, rfl⟩
      exact ⟨fun char hchar => isDigit_of_mem_zeros hchar, ofDigitChars_zeros zeros value, hlimit⟩
  have hplus : ∀ {rest : List Char} {zeros : Nat},
      '+' :: rest ≠ List.replicate zeros '0' ++ Nat.toDigits 10 value := by
    intro rest zeros heq
    have hdigit : '+'.isDigit = true := isDigit_of_mem_zeros (heq ▸ List.mem_cons_self)
    cases hdigit
  cases text with
  | nil => simp [readUnsigned, Writes]
  | cons char rest =>
    by_cases hchar : char = '+'
    · subst hchar
      have hunsigned : readUnsigned limit ('+' :: rest) = some value ↔
          readDigits limit 0 rest = some value := by
        cases rest with
        | nil =>
          simp only [readUnsigned, readDigits, List.isEmpty_nil, if_true, reduceCtorEq, false_iff,
            Option.some.injEq]
          exact Nat.ne_of_lt hpos
        | cons => rfl
      rw [hunsigned, hread]
      refine and_congr_right fun _ => ?_
      constructor
      · rintro ⟨zeros, rfl⟩
        exact ⟨['+'], zeros, .inr rfl, rfl⟩
      · rintro ⟨sign, zeros, rfl | rfl, heq⟩
        · exact absurd heq hplus
        · exact ⟨zeros, List.cons.inj heq |>.2⟩
    · have hunsigned : readUnsigned limit (char :: rest) = readDigits limit 0 (char :: rest) := by
        unfold readUnsigned
        split
        · rename_i heq
          cases heq
        · rename_i heq
          exact absurd (List.cons.inj heq).1 hchar
        · rfl
      rw [hunsigned, hread]
      refine and_congr_right fun _ => ?_
      constructor
      · rintro ⟨zeros, heq⟩
        exact ⟨[], zeros, .inl rfl, heq⟩
      · rintro ⟨sign, zeros, rfl | rfl, heq⟩
        · exact ⟨zeros, heq⟩
        · exact absurd (List.cons.inj heq).1 hchar

theorem isDigit_of_mem_writes (h : Writes text value) : ∀ char ∈ text, char = '+' ∨ char.isDigit = true := by
  obtain ⟨sign, zeros, hsign, rfl⟩ := h
  intro char hchar
  rcases List.mem_append.1 hchar with hplus | hdigit
  · rcases hsign with rfl | rfl
    · cases hplus
    · exact .inl (List.mem_singleton.1 hplus)
  · exact .inr (isDigit_of_mem_zeros hdigit)

/-! ## Written numbers -/

/-- The digits of an integer, after a minus sign if it is negative. -/
def signed : Int → List Char
  | .ofNat value => Nat.toDigits 10 value
  | .negSucc value => '-' :: Nat.toDigits 10 (value + 1)

/-- An integer: digits, after a minus sign or without it. -/
def readSigned : List Char → Option Int
  | '-' :: rest => if rest.all Char.isDigit then some (-(Nat.ofDigitChars 10 rest 0 : Int)) else none
  | text => if text.all Char.isDigit then some (Nat.ofDigitChars 10 text 0 : Int) else none

theorem isDigit_of_mem_signed {value : Int} (h : char ∈ signed value) :
    char = '-' ∨ char.isDigit = true := by
  cases value with
  | ofNat value => exact .inr (Nat.isDigit_of_mem_toDigits (by decide) (by decide) h)
  | negSucc value =>
    rcases List.mem_cons.1 h with hminus | hdigit
    · exact .inl hminus
    · exact .inr (Nat.isDigit_of_mem_toDigits (by decide) (by decide) hdigit)

theorem all_isDigit_toDigits (value : Nat) : (Nat.toDigits 10 value).all Char.isDigit = true :=
  List.all_eq_true.2 fun _ hchar => Nat.isDigit_of_mem_toDigits (by decide) (by decide) hchar

/-- **An integer that was written is read back.** -/
theorem readSigned_signed (value : Int) : readSigned (signed value) = some value := by
  cases value with
  | ofNat value =>
    have hread : readSigned (Nat.toDigits 10 value) =
        if (Nat.toDigits 10 value).all Char.isDigit then
          some (Nat.ofDigitChars 10 (Nat.toDigits 10 value) 0 : Int)
        else none := by
      unfold readSigned
      split
      · rename_i rest heq
        have hminus : '-'.isDigit = true :=
          List.all_eq_true.1 (all_isDigit_toDigits value) '-' (heq ▸ List.mem_cons_self)
        cases hminus
      · rfl
    rw [signed, hread, if_pos (all_isDigit_toDigits value), Nat.ofDigitChars_ten_toDigits]
    rfl
  | negSucc value =>
    rw [signed, readSigned, if_pos (all_isDigit_toDigits _), Nat.ofDigitChars_ten_toDigits]
    rfl

theorem ofDigitChars_padded (width value : Nat) :
    Nat.ofDigitChars 10 (padded width value) 0 = value :=
  ofDigitChars_zeros _ value

theorem isDigit_of_mem_padded {width : Nat} (h : char ∈ padded width value) : char.isDigit = true :=
  isDigit_of_mem_zeros h

/-- A number below ten to the width is padded to it. -/
theorem length_padded {width : Nat} (hwidth : (Nat.toDigits 10 value).length ≤ width) :
    (padded width value).length = width := by
  rw [padded, List.length_append, List.length_replicate, Nat.sub_add_cancel hwidth]

end SwarmExporter.Lib
