import SwarmExporter.Collector.Desired

/-!
# Placement constraints

A constraint is cut at its first `==`, or at its first `!=` where it has no `==`
(`parseConstraint_eq_some_iff`), and its key is dispatched through a chain of comparisons that ignore
case, the two label prefixes by a cut at their byte length. What the chain does comes in three kinds
(`nodeMatchesConstraint_cases`): a key with a value on the node, the node address, and a key that is
none. The negated operator inverts the first two and never turns the third into a match.

Lowercasing is the standard library's. The dispatch rests on two documented facts about it
(`LowercasesAscii`); the Kelvin sign, which lowercases to `k`, is why the second one needs care.
-/

namespace SwarmExporter

open Lib
open Docker (Node Placement Platform)

/-! ## Splitting at a separator -/

section Split

variable {separator text left right : List Char}

theorem splitOnce_isSome_iff (hseparator : separator ≠ []) :
    (splitOnce separator text).isSome = true ↔ separator <:+: text := by
  induction text with
  | nil => simp [splitOnce, hseparator]
  | cons char rest ih =>
    rw [splitOnce, List.infix_cons_iff]
    split
    · rename_i hstarts
      simp [List.isPrefixOf_iff_prefix.1 hstarts]
    · rename_i hstarts
      rw [Option.isSome_map, ih]
      rw [List.isPrefixOf_iff_prefix] at hstarts
      simp [hstarts]

/-- **A text is split at the first separator.** -/
theorem splitOnce_eq_some_iff (hseparator : separator ≠ []) :
    splitOnce separator text = some (left, right) ↔ text = left ++ separator ++ right ∧
      ∀ left' right', text = left' ++ separator ++ right' → left.length ≤ left'.length := by
  induction text generalizing left with
  | nil =>
    simp only [splitOnce, List.isEmpty_iff, hseparator, if_false, reduceCtorEq, false_iff]
    rintro ⟨hnil, -⟩
    simp [hseparator] at hnil
  | cons char rest ih =>
    rw [splitOnce]
    split
    · rename_i hstarts
      obtain ⟨tail, htail⟩ := List.isPrefixOf_iff_prefix.1 hstarts
      rw [← htail, List.drop_left]
      constructor
      · rintro h
        cases h
        exact ⟨rfl, fun _ _ _ => Nat.zero_le _⟩
      · rintro ⟨hsplit, hfirst⟩
        obtain rfl : left = [] := List.length_eq_zero_iff.1 (Nat.le_zero.1 (hfirst [] tail rfl))
        rw [List.nil_append, List.append_cancel_left_eq] at hsplit
        rw [hsplit]
    · rename_i hstarts
      -- The separator is not at the start, so the first one is that of the rest.
      have hstart : ∀ right', char :: rest ≠ separator ++ right' := by
        intro right' heq
        exact hstarts (List.isPrefixOf_iff_prefix.2 ⟨right', heq.symm⟩)
      rw [Option.map_eq_some_iff]
      constructor
      · rintro ⟨⟨before, after⟩, hrest, heq⟩
        cases heq
        obtain ⟨rfl, hfirst⟩ := ih.1 hrest
        refine ⟨rfl, fun left' right' hsplit => ?_⟩
        cases left' with
        | nil => exact absurd hsplit (hstart right')
        | cons other left' => exact Nat.succ_le_succ (hfirst left' right' (List.cons.inj hsplit).2)
      · rintro ⟨hsplit, hfirst⟩
        cases left with
        | nil => exact absurd hsplit (hstart right)
        | cons other left =>
          obtain ⟨rfl, hrest⟩ := List.cons.inj hsplit
          refine ⟨(left, right), ih.2 ⟨hrest, fun left' right' h => ?_⟩, rfl⟩
          exact Nat.le_of_succ_le_succ (hfirst (char :: left') right' (by rw [h]; rfl))

/-- A separator without `char` that starts in `left` ends there. -/
theorem isPrefix_of_append_cons {char : Char} (hchar : char ∉ separator)
    (h : separator <+: left ++ char :: right) : separator <+: left := by
  rcases List.prefix_or_prefix_of_prefix h (List.prefix_append left (char :: right)) with hle | hlong
  · exact hle
  · obtain ⟨tail, rfl⟩ := hlong
    rw [List.prefix_append_right_inj] at h
    cases tail with
    | nil => rw [List.append_nil]
    | cons first tail =>
      obtain ⟨rfl, -⟩ := List.cons_prefix_cons.1 h
      simp at hchar

/-- A character the separator does not have parts the text: the first separator is that of what
follows, unless there is one before. -/
theorem splitOnce_append_cons {char : Char} (hseparator : separator ≠ []) (hchar : char ∉ separator)
    (hleft : ¬separator <:+: left) :
    splitOnce separator (left ++ char :: right) =
      (splitOnce separator right).map fun split => (left ++ char :: split.1, split.2) := by
  induction left with
  | nil =>
    rw [List.nil_append, splitOnce, if_neg]
    · rfl
    · rw [List.isPrefixOf_iff_prefix]
      intro hstarts
      have hnil := @isPrefix_of_append_cons separator [] right char hchar hstarts
      exact hseparator (List.prefix_nil.1 hnil)
  | cons first left ih =>
    rw [List.infix_cons_iff, not_or] at hleft
    rw [List.cons_append, splitOnce, if_neg, ih hleft.2, Option.map_map]
    · rfl
    · rw [List.isPrefixOf_iff_prefix]
      exact fun hstarts => hleft.1 (@isPrefix_of_append_cons separator (first :: left) right char hchar hstarts)

end Split

/-! ## Trimming -/

theorem trimSpace_cons {char : Char} (h : isWhiteSpace char = true) (text : List Char) :
    trimSpace (char :: text) = trimSpace text := by
  rw [trimSpace, List.dropWhile_cons_of_pos h, trimSpace]

theorem trimSpace_append_singleton {char : Char} (h : isWhiteSpace char = true) (text : List Char) :
    trimSpace (text ++ [char]) = trimSpace text := by
  unfold trimSpace
  rw [List.dropWhile_append]
  split
  · rename_i hempty
    rw [List.isEmpty_iff.1 hempty, List.dropWhile_cons_of_pos h]
    rfl
  · rw [List.reverse_append, List.reverse_singleton, List.singleton_append,
      List.dropWhile_cons_of_pos h]

/-! ## Parsing -/

/-- Whether `text` has `operator`. -/
def ConstraintOp.In (operator : ConstraintOp) (text : String) : Prop :=
  operator.asStr.toList <:+: text.toList

theorem ConstraintOp.asStr_ne_nil (operator : ConstraintOp) : operator.asStr.toList ≠ [] := by
  cases operator <;> decide

/-- `text` is cut at its first `operator`, which is `!=` only where it has no `==`. -/
structure CutAt (text : String) (operator : ConstraintOp) (key expected : List Char) : Prop where
  split : text.toList = key ++ operator.asStr.toList ++ expected
  first : ∀ key' expected', text.toList = key' ++ operator.asStr.toList ++ expected' →
    key.length ≤ key'.length
  tried : operator = .notEqual → ¬ConstraintOp.equal.In text

/-- `==` is tried before `!=`. -/
theorem find_operator {text : String} {operator : ConstraintOp} :
    ([ConstraintOp.equal, .notEqual].find? fun operator =>
      (splitOnce operator.asStr.toList text.toList).isSome) = some operator ↔
    operator.In text ∧ (operator = .notEqual → ¬ConstraintOp.equal.In text) := by
  have hequal := @splitOnce_isSome_iff _ text.toList (ConstraintOp.asStr_ne_nil .equal)
  have hnotEqual := @splitOnce_isSome_iff _ text.toList (ConstraintOp.asStr_ne_nil .notEqual)
  rw [List.find?_cons, List.find?_cons, List.find?_nil]
  unfold ConstraintOp.In
  split
  · rename_i hsome
    rw [hequal] at hsome
    cases operator <;> simp [hsome]
  · rename_i hnone
    rw [Bool.eq_false_iff, Ne, hequal] at hnone
    split
    · rename_i hsome
      rw [hnotEqual] at hsome
      cases operator <;> simp [hsome, hnone]
    · rename_i hnone'
      rw [Bool.eq_false_iff, Ne, hnotEqual] at hnone'
      cases operator <;> simp [hnone, hnone']

/-- **What a constraint parses to**: the trimmed sides of the cut, when neither is empty. -/
theorem parseConstraint_eq_some_iff {text : String} {key expected : String} {operator : ConstraintOp} :
    parseConstraint text = some (key, operator, expected) ↔ ∃ before after,
      CutAt text operator before after ∧ trimSpace before ≠ [] ∧ trimSpace after ≠ [] ∧
        key = String.ofList (trimSpace before) ∧ expected = String.ofList (trimSpace after) := by
  unfold parseConstraint
  simp only [Option.bind_eq_bind, Option.bind_eq_some_iff, find_operator, Option.pure_def, Prod.exists,
    splitOnce_eq_some_iff (ConstraintOp.asStr_ne_nil _), Option.guard_eq_some']
  constructor
  · rintro ⟨found, ⟨-, htried⟩, before, after, ⟨hsplit, hfirst⟩, -, hsides, heq⟩
    cases heq
    rw [Bool.and_eq_true_iff] at hsides
    exact ⟨before, after, ⟨hsplit, hfirst, htried⟩, by simpa using hsides.1, by simpa using hsides.2,
      rfl, rfl⟩
  · rintro ⟨before, after, ⟨hsplit, hfirst, htried⟩, hbefore, hafter, rfl, rfl⟩
    have hin : operator.In text := by
      rw [ConstraintOp.In, hsplit]
      exact ⟨before, after, rfl⟩
    exact ⟨operator, ⟨hin, htried⟩, before, after, ⟨hsplit, hfirst⟩, (), by simp [hbefore, hafter], rfl⟩

/-- Where a constraint that is written with spaces around its operator is cut. -/
theorem cutAt_spaced {text key value : String} {operator : ConstraintOp}
    (htext : text.toList = key.toList ++ ' ' :: (operator.asStr.toList ++ ' ' :: value.toList))
    (hkey : ∀ operator : ConstraintOp, ¬operator.In key)
    (hvalue : ∀ operator : ConstraintOp, ¬operator.In value) :
    CutAt text operator (key.toList ++ [' ']) (' ' :: value.toList) := by
  have hspace : ∀ operator : ConstraintOp, ' ' ∉ operator.asStr.toList := by
    intro operator
    cases operator <;> decide
  have hcut : splitOnce operator.asStr.toList text.toList =
      some (key.toList ++ [' '], ' ' :: value.toList) := by
    rw [htext, splitOnce_append_cons operator.asStr_ne_nil (hspace operator) (hkey operator)]
    cases operator <;> rfl
  obtain ⟨hsplit, hfirst⟩ := (splitOnce_eq_some_iff operator.asStr_ne_nil).1 hcut
  refine ⟨hsplit, hfirst, ?_⟩
  rintro rfl
  -- Neither side has a `==`, and `!=` between its spaces makes none.
  rw [ConstraintOp.In, ← splitOnce_isSome_iff (ConstraintOp.asStr_ne_nil .equal), htext,
    splitOnce_append_cons (ConstraintOp.asStr_ne_nil .equal) (hspace .equal) (hkey .equal),
    splitOnce_append_cons (ConstraintOp.asStr_ne_nil .equal) (hspace .equal) (by decide)]
  rw [Option.isSome_map, Option.isSome_map, splitOnce_isSome_iff (ConstraintOp.asStr_ne_nil .equal)]
  exact hvalue .equal

/-- The trimmed form of `text`. -/
def trimmed (text : String) : String := String.ofList (trimSpace text.toList)

theorem parseConstraint_spaced {text key value : String} {operator : ConstraintOp}
    (htext : text.toList = key.toList ++ ' ' :: (operator.asStr.toList ++ ' ' :: value.toList))
    (hkey : trimmed key ≠ "") (hvalue : trimmed value ≠ "")
    (hkeyOp : ∀ operator : ConstraintOp, ¬operator.In key)
    (hvalueOp : ∀ operator : ConstraintOp, ¬operator.In value) :
    parseConstraint text = some (trimmed key, operator, trimmed value) := by
  have hspace : isWhiteSpace ' ' = true := by decide
  rw [parseConstraint_eq_some_iff]
  refine ⟨_, _, cutAt_spaced htext hkeyOp hvalueOp, ?_⟩
  rw [trimSpace_append_singleton hspace, trimSpace_cons hspace]
  refine ⟨fun h => hkey ?_, fun h => hvalue ?_, rfl, rfl⟩
  · rw [trimmed, h]
  · rw [trimmed, h]

/-! ## Comparing without regard to case -/

section Fold

variable [HostText]

/-- Two documented facts about lowercasing: ASCII text is lowercased letter by letter, and a text whose
lowercase is ASCII without a `k`, which the Kelvin sign lowercases to, is ASCII. -/
structure LowercasesAscii : Prop where
  ascii : ∀ text : String, (∀ char ∈ text.toList, char.toNat < 128) →
    HostText.toLowercase text = String.ofList (text.toList.map Char.toLower)
  kelvin : ∀ text : String,
    (∀ char ∈ (HostText.toLowercase text).toList, char.toNat < 128 ∧ char ≠ 'k') →
      ∀ char ∈ text.toList, char.toNat < 128

/-- `text` is lowercase ASCII. -/
def LowerAscii (text : String) : Prop :=
  ∀ char ∈ text.toList, char.toNat < 128 ∧ char.toLower = char

instance (text : String) : Decidable (LowerAscii text) :=
  decidable_of_iff
    ((text.toList.all fun char => decide (char.toNat < 128) && decide (char.toLower = char)) = true) <| by
    simp only [List.all_eq_true, Bool.and_eq_true, decide_eq_true_iff, LowerAscii]

omit [HostText] in
theorem LowerAscii.map_toLower {text : String} (h : LowerAscii text) :
    text.toList.map Char.toLower = text.toList :=
  (List.map_congr_left fun char hchar => (h char hchar).2).trans (List.map_id' _)

omit [HostText] in
theorem ascii_of_toLower {char : Char} (h : char.toLower.toNat < 128) : char.toNat < 128 := by
  unfold Char.toLower at h
  split at h
  · rename_i hupper
    exact Nat.lt_of_le_of_lt hupper.2 (by decide)
  · exact h

omit [HostText] in
/-- What lowercases letter by letter to ASCII is ASCII. -/
theorem ascii_of_map_toLower {text fixed : String} (hfixed : LowerAscii fixed)
    (h : text.toList.map Char.toLower = fixed.toList) : ∀ char ∈ text.toList, char.toNat < 128 := by
  intro char hchar
  have hmem : char.toLower ∈ fixed.toList := h ▸ List.mem_map_of_mem hchar
  exact ascii_of_toLower (hfixed _ hmem).1

/-- **Comparing with a lowercase ASCII text** is lowercasing. -/
theorem equalFold_iff (lower : LowercasesAscii) {text fixed : String} (hfixed : LowerAscii fixed) :
    equalFold text fixed = true ↔ HostText.toLowercase text = fixed := by
  have hsame : HostText.toLowercase fixed = fixed := by
    rw [lower.ascii fixed fun char hchar => (hfixed char hchar).1, hfixed.map_toLower,
      String.ofList_toList]
  unfold equalFold
  rw [Bool.or_eq_true, beq_iff_eq, beq_iff_eq, hfixed.map_toLower, hsame]
  constructor
  · rintro (h | h)
    · rw [lower.ascii text (ascii_of_map_toLower hfixed h), h, String.ofList_toList]
    · exact h
  · exact .inr

/-- Against a text without `k`, it is comparing ASCII letter by letter. -/
theorem map_toLower_of_equalFold (lower : LowercasesAscii) {text fixed : String}
    (hfixed : LowerAscii fixed) (hkelvin : 'k' ∉ fixed.toList) (h : equalFold text fixed = true) :
    text.toList.map Char.toLower = fixed.toList ∧ ∀ char ∈ text.toList, char.toNat < 128 := by
  rw [equalFold_iff lower hfixed] at h
  have hascii : ∀ char ∈ text.toList, char.toNat < 128 := by
    apply lower.kelvin
    rw [h]
    intro char hchar
    refine ⟨(hfixed char hchar).1, ?_⟩
    rintro rfl
    exact hkelvin hchar
  rw [lower.ascii text hascii] at h
  rw [← h, String.toList_ofList]
  exact ⟨rfl, hascii⟩

end Fold

/-! ## Keys -/

section Keys

variable [HostText]

/-- The keys that are not label names. -/
def fixedKeys : List String :=
  ["node.id", "node.hostname", "node.ip", "node.role", "node.platform.os", "node.platform.arch"]

/-- `key` is `pre`, in any case, and a non-empty name. -/
def LabelKey (pre key : String) : Prop :=
  ∃ head name, key = head ++ name ∧ equalFold head pre = true ∧ name ≠ ""

/-- `key` is, in any case, a fixed key, or one of the label prefixes and a name. -/
def KnownKey (key : String) : Prop :=
  (∃ fixed ∈ fixedKeys, equalFold key fixed = true) ∨ LabelKey nodeLabelsPrefix key ∨
    LabelKey engineLabelsPrefix key

omit [HostText] in
theorem lowerAscii_of_mem_fixedKeys {fixed : String} (h : fixed ∈ fixedKeys) : LowerAscii fixed := by
  revert fixed
  decide +kernel

/-- A label prefix is found by a cut at its byte length. -/
theorem labelKey_isSome_iff (lower : LowercasesAscii) {pre key : String} (hpre : LowerAscii pre)
    (hkelvin : 'k' ∉ pre.toList) : (labelKey key pre).isSome = true ↔ LabelKey pre key := by
  unfold labelKey
  rw [utf8ByteSize_eq_byteLen, utf8ByteSize_eq_byteLen]
  constructor
  · intro h
    split at h
    · cases h
    · rename_i hlong
      split at h
      · cases h
      · rename_i head label hcut
        obtain ⟨hkey, hlen⟩ := splitAtByte_eq_some_iff.1 hcut
        split at h
        · rename_i hfold
          refine ⟨String.ofList head, String.ofList label, ?_, hfold, ?_⟩
          · rw [← String.toList_inj, String.toList_append, String.toList_ofList, String.toList_ofList, hkey]
          · intro hempty
            have hlabel : label = [] := by simpa using hempty
            rw [hkey, hlabel, List.append_nil, hlen] at hlong
            exact hlong (Nat.le_refl _)
        · cases h
  · rintro ⟨head, name, rfl, hfold, hname⟩
    -- The head is ASCII, so it is as long as the prefix it folds to.
    obtain ⟨hlower, hascii⟩ := map_toLower_of_equalFold lower hpre hkelvin hfold
    have hlen : byteLen head.toList = byteLen pre.toList := by
      rw [byteLen_of_ascii hascii, byteLen_of_ascii fun char hchar => (hpre char hchar).1, ← hlower,
        List.length_map]
    have hpos : 0 < byteLen name.toList := by
      rw [Nat.pos_iff_ne_zero, Ne, byteLen_eq_zero_iff]
      simpa using hname
    rw [String.toList_append, ← hlen, splitAtByte_append, byteLen_append, if_neg (by omega)]
    simp [hfold]

/-! ## What a key is dispatched to -/

theorem matchNodeIpConstraint_notEqual {expected : String} (addr : String)
    (h : (HostText.parseIpAddr expected).isSome = true ∨ (HostText.parseIpNet expected).isSome = true) :
    matchNodeIpConstraint .notEqual expected addr = !matchNodeIpConstraint .equal expected addr := by
  unfold matchNodeIpConstraint ConstraintOp.apply
  cases haddr : HostText.parseIpAddr expected with
  | some ip => simp
  | none =>
    cases hnet : HostText.parseIpNet expected with
    | some subnet => simp
    | none => simp [haddr, hnet] at h

theorem matchNodeIpConstraint_invalid {expected : String} (operator : ConstraintOp) (addr : String)
    (h : ¬((HostText.parseIpAddr expected).isSome = true ∨
      (HostText.parseIpNet expected).isSome = true)) :
    matchNodeIpConstraint operator expected addr = false := by
  rw [not_or, Option.not_isSome_iff_eq_none, Option.not_isSome_iff_eq_none] at h
  unfold matchNodeIpConstraint
  rw [h.1, h.2]

/-- A fixed key is known, and only one of them is the node address. -/
theorem knownKey_of_fixed (lower : LowercasesAscii) {key fixed : String} (hfixed : fixed ∈ fixedKeys)
    (hne : fixed ≠ "node.ip") (hfold : equalFold key fixed = true) :
    KnownKey key ∧ equalFold key "node.ip" = false := by
  refine ⟨.inl ⟨fixed, hfixed, hfold⟩, ?_⟩
  rw [equalFold_iff lower (lowerAscii_of_mem_fixedKeys hfixed)] at hfold
  rw [Bool.eq_false_iff, Ne, equalFold_iff lower (lowerAscii_of_mem_fixedKeys (by decide)), hfold]
  exact hne

/-- **The three kinds of keys**: one with a value on the node, the node address, and no key at all. -/
theorem nodeMatchesConstraint_cases (lower : LowercasesAscii) (node : Node) (key : String) :
    (KnownKey key ∧ equalFold key "node.ip" = false ∧ ∃ candidate, ∀ operator expected,
      nodeMatchesConstraint node key operator expected =
        matchConstraintValue operator expected candidate) ∨
    (equalFold key "node.ip" = true ∧ ∀ operator expected,
      nodeMatchesConstraint node key operator expected =
        matchNodeIpConstraint operator expected node.status.addr) ∨
    (¬KnownKey key ∧ ∀ operator expected,
      nodeMatchesConstraint node key operator expected = false) := by
  have hnode : (labelKey key nodeLabelsPrefix).isSome = true ↔ LabelKey nodeLabelsPrefix key :=
    labelKey_isSome_iff lower (by decide +kernel) (by decide)
  have hengine : (labelKey key engineLabelsPrefix).isSome = true ↔ LabelKey engineLabelsPrefix key :=
    labelKey_isSome_iff lower (by decide +kernel) (by decide)
  by_cases hid : equalFold key "node.id" = true
  · obtain ⟨hknown, hip⟩ :=
      @knownKey_of_fixed _ lower key "node.id" (by decide) (by decide) hid
    exact .inl ⟨hknown, hip, node.id, fun _ _ => by simp [nodeMatchesConstraint, hid]⟩
  by_cases hhostname : equalFold key "node.hostname" = true
  · obtain ⟨hknown, hip⟩ :=
      @knownKey_of_fixed _ lower key "node.hostname" (by decide) (by decide) hhostname
    exact .inl ⟨hknown, hip, node.description.hostname,
      fun _ _ => by simp [nodeMatchesConstraint, hid, hhostname]⟩
  by_cases hip : equalFold key "node.ip" = true
  · exact .inr (.inl ⟨hip, fun _ _ => by simp [nodeMatchesConstraint, hid, hhostname, hip]⟩)
  rw [Bool.not_eq_true] at hip
  by_cases hrole : equalFold key "node.role" = true
  · obtain ⟨hknown, -⟩ :=
      @knownKey_of_fixed _ lower key "node.role" (by decide) (by decide) hrole
    exact .inl ⟨hknown, hip, node.spec.role,
      fun _ _ => by simp [nodeMatchesConstraint, hid, hhostname, hip, hrole]⟩
  by_cases hos : equalFold key "node.platform.os" = true
  · obtain ⟨hknown, -⟩ :=
      @knownKey_of_fixed _ lower key "node.platform.os" (by decide) (by decide) hos
    exact .inl ⟨hknown, hip, node.description.platform.os,
      fun _ _ => by simp [nodeMatchesConstraint, hid, hhostname, hip, hrole, hos]⟩
  by_cases harch : equalFold key "node.platform.arch" = true
  · obtain ⟨hknown, -⟩ :=
      @knownKey_of_fixed _ lower key "node.platform.arch" (by decide) (by decide) harch
    exact .inl ⟨hknown, hip, node.description.platform.architecture,
      fun _ _ => by simp [nodeMatchesConstraint, hid, hhostname, hip, hrole, hos, harch]⟩
  cases hnodeKey : labelKey key nodeLabelsPrefix with
  | some label =>
    rw [hnodeKey] at hnode
    exact .inl ⟨.inr (.inl (hnode.1 rfl)), hip, node.spec.labels.getD label "",
      fun _ _ => by simp [nodeMatchesConstraint, hid, hhostname, hip, hrole, hos, harch, hnodeKey]⟩
  | none =>
    cases hengineKey : labelKey key engineLabelsPrefix with
    | some label =>
      rw [hengineKey] at hengine
      exact .inl ⟨.inr (.inr (hengine.1 rfl)), hip, node.description.engine.labels.getD label "",
        fun _ _ => by
          simp [nodeMatchesConstraint, hid, hhostname, hip, hrole, hos, harch, hnodeKey, hengineKey]⟩
    | none =>
      rw [hnodeKey] at hnode
      rw [hengineKey] at hengine
      refine .inr (.inr ⟨?_, fun _ _ => by
        simp [nodeMatchesConstraint, hid, hhostname, hip, hrole, hos, harch, hnodeKey, hengineKey]⟩)
      rintro (⟨fixed, hfixed, hfold⟩ | hlabelled | hlabelled)
      · simp only [fixedKeys, List.mem_cons, List.not_mem_nil, or_false] at hfixed
        rcases hfixed with rfl | rfl | rfl | rfl | rfl | rfl <;> simp_all
      · exact absurd (hnode.2 hlabelled) (by simp)
      · exact absurd (hengine.2 hlabelled) (by simp)

/-- A constraint that can be evaluated: its key is known, and its value is an address or a subnet where
the key asks for one. -/
def Evaluable (key expected : String) : Prop :=
  KnownKey key ∧ (equalFold key "node.ip" = true →
    (HostText.parseIpAddr expected).isSome = true ∨ (HostText.parseIpNet expected).isSome = true)

/-- `!=` inverts a constraint that can be evaluated, and no other one matches. -/
theorem nodeMatchesConstraint_evaluable (lower : LowercasesAscii) (node : Node) (key expected : String) :
    (Evaluable key expected → nodeMatchesConstraint node key .notEqual expected =
      !nodeMatchesConstraint node key .equal expected) ∧
    (¬Evaluable key expected → ∀ operator,
      nodeMatchesConstraint node key operator expected = false) := by
  rcases nodeMatchesConstraint_cases lower node key with ⟨hknown, hip, candidate, hmatch⟩ |
    ⟨hip, hmatch⟩ | ⟨hunknown, hmatch⟩
  · refine ⟨fun _ => ?_, fun hnot => absurd ⟨hknown, by simp [hip]⟩ hnot⟩
    simp [hmatch, matchConstraintValue, ConstraintOp.apply]
  · refine ⟨fun hevaluable => ?_, fun hnot operator => ?_⟩
    · rw [hmatch, hmatch, matchNodeIpConstraint_notEqual _ (hevaluable.2 hip)]
    · have hknown : KnownKey key := .inl ⟨"node.ip", by decide, hip⟩
      rw [hmatch, matchNodeIpConstraint_invalid]
      exact fun hvalid => hnot ⟨hknown, fun _ => hvalid⟩
  · exact ⟨fun hevaluable => absurd hevaluable.1 hunknown, fun _ operator => hmatch operator expected⟩

end Keys

/-! ## Matching -/

section Matching

variable [HostText] (node : Node)

theorem constraintsMatch_of_parse {constraint key expected : String} {operator : ConstraintOp}
    (h : parseConstraint constraint = some (key, operator, expected)) :
    constraintsMatch node [constraint] = nodeMatchesConstraint node key operator expected := by
  simp [constraintsMatch, h]

/-- A list is the conjunction of its constraints. -/
theorem constraintsMatch_iff {constraints : List String} : constraintsMatch node constraints = true ↔
    ∀ constraint ∈ constraints, constraintsMatch node [constraint] = true := by
  simp only [constraintsMatch, List.all_eq_true, List.mem_singleton, forall_eq]

/-- Without an operator, or with an empty side, nothing is parsed. -/
theorem constraintsMatch_of_parse_none {constraint : String}
    (h : ∀ operator before after, CutAt constraint operator before after →
      trimSpace before = [] ∨ trimSpace after = []) : constraintsMatch node [constraint] = false := by
  cases hparse : parseConstraint constraint with
  | none => simp [constraintsMatch, hparse]
  | some parsed =>
    obtain ⟨key, operator, expected⟩ := parsed
    obtain ⟨before, after, hcut, hbefore, hafter, -⟩ := parseConstraint_eq_some_iff.1 hparse
    exact absurd (h operator before after hcut) (by simp [hbefore, hafter])

omit [HostText] in
/-- A text is cut in one place. -/
theorem CutAt.unique {text : String} {operator operator' : ConstraintOp}
    {before after before' after' : List Char} (h : CutAt text operator before after)
    (h' : CutAt text operator' before' after') : before = before' ∧ after = after' := by
  have hcut := find_operator.2 ⟨⟨before, after, h.split.symm⟩, h.tried⟩
  rw [find_operator.2 ⟨⟨before', after', h'.split.symm⟩, h'.tried⟩, Option.some.injEq] at hcut
  subst hcut
  have hsplit := (splitOnce_eq_some_iff operator'.asStr_ne_nil).2 ⟨h.split, h.first⟩
  rw [(splitOnce_eq_some_iff operator'.asStr_ne_nil).2 ⟨h'.split, h'.first⟩] at hsplit
  cases hsplit
  exact ⟨rfl, rfl⟩

theorem nodeEligible_mono {constraints more : List String} (platforms : List Platform)
    (hsubset : constraints ⊆ more)
    (h : nodeEligible (some node) (some ⟨more, platforms⟩) = true) :
    nodeEligible (some node) (some ⟨constraints, platforms⟩) = true := by
  simp only [nodeEligible, Bool.if_false_left, Bool.and_eq_true] at h ⊢
  obtain ⟨hschedulable, hplatform, hmatch⟩ := h
  rw [constraintsMatch_iff] at hmatch
  refine ⟨hschedulable, hplatform, (constraintsMatch_iff node).2 ?_⟩
  exact fun constraint hconstraint => hmatch constraint (hsubset hconstraint)

end Matching

/-- **Placement constraints.** A key and a value without an operator in them, with any white space around
them, are parsed from `key == value` and from `key != value`. Exactly one of the two matches the node if
the key is known and the value is an address or a subnet where the key asks for one, and neither
otherwise. A text without an operator or with an empty side matches no node, and a list of constraints
is their conjunction, so that a longer list never makes a node eligible. -/
theorem constraints_semantics [HostText] (lower : LowercasesAscii) (node : Node) :
    (∀ key value : String, trimmed key ≠ "" → trimmed value ≠ "" →
      (∀ operator : ConstraintOp, ¬operator.In key) → (∀ operator : ConstraintOp, ¬operator.In value) →
      parseConstraint (key ++ " == " ++ value) = some (trimmed key, .equal, trimmed value) ∧
      parseConstraint (key ++ " != " ++ value) = some (trimmed key, .notEqual, trimmed value) ∧
      (Evaluable (trimmed key) (trimmed value) → constraintsMatch node [key ++ " != " ++ value] =
        !constraintsMatch node [key ++ " == " ++ value]) ∧
      (¬Evaluable (trimmed key) (trimmed value) →
        constraintsMatch node [key ++ " == " ++ value] = false ∧
        constraintsMatch node [key ++ " != " ++ value] = false)) ∧
    (∀ text, (∀ operator : ConstraintOp, ¬operator.In text) → constraintsMatch node [text] = false) ∧
    (∀ text operator before after, CutAt text operator before after →
      trimSpace before = [] ∨ trimSpace after = [] → constraintsMatch node [text] = false) ∧
    (∀ constraints, constraintsMatch node constraints = true ↔
      ∀ constraint ∈ constraints, constraintsMatch node [constraint] = true) ∧
    ∀ constraints more platforms, constraints ⊆ more →
      nodeEligible (some node) (some ⟨more, platforms⟩) = true →
        nodeEligible (some node) (some ⟨constraints, platforms⟩) = true := by
  refine ⟨?_, ?_, ?_, fun _ => constraintsMatch_iff node,
    fun _ _ platforms => nodeEligible_mono node platforms⟩
  · intro key value hkey hvalue hkeyOp hvalueOp
    have hequal : parseConstraint (key ++ " == " ++ value) =
        some (trimmed key, .equal, trimmed value) :=
      parseConstraint_spaced (by simp [ConstraintOp.asStr]) hkey hvalue hkeyOp hvalueOp
    have hnotEqual : parseConstraint (key ++ " != " ++ value) =
        some (trimmed key, .notEqual, trimmed value) :=
      parseConstraint_spaced (by simp [ConstraintOp.asStr]) hkey hvalue hkeyOp hvalueOp
    refine ⟨hequal, hnotEqual, ?_⟩
    rw [constraintsMatch_of_parse node hequal, constraintsMatch_of_parse node hnotEqual]
    obtain ⟨hevaluable, hnot⟩ :=
      nodeMatchesConstraint_evaluable lower node (trimmed key) (trimmed value)
    exact ⟨hevaluable, fun h => ⟨hnot h .equal, hnot h .notEqual⟩⟩
  · intro text hnone
    refine constraintsMatch_of_parse_none node fun operator before after hcut => ?_
    exact absurd ⟨before, after, hcut.split.symm⟩ (hnone operator)
  · intro text operator before after hcut hempty
    refine constraintsMatch_of_parse_none node fun operator' before' after' hcut' => ?_
    obtain ⟨rfl, rfl⟩ := hcut.unique hcut'
    exact hempty

namespace Sample

theorem lowercasesAscii : LowercasesAscii where
  ascii _ _ := rfl
  kelvin text h char hchar := by
    have hlower : char.toLower ∈ (HostText.toLowercase text).toList := by
      rw [show HostText.toLowercase text = String.ofList (text.toList.map Char.toLower) from rfl,
        String.toList_ofList]
      exact List.mem_map_of_mem hchar
    exact ascii_of_toLower (h _ hlower).1

/-- A manager. -/
def manager : Node := { id := "node", spec := { role := "manager" } }

end Sample

open Sample in
/-- The role of a manager, with a key in another case and space around it. -/
theorem constraints_semantics_sample :
    constraintsMatch manager [" Node.Role  == manager"] = true ∧
      constraintsMatch manager [" Node.Role  != manager"] = false := by
  have hno : ∀ text ∈ [" Node.Role ", "manager"], ∀ operator : ConstraintOp, ¬operator.In text := by
    intro text htext operator
    rw [ConstraintOp.In, ← splitOnce_isSome_iff operator.asStr_ne_nil]
    revert text
    cases operator <;> decide
  obtain ⟨-, -, hinverse, -⟩ := (constraints_semantics lowercasesAscii manager).1 " Node.Role " "manager"
    (by decide) (by decide) (hno _ (by simp)) (hno _ (by simp))
  have hmatch : constraintsMatch manager [" Node.Role  == manager"] = true := by decide +kernel
  refine ⟨hmatch, ?_⟩
  have hevaluable : Evaluable (trimmed " Node.Role ") (trimmed "manager") :=
    ⟨.inl ⟨"node.role", by decide, by decide +kernel⟩, fun h => absurd h (by decide +kernel)⟩
  have hfalse := hinverse hevaluable
  rw [show " Node.Role " ++ " == " ++ "manager" = " Node.Role  == manager" from by decide,
    show " Node.Role " ++ " != " ++ "manager" = " Node.Role  != manager" from by decide, hmatch] at hfalse
  exact hfalse

end SwarmExporter
