import SwarmExporter.Collector.Desired
import SwarmExporter.Lib.Decimal

/-!
# What the client is configured with, and what a request is built from

The environment is read once, at startup. A pinned API version is checked against the range the exporter is
tested with; the check reads two numbers, so it takes every text that writes them
(`validateClientApiVersion_iff`). The time an event stream starts from is sent as seconds and nanoseconds,
the seconds rounded down, and reads back as itself (`since_parameter_round_trip`).
-/

namespace SwarmExporter.Docker

open Lib

/-! ## The API version -/

/-- The largest `usize`. -/
def usizeMax : Nat := 18446744073709551615

/-- The oldest API version accepted as a pin. -/
def minApiVersion : Nat × Nat := (1, 40)

/-- The newest API version accepted as a pin. -/
def maxApiVersion : Nat × Nat := (1, 56)

/-- A pin outside `minApiVersion` to `maxApiVersion`. -/
structure UnsupportedApiVersion where
  version : String
  deriving DecidableEq, Repr

/-- Versions compare by the major number first. -/
def versionLe (version version' : Nat × Nat) : Bool :=
  decide (version.1 < version'.1 ∨ version.1 = version'.1 ∧ version.2 ≤ version'.2)

/-- The two numbers of a version. -/
def parseVersion (version : String) : Option (Nat × Nat) :=
  (splitOnce ['.'] version.toList).bind fun (major, minor) =>
    (readUnsigned usizeMax major).bind fun major =>
      (readUnsigned usizeMax minor).map fun minor => (major, minor)

/-- The pinned API version must lie in `minApiVersion` to `maxApiVersion`. -/
def validateClientApiVersion (version : String) : Except UnsupportedApiVersion Unit :=
  match parseVersion version with
  | some found =>
    if versionLe minApiVersion found && versionLe found maxApiVersion then .ok ()
    else .error ⟨version⟩
  | none => .error ⟨version⟩

/-- `version` writes 1.40 to 1.56, with zeros and plus signs before the numbers or without them. -/
def IsSupported (version : String) : Prop :=
  ∃ major minor number, version.toList = major ++ '.' :: minor ∧ Writes major 1 ∧ Writes minor number ∧
    40 ≤ number ∧ number ≤ 56

theorem splitOnce_of_not_mem {separator : Char} {left right : List Char} (h : separator ∉ left) :
    splitOnce [separator] (left ++ separator :: right) = some (left, right) := by
  induction left with
  | nil => simp [splitOnce]
  | cons char left ih =>
    rw [List.mem_cons, not_or] at h
    have hstarts : List.isPrefixOf [separator] (char :: (left ++ separator :: right)) = false := by
      rw [Bool.eq_false_iff, Ne, List.isPrefixOf_iff_prefix, List.cons_prefix_cons]
      exact fun hprefix => h.1 hprefix.1
    rw [List.cons_append, splitOnce, hstarts, if_neg Bool.false_ne_true, ih h.2]
    rfl

theorem eq_of_splitOnce {separator : Char} {text left right : List Char}
    (h : splitOnce [separator] text = some (left, right)) : text = left ++ separator :: right := by
  induction text generalizing left with
  | nil => simp [splitOnce] at h
  | cons char rest ih =>
    rw [splitOnce] at h
    split at h
    · rename_i hstarts
      obtain ⟨tail, htail⟩ := List.isPrefixOf_iff_prefix.1 hstarts
      cases h
      rw [← htail]
      rfl
    · obtain ⟨⟨before, after⟩, hsplit, heq⟩ := Option.map_eq_some_iff.1 h
      cases heq
      rw [ih hsplit]
      rfl

/-- The versions of the range: major 1, minor 40 to 56. -/
theorem versionLe_iff (found : Nat × Nat) :
    (versionLe minApiVersion found && versionLe found maxApiVersion) = true ↔
      found.1 = 1 ∧ 40 ≤ found.2 ∧ found.2 ≤ 56 := by
  rw [Bool.and_eq_true, versionLe, versionLe, decide_eq_true_iff, decide_eq_true_iff, minApiVersion,
    maxApiVersion]
  omega

/-- **A pin is accepted exactly when it writes a version of the range.** -/
theorem validateClientApiVersion_iff (version : String) :
    validateClientApiVersion version = .ok () ↔ IsSupported version := by
  have hparse : validateClientApiVersion version = .ok () ↔
      ∃ found, parseVersion version = some found ∧ found.1 = 1 ∧ 40 ≤ found.2 ∧ found.2 ≤ 56 := by
    unfold validateClientApiVersion
    cases parseVersion version with
    | none => simp
    | some found =>
      simp only [Option.some.injEq, exists_eq_left', ← versionLe_iff]
      cases versionLe minApiVersion found && versionLe found maxApiVersion <;> simp
  rw [hparse]
  constructor
  · rintro ⟨⟨_, minor⟩, hfound, rfl, hlow, hhigh⟩
    obtain ⟨⟨left, right⟩, hsplit, hnumbers⟩ := Option.bind_eq_some_iff.1 hfound
    obtain ⟨major, hmajor, hnumbers⟩ := Option.bind_eq_some_iff.1 hnumbers
    obtain ⟨number, hminor, heq⟩ := Option.map_eq_some_iff.1 hnumbers
    cases heq
    exact ⟨left, right, minor, eq_of_splitOnce hsplit,
      ((readUnsigned_eq_some_iff Nat.one_pos).1 hmajor).2,
      ((readUnsigned_eq_some_iff (Nat.lt_of_lt_of_le (by decide) hlow)).1 hminor).2, hlow, hhigh⟩
  · rintro ⟨major, minor, number, hversion, hmajor, hminor, hlow, hhigh⟩
    have hdot : '.' ∉ major := by
      intro hmem
      rcases isDigit_of_mem_writes hmajor '.' hmem with hplus | hdigit
      · cases hplus
      · cases hdigit
    have hlimit : number ≤ usizeMax := hhigh.trans (by decide)
    refine ⟨(1, number), ?_, rfl, hlow, hhigh⟩
    rw [parseVersion, hversion, splitOnce_of_not_mem hdot]
    simp only [Option.bind_some]
    rw [(readUnsigned_eq_some_iff Nat.one_pos).2 ⟨by decide, hmajor⟩, Option.bind_some,
      (readUnsigned_eq_some_iff (Nat.lt_of_lt_of_le (by decide) hlow)).2 ⟨hlimit, hminor⟩]
    rfl

/-- A refused pin is named. -/
theorem validateClientApiVersion_error {version : String} {error : UnsupportedApiVersion}
    (h : validateClientApiVersion version = .error error) : error.version = version := by
  unfold validateClientApiVersion at h
  split at h
  · split at h
    · cases h
    · cases h
      rfl
  · cases h
    rfl

/-! ## The settings -/

/-- How long the engine may take from a request to the headers of its response. -/
def responseHeaderTimeout : Duration := Duration.fromSecs 30

/-- The program name of the user agent. -/
def program : String := "swarm-scheduler-exporter"

/-- Whether `value` may be a header value: visible ASCII, space and tab. -/
def httpHeaderSafe (value : String) : Bool :=
  (textBytes value.toList).all fun byte => byte == 9 || (32 ≤ byte && byte ≤ 126)

/-- The program and its version, or the program alone when the version holds something no header may
carry. -/
def userAgent (version : String) : String :=
  if httpHeaderSafe (program ++ "/" ++ version) then program ++ "/" ++ version else program

/-- Why the client settings could not be built; `ε` is the error of the client library. -/
inductive SettingsError (ε : Type) where
  | config (error : ε)
  | version (error : UnsupportedApiVersion)
  | certsWithoutVerify
  deriving DecidableEq, Repr

/-- The settings of the client; `γ` is what its library reads from the environment. -/
structure ClientSettings (γ : Type) where
  base : γ
  userAgent : String
  responseHeaderTimeout : Duration
  deriving DecidableEq, Repr

section Settings

variable {γ ε : Type}

/-- A variable that is set and not empty. -/
def isSet (getenv : String → Option String) (name : String) : Bool :=
  (getenv name).any fun value => !value.isEmpty

/-- Certificates for a `tcp://` host that nothing asks to verify. -/
def certsIgnored (getenv : String → Option String) : Bool :=
  isSet getenv "DOCKER_CERT_PATH" && !isSet getenv "DOCKER_TLS_VERIFY" &&
    (getenv "DOCKER_HOST").any fun host => "tcp://".toList.isPrefixOf host.toList

/-- The client settings of an exporter of `version`, on what `fromEnv` reads from the environment. -/
def settingsFromEnv (fromEnv : (String → Option String) → Except ε γ) (version : String)
    (getenv : String → Option String) : Except (SettingsError ε) (ClientSettings γ) :=
  if certsIgnored getenv then .error .certsWithoutVerify
  else
    match (getenv "DOCKER_API_VERSION").filter (!·.isEmpty) with
    | some pin =>
      match validateClientApiVersion pin with
      | .error error => .error (.version error)
      | .ok _ => configured (fromEnv getenv)
    | none => configured (fromEnv getenv)
where
  configured : Except ε γ → Except (SettingsError ε) (ClientSettings γ)
    | .ok base => .ok ⟨base, userAgent version, responseHeaderTimeout⟩
    | .error error => .error (.config error)

theorem userAgent_safe (version : String) : httpHeaderSafe (userAgent version) = true := by
  unfold userAgent
  split
  · rename_i hsafe
    exact hsafe
  · decide +kernel

theorem isSet_iff {getenv : String → Option String} {name : String} :
    isSet getenv name = true ↔ ∃ value, getenv name = some value ∧ value ≠ "" := by
  simp [isSet, Option.any_eq_true]

/-- Certificates are ignored when they are set, a `tcp://` host is, and the verification is not. -/
theorem certsIgnored_eq_false_iff {getenv : String → Option String} : certsIgnored getenv = false ↔
    ∀ cert host, getenv "DOCKER_CERT_PATH" = some cert → cert ≠ "" →
      getenv "DOCKER_HOST" = some host → "tcp://".toList <+: host.toList →
      ∃ verify, getenv "DOCKER_TLS_VERIFY" = some verify ∧ verify ≠ "" := by
  rw [← Bool.not_eq_true, certsIgnored, Bool.and_eq_true, Bool.and_eq_true, isSet_iff,
    Bool.not_eq_true', ← Bool.not_eq_true, isSet_iff, Option.any_eq_true]
  simp only [List.isPrefixOf_iff_prefix]
  constructor
  · intro hnot cert host hcert hset hhost htcp
    by_contra hverify
    exact hnot ⟨⟨⟨cert, hcert, hset⟩, hverify⟩, host, hhost, htcp⟩
  · rintro h ⟨⟨⟨cert, hcert, hset⟩, hverify⟩, host, hhost, htcp⟩
    exact hverify (h cert host hcert hset hhost htcp)

theorem configured_iff {version : String} {read : Except ε γ} {settings : ClientSettings γ} :
    settingsFromEnv.configured version read = .ok settings ↔
      ∃ base, read = .ok base ∧ settings = ⟨base, userAgent version, responseHeaderTimeout⟩ := by
  cases read with
  | ok base =>
    simp only [settingsFromEnv.configured, Except.ok.injEq, exists_eq_left']
    exact eq_comm
  | error error => simp [settingsFromEnv.configured]

theorem configured_ne_version {version : String} {read : Except ε γ} {error : UnsupportedApiVersion} :
    settingsFromEnv.configured version read ≠ .error (.version error) := by
  cases read <;> simp [settingsFromEnv.configured]

/-- **The environments the exporter starts with.** The settings are read exactly when certificates for a
`tcp://` host come with their verification, a pinned API version writes one of 1.40 to 1.56, and the client
library accepts the environment; a refused pin is named by its error. The user agent can always be sent. -/
theorem settings_from_env_exact (fromEnv : (String → Option String) → Except ε γ) (version : String)
    (getenv : String → Option String) :
    (∀ settings, settingsFromEnv fromEnv version getenv = .ok settings ↔
      (∀ cert host, getenv "DOCKER_CERT_PATH" = some cert → cert ≠ "" →
        getenv "DOCKER_HOST" = some host → "tcp://".toList <+: host.toList →
        ∃ verify, getenv "DOCKER_TLS_VERIFY" = some verify ∧ verify ≠ "") ∧
      (∀ pin, getenv "DOCKER_API_VERSION" = some pin → pin ≠ "" → IsSupported pin) ∧
      ∃ base, fromEnv getenv = .ok base ∧
        settings = ⟨base, userAgent version, responseHeaderTimeout⟩) ∧
    (∀ error, settingsFromEnv fromEnv version getenv = .error (.version error) →
      getenv "DOCKER_API_VERSION" = some error.version ∧ ¬IsSupported error.version) ∧
    httpHeaderSafe (userAgent version) = true := by
  rw [← certsIgnored_eq_false_iff]
  unfold settingsFromEnv
  cases hcerts : certsIgnored getenv with
  | true => simp [userAgent_safe]
  | false =>
    rw [if_neg Bool.false_ne_true]
    cases hpin : (getenv "DOCKER_API_VERSION").filter (!·.isEmpty) with
    | none =>
      have hunpinned : ∀ pin, getenv "DOCKER_API_VERSION" = some pin → pin ≠ "" → IsSupported pin := by
        intro pin hset hne
        rw [hset] at hpin
        simp [hne] at hpin
      refine ⟨fun settings => ?_, fun error herror => ?_, userAgent_safe version⟩
      · rw [configured_iff]
        exact ⟨fun h => ⟨rfl, hunpinned, h⟩, fun h => h.2.2⟩
      · exact absurd herror configured_ne_version
    | some pin =>
      obtain ⟨hset, hne⟩ := Option.filter_eq_some_iff.1 hpin
      simp only
      cases hvalid : validateClientApiVersion pin with
      | ok =>
        have hsupported := (validateClientApiVersion_iff pin).1 hvalid
        have hpinned : ∀ pin, getenv "DOCKER_API_VERSION" = some pin → pin ≠ "" → IsSupported pin := by
          intro other hother _
          rw [hset, Option.some.injEq] at hother
          exact hother ▸ hsupported
        refine ⟨fun settings => ?_, fun error herror => ?_, userAgent_safe version⟩
        · rw [configured_iff]
          exact ⟨fun h => ⟨trivial, hpinned, h⟩, fun h => h.2.2⟩
        · exact absurd herror configured_ne_version
      | error refused =>
        have hunsupported : ¬IsSupported pin := by
          rw [← validateClientApiVersion_iff, hvalid]
          simp
        refine ⟨fun settings => ⟨(fun h => by cases h), fun h => ?_⟩, fun error herror => ?_,
          userAgent_safe version⟩
        · exact absurd (h.2.1 pin hset (by simpa using hne)) hunsupported
        · cases herror
          rw [validateClientApiVersion_error hvalid]
          exact ⟨hset, hunsupported⟩

end Settings

/-! ## The start of an event stream -/

/-- Nanoseconds in a second. -/
def nanosPerSecond : Nat := 1000000000

/-- `<seconds>.<nanoseconds>`, nine digits, the seconds rounded down. -/
def sinceParameter (since : Timestamp) : String :=
  let seconds := since.tdiv nanosPerSecond
  let nanos := since.tmod nanosPerSecond
  let rounded :=
    -- The parts have the sign of the time.
    if nanos < 0 then (seconds - 1, nanos + nanosPerSecond) else (seconds, nanos)
  String.ofList (signed rounded.1 ++ '.' :: padded 9 rounded.2.toNat)

/-- The time a parameter stands for: whole seconds, and nine digits of nanoseconds after them. -/
def readSince (parameter : String) : Option Timestamp :=
  (splitOnce ['.'] parameter.toList).bind fun (seconds, nanos) =>
    if nanos.length = 9 ∧ nanos.all Char.isDigit then
      (readSigned seconds).map fun seconds =>
        seconds * nanosPerSecond + (Nat.ofDigitChars 10 nanos 0 : Nat)
    else none

/-- A time is whole seconds and the nanoseconds after them. -/
theorem exists_parts (since : Int) :
    ∃ (seconds : Int) (nanos : Nat), nanos < nanosPerSecond ∧ since = seconds * nanosPerSecond + nanos := by
  have hlow : 0 ≤ since % nanosPerSecond := Int.emod_nonneg _ (by decide)
  have hhigh : since % nanosPerSecond < nanosPerSecond := Int.emod_lt_of_pos _ (by decide)
  refine ⟨since / nanosPerSecond, (since % nanosPerSecond).toNat, ?_, ?_⟩
  · rw [← Int.ofNat_lt, Int.toNat_of_nonneg hlow]
    exact hhigh
  · rw [Int.toNat_of_nonneg hlow, Int.ediv_mul_add_emod]

/-- **The parameter is those parts**, whatever sign the division gives them. -/
theorem sinceParameter_eq (seconds : Int) {nanos : Nat} (h : nanos < nanosPerSecond) :
    sinceParameter (seconds * nanosPerSecond + nanos) =
      String.ofList (signed seconds ++ '.' :: padded 9 nanos) := by
  have hdiv : (seconds * nanosPerSecond + nanos) / (nanosPerSecond : Int) = seconds := by
    rw [Int.add_comm, Int.add_mul_ediv_right _ _ (by decide),
      Int.ediv_eq_zero_of_lt (Int.natCast_nonneg nanos) (Int.ofNat_lt.2 h), Int.zero_add]
  have hmod : (seconds * nanosPerSecond + nanos) % (nanosPerSecond : Int) = nanos := by
    rw [Int.add_comm, Int.add_mul_emod_self_right,
      Int.emod_eq_of_lt (Int.natCast_nonneg nanos) (Int.ofNat_lt.2 h)]
  have htdiv := @Int.tdiv_eq_ediv (seconds * nanosPerSecond + nanos) nanosPerSecond
  have htmod := @Int.tmod_eq_emod (seconds * nanosPerSecond + nanos) nanosPerSecond
  rw [hdiv] at htdiv
  rw [hmod] at htmod
  unfold sinceParameter
  split at htmod
  · rename_i hwhole
    rw [if_pos hwhole, Int.add_zero] at htdiv
    rw [Nat.cast_zero, Int.sub_zero] at htmod
    simp only [htdiv, htmod, if_neg (Int.not_lt.2 (Int.natCast_nonneg nanos)), Int.toNat_natCast]
  · rename_i hpart
    rw [if_neg hpart, show Int.sign (nanosPerSecond : Int) = 1 from rfl] at htdiv
    rw [Int.natAbs_natCast] at htmod
    have hneg : (nanos : Int) - nanosPerSecond < 0 := Int.sub_neg_of_lt (Int.ofNat_lt.2 h)
    simp only [htdiv, htmod, if_pos hneg, Int.add_sub_cancel, Int.sub_add_cancel, Int.toNat_natCast]

theorem readSince_parts (seconds : Int) {nanos : Nat} (h : nanos < nanosPerSecond) :
    readSince (String.ofList (signed seconds ++ '.' :: padded 9 nanos)) =
      some (seconds * nanosPerSecond + nanos) := by
  have hdot : '.' ∉ signed seconds := by
    intro hmem
    rcases isDigit_of_mem_signed hmem with hminus | hdigit
    · cases hminus
    · cases hdigit
  have hlength : (padded 9 nanos).length = 9 :=
    length_padded ((Nat.length_toDigits_le_iff (by decide) (by decide)).2 h)
  have hdigits : (padded 9 nanos).all Char.isDigit = true :=
    List.all_eq_true.2 fun _ hchar => isDigit_of_mem_padded hchar
  rw [readSince, String.toList_ofList, splitOnce_of_not_mem hdot]
  simp only [Option.bind_some]
  rw [if_pos ⟨hlength, hdigits⟩, readSigned_signed, ofDigitChars_padded]
  rfl

/-- **A parameter reads back as the time it was made of.** It is whole seconds and nine digits of nanoseconds,
and stands for the time the stream is to start from, before 1970 too; so two times never share one. -/
theorem since_parameter_round_trip (since : Timestamp) :
    (∃ (seconds : Int) (nanos : Nat), nanos < nanosPerSecond ∧
      since = seconds * nanosPerSecond + nanos ∧
      (sinceParameter since).toList = signed seconds ++ '.' :: padded 9 nanos ∧
      (padded 9 nanos).length = 9) ∧
    readSince (sinceParameter since) = some since ∧
    ∀ since', sinceParameter since' = sinceParameter since → since' = since := by
  have hround : ∀ since, readSince (sinceParameter since) = some since := by
    intro since
    obtain ⟨seconds, nanos, hlt, rfl⟩ := exists_parts since
    rw [sinceParameter_eq seconds hlt, readSince_parts seconds hlt]
  refine ⟨?_, hround since, fun since' hsame => ?_⟩
  · obtain ⟨seconds, nanos, hlt, rfl⟩ := exists_parts since
    refine ⟨seconds, nanos, hlt, rfl, ?_, ?_⟩
    · rw [sinceParameter_eq seconds hlt, String.toList_ofList]
    · exact length_padded ((Nat.length_toDigits_le_iff (by decide) (by decide)).2 hlt)
  · have hread := hround since'
    rw [hsame, hround since, Option.some.injEq] at hread
    exact hread.symm

end SwarmExporter.Docker
