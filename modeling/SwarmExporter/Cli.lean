import SwarmExporter.Basic
import SwarmExporter.Runes

/-!
# The command line

Only `--name` is a flag. `refuseSingleDash` looks at the arguments before the parser does, and refuses
every single-dash argument of more than one character, unless it is the value of the flag before it or
stands after `--`. Which arguments are values depends on the ones before them, so the scan carries a
flag along. `Scanned` says of which arguments it is through without one, and
`refuse_single_dash_exact` what it lets through and what it refuses with which text.

An argument is any byte string; it is compared as text, with U+FFFD for what is not UTF-8.
-/

namespace SwarmExporter

namespace Cli

/-- The flags that take a separate value. -/
def valueFlags : List String := ["listen-addr", "poll-delay", "log-format", "log-level", "label"]

/-- The flags that take no separate value. -/
def boolFlags : List String :=
  ["containers", "containers-include-swarm", "log-time", "healthcheck", "help"]

/-- What a flag is called: its text up to the first `=`. -/
def flagName (rest : List Char) : String := String.ofList (rest.takeWhile (· != '='))

/-- Why a single-dash argument, `rest` after its dash, is refused, if it is. -/
def refusal (rest : List Char) : Option String :=
  let name := flagName rest
  if valueFlags.contains name || boolFlags.contains name then
    some ("single-dash long flags are not supported: '-" ++ name ++ "'; use '--" ++ name ++ "'")
  else if 1 < rest.length then some ("flag provided but not defined: '-" ++ name ++ "'")
  else none

/-- The loop of `refuse_single_dash`; `skipValue` is whether the next argument is a value. -/
def refuseFrom (skipValue : Bool) : List (List UInt8) → Except String Unit
  | [] => .ok ()
  | argument :: rest =>
    if skipValue then refuseFrom false rest
    else
      match lossyChars argument with
      | ['-', '-'] => .ok ()
      | '-' :: '-' :: name =>
        refuseFrom (!name.contains '=' && valueFlags.contains (String.ofList name)) rest
      | '-' :: name =>
        match refusal name with
        | some message => .error message
        | none => refuseFrom false rest
      | _ => refuseFrom false rest

/-- The single-dash pre-scan; the first argument is the program's name. -/
def refuseSingleDash (arguments : List (List UInt8)) : Except String Unit :=
  refuseFrom false (arguments.drop 1)

/-- The shortest poll delay. -/
def minPollDelay : Duration := Duration.fromSecs 1

/-- The poll-delay check, run after `--healthcheck` has had its turn. -/
def checkPollDelay (pollDelay : Duration) : Except String Unit :=
  if pollDelay < minPollDelay then .error "poll-delay must be >= 1s" else .ok ()

theorem le_of_checkPollDelay {pollDelay : Duration} (h : checkPollDelay pollDelay = .ok ()) :
    minPollDelay ≤ pollDelay := by
  unfold checkPollDelay at h
  split at h
  · cases h
  · rename_i hlt
    exact Nat.le_of_not_lt hlt

/-! ## What the scan lets through -/

/-- `argument` takes the next one as its value. -/
def TakesValue (argument : List Char) : Prop :=
  ∃ flag ∈ valueFlags, argument = '-' :: '-' :: flag.toList

/-- `argument` is refused with `message`: one dash, and a flag's name before the `=` if there is one, or
more than one character after the dash. -/
inductive Refused (argument : List Char) : String → Prop
  | known {rest : List Char} (hargument : argument = '-' :: rest) (hsingle : rest.head? ≠ some '-')
      (hflag : flagName rest ∈ valueFlags ++ boolFlags) :
      Refused argument ("single-dash long flags are not supported: '-" ++ flagName rest ++
        "'; use '--" ++ flagName rest ++ "'")
  | unknown {rest : List Char} (hargument : argument = '-' :: rest) (hsingle : rest.head? ≠ some '-')
      (hflag : flagName rest ∉ valueFlags ++ boolFlags) (hlong : 1 < rest.length) :
      Refused argument ("flag provided but not defined: '-" ++ flagName rest ++ "'")

/-- The scan comes through these arguments, and the next one is no value: each is the value of the one
before it, or it is neither `--` nor refused. -/
inductive Scanned : List (List Char) → Prop
  | nil : Scanned []
  | value {flag value : List Char} {rest : List (List Char)} (htakes : TakesValue flag) :
      Scanned rest → Scanned (flag :: value :: rest)
  | plain {argument : List Char} {rest : List (List Char)} (hstop : argument ≠ ['-', '-'])
      (htakes : ¬TakesValue argument) (hrefused : ∀ message, ¬Refused argument message) :
      Scanned rest → Scanned (argument :: rest)

/-- The scan ends here: at the end, at `--`, or at a flag whose value is missing. -/
inductive Ends : List (List Char) → Prop
  | nil : Ends []
  | stop (rest : List (List Char)) : Ends (['-', '-'] :: rest)
  | missing {flag : List Char} (htakes : TakesValue flag) : Ends [flag]

/-- The scan is refused here, at the first argument. -/
inductive Fails (message : String) : List (List Char) → Prop
  | here {argument : List Char} (rest : List (List Char)) (hrefused : Refused argument message) :
      Fails message (argument :: rest)

/-- The scan comes through some arguments, and what is left is as `P` says. -/
def Reaches (P : List (List Char) → Prop) (arguments : List (List Char)) : Prop :=
  ∃ before after, arguments = before ++ after ∧ Scanned before ∧ P after

/-! ## One argument -/

theorem refusal_eq_some_iff {rest : List Char} {message : String} (hsingle : rest.head? ≠ some '-') :
    refusal rest = some message ↔ Refused ('-' :: rest) message := by
  have hflag : (valueFlags.contains (flagName rest) || boolFlags.contains (flagName rest)) = true ↔
      flagName rest ∈ valueFlags ++ boolFlags := by
    rw [Bool.or_eq_true, List.contains_iff_mem, List.contains_iff_mem, List.mem_append]
  unfold refusal
  simp only [hflag]
  constructor
  · intro h
    split at h
    · rename_i hknown
      cases h
      exact .known rfl hsingle hknown
    · rename_i hunknown
      rw [Option.ite_none_right_eq_some, Option.some.injEq] at h
      obtain ⟨hlong, rfl⟩ := h
      exact .unknown rfl hsingle hunknown hlong
  · intro h
    cases h with
    | known hargument _ hknown =>
      obtain rfl := List.tail_eq_of_cons_eq hargument
      rw [if_pos hknown]
    | unknown hargument _ hunknown hlong =>
      obtain rfl := List.tail_eq_of_cons_eq hargument
      rw [if_neg hunknown, if_pos hlong]

/-- The name of a value flag has no `=`. -/
theorem takesValue_iff {name : List Char} : TakesValue ('-' :: '-' :: name) ↔
    (!name.contains '=' && valueFlags.contains (String.ofList name)) = true := by
  have hplain : ∀ flag ∈ valueFlags, '=' ∉ flag.toList := by decide
  rw [Bool.and_eq_true, Bool.not_eq_true', List.contains_iff_mem, ← Bool.not_eq_true,
    List.contains_iff_mem]
  constructor
  · rintro ⟨flag, hflag, heq⟩
    simp only [List.cons.injEq, true_and] at heq
    subst heq
    exact ⟨hplain flag hflag, by rwa [String.ofList_toList]⟩
  · rintro ⟨-, hflag⟩
    exact ⟨_, hflag, by rw [String.toList_ofList]⟩

theorem TakesValue.ne_stop {argument : List Char} (h : TakesValue argument) :
    argument ≠ ['-', '-'] := by
  obtain ⟨flag, hflag, rfl⟩ := h
  have hname : ∀ flag ∈ valueFlags, flag.toList ≠ [] := by decide
  simpa using hname flag hflag

theorem Refused.not_double {name : List Char} {message : String} :
    ¬Refused ('-' :: '-' :: name) message := by
  intro h
  cases h with
  | known hargument hsingle =>
    obtain rfl := List.tail_eq_of_cons_eq hargument
    exact hsingle rfl
  | unknown hargument hsingle =>
    obtain rfl := List.tail_eq_of_cons_eq hargument
    exact hsingle rfl

theorem Refused.unique {argument : List Char} {message message' : String}
    (h : Refused argument message) (h' : Refused argument message') : message = message' := by
  obtain ⟨rest, rfl, hsingle⟩ : ∃ rest, argument = '-' :: rest ∧ rest.head? ≠ some '-' := by
    cases h with
    | known hargument hsingle => exact ⟨_, hargument, hsingle⟩
    | unknown hargument hsingle => exact ⟨_, hargument, hsingle⟩
  rw [← refusal_eq_some_iff hsingle] at h h'
  exact Option.some.inj (h.symm.trans h')

/-- **What the scan does with an argument that is no value.** -/
theorem refuseFrom_cons (argument : List UInt8) (rest : List (List UInt8)) :
    lossyChars argument = ['-', '-'] ∧ refuseFrom false (argument :: rest) = .ok () ∨
    TakesValue (lossyChars argument) ∧
      refuseFrom false (argument :: rest) = refuseFrom true rest ∨
    (∃ message, Refused (lossyChars argument) message ∧
      refuseFrom false (argument :: rest) = .error message) ∨
    (lossyChars argument ≠ ['-', '-'] ∧ ¬TakesValue (lossyChars argument) ∧
      (∀ message, ¬Refused (lossyChars argument) message) ∧
      refuseFrom false (argument :: rest) = refuseFrom false rest) := by
  rw [refuseFrom, if_neg Bool.false_ne_true]
  split
  · rename_i heq
    exact .inl ⟨heq, rfl⟩
  · rename_i name hstop heq
    rw [heq]
    by_cases htakes : TakesValue ('-' :: '-' :: name)
    · exact .inr (.inl ⟨htakes, by rw [takesValue_iff.1 htakes]⟩)
    · refine .inr (.inr (.inr ⟨?_, htakes, fun message => Refused.not_double, ?_⟩))
      · intro hname
        exact hstop (by simpa using hname)
      · rw [takesValue_iff, Bool.not_eq_true] at htakes
        rw [htakes]
  · rename_i name hstop hdouble heq
    have hsingle : name.head? ≠ some '-' := by
      intro hhead
      obtain ⟨tail, rfl⟩ := List.head?_eq_some_iff.1 hhead
      exact hdouble tail rfl
    rw [heq]
    cases hrefusal : refusal name with
    | some message => exact .inr (.inr (.inl ⟨message, (refusal_eq_some_iff hsingle).1 hrefusal, rfl⟩))
    | none =>
      refine .inr (.inr (.inr ⟨?_, ?_, fun message hrefused => ?_, rfl⟩))
      · rintro hname
        cases hname
        exact hsingle rfl
      · rintro ⟨flag, -, hname⟩
        cases hname
        exact hsingle rfl
      · rw [← refusal_eq_some_iff hsingle, hrefusal] at hrefused
        cases hrefused
  · rename_i hstop hdouble hdash
    refine .inr (.inr (.inr ⟨hstop, ?_, fun message hrefused => ?_, rfl⟩))
    · rintro ⟨flag, -, hname⟩
      exact hdash _ hname
    · cases hrefused with
      | known hargument => exact hdash _ hargument
      | unknown hargument => exact hdash _ hargument

/-! ## All of them -/

section Reaches

variable {P : List (List Char) → Prop} {argument flag value : List Char} {rest : List (List Char)}

theorem Reaches.here (h : P rest) : Reaches P rest := ⟨[], rest, rfl, .nil, h⟩

/-- A flag and its value are passed over. -/
theorem reaches_value_iff (htakes : TakesValue flag) (hnot : ¬P (flag :: value :: rest)) :
    Reaches P (flag :: value :: rest) ↔ Reaches P rest := by
  constructor
  · rintro ⟨before, after, heq, hscanned, hP⟩
    cases hscanned with
    | nil => exact absurd (heq ▸ hP) hnot
    | value _ hscanned =>
      cases heq
      exact ⟨_, after, rfl, hscanned, hP⟩
    | plain _ hplain =>
      obtain rfl := List.head_eq_of_cons_eq heq
      exact absurd htakes hplain
  · rintro ⟨before, after, rfl, hscanned, hP⟩
    exact ⟨_, after, rfl, .value htakes hscanned, hP⟩

/-- So is an argument that is neither. -/
theorem reaches_plain_iff (hstop : argument ≠ ['-', '-']) (htakes : ¬TakesValue argument)
    (hrefused : ∀ message, ¬Refused argument message) (hnot : ¬P (argument :: rest)) :
    Reaches P (argument :: rest) ↔ Reaches P rest := by
  constructor
  · rintro ⟨before, after, heq, hscanned, hP⟩
    cases hscanned with
    | nil => exact absurd (heq ▸ hP) hnot
    | value hflag =>
      obtain rfl := List.head_eq_of_cons_eq heq
      exact absurd hflag htakes
    | plain _ _ _ hscanned =>
      cases heq
      exact ⟨_, after, rfl, hscanned, hP⟩
  · rintro ⟨before, after, rfl, hscanned, hP⟩
    exact ⟨_, after, rfl, .plain hstop htakes hrefused hscanned, hP⟩

/-- The scan does not come past `--` or a refused argument, nor past a flag that is the last. -/
theorem reaches_stuck_iff (hstuck : argument = ['-', '-'] ∨ (∃ message, Refused argument message) ∨
      TakesValue argument ∧ rest = []) : Reaches P (argument :: rest) ↔ P (argument :: rest) := by
  refine ⟨?_, .here⟩
  rintro ⟨before, after, heq, hscanned, hP⟩
  cases hscanned with
  | nil => exact heq ▸ hP
  | value hflag =>
    obtain rfl := List.head_eq_of_cons_eq heq
    rcases hstuck with hstop | ⟨message, hrefused⟩ | ⟨-, rfl⟩
    · exact absurd hstop hflag.ne_stop
    · obtain ⟨name, -, rfl⟩ := hflag
      exact absurd hrefused Refused.not_double
    · cases heq
  | plain hstop htakes hrefused =>
    obtain rfl := List.head_eq_of_cons_eq heq
    rcases hstuck with h | ⟨message, h⟩ | ⟨h, -⟩
    · exact absurd h hstop
    · exact absurd h (hrefused message)
    · exact absurd h htakes

end Reaches

theorem not_ends_of_refused {argument : List Char} {rest : List (List Char)} {message : String}
    (h : Refused argument message) : ¬Ends (argument :: rest) := by
  intro hends
  cases hends with
  | stop => exact Refused.not_double h
  | missing htakes =>
    obtain ⟨flag, -, rfl⟩ := htakes
    exact Refused.not_double h

theorem not_ends_of_plain {argument : List Char} {rest : List (List Char)}
    (hstop : argument ≠ ['-', '-']) (htakes : ¬TakesValue argument) : ¬Ends (argument :: rest) := by
  intro hends
  cases hends with
  | stop => exact hstop rfl
  | missing h => exact htakes h

/-- The loop from `skipValue` on decides `texts`: it ends well where the scan reaches an end, and is refused
where it reaches a refusal. -/
def Decides (skipValue : Bool) (arguments : List (List UInt8)) (texts : List (List Char)) : Prop :=
  (refuseFrom skipValue arguments = .ok () ↔ Reaches Ends texts) ∧
    ∀ message, refuseFrom skipValue arguments = .error message ↔ Reaches (Fails message) texts

/-- A scan that goes on as another decides the same. -/
theorem Decides.of_eq {skipValue skipValue' : Bool} {arguments arguments' : List (List UInt8)}
    {texts texts' : List (List Char)} (h : Decides skipValue arguments texts)
    (hscan : refuseFrom skipValue' arguments' = refuseFrom skipValue arguments)
    (hends : Reaches Ends texts' ↔ Reaches Ends texts)
    (hfails : ∀ message, Reaches (Fails message) texts' ↔ Reaches (Fails message) texts) :
    Decides skipValue' arguments' texts' := by
  refine ⟨?_, fun message => ?_⟩
  · rw [hscan, hends, h.1]
  · rw [hscan, hfails, h.2]

/-- The loop after a flag that takes a value decides the arguments with the flag before them. -/
theorem decides (arguments : List (List UInt8)) :
    Decides false arguments (arguments.map lossyChars) ∧
      ∀ flag, TakesValue flag → Decides true arguments (flag :: arguments.map lossyChars) := by
  have hflag : ∀ {flag : List Char} {rest : List (List Char)} {message : String}, TakesValue flag →
      ¬Fails message (flag :: rest) := by
    rintro flag rest message ⟨name, -, rfl⟩ ⟨-, hrefused⟩
    exact Refused.not_double hrefused
  induction arguments with
  | nil =>
    refine ⟨⟨iff_of_true rfl (.here .nil), fun message => iff_of_false (by simp [refuseFrom]) ?_⟩,
      fun flag htakes => ⟨iff_of_true rfl (.here (.missing htakes)), fun message => ?_⟩⟩
    · rintro ⟨before, after, heq, -, hfails⟩
      obtain ⟨rfl, rfl⟩ := List.nil_eq_append_iff.1 heq
      cases hfails
    · rw [List.map_nil, reaches_stuck_iff (.inr (.inr ⟨htakes, rfl⟩))]
      exact iff_of_false (by simp [refuseFrom]) (hflag htakes)
  | cons argument rest ih =>
    obtain ⟨hfalse, htrue⟩ := ih
    constructor
    · rw [List.map_cons]
      rcases refuseFrom_cons argument rest with ⟨hstop, hscan⟩ | ⟨htakes, hscan⟩ |
        ⟨message, hrefused, hscan⟩ | ⟨hstop, htakes, hrefused, hscan⟩
      · rw [hstop]
        refine ⟨iff_of_true hscan (.here (.stop _)), fun message => ?_⟩
        rw [reaches_stuck_iff (.inl rfl), hscan]
        refine iff_of_false (by simp) ?_
        rintro ⟨-, hrefused⟩
        exact Refused.not_double hrefused
      · exact (htrue _ htakes).of_eq hscan Iff.rfl fun _ => Iff.rfl
      · constructor
        · rw [reaches_stuck_iff (.inr (.inl ⟨message, hrefused⟩)), hscan]
          exact iff_of_false (by simp) (not_ends_of_refused hrefused)
        · intro other
          rw [reaches_stuck_iff (.inr (.inl ⟨message, hrefused⟩)), hscan, Except.error.injEq]
          constructor
          · rintro rfl
            exact .here _ hrefused
          · rintro ⟨-, hother⟩
            exact hrefused.unique hother
      · refine hfalse.of_eq hscan (reaches_plain_iff hstop htakes hrefused ?_) fun message =>
          reaches_plain_iff hstop htakes hrefused ?_
        · exact not_ends_of_plain hstop htakes
        · rintro ⟨-, h⟩
          exact hrefused message h
    · intro flag htakes
      refine hfalse.of_eq rfl (reaches_value_iff htakes ?_) fun message =>
        reaches_value_iff htakes (hflag htakes)
      intro hends
      cases hends with
      | stop => exact htakes.ne_stop rfl

/-- **The pre-scan.** The arguments pass if and only if they are flags with their values and arguments
that are not refused, up to the end, to `--` or to a flag whose value is missing; they are refused with
a text if and only if it is that of the first argument which is no value, has one dash and either names a
flag or has more than one character after the dash. Whatever follows a flag that takes a value, or `--`,
is never refused. -/
theorem refuse_single_dash_exact (program : List UInt8) (arguments : List (List UInt8)) :
    (refuseSingleDash (program :: arguments) = .ok () ↔
      ∃ before after, arguments.map lossyChars = before ++ after ∧ Scanned before ∧ Ends after) ∧
    ∀ message, refuseSingleDash (program :: arguments) = .error message ↔
      ∃ before argument after, arguments.map lossyChars = before ++ argument :: after ∧
        Scanned before ∧ Refused argument message := by
  obtain ⟨hok, herror⟩ := (decides arguments).1
  refine ⟨hok, fun message => (herror message).trans ?_⟩
  constructor
  · rintro ⟨before, after, heq, hscanned, ⟨rest, hrefused⟩⟩
    exact ⟨before, _, rest, heq, hscanned, hrefused⟩
  · rintro ⟨before, argument, after, heq, hscanned, hrefused⟩
    exact ⟨before, _, heq, hscanned, .here after hrefused⟩

end Cli

end SwarmExporter
