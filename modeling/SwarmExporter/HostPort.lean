import Mathlib.Data.List.Basic
import SwarmExporter.Lib.Text

/-!
# Listen addresses: splitting and joining

Go's `net.SplitHostPort` and `net.JoinHostPort`, with Go's error texts. The address is searched and cut
at byte offsets: the last `:`, the first `]`, and two scans for stray brackets that start at different
places. A cut inside a character or an index past the end is a panic, the `none` of `Split`; there is
none (`splitHostPort_cases`).
-/

namespace SwarmExporter

open Lib

/-- Go's `net.AddrError`. -/
structure AddrError where
  why : String
  address : String
  deriving DecidableEq, Repr

/-- `address <addr>: <why>`, or `<why>` alone for an empty address. -/
def AddrError.display (error : AddrError) : String :=
  if error.address.isEmpty then error.why else "address " ++ error.address ++ ": " ++ error.why

def missingPort : String := "missing port in address"
def tooManyColons : String := "too many colons in address"

/-- A computation on an address: none is a panic, an error is returned. -/
abbrev Split := ExceptT AddrError Option

/-- The host of an address with its last `:` at `lastColon`, and the offsets from which a `[` and a `]`
are unexpected. -/
def splitHost (hostPort : String) (lastColon : Nat) : Split (List Char × Nat × Nat) :=
  let text := hostPort.toList
  let error (why : String) : Split (List Char × Nat × Nat) := throw ⟨why, hostPort⟩
  if text.head? = some '[' then
    -- Expect the first `]` just before the last `:`.
    match find ']' text with
    | none => error "missing ']' in address"
    | some stop =>
      let after := stop + 1
      if after = byteLen text then
        -- There can't be a `:` behind the `]` now.
        error missingPort
      else if after ≠ lastColon then do
        let byte ← ((textBytes text)[after]? : Option UInt8)
        error (if byte = ':'.toUInt8 then tooManyColons else missingPort)
      else do
        let host ← slice text 1 stop
        return (host, 1, after)
  else do
    let host ← sliceTo text lastColon
    if ':' ∈ host then error tooManyColons else return (host, 0, 0)

/-- `host:port`, `[host]:port` or `[host%zone]:port` into the host and the port, with the brackets
dropped. -/
def splitHostPort (hostPort : String) : Split (String × String) :=
  let text := hostPort.toList
  let error (why : String) : Split (String × String) := throw ⟨why, hostPort⟩
  -- The port starts after the last colon.
  match rfind ':' text with
  | none => error missingPort
  | some lastColon => do
    let (host, openFrom, closeFrom) ← splitHost hostPort lastColon
    let opened ← sliceFrom text openFrom
    if '[' ∈ opened then error "unexpected '[' in address"
    else do
      let closed ← sliceFrom text closeFrom
      if ']' ∈ closed then error "unexpected ']' in address"
      else do
        let port ← sliceFrom text (lastColon + 1)
        return (String.ofList host, String.ofList port)

/-- A host with a colon (IPv6) goes in brackets. -/
def joinHostPort (host port : String) : String :=
  if ':' ∈ host.toList then "[" ++ host ++ "]:" ++ port else host ++ ":" ++ port

/-! ## The grammar -/

/-- `text` has none of `chars`. -/
def Free (chars : List Char) (text : String) : Prop := ∀ char ∈ chars, char ∉ text.toList

instance (chars : List Char) (text : String) : Decidable (Free chars text) :=
  decidable_of_iff ((chars.all fun char => !text.toList.contains char) = true) <| by
    simp only [List.all_eq_true, Bool.not_eq_true', List.contains_eq_mem, decide_eq_false_iff_not, Free]

/-- `address` is `host` and `port` with a `:` between them, or with `[`, `]:` around the host; neither
has a bracket, the port no `:`, and the host none without brackets. -/
def IsHostPort (address host port : String) : Prop :=
  Free [':', '[', ']'] port ∧
    (address = host ++ ":" ++ port ∧ Free [':', '[', ']'] host ∨
      address = "[" ++ host ++ "]:" ++ port ∧ Free ['[', ']'] host)

namespace Split

variable {α β : Type}

theorem bind_some (value : α) (f : α → Split β) :
    ((liftM (some value : Option α) : Split α) >>= f) = f value := rfl

theorem bind_ok {step : Split α} {value : α} (h : step = some (.ok value)) (f : α → Split β) :
    step >>= f = f value := by
  rw [h]
  rfl

theorem bind_error {step : Split α} {error : AddrError} (h : step = some (.error error))
    (f : α → Split β) : step >>= f = some (.error error) := by
  rw [h]
  rfl

end Split

section Scans

variable {address : String} {host port : List Char}

/-- The scans for stray brackets and the cut of the port, once the host is known. -/
theorem splitHostPort_of_host {left : List Char} {openFrom closeFrom : Nat} {opened closed : List Char}
    (haddress : address.toList = left ++ ':' :: port) (hport : ':' ∉ port)
    (hhost : splitHost address (byteLen left) = some (.ok (host, openFrom, closeFrom)))
    (hopened : sliceFrom address.toList openFrom = some opened)
    (hclosed : sliceFrom address.toList closeFrom = some closed) :
    splitHostPort address =
      if '[' ∈ opened then some (.error ⟨"unexpected '[' in address", address⟩)
      else if ']' ∈ closed then some (.error ⟨"unexpected ']' in address", address⟩)
      else some (.ok (String.ofList host, String.ofList port)) := by
  have hlast : rfind ':' address.toList = some (byteLen left) := by
    rw [haddress, rfind_append left hport]
  have hcut : sliceFrom address.toList (byteLen left + 1) = some port := by
    have := sliceFrom_append (left ++ [':']) port
    rwa [List.append_assoc, List.singleton_append, ← haddress, byteLen_append] at this
  unfold splitHostPort
  simp only [hlast]
  rw [Split.bind_ok hhost]
  simp only [hopened, Split.bind_some, hclosed, hcut]
  rfl

/-- An address whose host is refused is refused. -/
theorem splitHostPort_of_host_error {left : List Char} {error : AddrError}
    (haddress : address.toList = left ++ ':' :: port) (hport : ':' ∉ port)
    (hhost : splitHost address (byteLen left) = some (.error error)) :
    splitHostPort address = some (.error error) := by
  have hlast : rfind ':' address.toList = some (byteLen left) := by
    rw [haddress, rfind_append left hport]
  unfold splitHostPort
  simp only [hlast]
  exact Split.bind_error hhost _

/-- The host of an address that does not start with a bracket. -/
theorem splitHost_plain {left : List Char} (haddress : address.toList = left ++ ':' :: port)
    (hbracket : address.toList.head? ≠ some '[') :
    splitHost address (byteLen left) =
      if ':' ∈ left then some (.error ⟨tooManyColons, address⟩) else some (.ok (left, 0, 0)) := by
  have hcut : sliceTo address.toList (byteLen left) = some left := by
    rw [haddress, sliceTo_append]
  unfold splitHost
  simp only [if_neg hbracket, hcut, Split.bind_some]
  rfl

/-- The host of an address that starts with a bracket: what stands between it and the first `]`, when a
`:` follows, and it is the last. -/
theorem splitHost_bracketed {rest : List Char} (hclose : ']' ∉ host)
    (haddress : address.toList = '[' :: host ++ ']' :: rest) (lastColon : Nat) :
    splitHost address lastColon =
      if rest = [] then some (.error ⟨missingPort, address⟩)
      else if byteLen ('[' :: host) + 1 = lastColon then
        some (.ok (host, 1, byteLen ('[' :: host) + 1))
      else some (.error ⟨if rest.head? = some ':' then tooManyColons else missingPort, address⟩) := by
  have hbracket : address.toList.head? = some '[' := by
    rw [haddress]
    rfl
  have hfind : find ']' address.toList = some (byteLen ('[' :: host)) := by
    rw [haddress]
    exact find_append (by simpa using hclose) rest
  have hlen : byteLen address.toList = byteLen ('[' :: host) + 1 + byteLen rest := by
    rw [haddress, byteLen_append, byteLen_cons ']', show Char.utf8Size ']' = 1 from rfl, Nat.add_assoc]
  have hslice : slice address.toList 1 (byteLen ('[' :: host)) = some host := by
    have := slice_append ['['] host (']' :: rest)
    rwa [List.singleton_append, ← haddress] at this
  have hbytes : ∀ first tail, rest = first :: tail →
      (textBytes address.toList)[byteLen ('[' :: host) + 1]? = (String.utf8EncodeChar first).head? := by
    rintro first tail rfl
    have := getElem?_textBytes_append ('[' :: host ++ [']']) first tail
    rwa [List.append_assoc, List.singleton_append, ← haddress, byteLen_append] at this
  unfold splitHost
  simp only [if_pos hbracket, hfind]
  generalize byteLen ('[' :: host) = stop at hlen hslice hbytes
  cases rest with
  | nil =>
    rw [byteLen_nil, Nat.add_zero] at hlen
    rw [if_pos hlen.symm, if_pos rfl]
    rfl
  | cons first rest =>
    have hpos := first.utf8Size_pos
    have hmore : stop + 1 ≠ byteLen address.toList := by
      rw [hlen, byteLen_cons]
      omega
    rw [if_neg hmore, if_neg (List.cons_ne_nil first rest)]
    by_cases hlast : stop + 1 = lastColon
    · rw [if_pos hlast, if_neg (not_not.2 hlast), hslice, Split.bind_some]
      rfl
    · rw [if_neg hlast, if_pos hlast, hbytes first rest rfl]
      obtain ⟨byte, hbyte⟩ : ∃ byte, (String.utf8EncodeChar first).head? = some byte :=
        ⟨_, List.head?_eq_some_head String.utf8EncodeChar_ne_nil⟩
      have hcolon : byte = ':'.toUInt8 ↔ first = ':' := by
        rw [← head?_encoding_eq_iff (by decide), hbyte, Option.some.injEq]
      rw [hbyte, Split.bind_some]
      simp only [hcolon, List.head?_cons, Option.some.injEq]
      rfl

end Scans

/-! ## Every address -/

section Address

variable {address host port : String}

theorem toList_plain (h : address = host ++ ":" ++ port) :
    address.toList = host.toList ++ ':' :: port.toList := by
  rw [h]
  simp

theorem toList_bracketed (h : address = "[" ++ host ++ "]:" ++ port) :
    address.toList = '[' :: host.toList ++ ']' :: ':' :: port.toList := by
  rw [h]
  simp

/-- What the grammar accepts is split as it says. -/
theorem splitHostPort_of_isHostPort (h : IsHostPort address host port) :
    splitHostPort address = some (.ok (host, port)) := by
  obtain ⟨hport, ⟨haddress, hhost⟩ | ⟨haddress, hhost⟩⟩ := h
  · have htext := toList_plain haddress
    have hcolon := hport ':' (by simp)
    have hfree : ∀ char ∈ ['[', ']'], char ∉ address.toList := by
      intro char hchar
      rw [htext, List.mem_append, List.mem_cons]
      rintro (hmem | rfl | hmem)
      · exact hhost char (List.mem_cons_of_mem _ hchar) hmem
      · simp at hchar
      · exact hport char (List.mem_cons_of_mem _ hchar) hmem
    have hbracket : address.toList.head? ≠ some '[' :=
      fun hhead => hfree '[' (by simp) (List.mem_of_head? hhead)
    have hsplit := splitHost_plain htext hbracket
    rw [if_neg (hhost ':' (by simp))] at hsplit
    have hall := sliceFrom_zero address.toList
    rw [splitHostPort_of_host htext hcolon hsplit hall hall, if_neg (hfree '[' (by simp)),
      if_neg (hfree ']' (by simp)), String.ofList_toList, String.ofList_toList]
  · have htext := toList_bracketed haddress
    have hcolon := hport ':' (by simp)
    have htext' : address.toList = ('[' :: host.toList ++ [']']) ++ ':' :: port.toList := by
      rw [htext, List.append_assoc, List.singleton_append]
    have hlen : byteLen ('[' :: host.toList ++ [']']) = byteLen ('[' :: host.toList) + 1 :=
      byteLen_append ..
    have hsplit := splitHost_bracketed (hhost ']' (by simp)) htext (byteLen ('[' :: host.toList ++ [']']))
    rw [if_neg (by simp), if_pos hlen.symm, ← hlen] at hsplit
    have hopened : sliceFrom address.toList 1 = some (host.toList ++ ']' :: ':' :: port.toList) := by
      rw [htext]
      exact sliceFrom_append ['['] _
    have hclosed : sliceFrom address.toList (byteLen ('[' :: host.toList ++ [']'])) =
        some (':' :: port.toList) := by
      rw [htext']
      exact sliceFrom_append _ _
    have hopen : '[' ∉ host.toList ++ ']' :: ':' :: port.toList := by
      simp [hhost '[' (by simp), hport '[' (by simp)]
    have hclose : ']' ∉ ':' :: port.toList := by simp [hport ']' (by simp)]
    rw [splitHostPort_of_host htext' hcolon hsplit hopened hclosed, if_neg hopen, if_neg hclose,
      String.ofList_toList, String.ofList_toList]

/-- An address that does not start with a bracket. -/
theorem splitHostPort_plain_cases {left port : List Char} (htext : address.toList = left ++ ':' :: port)
    (hport : ':' ∉ port) (hbracket : address.toList.head? ≠ some '[') :
    (∃ host port, IsHostPort address host port) ∨
      ∃ why, splitHostPort address = some (.error ⟨why, address⟩) := by
  have hsplit := splitHost_plain htext hbracket
  by_cases hcolon : ':' ∈ left
  · rw [if_pos hcolon] at hsplit
    exact .inr ⟨_, splitHostPort_of_host_error htext hport hsplit⟩
  rw [if_neg hcolon] at hsplit
  have hall := sliceFrom_zero address.toList
  have hscans := splitHostPort_of_host htext hport hsplit hall hall
  by_cases hopen : '[' ∈ address.toList
  · rw [if_pos hopen] at hscans
    exact .inr ⟨_, hscans⟩
  by_cases hclose : ']' ∈ address.toList
  · rw [if_neg hopen, if_pos hclose] at hscans
    exact .inr ⟨_, hscans⟩
  rw [htext] at hopen hclose
  simp only [List.mem_append, List.mem_cons, not_or] at hopen hclose
  refine .inl ⟨String.ofList left, String.ofList port, ?_, .inl ⟨?_, ?_⟩⟩
  · simp [Free, hport, hopen, hclose]
  · rw [← String.toList_inj, htext]
    simp
  · simp [Free, hcolon, hopen, hclose]

/-- An address that starts with a bracket. -/
theorem splitHostPort_bracketed_cases {left port : List Char}
    (htext : address.toList = left ++ ':' :: port) (hport : ':' ∉ port)
    (hbracket : address.toList.head? = some '[') :
    (∃ host port, IsHostPort address host port) ∨
      ∃ why, splitHostPort address = some (.error ⟨why, address⟩) := by
  by_cases hmem : ']' ∈ address.toList
  · obtain ⟨before, rest, hsplit, hclose⟩ := List.eq_append_cons_of_mem hmem
    obtain ⟨host, rfl⟩ : ∃ host, before = '[' :: host := by
      cases before with
      | nil =>
        rw [hsplit] at hbracket
        simp at hbracket
      | cons first host =>
        rw [hsplit] at hbracket
        simp only [List.cons_append, List.head?_cons, Option.some.injEq] at hbracket
        exact ⟨host, by rw [hbracket]⟩
    rw [List.mem_cons, not_or] at hclose
    have hhost := splitHost_bracketed hclose.2 hsplit (byteLen left)
    by_cases hrest : rest = []
    · rw [if_pos hrest] at hhost
      exact .inr ⟨_, splitHostPort_of_host_error htext hport hhost⟩
    by_cases hlast : byteLen ('[' :: host) + 1 = byteLen left
    · -- The first `]` is just before the last `:`.
      have hsplit' : address.toList = ('[' :: host ++ [']']) ++ rest := by
        rw [hsplit, List.append_assoc, List.singleton_append]
      have hlen : byteLen ('[' :: host ++ [']']) = byteLen ('[' :: host) + 1 :=
        byteLen_append ('[' :: host) [']']
      obtain ⟨rfl, rfl⟩ := append_inj_of_byteLen (htext.symm.trans hsplit')
        (hlast.symm.trans hlen.symm)
      rw [if_neg hrest, if_pos hlast, hlast] at hhost
      have hopened : sliceFrom address.toList 1 = some (host ++ ']' :: ':' :: port) := by
        rw [hsplit]
        exact sliceFrom_append ['['] _
      have hclosed : sliceFrom address.toList (byteLen ('[' :: host ++ [']'])) = some (':' :: port) := by
        rw [htext]
        exact sliceFrom_append _ _
      have hscans := splitHostPort_of_host htext hport hhost hopened hclosed
      by_cases hopen : '[' ∈ host ++ ']' :: ':' :: port
      · rw [if_pos hopen] at hscans
        exact .inr ⟨_, hscans⟩
      by_cases hcloses : ']' ∈ ':' :: port
      · rw [if_neg hopen, if_pos hcloses] at hscans
        exact .inr ⟨_, hscans⟩
      simp only [List.mem_append, List.mem_cons, not_or] at hopen hcloses
      refine .inl ⟨String.ofList host, String.ofList port, ?_, .inr ⟨?_, ?_⟩⟩
      · simp [Free, hport, hopen, hcloses]
      · rw [← String.toList_inj, hsplit]
        simp
      · simp [Free, hopen, hclose.2]
    · rw [if_neg hrest, if_neg hlast] at hhost
      exact .inr ⟨_, splitHostPort_of_host_error htext hport hhost⟩
  · have hhost : splitHost address (byteLen left) = some (.error ⟨"missing ']' in address", address⟩) := by
      unfold splitHost
      simp only [if_pos hbracket, find_eq_none_iff.2 hmem]
      rfl
    exact .inr ⟨_, splitHostPort_of_host_error htext hport hhost⟩

/-- **Every address is split by the grammar or refused**: nothing panics. -/
theorem splitHostPort_cases (address : String) :
    (∃ host port, IsHostPort address host port) ∨
      ∃ why, splitHostPort address = some (.error ⟨why, address⟩) := by
  by_cases hmem : ':' ∈ address.toList
  · obtain ⟨left, port, htext, hport⟩ := exists_last_of_mem hmem
    by_cases hbracket : address.toList.head? = some '['
    · exact splitHostPort_bracketed_cases htext hport hbracket
    · exact splitHostPort_plain_cases htext hport hbracket
  · refine .inr ⟨missingPort, ?_⟩
    simp only [splitHostPort, rfind_eq_none_iff.2 hmem]
    rfl

theorem splitHostPort_eq_ok_iff :
    splitHostPort address = some (.ok (host, port)) ↔ IsHostPort address host port := by
  constructor
  · intro h
    rcases splitHostPort_cases address with ⟨host', port', haccepted⟩ | ⟨why, herror⟩
    · rw [splitHostPort_of_isHostPort haccepted] at h
      cases h
      exact haccepted
    · rw [herror] at h
      cases h
  · exact splitHostPort_of_isHostPort

/-- What is joined is an address of the grammar. -/
theorem isHostPort_join (hhost : Free ['[', ']'] host) (hport : Free [':', '[', ']'] port) :
    IsHostPort (joinHostPort host port) host port := by
  unfold joinHostPort
  refine ⟨hport, ?_⟩
  split
  · exact .inr ⟨rfl, hhost⟩
  · rename_i hcolon
    refine .inl ⟨rfl, ?_⟩
    rw [Free, List.forall_mem_cons]
    exact ⟨hcolon, hhost⟩

end Address

/-- **Splitting an address.** It succeeds with a host and a port exactly on the addresses of the grammar,
and on every other one it returns an error: no address makes it index or cut out of range or inside a
character. It inverts joining, of every host and port that can be joined, so of those it returns. -/
theorem split_host_port_grammar :
    (∀ address host port : String,
      splitHostPort address = some (.ok (host, port)) ↔ IsHostPort address host port) ∧
    (∀ address : String, splitHostPort address ≠ none) ∧
    (∀ host port : String, Free ['[', ']'] host → Free [':', '[', ']'] port →
      splitHostPort (joinHostPort host port) = some (.ok (host, port))) ∧
    ∀ address host port : String, splitHostPort address = some (.ok (host, port)) →
      splitHostPort (joinHostPort host port) = some (.ok (host, port)) := by
  have hjoin : ∀ host port : String, Free ['[', ']'] host → Free [':', '[', ']'] port →
      splitHostPort (joinHostPort host port) = some (.ok (host, port)) :=
    fun host port hhost hport => splitHostPort_of_isHostPort (isHostPort_join hhost hport)
  refine ⟨fun _ _ _ => splitHostPort_eq_ok_iff, fun address => ?_, hjoin, fun address host port h => ?_⟩
  · rcases splitHostPort_cases address with ⟨host, port, haccepted⟩ | ⟨why, herror⟩
    · rw [splitHostPort_of_isHostPort haccepted]
      simp
    · rw [herror]
      simp
  · obtain ⟨hport, ⟨-, hhost⟩ | ⟨-, hhost⟩⟩ := splitHostPort_eq_ok_iff.1 h
    · exact hjoin host port (fun char hchar => hhost char (List.mem_cons_of_mem _ hchar)) hport
    · exact hjoin host port hhost hport

/-- An IPv6 host and its brackets. -/
theorem split_host_port_grammar_sample :
    splitHostPort (joinHostPort "::1" "80") = some (.ok ("::1", "80")) := by
  refine split_host_port_grammar.2.2.1 "::1" "80" ?_ ?_
  · decide +kernel
  · decide +kernel

end SwarmExporter
