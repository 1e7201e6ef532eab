import SwarmExporter.Collector.Desired
import SwarmExporter.HostPort
import SwarmExporter.Lib.Decimal
import SwarmExporter.Lib.Sorting

/-!
# The listen address

`bind` splits the address, reads the port, and tries its candidates in order: for a wildcard `[::]`, then
`0.0.0.0`; for any other host the address it names, an IPv4 one when there is one. A candidate that fails
is followed by the next one only where the host has no IPv6, so an address in use on `[::]` never binds
`0.0.0.0` quietly. `bind_exact` says which listener is returned and when.

The name lookup and the system calls of `listen_on` are the `Network`.
-/

namespace SwarmExporter

open Lib

structure SocketAddr where
  ip : IpAddr
  port : Nat
  deriving DecidableEq, Repr

def SocketAddr.isIpv6 (address : SocketAddr) : Bool :=
  match address.ip with
  | .v4 _ => false
  | .v6 _ => true

def IpAddr.isUnspecified : IpAddr → Bool
  | .v4 addr => addr == 0#32
  | .v6 addr => addr == 0#128

/-- A failed system call, with its number if it has one. -/
structure IoError where
  rawOsError : Option Int
  text : String
  deriving DecidableEq, Repr

/-- The host's name lookup, and the sockets it lets a program listen on. -/
structure Network (Listener : Type) where
  lookupHost : String → Nat → Except IoError (List SocketAddr)
  listenOn : SocketAddr → Except IoError Listener

/-- `EAFNOSUPPORT`. -/
def eafnosupport : Int := 97

/-- The text of a listen address that could not be bound. -/
structure ListenError where
  text : String
  deriving DecidableEq, Repr

/-- `[::]` and `0.0.0.0`. -/
def wildcards (port : Nat) : List SocketAddr := [⟨.v6 0#128, port⟩, ⟨.v4 0#32, port⟩]

/-- The host without its zone is empty or an unspecified address. -/
def isWildcard [HostText] (host : String) : Bool :=
  let unscoped := String.ofList (host.toList.takeWhile (· != '%'))
  unscoped.isEmpty || (HostText.parseIpAddr unscoped).any (·.toCanonical.isUnspecified)

namespace Network

variable {Listener : Type} (network : Network Listener)

/-- The address `host` names, the first IPv4 one when there are both. -/
def resolve (host : String) (port : Nat) : Except IoError (List SocketAddr) :=
  (network.lookupHost host port).map fun found => (sortBy (compareOn SocketAddr.isIpv6) found).take 1

/-- The loop over the candidates; `last` is the error of the one before. -/
def bindFirst (address last : String) : List SocketAddr → Except ListenError Listener
  | [] => .error ⟨last⟩
  | candidate :: rest =>
    match network.listenOn candidate with
    | .ok listener => .ok listener
    | .error error =>
      let last := "listen tcp " ++ address ++ ": " ++ error.text
      -- Only a host without IPv6 goes on.
      if error.rawOsError = some eafnosupport then bindFirst address last rest else .error ⟨last⟩

/-- Binds `host:port`; none is a panic. -/
def bind [HostText] (address : String) : Option (Except ListenError Listener) :=
  match splitHostPort address with
  | none => none
  | some (.error error) => some (.error ⟨"listen tcp: " ++ error.display⟩)
  | some (.ok (host, portText)) =>
    match readUnsigned 65535 portText.toList with
    | none => some (.error ⟨"listen tcp: address " ++ portText ++ ": invalid port"⟩)
    | some port =>
      let candidates := if isWildcard host then .ok (wildcards port) else network.resolve host port
      match candidates with
      | .error error => some (.error ⟨"listen tcp: lookup " ++ host ++ ": " ++ error.text⟩)
      | .ok candidates =>
        some (network.bindFirst address ("listen tcp " ++ address ++ ": no suitable address") candidates)

/-! ## Which listener it is -/

/-- The first IPv4 address of those found, the first of all where there is none. -/
def Preferred (found : List SocketAddr) (candidate : SocketAddr) : Prop :=
  ∃ before after, found = before ++ candidate :: after ∧ (∀ address ∈ before, address.isIpv6 = true) ∧
    (candidate.isIpv6 = true → before = [] ∧ ∀ address ∈ after, address.isIpv6 = true)

/-- The host lets the program listen on `candidate` with `listener`. -/
def Listens (candidate : SocketAddr) (listener : Listener) : Prop :=
  network.listenOn candidate = .ok listener

/-- Listening on `candidate` fails because the host lacks its kind of address. -/
def Lacks (candidate : SocketAddr) : Prop :=
  ∃ text, network.listenOn candidate = .error ⟨some eafnosupport, text⟩

/-- The listener for `host` and `port`. -/
def Binds [HostText] (host : String) (port : Nat) (listener : Listener) : Prop :=
  if isWildcard host then
    network.Listens ⟨.v6 0#128, port⟩ listener ∨
      network.Lacks ⟨.v6 0#128, port⟩ ∧ network.Listens ⟨.v4 0#32, port⟩ listener
  else
    ∃ found candidate, network.lookupHost host port = .ok found ∧ Preferred found candidate ∧
      network.Listens candidate listener

theorem take_sorted_eq_iff {found : List SocketAddr} {candidate : SocketAddr} :
    (sortBy (compareOn SocketAddr.isIpv6) found).take 1 = [candidate] ↔ Preferred found candidate := by
  rw [sortBy_bool]
  constructor
  · intro h
    cases hfirst : found.filter (fun address => !address.isIpv6) with
    | cons address rest =>
      rw [hfirst] at h
      obtain rfl : address = candidate := by simpa using h
      obtain ⟨before, after, rfl, hbefore, hv4, -⟩ := List.filter_eq_cons_iff.1 hfirst
      refine ⟨before, after, rfl, ?_, ?_⟩
      · intro address' hmem
        simpa using hbefore address' hmem
      · intro hv6
        simp [hv6] at hv4
    | nil =>
      have hall : ∀ address ∈ found, address.isIpv6 = true := by
        intro address hmem
        simpa using List.filter_eq_nil_iff.1 hfirst address hmem
      rw [hfirst, List.nil_append, List.filter_eq_self.2 hall] at h
      cases found with
      | nil => cases h
      | cons address rest =>
        obtain rfl : address = candidate := by simpa using h
        rw [List.forall_mem_cons] at hall
        exact ⟨[], rest, rfl, by simp, fun _ => ⟨rfl, hall.2⟩⟩
  · intro ⟨before, after, hfound, hbefore, hv6⟩
    subst hfound
    have hnone : before.filter (fun address => !address.isIpv6) = [] := by
      apply List.filter_eq_nil_iff.2
      intro address hmem
      simp [hbefore address hmem]
    rw [List.filter_append, hnone, List.nil_append]
    cases hkind : candidate.isIpv6 with
    | false =>
      rw [List.filter_cons_of_pos (by simp [hkind])]
      rfl
    | true =>
      obtain ⟨rfl, hafter⟩ := hv6 hkind
      have hrest : after.filter (fun address => !address.isIpv6) = [] := by
        apply List.filter_eq_nil_iff.2
        intro address hmem
        simp [hafter address hmem]
      rw [List.filter_cons_of_neg (by simp [hkind]), hrest, List.nil_append, List.nil_append,
        List.filter_cons_of_pos hkind]
      rfl

/-- The item reached past those that are passed over is the first one, or the first is passed over too. -/
theorem exists_reached_cons {α : Type} {passes reached : α → Prop} {item : α} {items : List α} :
    (∃ before found after, item :: items = before ++ found :: after ∧
      (∀ passed ∈ before, passes passed) ∧ reached found) ↔
      reached item ∨ passes item ∧ ∃ before found after, items = before ++ found :: after ∧
        (∀ passed ∈ before, passes passed) ∧ reached found := by
  constructor
  · intro ⟨before, found, after, heq, hpasses, hreached⟩
    cases before with
    | nil =>
      obtain ⟨rfl, -⟩ := List.cons_eq_cons.1 heq
      exact .inl hreached
    | cons passed before =>
      obtain ⟨rfl, hrest⟩ := List.cons_eq_cons.1 heq
      rw [List.forall_mem_cons] at hpasses
      exact .inr ⟨hpasses.1, before, found, after, hrest, hpasses.2, hreached⟩
  · intro h
    rcases h with hreached | ⟨hitem, before, found, after, heq, hpasses, hreached⟩
    · exact ⟨[], item, items, rfl, by simp, hreached⟩
    · refine ⟨item :: before, found, after, by rw [heq]; rfl, ?_, hreached⟩
      rw [List.forall_mem_cons]
      exact ⟨hitem, hpasses⟩

/-- A candidate is tried when every one before it lacks support. -/
theorem bindFirst_eq_ok_iff {address last : String} {candidates : List SocketAddr}
    {listener : Listener} :
    network.bindFirst address last candidates = .ok listener ↔
      ∃ before candidate after, candidates = before ++ candidate :: after ∧
        (∀ failed ∈ before, network.Lacks failed) ∧ network.Listens candidate listener := by
  induction candidates generalizing last with
  | nil => simp [bindFirst]
  | cons candidate rest ih =>
    rw [exists_reached_cons, Listens, Lacks]
    cases hlisten : network.listenOn candidate with
    | ok listener' => simp [bindFirst, hlisten]
    | error error =>
      simp only [bindFirst, hlisten]
      by_cases hnumber : error.rawOsError = some eafnosupport
      · have hlacks : ∃ text, (.error error : Except IoError Listener) =
            .error ⟨some eafnosupport, text⟩ := by
          refine ⟨error.text, ?_⟩
          rw [← hnumber]
        rw [if_pos hnumber, ih]
        simp only [reduceCtorEq, false_or, hlacks, true_and]
      · have hlacks : ¬∃ text, (.error error : Except IoError Listener) =
            .error ⟨some eafnosupport, text⟩ := by
          intro ⟨text, herror⟩
          cases herror
          exact hnumber rfl
        rw [if_neg hnumber]
        simp only [reduceCtorEq, false_or, hlacks, false_and]

/-- The wildcards: `[::]`, or `0.0.0.0` where it is missing. -/
theorem bindFirst_wildcards {address last : String} {port : Nat} {listener : Listener} :
    network.bindFirst address last (wildcards port) = .ok listener ↔
      network.Listens ⟨.v6 0#128, port⟩ listener ∨
        network.Lacks ⟨.v6 0#128, port⟩ ∧ network.Listens ⟨.v4 0#32, port⟩ listener := by
  rw [bindFirst_eq_ok_iff, wildcards, exists_reached_cons, exists_reached_cons]
  simp

/-- The one address that is resolved is the preferred one. -/
theorem bindFirst_resolved {address last : String} {listener : Listener} {found : List SocketAddr} :
    network.bindFirst address last ((sortBy (compareOn SocketAddr.isIpv6) found).take 1) =
        .ok listener ↔
      ∃ candidate, Preferred found candidate ∧ network.Listens candidate listener := by
  rw [bindFirst_eq_ok_iff]
  constructor
  · intro ⟨before, candidate, after, heq, _, hlistens⟩
    refine ⟨candidate, ?_, hlistens⟩
    apply take_sorted_eq_iff.1
    have hlength := congrArg List.length heq
    simp only [List.length_take, List.length_append, List.length_cons] at hlength
    have hbefore : before = [] := List.eq_nil_of_length_eq_zero (by omega)
    have hafter : after = [] := List.eq_nil_of_length_eq_zero (by omega)
    rw [heq, hbefore, hafter]
    rfl
  · intro ⟨candidate, hpreferred, hlistens⟩
    exact ⟨[], candidate, [], take_sorted_eq_iff.2 hpreferred, by simp, hlistens⟩

section Bind

variable [HostText] {address host portText : String} {port : Nat} {listener : Listener}

/-- What `bind` comes to for a well formed address. -/
theorem bind_of_isHostPort (haddress : IsHostPort address host portText)
    (hport : readUnsigned 65535 portText.toList = some port) :
    network.bind address = match if isWildcard host then .ok (wildcards port)
        else network.resolve host port with
      | .error error => some (.error ⟨"listen tcp: lookup " ++ host ++ ": " ++ error.text⟩)
      | .ok candidates =>
        some (network.bindFirst address ("listen tcp " ++ address ++ ": no suitable address")
          candidates) := by
  rw [bind, splitHostPort_eq_ok_iff.2 haddress]
  simp only [hport]

/-- **The listener is the one the address asks for.** For no address does `bind` panic. It returns a
listener exactly when the address is a host and a port of at most 65535 and listening succeeds: for a
wildcard on `[::]`, or on `0.0.0.0` on a host without IPv6, and for any other host on the preferred address
it names. A `[::]` that fails for any other reason is the error, whatever `0.0.0.0` would have given. -/
theorem bind_exact (address : String) :
    network.bind address ≠ none ∧
    (∀ listener, network.bind address = some (.ok listener) ↔
      ∃ host portText port, IsHostPort address host portText ∧
        readUnsigned 65535 portText.toList = some port ∧ network.Binds host port listener) ∧
    ∀ host portText port error, IsHostPort address host portText →
      readUnsigned 65535 portText.toList = some port → isWildcard host = true →
      network.listenOn ⟨.v6 0#128, port⟩ = .error error → error.rawOsError ≠ some eafnosupport →
      network.bind address = some (.error ⟨"listen tcp " ++ address ++ ": " ++ error.text⟩) := by
  refine ⟨?_, ?_, ?_⟩
  · rcases splitHostPort_cases address with ⟨host, portText, haddress⟩ | ⟨why, herror⟩
    · cases hport : readUnsigned 65535 portText.toList with
      | none => simp [bind, splitHostPort_eq_ok_iff.2 haddress, hport]
      | some port =>
        rw [network.bind_of_isHostPort haddress hport]
        split <;> simp
    · simp [bind, herror]
  · intro listener
    rcases splitHostPort_cases address with ⟨host, portText, haddress⟩ | ⟨why, herror⟩
    · have hunique : ∀ host' portText', IsHostPort address host' portText' →
          host' = host ∧ portText' = portText := by
        intro host' portText' haddress'
        have hsplit := splitHostPort_eq_ok_iff.2 haddress'
        rw [splitHostPort_eq_ok_iff.2 haddress] at hsplit
        cases hsplit
        exact ⟨rfl, rfl⟩
      have hsame : (∃ host' portText' port, IsHostPort address host' portText' ∧
          readUnsigned 65535 portText'.toList = some port ∧ network.Binds host' port listener) ↔
          ∃ port, readUnsigned 65535 portText.toList = some port ∧ network.Binds host port listener := by
        constructor
        · intro ⟨host', portText', port, haddress', hport, hbinds⟩
          obtain ⟨rfl, rfl⟩ := hunique host' portText' haddress'
          exact ⟨port, hport, hbinds⟩
        · intro ⟨port, hport, hbinds⟩
          exact ⟨host, portText, port, haddress, hport, hbinds⟩
      rw [hsame]
      cases hport : readUnsigned 65535 portText.toList with
      | none => simp [bind, splitHostPort_eq_ok_iff.2 haddress, hport]
      | some port =>
        rw [network.bind_of_isHostPort haddress hport]
        simp only [Option.some.injEq, exists_eq_left', Binds]
        by_cases hwildcard : isWildcard host = true
        · rw [if_pos hwildcard, if_pos hwildcard]
          simp only [Option.some.injEq]
          exact network.bindFirst_wildcards
        · rw [if_neg hwildcard, if_neg hwildcard, resolve]
          cases hfound : network.lookupHost host port with
          | error error => simp [Except.map]
          | ok found =>
            simp only [Except.map, Option.some.injEq, Except.ok.injEq, exists_eq_left',
              exists_and_left]
            exact network.bindFirst_resolved
    · have hnone : ∀ host portText, ¬IsHostPort address host portText := by
        intro host portText haddress
        rw [splitHostPort_eq_ok_iff.2 haddress] at herror
        cases herror
      simp [bind, herror, hnone]
  · intro host portText port error haddress hport hwildcard hlisten hnumber
    rw [network.bind_of_isHostPort haddress hport, if_pos hwildcard]
    simp only [wildcards, bindFirst, hlisten, if_neg hnumber]

end Bind

end Network

namespace Sample

/-- A host without IPv6. -/
def noIpv6 : Network SocketAddr where
  lookupHost _ _ := .error ⟨none, "no such host"⟩
  listenOn candidate :=
    if candidate.isIpv6 then .error ⟨some eafnosupport, "address family not supported"⟩
    else .ok candidate

end Sample

open Sample in
theorem Network.bind_exact_sample : noIpv6.bind ":9675" = some (.ok ⟨.v4 0#32, 9675⟩) := by
  have haddress : IsHostPort ":9675" "" "9675" :=
    ⟨by decide, .inl ⟨by decide, by decide⟩⟩
  have hport : readUnsigned 65535 "9675".toList = some 9675 := by decide +kernel
  have hbinds : noIpv6.Binds "" 9675 ⟨.v4 0#32, 9675⟩ := by
    unfold Binds
    rw [if_pos (by decide +kernel)]
    exact .inr ⟨⟨_, rfl⟩, rfl⟩
  exact ((bind_exact noIpv6 ":9675").2.1 _).2 ⟨"", "9675", 9675, haddress, hport, hbinds⟩

end SwarmExporter
