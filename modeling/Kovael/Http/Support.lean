import Kovael.Js.JsonNumber
import Kovael.Js.Url

/-!
# Requests and responses

`src/services/http/HttpApiSupport.ts`: `createRequestUrl`, `readJsonBody` and
`writeJson`, over what `node:http` hands over of a request.

Mirroring notes:
- A response is its status and its JSON; the headers are the same for all of
  them. Writing one does not throw, since each handler writes before it returns
  and never twice on one path.
- The events of a body come in the order they are emitted. The timer of
  `readJsonBody` is one of them.
-/

namespace Kovael.Http

open Js
open Js.Base64 (Bytes)

/-- A response that `writeJson` wrote. -/
structure Response where
  status : Nat
  body : Json

/-! ## `readJsonBody` -/

/-- What happens to a request while its body is read. -/
inductive BodyEvent where
  | data (chunk : Bytes)
  | ended
  | failed
  | timedOut
  deriving DecidableEq, Repr

/-- The event ends the reading, whatever was read. -/
def BodyEvent.terminates : BodyEvent → Bool
  | .data _ => false
  | _ => true

/-- The variables of `readJsonBody`: `resolved` is what `resolve` was called with, where `none`
is `null`, and `responses` is what was written. -/
structure Reading where
  received : Nat
  chunks : Bytes
  done : Bool
  responses : List Response
  resolved : List (Option Json)

namespace Reading

/-- Before the first event. -/
def init : Reading := ⟨0, [], false, [], []⟩

/-- `finish()`, an error response, and `resolve(null)`. -/
def fail (r : Reading) (status : Nat) (body : Json) : Reading :=
  { r with
    done := true
    responses := r.responses ++ [⟨status, body⟩]
    resolved := r.resolved ++ [none] }

/-- `finish()` and `resolve(value)`; a value that is `null` is what an error resolves to. -/
def resolve (r : Reading) (value : Json) : Reading :=
  { r with
    done := true
    resolved := r.resolved ++ [match value with | .null => none | value => some value] }

end Reading

/-- `{ error }`. -/
def errorBody (error : String) : Json := .object [("error", .string error)]

section

variable (number : String → String) (maxBytes : Nat)

/-- The listener of an event. -/
def onBodyEvent (r : Reading) (event : BodyEvent) : Reading :=
  if r.done then r
  else
    match event with
    | .timedOut => r.fail 408 (errorBody "body_read_timeout")
    | .failed => r.fail 400 (errorBody "request_stream_error")
    | .data chunk =>
      let r := { r with received := r.received + chunk.length }
      if maxBytes < r.received then
        r.fail 413 (.object [("error", .string "payload_too_large"), ("max_bytes", .ofInt maxBytes)])
      else { r with chunks := r.chunks ++ chunk }
    | .ended =>
      let raw := Utf8.decode r.chunks
      if raw = "" then r.resolve (.object [])
      else
        match Json.parse number raw with
        | some value => r.resolve value
        | none => r.fail 400 (errorBody "invalid_json")

/-- `readJsonBody(req, res, maxBytes)`. -/
def readJsonBody (events : List BodyEvent) : Reading :=
  events.foldl (onBodyEvent number maxBytes) .init

end

/-! ## Requests -/

/-- A request. Its body comes to an end: the timer sees to it. -/
structure Request where
  method : String
  url : String
  host : Option String
  traceparent : Option String
  tracestate : Option String
  body : List BodyEvent
  ends : ∃ event ∈ body, event.terminates = true

/-- `createRequestUrl(req)`; `none` if it throws. -/
def createRequestUrl (toAscii : String → Option String) (req : Request) : Option Url :=
  Url.parseOn toAscii (if req.url = "" then "/" else req.url)
    ("http://" ++ req.host.getD "undefined")

/-! ## What a body is read as -/

section

variable {number : String → String} {maxBytes : Nat}

/-- What the bytes of a body are read as; no bytes at all are an empty object. -/
def bodyValue (number : String → String) (bytes : Bytes) : Option Json :=
  if Utf8.decode bytes = "" then some (.object []) else Json.parse number (Utf8.decode bytes)

/-- The body, of which `bytes` came before, comes to its end as `value`. -/
def CarriesFrom (number : String → String) (maxBytes : Nat) (bytes : Bytes)
    (events : List BodyEvent) (value : Json) : Prop :=
  ∃ (chunks : List Bytes) (rest : List BodyEvent),
    events = chunks.map BodyEvent.data ++ .ended :: rest ∧
    (bytes ++ chunks.flatten).length ≤ maxBytes ∧
    bodyValue number (bytes ++ chunks.flatten) = some value

/-- The body comes to its end, within the limit, as the JSON of `value`. -/
def Carries (number : String → String) (maxBytes : Nat) (events : List BodyEvent) (value : Json) :
    Prop :=
  CarriesFrom number maxBytes [] events value

/-- Some bytes were read, and the reading goes on. -/
def Reading.reading (bytes : Bytes) : Reading := ⟨bytes.length, bytes, false, [], []⟩

/-- A body was read, and nothing was written. -/
def Reading.IsBody (r : Reading) (value : Json) : Prop :=
  value ≠ .null ∧ r.resolved = [some value] ∧ r.responses = []

/-- The reading failed, and that was answered. -/
def Reading.IsAnswered (r : Reading) : Prop :=
  ∃ response, r.resolved = [none] ∧ r.responses = [response]

/-- The body was `null`, and nothing was written. -/
def Reading.IsNull (r : Reading) : Prop := r.resolved = [none] ∧ r.responses = []

theorem resolve_isBody (bytes : Bytes) {value : Json} (h : value ≠ .null) :
    ((Reading.reading bytes).resolve value).IsBody value := by
  refine ⟨h, ?_, rfl⟩
  cases value with
  | null => exact absurd rfl h
  | bool b => rfl
  | number t => rfl
  | string s => rfl
  | array xs => rfl
  | object fields => rfl

/-- Once the reading is done, no event changes it. -/
theorem foldl_done {r : Reading} (h : r.done = true) (events : List BodyEvent) :
    events.foldl (onBodyEvent number maxBytes) r = r := by
  induction events with
  | nil => rfl
  | cons event events ih =>
    have hstep : onBodyEvent number maxBytes r event = r := by
      unfold onBodyEvent
      rw [if_pos h]
    rw [List.foldl_cons, hstep, ih]

/-- A chunk is too much, or one more. -/
theorem onBodyEvent_data (bytes chunk : Bytes) :
    onBodyEvent number maxBytes (.reading bytes) (.data chunk)
      = if maxBytes < (bytes ++ chunk).length then
          Reading.fail ⟨(bytes ++ chunk).length, bytes, false, [], []⟩ 413
            (.object [("error", .string "payload_too_large"), ("max_bytes", .ofInt maxBytes)])
        else .reading (bytes ++ chunk) := by
  rw [Reading.reading, Reading.reading, List.length_append]
  rfl

/-- At the end of the body its value is resolved, or the error is answered. -/
theorem onBodyEvent_ended (bytes : Bytes) :
    onBodyEvent number maxBytes (.reading bytes) .ended
      = match bodyValue number bytes with
        | some value => (Reading.reading bytes).resolve value
        | none => (Reading.reading bytes).fail 400 (errorBody "invalid_json") := by
  have hstep : onBodyEvent number maxBytes (.reading bytes) .ended
      = if Utf8.decode bytes = "" then (Reading.reading bytes).resolve (.object [])
        else match Json.parse number (Utf8.decode bytes) with
          | some value => (Reading.reading bytes).resolve value
          | none => (Reading.reading bytes).fail 400 (errorBody "invalid_json") := rfl
  rw [hstep, bodyValue]
  split <;> rfl

/-- What follows the first event of a body. -/
theorem carriesFrom_cons {bytes : Bytes} {event : BodyEvent} {events : List BodyEvent} {value : Json}
    (h : CarriesFrom number maxBytes bytes (event :: events) value) :
    (event = .ended ∧ bodyValue number bytes = some value) ∨
      ∃ chunk, event = .data chunk ∧ (bytes ++ chunk).length ≤ maxBytes ∧
        CarriesFrom number maxBytes (bytes ++ chunk) events value := by
  obtain ⟨chunks, rest, hevents, hlength, hvalue⟩ := h
  cases chunks with
  | nil =>
    rw [List.flatten_nil, List.append_nil] at hvalue
    exact Or.inl ⟨(List.cons.inj hevents).1, hvalue⟩
  | cons chunk chunks =>
    rw [List.flatten_cons, ← List.append_assoc] at hlength hvalue
    have hchunk : (bytes ++ chunk).length ≤ maxBytes := by
      rw [List.length_append] at hlength
      omega
    exact Or.inr ⟨chunk, (List.cons.inj hevents).1, hchunk, chunks, rest,
      (List.cons.inj hevents).2, hlength, hvalue⟩

theorem carriesFrom_ended {bytes : Bytes} (events : List BodyEvent) (value : Json)
    (hbytes : bytes.length ≤ maxBytes) :
    CarriesFrom number maxBytes bytes (.ended :: events) value ↔
      bodyValue number bytes = some value := by
  constructor
  · intro h
    rcases carriesFrom_cons h with ⟨-, h⟩ | ⟨_, h, -⟩
    · exact h
    · exact absurd h (fun h => nomatch h)
  · intro h
    exact ⟨[], events, rfl, by simpa using hbytes, by simpa using h⟩

theorem carriesFrom_data (bytes chunk : Bytes) (events : List BodyEvent) (value : Json) :
    CarriesFrom number maxBytes bytes (.data chunk :: events) value ↔
      (bytes ++ chunk).length ≤ maxBytes ∧
        CarriesFrom number maxBytes (bytes ++ chunk) events value := by
  constructor
  · intro h
    rcases carriesFrom_cons h with ⟨h, -⟩ | ⟨_, h, hle, hfrom⟩
    · exact absurd h (fun h => nomatch h)
    · obtain rfl := BodyEvent.data.inj h
      exact ⟨hle, hfrom⟩
  · intro hgiven
    obtain ⟨-, chunks, rest, hevents, hlength, hvalue⟩ := hgiven
    rw [List.append_assoc] at hlength hvalue
    exact ⟨chunk :: chunks, rest, congrArg _ hevents, hlength, hvalue⟩

/-- A body that breaks off carries nothing. -/
theorem not_carriesFrom {bytes : Bytes} {event : BodyEvent} (events : List BodyEvent) (value : Json)
    (hended : event ≠ .ended) (hdata : ∀ chunk, event ≠ .data chunk) :
    ¬CarriesFrom number maxBytes bytes (event :: events) value := by
  intro h
  rcases carriesFrom_cons h with ⟨h, -⟩ | ⟨_, h, -⟩
  · exact hended h
  · exact hdata _ h

/-- How a reading ends, by what the body carries. -/
def Reading.Reads (r : Reading) (carries : Json → Prop) : Prop :=
  (∃ value, r.IsBody value ∧ ∀ v, carries v ↔ v = value) ∨
    (r.IsAnswered ∧ ∀ v, ¬carries v) ∨
    (r.IsNull ∧ ∀ v, carries v ↔ v = .null)

/-- The end of the reading, from some bytes on. -/
theorem foldl_reading : ∀ (events : List BodyEvent) (bytes : Bytes), bytes.length ≤ maxBytes →
    (∃ event ∈ events, event.terminates = true) →
    (events.foldl (onBodyEvent number maxBytes) (.reading bytes)).Reads
      (CarriesFrom number maxBytes bytes events)
  | [], _, _, hends => by
    obtain ⟨event, hmem, -⟩ := hends
    exact absurd hmem List.not_mem_nil
  | event :: events, bytes, hbytes, hends => by
    rw [List.foldl_cons]
    cases event with
    | timedOut =>
      rw [foldl_done rfl]
      exact Or.inr (Or.inl ⟨⟨_, rfl, rfl⟩,
        fun v => not_carriesFrom events v (fun h => nomatch h) (fun _ h => nomatch h)⟩)
    | failed =>
      rw [foldl_done rfl]
      exact Or.inr (Or.inl ⟨⟨_, rfl, rfl⟩,
        fun v => not_carriesFrom events v (fun h => nomatch h) (fun _ h => nomatch h)⟩)
    | data chunk =>
      have hends' : ∃ event ∈ events, event.terminates = true := by
        obtain ⟨event, hmem, hevent⟩ := hends
        rcases List.mem_cons.mp hmem with rfl | hmem
        · exact absurd hevent Bool.false_ne_true
        · exact ⟨event, hmem, hevent⟩
      rw [onBodyEvent_data]
      by_cases hmax : maxBytes < (bytes ++ chunk).length
      · rw [if_pos hmax, foldl_done rfl]
        refine Or.inr (Or.inl ⟨⟨_, rfl, rfl⟩, fun v h => ?_⟩)
        exact Nat.not_le.mpr hmax ((carriesFrom_data bytes chunk events v).mp h).1
      · have hiff : CarriesFrom number maxBytes bytes (.data chunk :: events)
            = CarriesFrom number maxBytes (bytes ++ chunk) events := by
          funext v
          rw [carriesFrom_data]
          exact propext (and_iff_right (Nat.le_of_not_lt hmax))
        rw [if_neg hmax, hiff]
        exact foldl_reading events (bytes ++ chunk) (Nat.le_of_not_lt hmax) hends'
    | ended =>
      have hcarries : ∀ v, CarriesFrom number maxBytes bytes (.ended :: events) v ↔
          bodyValue number bytes = some v := fun v => carriesFrom_ended events v hbytes
      rw [onBodyEvent_ended]
      cases hvalue : bodyValue number bytes with
      | none =>
        rw [foldl_done rfl]
        refine Or.inr (Or.inl ⟨⟨_, rfl, rfl⟩, fun v h => ?_⟩)
        rw [hcarries, hvalue] at h
        exact nomatch h
      | some value =>
        have hvalues : ∀ v, CarriesFrom number maxBytes bytes (.ended :: events) v ↔ v = value := by
          intro v
          rw [hcarries, hvalue, Option.some.injEq, eq_comm]
        dsimp only
        rw [foldl_done rfl]
        by_cases hnull : value = .null
        · rw [hnull] at hvalues ⊢
          exact Or.inr (Or.inr ⟨⟨rfl, rfl⟩, hvalues⟩)
        · exact Or.inl ⟨value, resolve_isBody bytes hnull, hvalues⟩

/-- A reading ends with the body, with an error that is answered, or, where the body was
`null`, with neither. -/
theorem readJsonBody_reads {events : List BodyEvent}
    (hends : ∃ event ∈ events, event.terminates = true) :
    (readJsonBody number maxBytes events).Reads (Carries number maxBytes events) :=
  foldl_reading events [] (Nat.zero_le _) hends

end

end Kovael.Http
