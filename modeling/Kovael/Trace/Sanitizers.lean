import Kovael.Js.OrderedMap
import Kovael.Js.Utf16

/-!
# What is kept of a trace

`src/services/TraceSanitizers.ts`: `boundTracePayload` copies a trace with its strings cut, its
attributes cut in depth and width, and then drops spans, the attributes of the last one, and
the last one, until the JSON of the copy fits. The identifiers stay, so
`payload_bounded_iff` says that it fits just if the identifiers leave room.

Mirroring notes:
- A number is the text that `JSON.stringify` gives it, if it is finite.
- An attribute value is a primitive or a reference into a heap, so that values can be shared
  and cyclic; the object that holds the attributes is read by its entries.
- What `sanitizeUnknown` returns is a tree of objects that it made. An object has a prototype,
  since `out['__proto__'] = v` sets it; it is `null` for `Object.prototype`, which has none of
  the keys that are read. The order of keys does not matter to the length of the JSON.
- `sanitizeTree` is `sanitizeUnknown` on such a tree, where no object is met twice.
-/

namespace Kovael.Trace

open Js (Utf16)
open Js.Utf16 (ascii byteLength quote)

/-! ## Values -/

/-- A `number`. -/
inductive Numeral where
  | finite (text : String)
  | nan
  | posInf
  | negInf
  deriving DecidableEq, Repr

/-- An `unknown`. -/
inductive Unknown where
  | string (s : Utf16)
  | number (n : Numeral)
  | bool (b : Bool)
  | null
  | undefined
  /-- A bigint, a symbol or a function, by what `String(value)` returns. -/
  | other (text : Utf16)
  | object (ref : Nat)

inductive HeapObject where
  | array (items : List Unknown)
  | record (entries : List (Utf16 × Unknown))

abbrev Heap := Nat → HeapObject

/-- What `sanitizeUnknown` returns. -/
inductive Clean where
  | string (s : Utf16)
  | number (text : String)
  | bool (b : Bool)
  | null
  | undefined
  | array (items : List Clean)
  | record (own : List (Utf16 × Clean)) (proto : Clean)

namespace Clean

/-- `{}`. -/
def emptyRecord : Clean := .record [] .null

/-- What `__proto__` can be set to. -/
def isPrototype : Clean → Bool
  | .null | .array _ | .record .. => true
  | _ => false

/-- `out[key] = v`. -/
def assign (key : Utf16) (v : Clean) : Clean → Clean
  | .record own proto =>
    if key = ascii "__proto__" then if v.isPrototype then .record own v else .record own proto
    else .record (Js.setEntry key v own) proto
  | out => out

/-- `input[key]`. -/
def get (key : Utf16) : Clean → Clean
  | .record own proto =>
    match Js.getEntry key own with
    | some v => v
    | none => proto.get key
  | _ => .undefined

def isUndefined : Clean → Bool
  | .undefined => true
  | _ => false

end Clean

/-- `items.join(',')`. -/
def commaJoin : List Utf16 → Utf16
  | [] => []
  | [item] => item
  | item :: next :: items => item ++ 44 :: commaJoin (next :: items)

mutual

/-- `JSON.stringify(value)`; `none` is `undefined`. -/
def Clean.stringify : Clean → Option Utf16
  | .string s => some (quote s)
  | .number text => some (ascii text)
  | .bool b => some (ascii (if b then "true" else "false"))
  | .null => some (ascii "null")
  | .undefined => none
  | .array items => some (91 :: commaJoin (stringifyItems items) ++ [93])
  | .record own _ => some (123 :: commaJoin (stringifyFields own) ++ [125])

def stringifyItems : List Clean → List Utf16
  | [] => []
  | v :: items => v.stringify.getD (ascii "null") :: stringifyItems items

def stringifyFields : List (Utf16 × Clean) → List Utf16
  | [] => []
  | (key, v) :: fields =>
    match v.stringify with
    | none => stringifyFields fields
    | some text => (quote key ++ 58 :: text) :: stringifyFields fields

end

/-! ## Sanitizing -/

/-- `safeString(input, maxLength)`. -/
def safeString (input : Utf16) (maxLength : Nat) : Utf16 :=
  if input.length ≤ maxLength then input
  else input.take maxLength
    ++ ascii ("[truncated " ++ toString (input.length - maxLength) ++ " chars]")

/-- `finiteNumber(input)`. -/
def finiteNumber : Numeral → String
  | .finite text => text
  | _ => "0"

/-- `Number.isFinite(value) ? value : String(value)`. -/
def Numeral.clean : Numeral → Clean
  | .finite text => .number text
  | .nan => .string (ascii "NaN")
  | .posInf => .string (ascii "Infinity")
  | .negInf => .string (ascii "-Infinity")

/-- `map`, with what `f` has seen. -/
def mapSeen {α β : Type} (f : α → List Nat → β × List Nat) : List α → List Nat → List β × List Nat
  | [], seen => ([], seen)
  | a :: rest, seen =>
    let (b, seen) := f a seen
    let (bs, seen) := mapSeen f rest seen
    (b :: bs, seen)

/-- `sanitizeUnknown(value, maxStringLength, seen, 4 - room)`, and `seen` after it. -/
def sanitizeUnknown (heap : Heap) (maxStringLength : Nat) :
    Nat → Unknown → List Nat → Clean × List Nat
  | _, .string s, seen => (.string (safeString s maxStringLength), seen)
  | _, .number n, seen => (n.clean, seen)
  | _, .bool b, seen => (.bool b, seen)
  | _, .null, seen => (.null, seen)
  | _, .undefined, seen => (.undefined, seen)
  | _, .other text, seen => (.string text, seen)
  | room, .object ref, seen =>
    if ref ∈ seen then (.string (ascii "[circular]"), seen)
    else
      match room with
      | 0 => (.string (ascii "[max-depth]"), seen)
      | room + 1 =>
        match heap ref with
        | .array items =>
          let (items, seen) :=
            mapSeen (sanitizeUnknown heap maxStringLength room) (items.take 16) (ref :: seen)
          (.array items, seen)
        | .record entries =>
          let (fields, seen) :=
            mapSeen (fun e seen =>
              let (v, seen) := sanitizeUnknown heap maxStringLength room e.2 seen
              ((safeString e.1 maxStringLength, v), seen)) (entries.take 32) (ref :: seen)
          (fields.foldl (fun out f => out.assign f.1 f.2) .emptyRecord, seen)

/-- `sanitizeRecord(input, maxStringLength)`. -/
def sanitizeRecord (heap : Heap) (input : List (Utf16 × Unknown)) (maxStringLength : Nat) : Clean :=
  input.foldl
    (fun out e => out.assign (safeString e.1 maxStringLength)
      (sanitizeUnknown heap maxStringLength 4 e.2 []).1)
    .emptyRecord

/-- `sanitizeUnknown` of a value that it returned. -/
def sanitizeTree (maxStringLength : Nat) : Nat → Clean → Clean
  | _, .string s => .string (safeString s maxStringLength)
  | 0, .array _ | 0, .record .. => .string (ascii "[max-depth]")
  | room + 1, .array items => .array ((items.take 16).map (sanitizeTree maxStringLength room))
  | room + 1, .record own _ =>
    (own.take 32).foldl
      (fun out f => out.assign (safeString f.1 maxStringLength)
        (sanitizeTree maxStringLength room f.2))
      .emptyRecord
  | _, v => v

/-- `compactAttributes(input, maxStringLength)`. -/
def compactAttributes (input : Clean) (maxStringLength : Nat) : Clean :=
  ((["kovael.agent.id", "gen_ai.system", "gen_ai.request.model"].map ascii).foldl
    (fun out key =>
      if (input.get key).isUndefined then out
      else Clean.assign key (sanitizeTree maxStringLength 4 (input.get key)) out)
    Clean.emptyRecord).assign (ascii "kovael.trace.truncated") (.bool true)

/-! ## Traces -/

/-- `Required<TraceRingBufferOptions>`, as the constructor of the buffer accepts them. -/
structure Options where
  maxTraceBytes : Nat
  maxAttributeValueLength : Nat
  maxEventsPerSpan : Nat
  maxTraceBytes_ge : 1024 ≤ maxTraceBytes
  maxAttributeValueLength_ge : 16 ≤ maxAttributeValueLength

structure SpanEvent where
  name : Utf16
  timeUnixNano : Numeral
  attributes : Option (List (Utf16 × Unknown))

structure FinishedSpan where
  traceId : Utf16
  spanId : Utf16
  parentSpanId : Option Utf16
  name : Utf16
  kind : Numeral
  startTimeUnixNano : Numeral
  endTimeUnixNano : Numeral
  durationMs : Numeral
  attributes : List (Utf16 × Unknown)
  statusCode : Numeral
  statusMessage : Option Utf16
  events : List SpanEvent

structure CycleTrace where
  cycleId : Utf16
  traceId : Utf16
  rootSpanId : Utf16
  startedAt : Numeral
  endedAt : Numeral
  spans : List FinishedSpan

/-- An event of a span that is kept. -/
structure CleanEvent where
  name : Utf16
  timeUnixNano : String
  attributes : Option Clean

/-- A span that is kept. -/
structure CleanSpan where
  traceId : Utf16
  spanId : Utf16
  parentSpanId : Option Utf16
  name : Utf16
  kind : String
  startTimeUnixNano : String
  endTimeUnixNano : String
  durationMs : String
  attributes : Clean
  statusCode : String
  statusMessage : Option Utf16
  events : List CleanEvent

/-- A trace that is kept. -/
structure BoundedTrace where
  cycleId : Utf16
  traceId : Utf16
  rootSpanId : Utf16
  startedAt : String
  endedAt : String
  spans : List CleanSpan

/-- A string, or `undefined`. -/
def ofString? : Option Utf16 → Clean
  | none => .undefined
  | some s => .string s

/-- `{ .. }` with the given fields. -/
def object (fields : List (String × Clean)) : Clean :=
  .record (fields.map fun f => (ascii f.1, f.2)) .null

def CleanEvent.toClean (event : CleanEvent) : Clean :=
  object [
    ("name", .string event.name),
    ("timeUnixNano", .number event.timeUnixNano),
    ("attributes", event.attributes.getD .undefined)]

def CleanSpan.toClean (span : CleanSpan) : Clean :=
  object [
    ("traceId", .string span.traceId),
    ("spanId", .string span.spanId),
    ("parentSpanId", ofString? span.parentSpanId),
    ("name", .string span.name),
    ("kind", .number span.kind),
    ("startTimeUnixNano", .number span.startTimeUnixNano),
    ("endTimeUnixNano", .number span.endTimeUnixNano),
    ("durationMs", .number span.durationMs),
    ("attributes", span.attributes),
    ("status", object [
      ("code", .number span.statusCode), ("message", ofString? span.statusMessage)]),
    ("events", .array (span.events.map CleanEvent.toClean))]

def BoundedTrace.toClean (trace : BoundedTrace) : Clean :=
  object [
    ("cycleId", .string trace.cycleId),
    ("traceId", .string trace.traceId),
    ("rootSpanId", .string trace.rootSpanId),
    ("startedAt", .number trace.startedAt),
    ("endedAt", .number trace.endedAt),
    ("spans", .array (trace.spans.map CleanSpan.toClean))]

/-- `jsonByteLength(trace)`. -/
def jsonByteLength (trace : BoundedTrace) : Nat := byteLength (trace.toClean.stringify.getD [])

/-- `value ? safeString(value, maxLength) : undefined`. -/
def safeString? (value : Option Utf16) (maxLength : Nat) : Option Utf16 :=
  (value.filter fun s => !s.isEmpty).map fun s => safeString s maxLength

/-- `sanitizeSpan(span, opts)`. -/
def sanitizeSpan (heap : Heap) (opts : Options) (span : FinishedSpan) : CleanSpan where
  traceId := safeString span.traceId opts.maxAttributeValueLength
  spanId := safeString span.spanId opts.maxAttributeValueLength
  parentSpanId := safeString? span.parentSpanId opts.maxAttributeValueLength
  name := safeString span.name opts.maxAttributeValueLength
  kind := finiteNumber span.kind
  startTimeUnixNano := finiteNumber span.startTimeUnixNano
  endTimeUnixNano := finiteNumber span.endTimeUnixNano
  durationMs := finiteNumber span.durationMs
  attributes := sanitizeRecord heap span.attributes opts.maxAttributeValueLength
  statusCode := finiteNumber span.statusCode
  statusMessage := safeString? span.statusMessage opts.maxAttributeValueLength
  events := (span.events.take opts.maxEventsPerSpan).map fun event =>
    { name := safeString event.name opts.maxAttributeValueLength
      timeUnixNano := finiteNumber event.timeUnixNano
      attributes := event.attributes.map fun attributes =>
        sanitizeRecord heap attributes opts.maxAttributeValueLength }

/-- The last span that is kept, without its events and most of its attributes. -/
def CleanSpan.compacted (span : CleanSpan) (maxStringLength : Nat) : CleanSpan :=
  { span with attributes := compactAttributes span.attributes maxStringLength, events := [] }

/-- `while (jsonByteLength(bounded) > maxTraceBytes && bounded.spans.length > 1)`. -/
def dropSpans (maxTraceBytes : Nat) : Nat → BoundedTrace → BoundedTrace
  | 0, bounded => bounded
  | rounds + 1, bounded =>
    if maxTraceBytes < jsonByteLength bounded ∧ 1 < bounded.spans.length then
      dropSpans maxTraceBytes rounds { bounded with spans := bounded.spans.dropLast }
    else bounded

/-- The only span is compacted. -/
def compactOnly (opts : Options) (bounded : BoundedTrace) : BoundedTrace :=
  match bounded.spans with
  | [only] =>
    if opts.maxTraceBytes < jsonByteLength bounded then
      { bounded with spans := [only.compacted opts.maxAttributeValueLength] }
    else bounded
  | _ => bounded

/-- The trace with its spans sanitized, all of them. -/
def sanitizeTrace (heap : Heap) (opts : Options) (trace : CycleTrace) : BoundedTrace where
  cycleId := safeString trace.cycleId opts.maxAttributeValueLength
  traceId := safeString trace.traceId opts.maxAttributeValueLength
  rootSpanId := safeString trace.rootSpanId opts.maxAttributeValueLength
  startedAt := finiteNumber trace.startedAt
  endedAt := finiteNumber trace.endedAt
  spans := trace.spans.map (sanitizeSpan heap opts)

/-- `boundTracePayload(trace, opts)`. -/
def boundTracePayload (heap : Heap) (opts : Options) (trace : CycleTrace) : BoundedTrace :=
  let bounded := sanitizeTrace heap opts trace
  let bounded := dropSpans opts.maxTraceBytes bounded.spans.length bounded
  let bounded := compactOnly opts bounded
  if opts.maxTraceBytes < jsonByteLength bounded then { bounded with spans := [] } else bounded

/-! ## The length of the JSON -/

/-- The bytes of a trace without spans: of its identifiers, of its times, and of the rest. -/
def bareBytes (trace : BoundedTrace) : Nat :=
  72 + byteLength (quote trace.cycleId) + byteLength (quote trace.traceId)
    + byteLength (quote trace.rootSpanId) + byteLength (ascii trace.startedAt)
    + byteLength (ascii trace.endedAt)

/-- The JSON of the spans, without the brackets. -/
def spansText (spans : List CleanSpan) : Utf16 :=
  commaJoin (stringifyItems (spans.map CleanSpan.toClean))

theorem stringify_toClean (trace : BoundedTrace) : trace.toClean.stringify.getD [] =
    ascii "\x7b\"cycleId\":" ++ (quote trace.cycleId ++ (ascii ",\"traceId\":"
      ++ (quote trace.traceId ++ (ascii ",\"rootSpanId\":" ++ (quote trace.rootSpanId
      ++ (ascii ",\"startedAt\":" ++ (ascii trace.startedAt ++ (ascii ",\"endedAt\":"
      ++ (ascii trace.endedAt ++ (ascii ",\"spans\":[" ++ (spansText trace.spans
      ++ ascii "]\x7d"))))))))))) := by
  have hfields : trace.toClean.stringify = some (123 :: commaJoin [
      quote (ascii "cycleId") ++ 58 :: quote trace.cycleId,
      quote (ascii "traceId") ++ 58 :: quote trace.traceId,
      quote (ascii "rootSpanId") ++ 58 :: quote trace.rootSpanId,
      quote (ascii "startedAt") ++ 58 :: ascii trace.startedAt,
      quote (ascii "endedAt") ++ 58 :: ascii trace.endedAt,
      quote (ascii "spans") ++ 58 :: (91 :: spansText trace.spans ++ [93])] ++ [125]) := rfl
  rw [hfields]
  simp only [Option.getD_some, commaJoin, List.append_assoc, List.cons_append]
  rfl

/-- The spans add their own JSON to the length. -/
theorem jsonByteLength_eq (trace : BoundedTrace) :
    jsonByteLength trace = bareBytes trace + byteLength (spansText trace.spans) := by
  have hlow : ∀ (first : UInt16) (text : Utf16), Js.Utf16.isLow first = false →
      ∀ c ∈ (first :: text).head?, Js.Utf16.isLow c = false := by
    intro first text hfirst c hc
    rw [List.head?_cons, Option.mem_some_iff] at hc
    exact hc ▸ hfirst
  have hpart : ∀ (key : String) (first : UInt16) (keyRest value rest : Utf16),
      ascii key = first :: keyRest → Js.Utf16.isLow first = false →
      (∀ c ∈ ascii key, Js.Utf16.isHigh c = false) →
      byteLength (value ++ (ascii key ++ rest)) =
        byteLength value + (byteLength (ascii key) + byteLength rest) := by
    intro key first keyRest value rest hkey hfirst hhigh
    rw [Js.Utf16.byteLength_append_of_rest, Js.Utf16.byteLength_append_of_text hhigh]
    rw [hkey]
    exact hlow first _ hfirst
  have hlast : byteLength (spansText trace.spans ++ ascii "]\x7d") =
      byteLength (spansText trace.spans) + byteLength (ascii "]\x7d") :=
    Js.Utf16.byteLength_append_of_rest _ (hlow 93 (ascii "\x7d") rfl)
  unfold jsonByteLength
  rw [stringify_toClean, Js.Utf16.byteLength_append_of_text (Js.Utf16.not_isHigh_of_all rfl),
    hpart ",\"traceId\":" 44 _ _ _ rfl rfl (Js.Utf16.not_isHigh_of_all rfl),
    hpart ",\"rootSpanId\":" 44 _ _ _ rfl rfl (Js.Utf16.not_isHigh_of_all rfl),
    hpart ",\"startedAt\":" 44 _ _ _ rfl rfl (Js.Utf16.not_isHigh_of_all rfl),
    hpart ",\"endedAt\":" 44 _ _ _ rfl rfl (Js.Utf16.not_isHigh_of_all rfl),
    hpart ",\"spans\":[" 44 _ _ _ rfl rfl (Js.Utf16.not_isHigh_of_all rfl), hlast]
  have hcount : byteLength (ascii "\x7b\"cycleId\":") + byteLength (ascii ",\"traceId\":")
      + byteLength (ascii ",\"rootSpanId\":") + byteLength (ascii ",\"startedAt\":")
      + byteLength (ascii ",\"endedAt\":") + byteLength (ascii ",\"spans\":[")
      + byteLength (ascii "]\x7d") = 72 := by decide
  unfold bareBytes
  omega

/-! ## What fits -/

theorem dropSpans_cases (maxTraceBytes : Nat) : ∀ (rounds : Nat) (bounded : BoundedTrace),
    bounded.spans.length ≤ rounds + 1 →
    (∃ n, dropSpans maxTraceBytes rounds bounded =
      { bounded with spans := bounded.spans.take n }) ∧
    (jsonByteLength (dropSpans maxTraceBytes rounds bounded) ≤ maxTraceBytes ∨
      (dropSpans maxTraceBytes rounds bounded).spans.length ≤ 1) := by
  intro rounds
  induction rounds with
  | zero =>
    intro bounded hlength
    refine ⟨⟨bounded.spans.length, ?_⟩, Or.inr (by simpa [dropSpans] using hlength)⟩
    rw [dropSpans, List.take_length]
  | succ rounds ih =>
    intro bounded hlength
    rw [dropSpans]
    split
    next hloop =>
      have hdropped : bounded.spans.dropLast.length = bounded.spans.length - 1 :=
        List.length_dropLast
      obtain ⟨⟨n, hn⟩, hdone⟩ := ih { bounded with spans := bounded.spans.dropLast }
        (by show bounded.spans.dropLast.length ≤ rounds + 1; omega)
      refine ⟨⟨min n (bounded.spans.length - 1), ?_⟩, hdone⟩
      rw [hn]
      show BoundedTrace.mk _ _ _ _ _ (bounded.spans.dropLast.take n) = _
      rw [List.dropLast_eq_take, List.take_take]
    next hstop =>
      refine ⟨⟨bounded.spans.length, by rw [List.take_length]⟩, ?_⟩
      omega

/-- The spans that are kept are the first ones, or the first one compacted. -/
def KeepsPrefix (heap : Heap) (opts : Options) (trace : CycleTrace) (kept : List CleanSpan) :
    Prop :=
  (∃ n, kept = (trace.spans.map (sanitizeSpan heap opts)).take n) ∨
    ∃ first rest, trace.spans = first :: rest ∧
      kept = [(sanitizeSpan heap opts first).compacted opts.maxAttributeValueLength]

/-- The identifiers and times of the trace leave room for an empty list of spans. -/
def RoomForIdentifiers (opts : Options) (trace : CycleTrace) : Prop :=
  72 + byteLength (quote (safeString trace.cycleId opts.maxAttributeValueLength))
    + byteLength (quote (safeString trace.traceId opts.maxAttributeValueLength))
    + byteLength (quote (safeString trace.rootSpanId opts.maxAttributeValueLength))
    + byteLength (ascii (finiteNumber trace.startedAt))
    + byteLength (ascii (finiteNumber trace.endedAt)) ≤ opts.maxTraceBytes

instance (opts : Options) (trace : CycleTrace) : Decidable (RoomForIdentifiers opts trace) :=
  inferInstanceAs (Decidable (_ ≤ _))

/-- What is kept has the identifiers of the trace, and its spans are a prefix. -/
theorem boundTracePayload_cases (heap : Heap) (opts : Options) (trace : CycleTrace) :
    ∃ kept, boundTracePayload heap opts trace =
        { sanitizeTrace heap opts trace with spans := kept } ∧
      KeepsPrefix heap opts trace kept ∧
      (jsonByteLength (boundTracePayload heap opts trace) ≤ opts.maxTraceBytes ∨ kept = []) := by
  obtain ⟨⟨n, hn⟩, -⟩ := dropSpans_cases opts.maxTraceBytes
    (sanitizeTrace heap opts trace).spans.length (sanitizeTrace heap opts trace) (by omega)
  -- the spans after compaction
  have hcompact : ∃ kept, compactOnly opts (dropSpans opts.maxTraceBytes
      (sanitizeTrace heap opts trace).spans.length (sanitizeTrace heap opts trace)) =
        { sanitizeTrace heap opts trace with spans := kept } ∧
      KeepsPrefix heap opts trace kept := by
    rw [hn]
    unfold compactOnly
    split
    next only honly =>
      split
      next =>
        refine ⟨_, rfl, Or.inr ?_⟩
        have hfirst : (trace.spans.map (sanitizeSpan heap opts)).take n = [only] := honly
        cases hspans : trace.spans with
        | nil =>
          rw [hspans, List.map_nil, List.take_nil] at hfirst
          exact absurd hfirst (by simp)
        | cons first rest =>
          refine ⟨first, rest, rfl, ?_⟩
          cases n with
          | zero => exact absurd hfirst (by simp)
          | succ n =>
            rw [hspans, List.map_cons, List.take_succ_cons, List.cons.injEq] at hfirst
            rw [hfirst.1]
      next => exact ⟨_, rfl, Or.inl ⟨n, rfl⟩⟩
    next => exact ⟨_, rfl, Or.inl ⟨n, rfl⟩⟩
  obtain ⟨kept, hkept, hprefix⟩ := hcompact
  unfold boundTracePayload
  dsimp only
  rw [hkept]
  split
  next => exact ⟨[], rfl, Or.inl ⟨0, rfl⟩, Or.inr rfl⟩
  next hfits => exact ⟨kept, rfl, hprefix, Or.inl (by omega)⟩

/-- The loop over the spans is left by its condition. -/
def LoopEnds (heap : Heap) (opts : Options) (trace : CycleTrace) : Prop :=
  let bounded := sanitizeTrace heap opts trace
  let dropped := dropSpans opts.maxTraceBytes bounded.spans.length bounded
  jsonByteLength dropped ≤ opts.maxTraceBytes ∨ dropped.spans.length ≤ 1

/-- The payload is bounded: the loop ends, the JSON of the result fits, and its spans are a
prefix. -/
structure PayloadBounded (heap : Heap) (opts : Options) (trace : CycleTrace) : Prop where
  ends : LoopEnds heap opts trace
  fits : jsonByteLength (boundTracePayload heap opts trace) ≤ opts.maxTraceBytes
  spans : KeepsPrefix heap opts trace (boundTracePayload heap opts trace).spans

/-- A payload is bounded just if the identifiers of the trace leave room. -/
theorem payload_bounded_iff (heap : Heap) (opts : Options) (trace : CycleTrace) :
    PayloadBounded heap opts trace ↔ RoomForIdentifiers opts trace := by
  obtain ⟨kept, hkept, hprefix, hfits⟩ := boundTracePayload_cases heap opts trace
  have hlength : jsonByteLength (boundTracePayload heap opts trace) =
      bareBytes (sanitizeTrace heap opts trace) + byteLength (spansText kept) := by
    rw [hkept, jsonByteLength_eq]
    rfl
  have hroom : RoomForIdentifiers opts trace ↔
      bareBytes (sanitizeTrace heap opts trace) ≤ opts.maxTraceBytes := Iff.rfl
  rw [hroom]
  constructor
  · intro h
    have hbound := h.fits
    omega
  · intro h
    refine ⟨?_, ?_, ?_⟩
    · exact (dropSpans_cases opts.maxTraceBytes _ _ (by omega)).2
    · rcases hfits with hfits | hempty
      · exact hfits
      · have hnothing : byteLength (spansText kept) = 0 := by rw [hempty]; rfl
        omega
    · rw [hkept]
      exact hprefix

/-- A trace whose cycle id is a thousand characters long, in a buffer for 1024 bytes. -/
theorem long_cycle_id_exceeds : ∃ opts trace, opts.maxTraceBytes = 1024 ∧
    trace.cycleId.length = 1000 ∧ trace.spans = [] ∧
    opts.maxTraceBytes < jsonByteLength (boundTracePayload (fun _ => .record []) opts trace) := by
  refine ⟨⟨1024, 4096, 32, by decide, by decide⟩,
    ⟨List.replicate 1000 97, [], [], .finite "0", .finite "0", []⟩, rfl,
    List.length_replicate, rfl, ?_⟩
  decide +kernel

end Kovael.Trace
