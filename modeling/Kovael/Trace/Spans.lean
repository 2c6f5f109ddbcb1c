import Kovael.Lts
import Kovael.Trace.RingBuffer

/-!
# From spans to traces

`src/services/Tracing.ts`: the tracer hands every span that ends to the processor of the bridge,
which files it under its trace; when the root of a cycle ends, what was filed under its trace is
put into the ring buffer. Cycles run side by side, so the spans of many traces end in any order.
`spans_filed_once` says that in every state of every run each span that ended is in exactly one
place, the trace that was put or the bucket of its trace, in the order in which it ended.

Mirroring notes:
- The tracer is not part of the repository. It draws a new identifier for every trace and span,
  gives a child the trace of its parent, and hands a span over when it is ended first: a later
  end does nothing.
- A handle is known by the trace of its cycle. It can be used after its cycle ended.
- A time is the numeral that `hrToNs` makes of it, and `durationMs` is a parameter.
- The run records the spans that ended (`ended`) and the traces that were put (`puts`).
-/

namespace Kovael.Trace

open Js (OrderedMap Utf16)
open Js.Utf16 (ascii)

/-! ## Spans -/

/-- `CycleSpanAttrs`. -/
structure CycleSpanAttrs where
  cycleId : Utf16
  taskHash : Utf16

/-- `TriadSpanAttrs`. -/
structure TriadSpanAttrs where
  cycleId : Utf16
  taskHash : Utf16
  agentId : Utf16
  system : Utf16
  model : Utf16

/-- `TriadSpanUsage`. -/
structure TriadSpanUsage where
  inputTokens : Option Numeral
  outputTokens : Option Numeral

/-- `'triad.architect' | 'triad.operator' | 'triad.verifier'`. -/
inductive TriadSpanName where
  | architect
  | operator
  | verifier
  deriving DecidableEq

def TriadSpanName.text : TriadSpanName → Utf16
  | .architect => ascii "triad.architect"
  | .operator => ascii "triad.operator"
  | .verifier => ascii "triad.verifier"

/-- A span that has not ended. -/
structure OpenSpan where
  traceId : Utf16
  spanId : Utf16
  parentSpanId : Option Utf16
  name : Utf16
  kind : Option Numeral
  startTimeUnixNano : Numeral
  attributes : List (Utf16 × Unknown)
  statusCode : Numeral
  statusMessage : Option Utf16
  events : List SpanEvent

/-- What the tracer draws and reads for a new span. -/
structure SpanStart where
  spanId : Utf16
  kind : Option Numeral
  startTimeUnixNano : Numeral

namespace OpenSpan

/-- `span.setAttribute(key, value)`. -/
def setAttribute (span : OpenSpan) (key : String) (value : Unknown) : OpenSpan :=
  { span with attributes := Js.setEntry (ascii key) value span.attributes }

/-- `span.setStatus({ code, message })`. -/
def setStatus (span : OpenSpan) (code : String) (message : Option Utf16) : OpenSpan :=
  { span with statusCode := .finite code, statusMessage := message }

/-- `span.recordException(err)`. -/
def recordException (span : OpenSpan) (event : SpanEvent) : OpenSpan :=
  { span with events := span.events ++ [event] }

/-- `FinishedSpan`, as `onEnd` builds it; `SPAN_KIND_INTERNAL` is 1. -/
def finish (durationMs : Numeral → Numeral → Numeral) (span : OpenSpan)
    (endTimeUnixNano : Numeral) : FinishedSpan where
  traceId := span.traceId
  spanId := span.spanId
  parentSpanId := span.parentSpanId
  name := span.name
  kind := span.kind.getD (.finite "1")
  startTimeUnixNano := span.startTimeUnixNano
  endTimeUnixNano := endTimeUnixNano
  durationMs := durationMs span.startTimeUnixNano endTimeUnixNano
  attributes := span.attributes
  statusCode := span.statusCode
  statusMessage := span.statusMessage
  events := span.events

end OpenSpan

/-- The span of `startCycle`. -/
def rootSpan (attrs : CycleSpanAttrs) (traceId : Utf16) (drawn : SpanStart) : OpenSpan where
  traceId := traceId
  spanId := drawn.spanId
  parentSpanId := none
  name := ascii "cycle.run"
  kind := drawn.kind
  startTimeUnixNano := drawn.startTimeUnixNano
  attributes :=
    [(ascii "kovael.cycle.id", .string attrs.cycleId),
      (ascii "kovael.task.hash", .string attrs.taskHash)]
  statusCode := .finite "0"
  statusMessage := none
  events := []

/-- The child span of `runTriadPhase`. -/
def phaseSpan (phase : TriadSpanName) (attrs : TriadSpanAttrs) (traceId rootSpanId : Utf16)
    (drawn : SpanStart) : OpenSpan where
  traceId := traceId
  spanId := drawn.spanId
  parentSpanId := some rootSpanId
  name := phase.text
  kind := drawn.kind
  startTimeUnixNano := drawn.startTimeUnixNano
  attributes :=
    [(ascii "gen_ai.system", .string attrs.system),
      (ascii "gen_ai.request.model", .string attrs.model),
      (ascii "kovael.cycle.id", .string attrs.cycleId),
      (ascii "kovael.task.hash", .string attrs.taskHash),
      (ascii "kovael.agent.id", .string attrs.agentId)]
  statusCode := .finite "0"
  statusMessage := none
  events := []

/-- How the body of a phase ended: with what `usageOf` read from the result, or with the
message of what was thrown and the event that records it. -/
inductive PhaseOutcome where
  | returned (usage : Option TriadSpanUsage)
  | threw (message : Option Utf16) (exception : SpanEvent)

/-- What `runTriadPhase` does to the child span before it ends it. -/
def PhaseOutcome.mark (outcome : PhaseOutcome) (span : OpenSpan) : OpenSpan :=
  match outcome with
  | .returned usage =>
    let inputTokens := usage.bind TriadSpanUsage.inputTokens
    let outputTokens := usage.bind TriadSpanUsage.outputTokens
    let span :=
      match inputTokens with
      | some n => span.setAttribute "kovael.gen_ai.response.estimated_input_tokens" (.number n)
      | none => span
    let span :=
      match outputTokens with
      | some n => span.setAttribute "kovael.gen_ai.response.estimated_output_tokens" (.number n)
      | none => span
    let span :=
      if inputTokens.isSome || outputTokens.isSome then
        span.setAttribute "kovael.gen_ai.token_count_estimated" (.bool true)
      else span
    span.setStatus "1" none
  | .threw message exception => (span.recordException exception).setStatus "2" message

/-- What `end(status, message)` of a handle sets. -/
inductive CycleStatus where
  | ok
  | error (message : Option Utf16)

def CycleStatus.mark (status : CycleStatus) (span : OpenSpan) : OpenSpan :=
  match status with
  | .ok => span.setStatus "1" none
  | .error message => span.setStatus "2" message

/-! ## The bridge -/

/-- An entry of `cycleByTraceRoot`. -/
structure CycleRoot where
  cycleId : Utf16
  rootSpanId : Utf16
  startedAt : Numeral

/-- The maps and the ring of `TracingBridge`, and what was put into the ring. -/
structure Processor where
  ring : Recorded
  spansByTrace : OrderedMap Utf16 (List FinishedSpan)
  cycleByTraceRoot : OrderedMap Utf16 CycleRoot
  puts : List CycleTrace

/-- The bridge, the tracer and the handles that were given out. -/
structure Traced where
  processor : Processor
  ready : Bool
  /-- The spans that have not ended, by their identifiers. -/
  live : OrderedMap Utf16 OpenSpan
  /-- The identifiers of spans that were drawn. -/
  spanIds : List Utf16
  /-- The handles, by their traces. -/
  handles : OrderedMap Utf16 CycleRoot
  ended : List FinishedSpan

inductive TracingEvent where
  | start
  | shutdown
  | startCycle (attrs : CycleSpanAttrs) (traceId : Utf16) (drawn : SpanStart) (startedAt : Numeral)
  | startPhase (traceId : Utf16) (phase : TriadSpanName) (attrs : TriadSpanAttrs)
      (drawn : SpanStart)
  | endPhase (spanId : Utf16) (outcome : PhaseOutcome) (endTime now : Numeral)
  | endCycle (traceId : Utf16) (status : CycleStatus) (endTime now : Numeral)
  | trimTo (retained : Js.Number)

section

variable (heap : Heap) (durationMs : Numeral → Numeral → Numeral)

/-- `onEnd(span)`, once the span is read. -/
def Processor.onEnd (p : Processor) (finished : FinishedSpan) (now : Numeral) : Processor :=
  let bucket := (p.spansByTrace.get? finished.traceId).getD [] ++ [finished]
  let p := { p with spansByTrace := p.spansByTrace.set finished.traceId bucket }
  match p.cycleByTraceRoot.get? finished.traceId with
  | none => p
  | some root =>
    if root.rootSpanId = finished.spanId then
      let cycleTrace : CycleTrace :=
        { cycleId := root.cycleId
          traceId := finished.traceId
          rootSpanId := finished.spanId
          startedAt := root.startedAt
          endedAt := now
          spans := bucket }
      { ring := p.ring.step (.put heap cycleTrace)
        spansByTrace := p.spansByTrace.delete finished.traceId
        cycleByTraceRoot := p.cycleByTraceRoot.delete finished.traceId
        puts := p.puts ++ [cycleTrace] }
    else p

namespace Traced

/-- The state with one more open span. -/
def withSpan (s : Traced) (span : OpenSpan) : Traced :=
  { s with
    live := s.live.set span.spanId span
    spanIds := span.spanId :: s.spanIds }

/-- A new span: its identifier is one that was not drawn before. -/
def open? (s : Traced) (span : OpenSpan) : Option Traced :=
  if span.spanId ∈ s.spanIds then none else some (s.withSpan span)

/-- `span.end()`: the span is handed to the processor, unless it ended before. -/
def finish (s : Traced) (spanId : Utf16) (mark : OpenSpan → OpenSpan) (endTime now : Numeral) :
    Traced :=
  match s.live.get? spanId with
  | none => s
  | some span =>
    let finished := (mark span).finish durationMs endTime
    { s with
      processor := s.processor.onEnd heap finished now
      live := s.live.delete spanId
      ended := s.ended ++ [finished] }

def step (s : Traced) : TracingEvent → Option Traced
  | .start => some { s with ready := true }
  | .shutdown => some { s with ready := false }
  | .startCycle attrs traceId drawn startedAt =>
    -- not ready: the handle does nothing
    if s.ready = false then some s
    else if s.handles.has traceId then none
    else
      (s.open? (rootSpan attrs traceId drawn)).map fun s =>
        let root : CycleRoot := ⟨attrs.cycleId, drawn.spanId, startedAt⟩
        { s with
          processor := { s.processor with
            cycleByTraceRoot := s.processor.cycleByTraceRoot.set traceId root }
          handles := s.handles.set traceId root }
  | .startPhase traceId phase attrs drawn =>
    (s.handles.get? traceId).bind fun root =>
      s.open? (phaseSpan phase attrs traceId root.rootSpanId drawn)
  | .endPhase spanId outcome endTime now =>
    if (s.handles.values.any fun root => root.rootSpanId = spanId) then none
    else some (s.finish heap durationMs spanId outcome.mark endTime now)
  | .endCycle traceId status endTime now =>
    (s.handles.get? traceId).map fun root =>
      s.finish heap durationMs root.rootSpanId status.mark endTime now
  | .trimTo retained => some { s with
      processor := { s.processor with ring := s.processor.ring.step (.trimTo retained) } }

end Traced

/-- The bridge that was made on a buffer. -/
def tracing (buffer : TraceRingBuffer) : Lts Traced TracingEvent where
  init :=
    { processor := ⟨⟨buffer, [], fun _ => none⟩, .empty, .empty, []⟩
      ready := false
      live := .empty
      spanIds := []
      handles := .empty
      ended := [] }
  step := Traced.step heap durationMs

end

/-! ## Where a span is -/

/-- The spans of a trace that ended, in the order in which they did. -/
def Traced.endedOf (s : Traced) (traceId : Utf16) : List FinishedSpan :=
  s.ended.filter fun span => span.traceId = traceId

/-- The spans of a trace that were put. -/
def Processor.putOf (p : Processor) (traceId : Utf16) : List FinishedSpan :=
  (p.puts.filter fun trace => trace.traceId = traceId).flatMap CycleTrace.spans

/-- The bucket of a trace. -/
def Processor.bucketOf (p : Processor) (traceId : Utf16) : List FinishedSpan :=
  (p.spansByTrace.get? traceId).getD []

/-- A trace that was put is that of a cycle: its phases, and the root at its end. -/
structure EndsAtRoot (handles : OrderedMap Utf16 CycleRoot) (trace : CycleTrace) : Prop where
  handle : handles.get? trace.traceId =
    some ⟨trace.cycleId, trace.rootSpanId, trace.startedAt⟩
  spans : ∃ phases root, trace.spans = phases ++ [root] ∧
    (root.spanId = trace.rootSpanId ∧ root.parentSpanId = none) ∧
    ∀ phase ∈ phases, phase.parentSpanId = some trace.rootSpanId

/-- The span is the root of the cycle, or a child of it. -/
def Belongs (root : CycleRoot) (spanId : Utf16) (parentSpanId : Option Utf16) : Prop :=
  (spanId = root.rootSpanId ∧ parentSpanId = none) ∨
    (spanId ≠ root.rootSpanId ∧ parentSpanId = some root.rootSpanId)

/-- What the tracer keeps: every span that was drawn is open or ended once, and belongs to the
cycle of its trace. -/
structure Drawn (s : Traced) : Prop where
  handle : ∀ t root, s.handles.get? t = some root → root.rootSpanId ∈ s.spanIds
  apart : ∀ t root t' root', s.handles.get? t = some root → s.handles.get? t' = some root' →
    root.rootSpanId = root'.rootSpanId → t = t'
  live : ∀ id span, s.live.get? id = some span → span.spanId = id ∧ id ∈ s.spanIds ∧
    ∃ root, s.handles.get? span.traceId = some root ∧ Belongs root id span.parentSpanId
  home : ∀ t root span, s.handles.get? t = some root →
    s.live.get? root.rootSpanId = some span → span.traceId = t
  ended : ∀ span ∈ s.ended, span.spanId ∈ s.spanIds ∧ s.live.get? span.spanId = none ∧
    ∃ root, s.handles.get? span.traceId = some root ∧
      Belongs root span.spanId span.parentSpanId
  once : (s.ended.map FinishedSpan.spanId).Nodup
  started : ∀ t root, s.handles.get? t = some root →
    s.live.has root.rootSpanId = true ∨ root.rootSpanId ∈ s.ended.map FinishedSpan.spanId

/-- What the processor keeps. -/
structure Filed (s : Traced) : Prop where
  roots : ∀ t root, s.processor.cycleByTraceRoot.get? t = some root ↔
    s.handles.get? t = some root ∧ s.live.has root.rootSpanId = true
  spans : ∀ t, s.processor.putOf t ++ s.processor.bucketOf t = s.endedOf t
  puts : s.processor.puts.map (fun trace => (trace.traceId, trace.rootSpanId)) =
    (s.ended.filter fun span => span.parentSpanId = none).map
      fun span => (span.traceId, span.spanId)
  cut : ∀ trace ∈ s.processor.puts, EndsAtRoot s.handles trace
  /-- There is no empty bucket. -/
  filled : ∀ t, s.processor.spansByTrace.get? t ≠ some []

/-! ## New spans -/

theorem open?_some {s s' : Traced} {span : OpenSpan} (h : s.open? span = some s') :
    span.spanId ∉ s.spanIds ∧ s' = s.withSpan span := by
  unfold Traced.open? at h
  split at h
  next => exact absurd h (by simp)
  next hnew => exact ⟨hnew, (Option.some.inj h).symm⟩

theorem ne_of_drawn {ids : List Utf16} {id id' : Utf16} (hnew : id ∉ ids) (hid : id' ∈ ids) :
    id' ≠ id :=
  fun heq => hnew (heq ▸ hid)

theorem withSpan_get? (s : Traced) (span : OpenSpan) {id : Utf16} (h : id ≠ span.spanId) :
    (s.withSpan span).live.get? id = s.live.get? id :=
  OrderedMap.get?_set_ne _ _ h

theorem withSpan_has (s : Traced) (span : OpenSpan) {id : Utf16} (h : id ≠ span.spanId) :
    (s.withSpan span).live.has id = s.live.has id := by
  rw [OrderedMap.has, withSpan_get? s span h, OrderedMap.has]

theorem drawn_withSpan {s : Traced} (h : Drawn s) {span : OpenSpan} {root : CycleRoot}
    (hnew : span.spanId ∉ s.spanIds) (hroot : s.handles.get? span.traceId = some root)
    (hparent : span.parentSpanId = some root.rootSpanId) : Drawn (s.withSpan span) := by
  refine ⟨?_, h.apart, ?_, ?_, ?_, h.once, ?_⟩
  · exact fun t' root' hroot' => List.mem_cons_of_mem _ (h.handle t' root' hroot')
  · intro id span' hlive
    rcases OrderedMap.get?_set_some hlive with ⟨rfl, rfl⟩ | ⟨_, hold⟩
    · refine ⟨rfl, List.mem_cons_self .., root, hroot, Or.inr ⟨?_, hparent⟩⟩
      exact (ne_of_drawn hnew (h.handle _ root hroot)).symm
    · obtain ⟨hkey, hmem, hbelongs⟩ := h.live id span' hold
      exact ⟨hkey, List.mem_cons_of_mem _ hmem, hbelongs⟩
  · intro t' root' span' hroot' hlive
    rw [withSpan_get? s span (ne_of_drawn hnew (h.handle t' root' hroot'))] at hlive
    exact h.home t' root' span' hroot' hlive
  · intro span' hmem
    obtain ⟨hid, hlive, hbelongs⟩ := h.ended span' hmem
    refine ⟨List.mem_cons_of_mem _ hid, ?_, hbelongs⟩
    rw [withSpan_get? s span (ne_of_drawn hnew hid)]
    exact hlive
  · intro t' root' hroot'
    rw [withSpan_has s span (ne_of_drawn hnew (h.handle t' root' hroot'))]
    exact h.started t' root' hroot'

theorem filed_withSpan {s : Traced} (hdrawn : Drawn s) (h : Filed s) {span : OpenSpan}
    (hnew : span.spanId ∉ s.spanIds) : Filed (s.withSpan span) := by
  refine ⟨?_, h.spans, h.puts, h.cut, h.filled⟩
  intro t' root'
  refine (h.roots t' root').trans (and_congr_right fun hroot' => ?_)
  rw [withSpan_has s span (ne_of_drawn hnew (hdrawn.handle t' root' hroot'))]

section

variable {s s' : Traced} {attrs : CycleSpanAttrs} {t : Utf16} {drawn : SpanStart}
  {startedAt : Numeral}

/-- The state after `startCycle` of a bridge that is ready. -/
def Traced.withCycle (s : Traced) (attrs : CycleSpanAttrs) (t : Utf16) (drawn : SpanStart)
    (startedAt : Numeral) : Traced :=
  { s.withSpan (rootSpan attrs t drawn) with
    processor := { s.processor with
      cycleByTraceRoot := s.processor.cycleByTraceRoot.set t
        ⟨attrs.cycleId, drawn.spanId, startedAt⟩ }
    handles := s.handles.set t ⟨attrs.cycleId, drawn.spanId, startedAt⟩ }

theorem drawn_startCycle (h : Drawn s) (hfresh : s.handles.get? t = none)
    (hnew : drawn.spanId ∉ s.spanIds) : Drawn (s.withCycle attrs t drawn startedAt) := by
  have hne : ∀ id ∈ s.spanIds, id ≠ (rootSpan attrs t drawn).spanId :=
    fun id hid => ne_of_drawn hnew hid
  have hkeep : ∀ t' root', s.handles.get? t' = some root' →
      (s.withCycle attrs t drawn startedAt).handles.get? t' = some root' := by
    intro t' root' hroot'
    refine (OrderedMap.get?_set_ne _ _ ?_).trans hroot'
    intro heq
    rw [heq, hfresh] at hroot'
    exact absurd hroot' (by simp)
  refine ⟨?_, ?_, ?_, ?_, ?_, h.once, ?_⟩
  · intro t' root' hroot'
    rcases OrderedMap.get?_set_some hroot' with ⟨_, rfl⟩ | ⟨_, hold⟩
    · exact List.mem_cons_self ..
    · exact List.mem_cons_of_mem _ (h.handle t' root' hold)
  · intro t₁ root₁ t₂ root₂ h₁ h₂ heq
    -- an identifier that was drawn before is not the new one
    rcases OrderedMap.get?_set_some h₁ with ⟨ht₁, hr₁⟩ | ⟨_, hold₁⟩ <;>
      rcases OrderedMap.get?_set_some h₂ with ⟨ht₂, hr₂⟩ | ⟨_, hold₂⟩
    · exact ht₁.trans ht₂.symm
    · rw [hr₁] at heq
      exact absurd heq.symm (hne _ (h.handle t₂ root₂ hold₂))
    · rw [hr₂] at heq
      exact absurd heq (hne _ (h.handle t₁ root₁ hold₁))
    · exact h.apart t₁ root₁ t₂ root₂ hold₁ hold₂ heq
  · intro id span hlive
    rcases OrderedMap.get?_set_some hlive with ⟨rfl, rfl⟩ | ⟨_, hold⟩
    · exact ⟨rfl, List.mem_cons_self .., _, OrderedMap.get?_set_self .., Or.inl ⟨rfl, rfl⟩⟩
    · obtain ⟨hkey, hmem, root, hroot, hbelongs⟩ := h.live id span hold
      exact ⟨hkey, List.mem_cons_of_mem _ hmem, root, hkeep _ _ hroot, hbelongs⟩
  · intro t' root' span' hroot' hlive
    rcases OrderedMap.get?_set_some hroot' with ⟨rfl, rfl⟩ | ⟨_, hold⟩
    · rcases OrderedMap.get?_set_some hlive with ⟨_, rfl⟩ | ⟨hother, _⟩
      · rfl
      · exact absurd rfl hother
    · refine h.home t' root' span' hold ?_
      exact (withSpan_get? s _ (hne _ (h.handle t' root' hold))).symm.trans hlive
  · intro span hmem
    obtain ⟨hid, hlive, root, hroot, hbelongs⟩ := h.ended span hmem
    refine ⟨List.mem_cons_of_mem _ hid, ?_, root, hkeep _ _ hroot, hbelongs⟩
    exact (withSpan_get? s _ (hne _ hid)).trans hlive
  · intro t' root' hroot'
    rcases OrderedMap.get?_set_some hroot' with ⟨_, rfl⟩ | ⟨_, hold⟩
    · refine Or.inl ?_
      show (s.live.set drawn.spanId _).has drawn.spanId = true
      rw [OrderedMap.has, OrderedMap.get?_set_self, Option.isSome_some]
    · show (s.withSpan (rootSpan attrs t drawn)).live.has root'.rootSpanId = true ∨ _
      rw [withSpan_has s _ (hne _ (h.handle t' root' hold))]
      exact h.started t' root' hold

theorem filed_startCycle (hdrawn : Drawn s) (h : Filed s) (hfresh : s.handles.get? t = none)
    (hnew : drawn.spanId ∉ s.spanIds) : Filed (s.withCycle attrs t drawn startedAt) := by
  have hother : ∀ t' root', s.handles.get? t' = some root' → t' ≠ t := by
    intro t' root' hroot' heq
    rw [heq, hfresh] at hroot'
    exact absurd hroot' (by simp)
  refine ⟨?_, h.spans, h.puts, ?_, h.filled⟩
  · intro t' root'
    show (s.processor.cycleByTraceRoot.set t _).get? t' = some root' ↔
      (s.handles.set t _).get? t' = some root' ∧
        (s.withSpan (rootSpan attrs t drawn)).live.has _ = true
    rw [OrderedMap.get?_set, OrderedMap.get?_set]
    split
    next =>
      constructor
      · intro hroot'
        refine ⟨hroot', ?_⟩
        rw [← Option.some.inj hroot']
        show (s.live.set drawn.spanId _).has drawn.spanId = true
        rw [OrderedMap.has, OrderedMap.get?_set_self, Option.isSome_some]
      · exact fun hboth => hboth.1
    next =>
      rw [h.roots]
      refine and_congr_right fun hroot' => ?_
      rw [withSpan_has s _ (ne_of_drawn hnew (hdrawn.handle t' root' hroot'))]
  · intro trace hmem
    have hcut := h.cut trace hmem
    refine ⟨?_, hcut.spans⟩
    exact (OrderedMap.get?_set_ne _ _ (hother _ _ hcut.handle)).trans hcut.handle

end

/-! ## Spans that end -/

/-- What is set on a span before it ends leaves its name and its identifiers. -/
structure KeepsIds (mark : OpenSpan → OpenSpan) : Prop where
  name : ∀ span, (mark span).name = span.name
  traceId : ∀ span, (mark span).traceId = span.traceId
  spanId : ∀ span, (mark span).spanId = span.spanId
  parentSpanId : ∀ span, (mark span).parentSpanId = span.parentSpanId

theorem keepsIds_cycleStatus (status : CycleStatus) : KeepsIds status.mark := by
  cases status with
  | ok => exact ⟨fun _ => rfl, fun _ => rfl, fun _ => rfl, fun _ => rfl⟩
  | error message => exact ⟨fun _ => rfl, fun _ => rfl, fun _ => rfl, fun _ => rfl⟩

theorem keepsIds_phaseOutcome (outcome : PhaseOutcome) : KeepsIds outcome.mark := by
  cases outcome with
  | threw message exception => exact ⟨fun _ => rfl, fun _ => rfl, fun _ => rfl, fun _ => rfl⟩
  | returned usage =>
    cases hinput : usage.bind TriadSpanUsage.inputTokens <;>
      cases houtput : usage.bind TriadSpanUsage.outputTokens <;>
      refine ⟨?_, ?_, ?_, ?_⟩ <;> intro span <;>
      simp only [PhaseOutcome.mark, hinput, houtput] <;> rfl

section

variable {heap : Heap} {durationMs : Numeral → Numeral → Numeral}

theorem onEnd_phase {p : Processor} {finished : FinishedSpan} (now : Numeral)
    (h : ∀ root, p.cycleByTraceRoot.get? finished.traceId = some root →
      root.rootSpanId ≠ finished.spanId) :
    p.onEnd heap finished now = { p with
      spansByTrace := p.spansByTrace.set finished.traceId
        (p.bucketOf finished.traceId ++ [finished]) } := by
  unfold Processor.onEnd Processor.bucketOf
  cases hroot : p.cycleByTraceRoot.get? finished.traceId with
  | none => simp only [hroot]
  | some root => simp only [hroot, if_neg (h root hroot)]

/-- The trace that is put when the root of a cycle ends. -/
def traceAt (root : CycleRoot) (finished : FinishedSpan) (bucket : List FinishedSpan)
    (now : Numeral) : CycleTrace where
  cycleId := root.cycleId
  traceId := finished.traceId
  rootSpanId := finished.spanId
  startedAt := root.startedAt
  endedAt := now
  spans := bucket ++ [finished]

@[simp] theorem traceAt_traceId (root : CycleRoot) (finished : FinishedSpan)
    (bucket : List FinishedSpan) (now : Numeral) :
    (traceAt root finished bucket now).traceId = finished.traceId := rfl

theorem onEnd_root {p : Processor} {finished : FinishedSpan} (now : Numeral) {root : CycleRoot}
    (hroot : p.cycleByTraceRoot.get? finished.traceId = some root)
    (hid : root.rootSpanId = finished.spanId) :
    p.onEnd heap finished now =
      let trace := traceAt root finished (p.bucketOf finished.traceId) now
      { ring := p.ring.step (.put heap trace)
        spansByTrace := (p.spansByTrace.set finished.traceId trace.spans).delete finished.traceId
        cycleByTraceRoot := p.cycleByTraceRoot.delete finished.traceId
        puts := p.puts ++ [trace] } := by
  unfold Processor.onEnd
  simp only [hroot, if_pos hid]
  rfl

theorem finish_none {s : Traced} {spanId : Utf16} (mark : OpenSpan → OpenSpan)
    (endTime now : Numeral) (h : s.live.get? spanId = none) :
    s.finish heap durationMs spanId mark endTime now = s := by
  rw [Traced.finish, h]

theorem finish_some {s : Traced} {spanId : Utf16} {span : OpenSpan} (mark : OpenSpan → OpenSpan)
    (endTime now : Numeral) (h : s.live.get? spanId = some span) :
    s.finish heap durationMs spanId mark endTime now =
      { s with
        processor := s.processor.onEnd heap ((mark span).finish durationMs endTime) now
        live := s.live.delete spanId
        ended := s.ended ++ [(mark span).finish durationMs endTime] } := by
  rw [Traced.finish, h]

theorem drawn_finish {s : Traced} (h : Drawn s) {spanId : Utf16} {mark : OpenSpan → OpenSpan}
    (hmark : KeepsIds mark) (endTime now : Numeral) :
    Drawn (s.finish heap durationMs spanId mark endTime now) := by
  cases hlive : s.live.get? spanId with
  | none =>
    rw [finish_none mark endTime now hlive]
    exact h
  | some span =>
    rw [finish_some mark endTime now hlive]
    obtain ⟨hkey, hmem, root, hroot, hbelongs⟩ := h.live spanId span hlive
    have hid : ((mark span).finish durationMs endTime).spanId = spanId :=
      (hmark.spanId span).trans hkey
    refine ⟨h.handle, h.apart, ?_, ?_, ?_, ?_, ?_⟩
    · intro id span' hspan'
      obtain ⟨_, hold⟩ := OrderedMap.get?_delete_some hspan'
      exact h.live id span' hold
    · intro t' root' span' hroot' hspan'
      exact h.home t' root' span' hroot' (OrderedMap.get?_delete_some hspan').2
    · intro span' hspan'
      rcases List.mem_append.mp hspan' with hold | hnew
      · obtain ⟨hdrawn, hnone, hroot'⟩ := h.ended span' hold
        refine ⟨hdrawn, ?_, hroot'⟩
        show (s.live.delete spanId).get? span'.spanId = none
        rw [OrderedMap.get?_delete, hnone, ite_self]
      · rw [List.mem_singleton.mp hnew, hid]
        refine ⟨hmem, OrderedMap.get?_delete_self .., root, ?_, ?_⟩
        · exact (congrArg s.handles.get? (hmark.traceId span)).trans hroot
        · show Belongs root spanId (mark span).parentSpanId
          rw [hmark.parentSpanId]
          exact hbelongs
    · rw [List.map_append, List.nodup_append]
      refine ⟨h.once, List.nodup_singleton _, ?_⟩
      intro a ha b hb heq
      -- an ended span is not live
      obtain ⟨span', hspan', rfl⟩ := List.mem_map.mp ha
      rw [List.map_singleton, List.mem_singleton, hid] at hb
      have hnone := (h.ended span' hspan').2.1
      rw [heq.trans hb, hlive] at hnone
      exact absurd hnone (by simp)
    · intro t' root' hroot'
      show (s.live.delete spanId).has root'.rootSpanId = true ∨
        root'.rootSpanId ∈ (s.ended ++ [_]).map FinishedSpan.spanId
      rw [List.map_append, List.map_singleton, hid, List.mem_append, List.mem_singleton]
      by_cases heq : root'.rootSpanId = spanId
      · exact Or.inr (Or.inr heq)
      · rw [OrderedMap.has, OrderedMap.get?_delete_ne _ heq]
        exact (h.started t' root' hroot').imp_right Or.inl

theorem endedOf_append (s : Traced) (finished : FinishedSpan) (t : Utf16) :
    (s.ended ++ [finished]).filter (fun span => span.traceId = t) =
      s.endedOf t ++ if finished.traceId = t then [finished] else [] := by
  rw [List.filter_append, Traced.endedOf, List.filter_singleton]
  by_cases ht : finished.traceId = t <;> simp [ht]

theorem putOf_append (puts : List CycleTrace) (trace : CycleTrace) (t : Utf16) :
    ((puts ++ [trace]).filter fun trace => trace.traceId = t).flatMap CycleTrace.spans =
      (puts.filter fun trace => trace.traceId = t).flatMap CycleTrace.spans ++
        if trace.traceId = t then trace.spans else [] := by
  rw [List.filter_append, List.flatMap_append, List.filter_singleton]
  by_cases ht : trace.traceId = t <;> simp [ht]

/-- A phase that ends is added to the bucket of its trace. -/
theorem finish_phase_eq {s : Traced} (hdrawn : Drawn s) (h : Filed s) {spanId : Utf16}
    {span : OpenSpan} (hlive : s.live.get? spanId = some span) {mark : OpenSpan → OpenSpan}
    (hmark : KeepsIds mark) (endTime now : Numeral) {root : CycleRoot}
    (hroot : s.handles.get? span.traceId = some root) (hne : spanId ≠ root.rootSpanId) :
    s.finish heap durationMs spanId mark endTime now =
      let finished := (mark span).finish durationMs endTime
      { s with
        processor := { s.processor with
          spansByTrace := s.processor.spansByTrace.set span.traceId
            (s.processor.bucketOf span.traceId ++ [finished]) }
        live := s.live.delete spanId
        ended := s.ended ++ [finished] } := by
  have htrace : ((mark span).finish durationMs endTime).traceId = span.traceId :=
    hmark.traceId span
  have hid : ((mark span).finish durationMs endTime).spanId = spanId :=
    (hmark.spanId span).trans (hdrawn.live spanId span hlive).1
  have honEnd := @onEnd_phase heap s.processor ((mark span).finish durationMs endTime) now (by
      intro root' hroot' heq
      rw [htrace] at hroot'
      have hsame := ((h.roots _ _).mp hroot').1
      rw [hroot, Option.some.injEq] at hsame
      rw [hid, ← hsame] at heq
      exact hne heq.symm)
  rw [finish_some mark endTime now hlive, honEnd, htrace]

/-- A root that ends takes with it what was filed under its trace. -/
theorem finish_root_eq {s : Traced} (hdrawn : Drawn s) (h : Filed s) {root : CycleRoot}
    {span : OpenSpan} (hlive : s.live.get? root.rootSpanId = some span)
    {mark : OpenSpan → OpenSpan} (hmark : KeepsIds mark) (endTime now : Numeral)
    (hroot : s.handles.get? span.traceId = some root) :
    s.finish heap durationMs root.rootSpanId mark endTime now =
      let finished := (mark span).finish durationMs endTime
      let trace := traceAt root finished (s.processor.bucketOf span.traceId) now
      { s with
        processor :=
          { ring := s.processor.ring.step (.put heap trace)
            spansByTrace :=
              (s.processor.spansByTrace.set span.traceId trace.spans).delete span.traceId
            cycleByTraceRoot := s.processor.cycleByTraceRoot.delete span.traceId
            puts := s.processor.puts ++ [trace] }
        live := s.live.delete root.rootSpanId
        ended := s.ended ++ [finished] } := by
  have htrace : ((mark span).finish durationMs endTime).traceId = span.traceId :=
    hmark.traceId span
  have hid : ((mark span).finish durationMs endTime).spanId = root.rootSpanId :=
    (hmark.spanId span).trans (hdrawn.live _ span hlive).1
  have hopen : s.processor.cycleByTraceRoot.get? span.traceId = some root :=
    (h.roots _ _).mpr ⟨hroot, (OrderedMap.has_iff _ _).mpr ⟨span, hlive⟩⟩
  rw [finish_some mark endTime now hlive,
    onEnd_root now ((congrArg s.processor.cycleByTraceRoot.get? htrace).trans hopen) hid.symm,
    htrace]

/-- A phase that ends is filed under its trace. -/
theorem filed_finish_phase {s : Traced} (hdrawn : Drawn s) (h : Filed s) {spanId : Utf16}
    {span : OpenSpan} (hlive : s.live.get? spanId = some span) {mark : OpenSpan → OpenSpan}
    (hmark : KeepsIds mark) (endTime now : Numeral) {root : CycleRoot}
    (hroot : s.handles.get? span.traceId = some root) (hne : spanId ≠ root.rootSpanId)
    (hparent : span.parentSpanId = some root.rootSpanId) :
    Filed (s.finish heap durationMs spanId mark endTime now) := by
  have htrace : ((mark span).finish durationMs endTime).traceId = span.traceId :=
    hmark.traceId span
  rw [finish_phase_eq hdrawn h hlive hmark endTime now hroot hne]
  refine ⟨?_, ?_, ?_, h.cut, ?_⟩
  · intro t' root'
    refine (h.roots t' root').trans (and_congr_right fun hroot' => ?_)
    have hother : root'.rootSpanId ≠ spanId := by
      intro heq
      have hhome := hdrawn.home t' root' span hroot' (heq ▸ hlive)
      rw [hhome, hroot', Option.some.injEq] at hroot
      exact hne (hroot ▸ heq.symm)
    show _ ↔ (s.live.delete spanId).has root'.rootSpanId = true
    rw [OrderedMap.has, OrderedMap.has, OrderedMap.get?_delete_ne _ hother]
  · intro t'
    show s.processor.putOf t' ++ ((s.processor.spansByTrace.set _ _).get? t').getD [] = _
    refine Eq.trans ?_ (endedOf_append s _ t').symm
    rw [← h.spans t', List.append_assoc, OrderedMap.get?_set, htrace]
    by_cases ht : t' = span.traceId
    · rw [if_pos ht, if_pos ht.symm, ht]
      rfl
    · rw [if_neg ht, if_neg (Ne.symm ht), List.append_nil]
      rfl
  · show s.processor.puts.map _ = ((s.ended ++ [_]).filter _).map _
    have hfilter : [(mark span).finish durationMs endTime].filter
        (fun span => span.parentSpanId = none) = [] := by
      have hsome : ((mark span).finish durationMs endTime).parentSpanId = some root.rootSpanId :=
        (hmark.parentSpanId span).trans hparent
      simp [hsome]
    rw [h.puts, List.filter_append, hfilter, List.append_nil]
  · intro t' hempty
    rcases OrderedMap.get?_set_some hempty with ⟨_, hnil⟩ | ⟨_, hold⟩
    · exact absurd hnil.symm (by simp)
    · exact h.filled t' hold

/-- Nothing was put of the trace of a cycle whose root is live. -/
theorem putOf_live {s : Traced} (hdrawn : Drawn s) (h : Filed s) {t : Utf16} {root : CycleRoot}
    (hroot : s.handles.get? t = some root) {span : OpenSpan}
    (hlive : s.live.get? root.rootSpanId = some span) : s.processor.putOf t = [] := by
  have hfilter : s.processor.puts.filter (fun trace => trace.traceId = t) = [] := by
    rw [List.filter_eq_nil_iff]
    intro trace hmem htrace
    rw [decide_eq_true_eq] at htrace
    have hpair : (trace.traceId, trace.rootSpanId) ∈ s.processor.puts.map
        fun trace => (trace.traceId, trace.rootSpanId) :=
      List.mem_map_of_mem hmem
    rw [h.puts] at hpair
    obtain ⟨ended, hended, heq⟩ := List.mem_map.mp hpair
    have hnone := (hdrawn.ended ended (List.mem_of_mem_filter hended)).2.1
    have hhandle := (h.cut trace hmem).handle
    rw [htrace, hroot, Option.some.injEq] at hhandle
    have hsame : root.rootSpanId = trace.rootSpanId := congrArg CycleRoot.rootSpanId hhandle
    rw [(Prod.mk.inj heq).2, ← hsame, hlive] at hnone
    exact absurd hnone (by simp)
  rw [Processor.putOf, hfilter, List.flatMap_nil]

/-- What is filed under the trace of a cycle whose root is live are its phases. -/
theorem bucketOf_live {s : Traced} (hdrawn : Drawn s) (h : Filed s) {t : Utf16}
    {root : CycleRoot} (hroot : s.handles.get? t = some root) {span : OpenSpan}
    (hlive : s.live.get? root.rootSpanId = some span) :
    ∀ phase ∈ s.processor.bucketOf t, phase.parentSpanId = some root.rootSpanId := by
  intro phase hmem
  have hspans := h.spans t
  rw [putOf_live hdrawn h hroot hlive, List.nil_append] at hspans
  rw [hspans, Traced.endedOf, List.mem_filter, decide_eq_true_eq] at hmem
  obtain ⟨-, hnone, root', hroot', hbelongs⟩ := hdrawn.ended phase hmem.1
  rw [hmem.2, hroot, Option.some.injEq] at hroot'
  rw [← hroot'] at hbelongs
  rcases hbelongs with ⟨hid, -⟩ | ⟨-, hparent⟩
  · rw [hid, hlive] at hnone
    exact absurd hnone (by simp)
  · exact hparent

/-- The root of a cycle that ends leaves nothing behind. -/
theorem filed_finish_root {s : Traced} (hdrawn : Drawn s) (h : Filed s) {root : CycleRoot}
    {span : OpenSpan} (hlive : s.live.get? root.rootSpanId = some span)
    {mark : OpenSpan → OpenSpan} (hmark : KeepsIds mark) (endTime now : Numeral)
    (hroot : s.handles.get? span.traceId = some root) (hparent : span.parentSpanId = none) :
    Filed (s.finish heap durationMs root.rootSpanId mark endTime now) := by
  have htrace : ((mark span).finish durationMs endTime).traceId = span.traceId :=
    hmark.traceId span
  have hid : ((mark span).finish durationMs endTime).spanId = root.rootSpanId :=
    (hmark.spanId span).trans (hdrawn.live _ span hlive).1
  have hnone : ((mark span).finish durationMs endTime).parentSpanId = none :=
    (hmark.parentSpanId span).trans hparent
  rw [finish_root_eq hdrawn h hlive hmark endTime now hroot]
  refine ⟨?_, ?_, ?_, ?_, ?_⟩
  · intro t' root'
    show (s.processor.cycleByTraceRoot.delete _).get? t' = some root' ↔
      s.handles.get? t' = some root' ∧
        (s.live.delete root.rootSpanId).has root'.rootSpanId = true
    rw [OrderedMap.get?_delete, OrderedMap.has, OrderedMap.get?_delete]
    by_cases ht : t' = span.traceId
    · rw [if_pos ht]
      constructor
      · intro habsurd
        exact absurd habsurd (by simp)
      · intro hboth
        rw [ht, hroot, Option.some.injEq] at hboth
        rw [if_pos (congrArg CycleRoot.rootSpanId hboth.1.symm)] at hboth
        exact absurd hboth.2 (by simp)
    · rw [if_neg ht]
      refine (h.roots t' root').trans (and_congr_right fun hroot' => ?_)
      have hother : root'.rootSpanId ≠ root.rootSpanId := fun hsame =>
        ht (hdrawn.apart t' root' span.traceId root hroot' hroot hsame)
      rw [if_neg hother, OrderedMap.has]
  · intro t'
    show ((s.processor.puts ++ [_]).filter _).flatMap _ ++
      (((s.processor.spansByTrace.set _ _).delete _).get? t').getD [] = _
    refine Eq.trans ?_ (endedOf_append s _ t').symm
    rw [← h.spans t', putOf_append, OrderedMap.get?_delete, traceAt_traceId, htrace]
    by_cases ht : t' = span.traceId
    · rw [if_pos ht, if_pos ht.symm, if_pos ht.symm, Option.getD_none, List.append_nil,
        List.append_assoc, ht]
      rfl
    · rw [if_neg ht, if_neg (Ne.symm ht), if_neg (Ne.symm ht), OrderedMap.get?_set_ne _ _ ht,
        List.append_nil, List.append_nil]
      rfl
  · show (s.processor.puts ++ [_]).map _ = ((s.ended ++ [_]).filter _).map _
    have hfilter : [(mark span).finish durationMs endTime].filter
        (fun span => span.parentSpanId = none) = [(mark span).finish durationMs endTime] := by
      simp [hnone]
    rw [List.map_append, h.puts, List.filter_append, hfilter, List.map_append]
    rfl
  · intro trace hmem
    rcases List.mem_append.mp hmem with hold | hnew
    · exact h.cut trace hold
    · rw [List.mem_singleton.mp hnew]
      refine ⟨?_, _, _, rfl, ⟨rfl, hnone⟩, ?_⟩
      · show s.handles.get? ((mark span).finish durationMs endTime).traceId =
          some ⟨root.cycleId, ((mark span).finish durationMs endTime).spanId, root.startedAt⟩
        rw [htrace, hid, hroot]
      · show ∀ phase ∈ s.processor.bucketOf span.traceId,
          phase.parentSpanId = some ((mark span).finish durationMs endTime).spanId
        rw [hid]
        exact bucketOf_live hdrawn h hroot hlive
  · intro t' hempty
    obtain ⟨ht, hset⟩ := OrderedMap.get?_delete_some hempty
    rw [OrderedMap.get?_set_ne _ _ ht] at hset
    exact h.filled t' hset

theorem filed_finish {s : Traced} (hdrawn : Drawn s) (h : Filed s) {spanId : Utf16}
    {mark : OpenSpan → OpenSpan} (hmark : KeepsIds mark) (endTime now : Numeral) :
    Filed (s.finish heap durationMs spanId mark endTime now) := by
  cases hlive : s.live.get? spanId with
  | none =>
    rw [finish_none mark endTime now hlive]
    exact h
  | some span =>
    obtain ⟨-, -, root, hroot, hbelongs⟩ := hdrawn.live spanId span hlive
    rcases hbelongs with ⟨heq, hparent⟩ | ⟨hne, hparent⟩
    · rw [heq] at hlive ⊢
      exact filed_finish_root hdrawn h hlive hmark endTime now hroot hparent
    · exact filed_finish_phase hdrawn h hlive hmark endTime now hroot hne hparent

/-! ## Runs -/

/-- The trace that an event puts. -/
def BufferEvent.trace? : BufferEvent → Option CycleTrace
  | .put _ trace => some trace
  | .trimTo _ => none

/-- The ring is what a run of the buffer leads to, in which the traces were put. -/
def Fed (heap : Heap) (buffer : TraceRingBuffer) (p : Processor) : Prop :=
  ∃ es, (bufferRuns buffer).exec (bufferRuns buffer).init es = some p.ring ∧
    es.filterMap BufferEvent.trace? = p.puts ∧ ∀ h trace, .put h trace ∈ es → h = heap

theorem exec_snoc {buffer : TraceRingBuffer} {es : List BufferEvent} {ring : Recorded}
    (h : (bufferRuns buffer).exec (bufferRuns buffer).init es = some ring) (e : BufferEvent) :
    (bufferRuns buffer).exec (bufferRuns buffer).init (es ++ [e]) = some (ring.step e) :=
  Lts.exec_append.mpr ⟨ring, h, rfl⟩

theorem fed_onEnd {buffer : TraceRingBuffer} {p : Processor} (h : Fed heap buffer p)
    (finished : FinishedSpan) (now : Numeral) : Fed heap buffer (p.onEnd heap finished now) := by
  by_cases hroot : ∃ root, p.cycleByTraceRoot.get? finished.traceId = some root ∧
      root.rootSpanId = finished.spanId
  · obtain ⟨root, hget, hid⟩ := hroot
    obtain ⟨es, hrun, hputs, hheap⟩ := h
    rw [onEnd_root now hget hid]
    refine ⟨_, exec_snoc hrun
      (.put heap (traceAt root finished (p.bucketOf finished.traceId) now)), ?_, ?_⟩
    · rw [List.filterMap_append, hputs]
      rfl
    · intro h trace hmem
      rcases List.mem_append.mp hmem with hold | hnew
      · exact hheap h trace hold
      · exact (BufferEvent.put.inj (List.mem_singleton.mp hnew)).1
  · rw [onEnd_phase now fun root hget hid => hroot ⟨root, hget, hid⟩]
    exact h

theorem fed_finish {buffer : TraceRingBuffer} {s : Traced} (h : Fed heap buffer s.processor)
    (spanId : Utf16) (mark : OpenSpan → OpenSpan) (endTime now : Numeral) :
    Fed heap buffer (s.finish heap durationMs spanId mark endTime now).processor := by
  cases hlive : s.live.get? spanId with
  | none =>
    rw [finish_none mark endTime now hlive]
    exact h
  | some span =>
    rw [finish_some mark endTime now hlive]
    exact fed_onEnd h _ now

/-- The invariant of the runs. -/
structure Kept (heap : Heap) (buffer : TraceRingBuffer) (s : Traced) : Prop where
  drawn : Drawn s
  filed : Filed s
  fed : Fed heap buffer s.processor

/-- The invariant says nothing of the ring but how it was fed, and nothing of `ready`. -/
theorem Kept.withRing {buffer : TraceRingBuffer} {s : Traced} (h : Kept heap buffer s)
    {ring : Recorded} {ready : Bool} (hfed : Fed heap buffer { s.processor with ring := ring }) :
    Kept heap buffer { s with processor := { s.processor with ring := ring }, ready := ready } :=
  ⟨⟨h.drawn.handle, h.drawn.apart, h.drawn.live, h.drawn.home, h.drawn.ended, h.drawn.once,
    h.drawn.started⟩, ⟨h.filed.roots, h.filed.spans, h.filed.puts, h.filed.cut,
      h.filed.filled⟩, hfed⟩

theorem kept_init (buffer : TraceRingBuffer) :
    Kept heap buffer (tracing heap durationMs buffer).init := by
  have hnone : ∀ {α : Type} {k : Utf16} {v : α}, (OrderedMap.empty.get? k) ≠ some v := by
    intro α k v h
    exact absurd h (by simp)
  refine ⟨⟨?_, ?_, ?_, ?_, ?_, List.nodup_nil, ?_⟩, ⟨?_, fun _ => rfl, rfl, ?_, ?_⟩, [], rfl, rfl,
    ?_⟩
  · exact fun t root h => absurd h hnone
  · exact fun t root t' root' h => absurd h hnone
  · exact fun id span h => absurd h hnone
  · exact fun t root span h => absurd h hnone
  · exact fun span h => absurd h List.not_mem_nil
  · exact fun t root h => absurd h hnone
  · exact fun t root => ⟨fun h => absurd h hnone, fun h => absurd h.1 hnone⟩
  · exact fun trace h => absurd h List.not_mem_nil
  · exact fun t h => absurd h hnone
  · exact fun h trace hmem => absurd hmem List.not_mem_nil

/-- What `startCycle` of a bridge that is ready leads to. -/
theorem step_startCycle {s s' : Traced} {attrs : CycleSpanAttrs} {t : Utf16} {drawn : SpanStart}
    {startedAt : Numeral} (hready : s.ready = true)
    (h : s.step heap durationMs (.startCycle attrs t drawn startedAt) = some s') :
    s.handles.get? t = none ∧ drawn.spanId ∉ s.spanIds ∧
      s' = s.withCycle attrs t drawn startedAt := by
  simp only [Traced.step, hready, Bool.true_eq_false, if_false] at h
  split at h
  next => exact absurd h (by simp)
  next hfresh =>
    obtain ⟨opened, hopen, heq⟩ := Option.map_eq_some_iff.mp h
    obtain ⟨hnew, rfl⟩ := open?_some hopen
    refine ⟨?_, hnew, heq.symm⟩
    cases hget : s.handles.get? t with
    | none => rfl
    | some root => exact absurd ((OrderedMap.has_iff _ _).mpr ⟨root, hget⟩) hfresh

theorem kept_step {buffer : TraceRingBuffer} {s s' : Traced} (h : Kept heap buffer s)
    {e : TracingEvent} (hst : s.step heap durationMs e = some s') : Kept heap buffer s' := by
  cases e with
  | start | shutdown =>
    rw [Traced.step, Option.some.injEq] at hst
    rw [← hst]
    exact h.withRing h.fed
  | startCycle attrs t drawn startedAt =>
    cases hready : s.ready with
    | false =>
      rw [Traced.step, if_pos hready, Option.some.injEq] at hst
      exact hst ▸ h
    | true =>
      obtain ⟨hfresh, hnew, rfl⟩ := step_startCycle hready hst
      exact ⟨drawn_startCycle h.drawn hfresh hnew, filed_startCycle h.drawn h.filed hfresh hnew,
        h.fed⟩
  | startPhase t phase attrs drawn =>
    obtain ⟨root, hroot, hopen⟩ := Option.bind_eq_some_iff.mp hst
    obtain ⟨hnew, rfl⟩ := open?_some hopen
    exact ⟨drawn_withSpan h.drawn hnew hroot rfl, filed_withSpan h.drawn h.filed hnew, h.fed⟩
  | endPhase spanId outcome endTime now =>
    rw [Traced.step] at hst
    split at hst
    next => exact absurd hst (by simp)
    next =>
      rw [← Option.some.inj hst]
      have hmark := keepsIds_phaseOutcome outcome
      exact ⟨drawn_finish h.drawn hmark endTime now, filed_finish h.drawn h.filed hmark endTime now,
        fed_finish h.fed _ _ _ _⟩
  | endCycle t status endTime now =>
    obtain ⟨root, -, rfl⟩ := Option.map_eq_some_iff.mp hst
    have hmark := keepsIds_cycleStatus status
    exact ⟨drawn_finish h.drawn hmark endTime now, filed_finish h.drawn h.filed hmark endTime now,
      fed_finish h.fed _ _ _ _⟩
  | trimTo retained =>
    rw [Traced.step, Option.some.injEq] at hst
    rw [← hst]
    obtain ⟨es, hrun, hputs, hheap⟩ := h.fed
    refine h.withRing ⟨_, exec_snoc hrun (.trimTo retained), ?_, ?_⟩
    · rw [List.filterMap_append, hputs]
      exact List.append_nil _
    · intro heap' trace hmem
      rcases List.mem_append.mp hmem with hold | hnew
      · exact hheap heap' trace hold
      · exact absurd (List.mem_singleton.mp hnew) (by simp)

theorem kept_run {buffer : TraceRingBuffer} {es : List TracingEvent} {s : Traced}
    (hrun : (tracing heap durationMs buffer).exec (tracing heap durationMs buffer).init es
      = some s) : Kept heap buffer s := by
  refine Lts.exec_invariant (I := Kept heap buffer) (C := fun _ _ => True) ?_ es (kept_init buffer)
    hrun (Lts.along_true es _)
  exact fun s e t hs _ hst => kept_step hs hst

/-- In every state of every run, whatever the order in which the spans of the cycles start and
end: each span that ended is in one place, the trace that was put or the bucket of its trace, in
the order in which it ended; one trace was put for every root that ended, in that order, and it
is the phases of its cycle that ended before the root, and the root; the processor waits for
just the roots that are live; and the ring is what a run of the buffer leads to that puts these
traces. -/
theorem spans_filed_once (heap : Heap) (durationMs : Numeral → Numeral → Numeral)
    (buffer : TraceRingBuffer) (es : List TracingEvent) (s : Traced)
    (hrun : (tracing heap durationMs buffer).exec (tracing heap durationMs buffer).init es
      = some s) :
    (s.ended.map FinishedSpan.spanId).Nodup ∧
      (∀ t, s.processor.putOf t ++ s.processor.bucketOf t = s.endedOf t) ∧
      s.processor.puts.map (fun trace => (trace.traceId, trace.rootSpanId)) =
        (s.ended.filter fun span => span.parentSpanId = none).map
          (fun span => (span.traceId, span.spanId)) ∧
      (∀ trace ∈ s.processor.puts, EndsAtRoot s.handles trace) ∧
      (∀ t root, s.processor.cycleByTraceRoot.get? t = some root ↔
        s.handles.get? t = some root ∧ s.live.has root.rootSpanId = true) ∧
      Fed heap buffer s.processor := by
  have h := kept_run hrun
  exact ⟨h.drawn.once, h.filed.spans, h.filed.puts, h.filed.cut, h.filed.roots, h.fed⟩

end

/-- A span that is drawn at time zero. -/
def drawnAt (spanId : String) : SpanStart := ⟨ascii spanId, none, .finite "0"⟩

/-- Two cycles side by side; the first ends before its phase does. -/
def twoCycles : List TracingEvent :=
  let zero : Numeral := .finite "0"
  let attrs : TriadSpanAttrs := ⟨ascii "c", ascii "h", ascii "shaev", ascii "s", ascii "m"⟩
  [.start,
    .startCycle ⟨ascii "a", ascii "h"⟩ (ascii "t1") (drawnAt "r1") zero,
    .startCycle ⟨ascii "b", ascii "h"⟩ (ascii "t2") (drawnAt "r2") zero,
    .startPhase (ascii "t1") .architect attrs (drawnAt "p1"),
    .startPhase (ascii "t2") .architect attrs (drawnAt "p2"),
    .endPhase (ascii "p2") (.returned none) zero zero,
    .endCycle (ascii "t1") .ok zero zero,
    .endPhase (ascii "p1") (.returned none) zero zero,
    .endCycle (ascii "t2") .ok zero zero]

/-- The phase that ended too late stays in its bucket. -/
theorem late_phase_stays :
    let runs := tracing (fun _ => .record []) (fun _ _ => .finite "0") bufferOfTwo
    ∃ s, runs.exec runs.init twoCycles = some s ∧
      s.processor.putOf (ascii "t1") ++ s.processor.bucketOf (ascii "t1") =
        s.endedOf (ascii "t1") ∧
      (s.processor.bucketOf (ascii "t1")).map FinishedSpan.spanId = [ascii "p1"] ∧
      (s.processor.putOf (ascii "t2")).map FinishedSpan.spanId = [ascii "p2", ascii "r2"] := by
  refine ⟨_, rfl, ?_, by decide +kernel, by decide +kernel⟩
  exact (spans_filed_once (fun _ => .record []) (fun _ _ => .finite "0") bufferOfTwo twoCycles _
    rfl).2.1 (ascii "t1")

end Kovael.Trace
