import Kovael.Trace.Spans
import Mathlib.Data.List.Induction

/-!
# The traces of cycles

`src/MevBridge.ts`, `execute`, as the tracer sees it: a cycle opens its root, runs the roles one
after the other, each under a child span that ends before the next begins, and ends the root,
after the last role or in the `catch`. Any number of cycles run side by side. `cycles_traced`
says what every trace is, that a cycle leaves nothing behind in the bridge, and what the ring
lists.

Mirroring notes:
- Cycles begin once the bridge is ready; before that a cycle has no handle.
- `crypto.randomUUID()` does not draw a cycle twice.
- `end` is called once: the span of the tracer does not throw.
-/

namespace Kovael.Trace

open Js (OrderedMap Utf16)
open Js.Utf16 (ascii)

/-! ## Cycles side by side -/

/-- The roles, in the order in which they run. -/
def roles : List TriadSpanName := [.architect, .operator, .verifier]

/-- Where a cycle is: between two roles, inside one under its span, in its `catch` after a role
threw, or at its end. -/
inductive Position where
  | between (done : Nat)
  | inside (done : Nat) (spanId : Utf16)
  | failing
  | over

structure RunningCycle where
  attrs : CycleSpanAttrs
  /-- `routing.agent`. -/
  agent : Utf16
  position : Position

/-- `baseTriadAttrs`, with the agent of the role. -/
def RunningCycle.roleAttrs (c : RunningCycle) (role : TriadSpanName) : TriadSpanAttrs where
  cycleId := c.attrs.cycleId
  taskHash := c.attrs.taskHash
  agentId :=
    match role with
    | .architect => c.agent
    | .operator => ascii "operator-v1-nyx"
    | .verifier => ascii "verifier-v1-nyx"
  system := ascii "kovael-stub"
  model := ascii "stub-markov-v1"

/-- The bridge, and the cycles by their traces. -/
structure Running where
  traced : Traced
  cycles : OrderedMap Utf16 RunningCycle

inductive CycleEvent where
  | begin (attrs : CycleSpanAttrs) (agent traceId : Utf16) (drawn : SpanStart)
      (startedAt : Numeral)
  | enter (traceId : Utf16) (drawn : SpanStart)
  | leave (traceId : Utf16) (outcome : PhaseOutcome) (endTime now : Numeral)
  | finish (traceId : Utf16) (verified : Bool) (endTime now : Numeral)
  | fail (traceId : Utf16) (message : Option Utf16) (endTime now : Numeral)
  | trimTo (retained : Js.Number)

/-- Where a cycle is after a role. -/
def PhaseOutcome.next (outcome : PhaseOutcome) (done : Nat) : Position :=
  match outcome with
  | .returned _ => .between (done + 1)
  | .threw .. => .failing

/-- How the root ends after the last role. -/
def verdictStatus (verified : Bool) : CycleStatus :=
  if verified then .ok else .error (some (ascii "verification_failed"))

namespace Position

/-- How many roles are done, if none runs. -/
def done? : Position → Option Nat
  | .between done => some done
  | .inside .. | .failing | .over => none

/-- How many roles are done, and the span of the one that runs. -/
def inside? : Position → Option (Nat × Utf16)
  | .inside done spanId => some (done, spanId)
  | .between _ | .failing | .over => none

/-- The `catch` can be reached. -/
def throws : Position → Bool
  | .between _ | .failing => true
  | .inside .. | .over => false

end Position

section

variable (heap : Heap) (durationMs : Numeral → Numeral → Numeral)

namespace Running

/-- The bridge takes a step, and a cycle is at a position. -/
def moved (s : Running) (traceId : Utf16) (c : RunningCycle) (position : Position)
    (e : TracingEvent) : Option Running :=
  (s.traced.step heap durationMs e).map fun traced =>
    { s with traced, cycles := s.cycles.set traceId { c with position } }

def step (s : Running) : CycleEvent → Option Running
  | .begin attrs agent traceId drawn startedAt =>
    if s.cycles.values.any fun c => c.attrs.cycleId = attrs.cycleId then none
    else
      s.moved heap durationMs traceId ⟨attrs, agent, .between 0⟩ (.between 0)
        (.startCycle attrs traceId drawn startedAt)
  | .enter traceId drawn =>
    (s.cycles.get? traceId).bind fun c =>
      c.position.done?.bind fun done =>
        (roles[done]?).bind fun role =>
          s.moved heap durationMs traceId c (.inside done drawn.spanId)
            (.startPhase traceId role (c.roleAttrs role) drawn)
  | .leave traceId outcome endTime now =>
    (s.cycles.get? traceId).bind fun c =>
      c.position.inside?.bind fun role =>
        s.moved heap durationMs traceId c (outcome.next role.1)
          (.endPhase role.2 outcome endTime now)
  | .finish traceId verified endTime now =>
    (s.cycles.get? traceId).bind fun c =>
      if c.position.done? = some roles.length then
        s.moved heap durationMs traceId c .over
          (.endCycle traceId (verdictStatus verified) endTime now)
      else none
  | .fail traceId message endTime now =>
    (s.cycles.get? traceId).bind fun c =>
      if c.position.throws then
        s.moved heap durationMs traceId c .over (.endCycle traceId (.error message) endTime now)
      else none
  | .trimTo retained =>
    (s.traced.step heap durationMs (.trimTo retained)).map fun traced => { s with traced }

end Running

/-- The cycles of a bridge that is ready. -/
def cycleRuns (buffer : TraceRingBuffer) : Lts Running CycleEvent where
  init := ⟨{ (tracing heap durationMs buffer).init with ready := true }, .empty⟩
  step := Running.step heap durationMs

end

/-! ## What a trace is -/

/-- The attribute that names the cycle. -/
def cycleOf (attributes : List (Utf16 × Unknown)) : Option Unknown :=
  Js.getEntry (ascii "kovael.cycle.id") attributes

/-- The first roles of a cycle ran, each under one span of the trace that carries its cycle. -/
structure Ran (cycleId traceId : Utf16) (count : Nat) (spans : List FinishedSpan) : Prop where
  names : spans.map FinishedSpan.name = (roles.take count).map TriadSpanName.text
  carry : ∀ span ∈ spans, span.traceId = traceId ∧ cycleOf span.attributes = some (.string cycleId)

/-- Every role returned. -/
def AllOk (spans : List FinishedSpan) : Prop :=
  ∀ span ∈ spans, span.statusCode = .finite "1"

/-- A trace that was put: the first roles of the cycle, then its root, which ends in order only
if all three roles returned. -/
def OfCycle (trace : CycleTrace) : Prop :=
  ∃ count phases root, trace.spans = phases ++ [root] ∧
    Ran trace.cycleId trace.traceId count phases ∧
    root.name = ascii "cycle.run" ∧ root.spanId = trace.rootSpanId ∧
    root.traceId = trace.traceId ∧ cycleOf root.attributes = some (.string trace.cycleId) ∧
    (root.statusCode = .finite "1" → count = roles.length ∧ AllOk phases)

/-! ## Where the spans of a cycle are -/

/-- The root of a cycle is open, as it was made. -/
def LiveRoot (s : Traced) (t : Utf16) (c : RunningCycle) (root : CycleRoot) : Prop :=
  ∃ drawn, s.live.get? root.rootSpanId = some (rootSpan c.attrs t drawn)

/-- No span of the trace is open but these. -/
def LiveOnly (s : Traced) (t : Utf16) (ids : List Utf16) : Prop :=
  ∀ id span, s.live.get? id = some span → span.traceId = t → id ∈ ids

/-- What a cycle has left in the bridge. -/
def Stage (s : Traced) (t : Utf16) (c : RunningCycle) (root : CycleRoot) : Prop :=
  match c.position with
  | .between done =>
    LiveRoot s t c root ∧ Ran c.attrs.cycleId t done (s.processor.bucketOf t) ∧
      AllOk (s.processor.bucketOf t) ∧ LiveOnly s t [root.rootSpanId]
  | .inside done spanId =>
    LiveRoot s t c root ∧ Ran c.attrs.cycleId t done (s.processor.bucketOf t) ∧
      AllOk (s.processor.bucketOf t) ∧ LiveOnly s t [root.rootSpanId, spanId] ∧
      spanId ≠ root.rootSpanId ∧
      ∃ role drawn, roles[done]? = some role ∧
        s.live.get? spanId = some (phaseSpan role (c.roleAttrs role) t root.rootSpanId drawn)
  | .failing =>
    LiveRoot s t c root ∧ (∃ count, Ran c.attrs.cycleId t count (s.processor.bucketOf t)) ∧
      LiveOnly s t [root.rootSpanId]
  | .over => s.processor.bucketOf t = [] ∧ LiveOnly s t []

/-- The cycle has its handle, and is where its position says. -/
def Progress (s : Traced) (t : Utf16) (c : RunningCycle) : Prop :=
  ∃ root, s.handles.get? t = some root ∧ root.cycleId = c.attrs.cycleId ∧ Stage s t c root

/-- Nothing of the trace changed. -/
structure SameFor (t : Utf16) (s s' : Traced) : Prop where
  handle : s'.handles.get? t = s.handles.get? t
  bucket : s'.processor.bucketOf t = s.processor.bucketOf t
  live : ∀ id span, span.traceId = t → (s'.live.get? id = some span ↔ s.live.get? id = some span)

theorem SameFor.liveOnly {s s' : Traced} {t : Utf16} (h : SameFor t s s') {ids : List Utf16}
    (honly : LiveOnly s t ids) : LiveOnly s' t ids := by
  intro id span hlive ht
  exact honly id span ((h.live id span ht).mp hlive) ht

theorem SameFor.liveRoot {s s' : Traced} {t : Utf16} (h : SameFor t s s') {c : RunningCycle}
    {root : CycleRoot} (hroot : LiveRoot s t c root) : LiveRoot s' t c root := by
  obtain ⟨drawn, hlive⟩ := hroot
  exact ⟨drawn, (h.live _ _ rfl).mpr hlive⟩

theorem SameFor.progress {s s' : Traced} {t : Utf16} (h : SameFor t s s') {c : RunningCycle}
    (hprogress : Progress s t c) : Progress s' t c := by
  obtain ⟨root, hroot, hcycle, hstage⟩ := hprogress
  refine ⟨root, h.handle.trans hroot, hcycle, ?_⟩
  unfold Stage at hstage ⊢
  rw [h.bucket]
  split at hstage
  next =>
    obtain ⟨hlive, hran, hok, honly⟩ := hstage
    exact ⟨h.liveRoot hlive, hran, hok, h.liveOnly honly⟩
  next =>
    obtain ⟨hlive, hran, hok, honly, hne, role, drawn, hrole, hspan⟩ := hstage
    exact ⟨h.liveRoot hlive, hran, hok, h.liveOnly honly, hne, role, drawn, hrole,
      (h.live _ _ rfl).mpr hspan⟩
  next =>
    obtain ⟨hlive, hran, honly⟩ := hstage
    exact ⟨h.liveRoot hlive, hran, h.liveOnly honly⟩
  next => exact ⟨hstage.1, h.liveOnly hstage.2⟩

section

variable {s : Traced} {t t' : Utf16}

theorem sameFor_withSpan (h : Drawn s) {span : OpenSpan} (hnew : span.spanId ∉ s.spanIds)
    (hother : span.traceId ≠ t) : SameFor t s (s.withSpan span) := by
  refine ⟨rfl, rfl, ?_⟩
  intro id span' ht
  by_cases hid : id = span.spanId
  · -- an identifier that was not drawn is that of no span
    have hnone : s.live.get? id ≠ some span' := by
      intro hlive
      exact hnew (hid ▸ (h.live id span' hlive).2.1)
    have hset : (s.withSpan span).live.get? id = some span := by
      rw [hid]
      exact OrderedMap.get?_set_self ..
    rw [hset, Option.some.injEq]
    exact ⟨fun heq => absurd (heq ▸ ht) hother, fun hlive => absurd hlive hnone⟩
  · rw [withSpan_get? s span hid]

theorem sameFor_withCycle (h : Drawn s) {attrs : CycleSpanAttrs} {drawn : SpanStart}
    {startedAt : Numeral} (hnew : drawn.spanId ∉ s.spanIds) (hother : t ≠ t') :
    SameFor t' s (s.withCycle attrs t drawn startedAt) := by
  have hspan : SameFor t' s (s.withSpan (rootSpan attrs t drawn)) := sameFor_withSpan h hnew hother
  exact ⟨OrderedMap.get?_set_ne _ _ hother.symm, rfl, hspan.live⟩

variable {heap : Heap} {durationMs : Numeral → Numeral → Numeral}

/-- A span that is not open any more was one of its own trace. -/
theorem live_delete_iff {spanId : Utf16} {span : OpenSpan} (hlive : s.live.get? spanId = some span)
    (hother : span.traceId ≠ t) (id : Utf16) (span' : OpenSpan) (ht : span'.traceId = t) :
    (s.live.delete spanId).get? id = some span' ↔ s.live.get? id = some span' := by
  rw [OrderedMap.get?_delete]
  split
  next hid =>
    rw [hid, hlive, Option.some.injEq]
    refine ⟨fun habsurd => absurd habsurd (by simp), ?_⟩
    exact fun heq => absurd (heq ▸ ht) hother
  next => exact Iff.rfl

theorem sameFor_finish (hdrawn : Drawn s) (hfiled : Filed s) {spanId : Utf16} {span : OpenSpan}
    (hlive : s.live.get? spanId = some span) {mark : OpenSpan → OpenSpan} (hmark : KeepsIds mark)
    (endTime now : Numeral) (hother : span.traceId ≠ t) :
    SameFor t s (s.finish heap durationMs spanId mark endTime now) := by
  obtain ⟨-, -, root, hroot, hbelongs⟩ := hdrawn.live spanId span hlive
  rcases hbelongs with ⟨heq, -⟩ | ⟨hne, -⟩
  · subst heq
    rw [finish_root_eq hdrawn hfiled hlive hmark endTime now hroot]
    refine ⟨rfl, ?_, live_delete_iff hlive hother⟩
    show (((s.processor.spansByTrace.set _ _).delete _).get? t).getD [] = _
    rw [OrderedMap.get?_delete_ne _ hother.symm, OrderedMap.get?_set_ne _ _ hother.symm,
      Processor.bucketOf]
  · rw [finish_phase_eq hdrawn hfiled hlive hmark endTime now hroot hne]
    refine ⟨rfl, ?_, live_delete_iff hlive hother⟩
    show ((s.processor.spansByTrace.set _ _).get? t).getD [] = _
    rw [OrderedMap.get?_set_ne _ _ hother.symm, Processor.bucketOf]

/-! ## One cycle -/

theorem cycleOf_phaseOutcome (outcome : PhaseOutcome) (span : OpenSpan) :
    cycleOf (outcome.mark span).attributes = cycleOf span.attributes := by
  have hkey : ∀ (key : String) (value : Unknown) (span : OpenSpan),
      ascii "kovael.cycle.id" ≠ ascii key →
        cycleOf (span.setAttribute key value).attributes = cycleOf span.attributes := by
    intro key value span hne
    rw [cycleOf, OpenSpan.setAttribute, Js.getEntry_setEntry, if_neg hne, cycleOf]
  have hinput : ascii "kovael.cycle.id" ≠
      ascii "kovael.gen_ai.response.estimated_input_tokens" := by decide +kernel
  have houtput : ascii "kovael.cycle.id" ≠
      ascii "kovael.gen_ai.response.estimated_output_tokens" := by decide +kernel
  have hcount : ascii "kovael.cycle.id" ≠
      ascii "kovael.gen_ai.token_count_estimated" := by decide +kernel
  cases outcome with
  | threw message exception => rfl
  | returned usage =>
    cases hin : usage.bind TriadSpanUsage.inputTokens <;>
      cases hout : usage.bind TriadSpanUsage.outputTokens <;>
      simp [PhaseOutcome.mark, hin, hout, OpenSpan.setStatus, hkey, hinput, houtput, hcount]

/-- A role that ends under its span: one more ran. -/
theorem ran_leave {cycleId : Utf16} {done : Nat} {bucket : List FinishedSpan}
    (h : Ran cycleId t done bucket) {role : TriadSpanName} (hrole : roles[done]? = some role)
    {attrs : TriadSpanAttrs} (hcycle : attrs.cycleId = cycleId) {rootSpanId : Utf16}
    {drawn : SpanStart} (outcome : PhaseOutcome) (endTime : Numeral) :
    Ran cycleId t (done + 1) (bucket ++
      [(outcome.mark (phaseSpan role attrs t rootSpanId drawn)).finish durationMs endTime]) := by
  have hmark := keepsIds_phaseOutcome outcome
  constructor
  · rw [List.map_append, h.names, List.take_add_one, hrole, List.map_append]
    congr 1
    exact congrArg (fun name => [name]) (hmark.name _)
  · intro span hmem
    rcases List.mem_append.mp hmem with hold | hnew
    · exact h.carry span hold
    · rw [List.mem_singleton.mp hnew]
      refine ⟨hmark.traceId _, (cycleOf_phaseOutcome outcome _).trans ?_⟩
      rw [← hcycle]
      rfl

theorem allOk_leave {bucket : List FinishedSpan} (h : AllOk bucket)
    (usage : Option TriadSpanUsage) (span : OpenSpan) (endTime : Numeral) :
    AllOk (bucket ++ [((PhaseOutcome.returned usage).mark span).finish durationMs endTime]) := by
  intro span' hmem
  rcases List.mem_append.mp hmem with hold | hnew
  · exact h span' hold
  · rw [List.mem_singleton.mp hnew]
    rfl

/-- Once a span ended, it is not open. -/
theorem liveOnly_delete {ids : List Utf16} {id : Utf16} (h : LiveOnly s t ids) (s' : Traced)
    (hs' : s'.live = s.live.delete id) : LiveOnly s' t (ids.filter fun id' => id' ≠ id) := by
  intro id' span hlive ht
  rw [hs'] at hlive
  obtain ⟨hne, hold⟩ := OrderedMap.get?_delete_some hlive
  exact List.mem_filter.mpr ⟨h id' span hold ht, decide_eq_true hne⟩

/-- The step of a cycle into a role. -/
theorem stage_enter (hdrawn : Drawn s) {c : RunningCycle} {root : CycleRoot} {done : Nat}
    (hroot : s.handles.get? t = some root) (hposition : c.position = .between done)
    (h : Stage s t c root) {role : TriadSpanName} (hrole : roles[done]? = some role)
    {drawn : SpanStart} (hnew : drawn.spanId ∉ s.spanIds) :
    Stage (s.withSpan (phaseSpan role (c.roleAttrs role) t root.rootSpanId drawn)) t
      { c with position := .inside done drawn.spanId } root := by
  simp only [Stage, hposition] at h
  obtain ⟨⟨rootDrawn, hlive⟩, hran, hok, honly⟩ := h
  have hne : root.rootSpanId ≠ drawn.spanId := ne_of_drawn hnew (hdrawn.handle t root hroot)
  refine ⟨⟨rootDrawn, ?_⟩, hran, hok, ?_, hne.symm, role, drawn, hrole, OrderedMap.get?_set_self ..⟩
  · exact (withSpan_get? s _ hne).trans hlive
  · intro id span hspan ht
    rcases OrderedMap.get?_set_some hspan with ⟨rfl, -⟩ | ⟨_, hold⟩
    · exact List.mem_cons_of_mem _ (List.mem_singleton_self _)
    · rw [List.mem_singleton.mp (honly id span hold ht)]
      exact List.mem_cons_self ..

/-- The root stays open when another span ends. -/
theorem liveRoot_delete {c : RunningCycle} {root : CycleRoot} (h : LiveRoot s t c root)
    {id : Utf16} (hne : root.rootSpanId ≠ id) {s' : Traced} (hs' : s'.live = s.live.delete id) :
    LiveRoot s' t c root := by
  obtain ⟨drawn, hlive⟩ := h
  refine ⟨drawn, ?_⟩
  rw [hs', OrderedMap.get?_delete_ne _ hne]
  exact hlive

theorem bucketOf_set (p : Processor) (bucket : List FinishedSpan) :
    Processor.bucketOf { p with spansByTrace := p.spansByTrace.set t bucket } t = bucket := by
  rw [Processor.bucketOf, OrderedMap.get?_set_self, Option.getD_some]

/-- The step of a cycle out of a role. -/
theorem stage_leave (hdrawn : Drawn s) (hfiled : Filed s) {c : RunningCycle} {root : CycleRoot}
    {done : Nat} {spanId : Utf16} (hroot : s.handles.get? t = some root)
    (hposition : c.position = .inside done spanId) (h : Stage s t c root)
    (outcome : PhaseOutcome) (endTime now : Numeral) :
    Stage (s.finish heap durationMs spanId outcome.mark endTime now) t
      { c with position := outcome.next done } root := by
  simp only [Stage, hposition] at h
  obtain ⟨hlive, hran, hok, honly, hne, role, drawn, hrole, hspan⟩ := h
  have hran' : Ran c.attrs.cycleId t (done + 1) (s.processor.bucketOf t ++ [(outcome.mark
      (phaseSpan role (c.roleAttrs role) t root.rootSpanId drawn)).finish durationMs endTime]) :=
    ran_leave hran hrole rfl outcome endTime
  rw [finish_phase_eq hdrawn hfiled hspan (keepsIds_phaseOutcome outcome) endTime now hroot hne]
  have hids : [root.rootSpanId, spanId].filter (fun id' => id' ≠ spanId) = [root.rootSpanId] := by
    simp [hne.symm]
  have honly' := hids ▸ liveOnly_delete honly { s with live := s.live.delete spanId } rfl
  cases outcome with
  | returned usage =>
    refine ⟨liveRoot_delete hlive hne.symm rfl, ?_, ?_, honly'⟩
    · exact (bucketOf_set (t := t) s.processor _).symm ▸ hran'
    · exact (bucketOf_set (t := t) s.processor _).symm ▸ allOk_leave hok usage _ endTime
  | threw message exception =>
    refine ⟨liveRoot_delete hlive hne.symm rfl, ⟨done + 1, ?_⟩, honly'⟩
    exact (bucketOf_set (t := t) s.processor _).symm ▸ hran'

/-- What a cycle that reached its end, or its `catch`, left in its bucket. -/
theorem stage_throws {c : RunningCycle} {root : CycleRoot} (hthrows : c.position.throws = true)
    (h : Stage s t c root) : LiveRoot s t c root ∧ LiveOnly s t [root.rootSpanId] ∧
      ∃ count, Ran c.attrs.cycleId t count (s.processor.bucketOf t) := by
  unfold Stage at h
  split at h
  next done _ => exact ⟨h.1, h.2.2.2, done, h.2.1⟩
  next heq => rw [heq] at hthrows; exact absurd hthrows (by simp [Position.throws])
  next => exact ⟨h.1, h.2.2, h.2.1⟩
  next heq => rw [heq] at hthrows; exact absurd hthrows (by simp [Position.throws])

theorem cycleOf_cycleStatus (status : CycleStatus) (span : OpenSpan) :
    cycleOf (status.mark span).attributes = cycleOf span.attributes := by
  cases status <;> rfl

/-- The step of a cycle to its end: its trace is put, and nothing stays. -/
theorem stage_end (hdrawn : Drawn s) (hfiled : Filed s) {c : RunningCycle} {root : CycleRoot}
    (hroot : s.handles.get? t = some root) (hcycle : root.cycleId = c.attrs.cycleId)
    (hlive : LiveRoot s t c root) (honly : LiveOnly s t [root.rootSpanId]) {count : Nat}
    (hran : Ran c.attrs.cycleId t count (s.processor.bucketOf t)) (status : CycleStatus)
    (hok : status = .ok → count = roles.length ∧ AllOk (s.processor.bucketOf t))
    (endTime now : Numeral) :
    Stage (s.finish heap durationMs root.rootSpanId status.mark endTime now) t
        { c with position := .over } root ∧
      ∃ trace, (s.finish heap durationMs root.rootSpanId status.mark endTime now).processor.puts =
          s.processor.puts ++ [trace] ∧
        trace.traceId = t ∧ trace.cycleId = c.attrs.cycleId ∧ OfCycle trace := by
  obtain ⟨drawn, hspan⟩ := hlive
  have hmark := keepsIds_cycleStatus status
  have hid := (hdrawn.live _ _ hspan).1
  rw [finish_root_eq hdrawn hfiled hspan hmark endTime now hroot]
  refine ⟨⟨?_, ?_⟩, _, rfl, hmark.traceId _, hcycle, ?_⟩
  · show (((s.processor.spansByTrace.set _ _).delete t).get? t).getD [] = []
    rw [OrderedMap.get?_delete_self, Option.getD_none]
  · have hids : [root.rootSpanId].filter (fun id' => id' ≠ root.rootSpanId) = [] := by simp
    exact hids ▸ liveOnly_delete honly { s with live := s.live.delete root.rootSpanId } rfl
  · refine ⟨count, s.processor.bucketOf t, _, rfl, ?_, hmark.name _, rfl, rfl, ?_, ?_⟩
    · show Ran root.cycleId ((status.mark (rootSpan c.attrs t drawn)).traceId) count _
      rw [hcycle, hmark.traceId]
      exact hran
    · show cycleOf (status.mark (rootSpan c.attrs t drawn)).attributes = some (.string root.cycleId)
      rw [cycleOf_cycleStatus, hcycle]
      rfl
    · intro hstatus
      refine hok ?_
      cases status with
      | ok => rfl
      | error message => exact absurd (Numeral.finite.inj hstatus) (by decide)

end

/-! ## Runs -/

/-- The invariant of the runs. -/
structure Cycling (heap : Heap) (buffer : TraceRingBuffer) (s : Running) : Prop where
  kept : Kept heap buffer s.traced
  ready : s.traced.ready = true
  handles : ∀ t, s.cycles.get? t = none ↔ s.traced.handles.get? t = none
  progress : ∀ t c, s.cycles.get? t = some c → Progress s.traced t c
  apart : ∀ t c t' c', s.cycles.get? t = some c → s.cycles.get? t' = some c' →
    c.attrs.cycleId = c'.attrs.cycleId → t = t'
  traces : ∀ trace ∈ s.traced.processor.puts, OfCycle trace ∧
    ∃ c, s.cycles.get? trace.traceId = some c ∧ c.position = .over ∧
      trace.cycleId = c.attrs.cycleId
  once : (s.traced.processor.puts.map CycleTrace.traceId).Nodup
  put : ∀ t c, s.cycles.get? t = some c → c.position = .over →
    t ∈ s.traced.processor.puts.map CycleTrace.traceId

section

variable {heap : Heap} {durationMs : Numeral → Numeral → Numeral} {buffer : TraceRingBuffer}

/-- What a step of one cycle does to the bridge. -/
structure Advances (s : Running) (t : Utf16) (c : RunningCycle) (position : Position)
    (traced : Traced) : Prop where
  ready : traced.ready = true
  others : ∀ t', t' ≠ t → SameFor t' s.traced traced
  progress : Progress traced t { c with position }
  puts : (position ≠ .over ∧ traced.processor.puts = s.traced.processor.puts) ∨
    position = .over ∧ ∃ trace, traced.processor.puts = s.traced.processor.puts ++ [trace] ∧
      trace.traceId = t ∧ trace.cycleId = c.attrs.cycleId ∧ OfCycle trace

/-- No cycle that was put is the one that takes the step. -/
theorem put_ne {s : Running} (h : Cycling heap buffer s) {t : Utf16}
    (hgoing : ∀ c, s.cycles.get? t = some c → c.position ≠ .over) {trace : CycleTrace}
    (hmem : trace ∈ s.traced.processor.puts) : trace.traceId ≠ t := by
  intro heq
  obtain ⟨-, c, hc, hover, -⟩ := h.traces trace hmem
  exact hgoing c (heq ▸ hc) hover

/-- A cycle that takes a step of its own leaves the others where they are. -/
theorem cycling_moved {s : Running} (h : Cycling heap buffer s) {t : Utf16} {c : RunningCycle}
    {position : Position} {traced : Traced} (hkept : Kept heap buffer traced)
    (hadvances : Advances s t c position traced)
    (hgoing : ∀ c', s.cycles.get? t = some c' → c'.position ≠ .over)
    (hnew : ∀ t' c', s.cycles.get? t' = some c' → c.attrs.cycleId = c'.attrs.cycleId → t = t') :
    Cycling heap buffer
      { s with traced, cycles := s.cycles.set t { c with position } } := by
  have hold : ∀ trace ∈ s.traced.processor.puts, OfCycle trace ∧
      ∃ c', (s.cycles.set t { c with position }).get? trace.traceId = some c' ∧
        c'.position = .over ∧ trace.cycleId = c'.attrs.cycleId := by
    intro trace hmem
    obtain ⟨hof, c', hc', hrest⟩ := h.traces trace hmem
    refine ⟨hof, c', ?_, hrest⟩
    rw [OrderedMap.get?_set_ne _ _ (put_ne h hgoing hmem)]
    exact hc'
  refine ⟨hkept, hadvances.ready, ?_, ?_, ?_, ?_, ?_, ?_⟩
  · intro t'
    show (s.cycles.set t _).get? t' = none ↔ _
    by_cases ht : t' = t
    · obtain ⟨root, hroot, -⟩ := hadvances.progress
      rw [ht, hroot, OrderedMap.get?_set_self]
      exact ⟨fun habsurd => absurd habsurd (by simp), fun habsurd => absurd habsurd (by simp)⟩
    · rw [OrderedMap.get?_set_ne _ _ ht, (hadvances.others t' ht).handle]
      exact h.handles t'
  · intro t' c' hc'
    rcases OrderedMap.get?_set_some hc' with ⟨rfl, rfl⟩ | ⟨ht, hc'⟩
    · exact hadvances.progress
    · exact (hadvances.others t' ht).progress (h.progress t' c' hc')
  · intro t₁ c₁ t₂ c₂ h₁ h₂ heq
    rcases OrderedMap.get?_set_some h₁ with ⟨rfl, rfl⟩ | ⟨_, hold₁⟩ <;>
      rcases OrderedMap.get?_set_some h₂ with ⟨rfl, rfl⟩ | ⟨_, hold₂⟩
    · rfl
    · exact hnew t₂ c₂ hold₂ heq
    · exact (hnew t₁ c₁ hold₁ heq.symm).symm
    · exact h.apart t₁ c₁ t₂ c₂ hold₁ hold₂ heq
  · intro trace hmem
    rcases hadvances.puts with ⟨-, hputs⟩ | ⟨hover, new, hputs, htrace, hcycle, hof⟩
    · exact hold trace (hputs ▸ hmem)
    · rcases List.mem_append.mp (hputs ▸ hmem) with hmem | hmem
      · exact hold trace hmem
      · rw [List.mem_singleton.mp hmem]
        refine ⟨hof, { c with position }, ?_, hover, hcycle⟩
        rw [htrace]
        exact OrderedMap.get?_set_self ..
  · show (traced.processor.puts.map _).Nodup
    rcases hadvances.puts with ⟨-, hputs⟩ | ⟨-, new, hputs, htrace, -⟩
    · rw [hputs]
      exact h.once
    · rw [hputs, List.map_append, List.nodup_append]
      refine ⟨h.once, List.nodup_singleton _, ?_⟩
      intro t₁ h₁ t₂ h₂
      obtain ⟨trace, hmem, rfl⟩ := List.mem_map.mp h₁
      rw [List.mem_singleton.mp h₂, htrace]
      exact put_ne h hgoing hmem
  · intro t' c' hc' hover
    show t' ∈ traced.processor.puts.map _
    rcases OrderedMap.get?_set_some hc' with ⟨rfl, rfl⟩ | ⟨_, hc'⟩
    · rcases hadvances.puts with ⟨hnot, -⟩ | ⟨-, new, hputs, htrace, -⟩
      · exact absurd hover hnot
      · rw [hputs, List.map_append]
        exact List.mem_append_right _ (List.mem_singleton.mpr htrace.symm)
    · have hput := h.put t' c' hc' hover
      rcases hadvances.puts with ⟨-, hputs⟩ | ⟨-, new, hputs, -⟩
      · rw [hputs]
        exact hput
      · rw [hputs, List.map_append]
        exact List.mem_append_left _ hput

theorem ready_finish (s : Traced) (spanId : Utf16) (mark : OpenSpan → OpenSpan)
    (endTime now : Numeral) :
    (s.finish heap durationMs spanId mark endTime now).ready = s.ready := by
  unfold Traced.finish
  split <;> rfl

theorem advances_begin {s : Running} (h : Cycling heap buffer s) {attrs : CycleSpanAttrs}
    {agent t : Utf16} {drawn : SpanStart} {startedAt : Numeral} {traced : Traced}
    (hst : s.traced.step heap durationMs (.startCycle attrs t drawn startedAt) = some traced) :
    s.cycles.get? t = none ∧ Advances s t ⟨attrs, agent, .between 0⟩ (.between 0) traced := by
  obtain ⟨hfresh, hnew, rfl⟩ := step_startCycle h.ready hst
  have hdrawn := h.kept.drawn
  -- nothing of the trace is open, and nothing of it ended
  have hlive : ∀ id span, s.traced.live.get? id = some span → span.traceId ≠ t := by
    intro id span hspan ht
    obtain ⟨-, -, root, hroot, -⟩ := hdrawn.live id span hspan
    rw [ht, hfresh] at hroot
    exact absurd hroot (by simp)
  have hended : s.traced.endedOf t = [] := by
    rw [Traced.endedOf, List.filter_eq_nil_iff]
    intro span hmem ht
    obtain ⟨-, -, root, hroot, -⟩ := hdrawn.ended span hmem
    rw [of_decide_eq_true ht, hfresh] at hroot
    exact absurd hroot (by simp)
  have hbucket : s.traced.processor.bucketOf t = [] := by
    have hspans := h.kept.filed.spans t
    rw [hended] at hspans
    exact (List.append_eq_nil_iff.mp hspans).2
  refine ⟨(h.handles t).mpr hfresh, h.ready, ?_, ?_, Or.inl ⟨by simp, rfl⟩⟩
  · exact fun t' ht => sameFor_withCycle hdrawn hnew ht.symm
  · refine ⟨_, OrderedMap.get?_set_self .., rfl, ⟨drawn, OrderedMap.get?_set_self ..⟩, ?_, ?_, ?_⟩
    · show Ran attrs.cycleId t 0 (s.traced.processor.bucketOf t)
      rw [hbucket]
      exact ⟨rfl, fun span hmem => absurd hmem List.not_mem_nil⟩
    · show AllOk (s.traced.processor.bucketOf t)
      rw [hbucket]
      exact fun span hmem => absurd hmem List.not_mem_nil
    · intro id span hspan ht
      rcases OrderedMap.get?_set_some hspan with ⟨hid, -⟩ | ⟨_, hold⟩
      · exact List.mem_singleton.mpr hid
      · exact absurd ht (hlive id span hold)

theorem advances_enter {s : Running} (h : Cycling heap buffer s) {t : Utf16} {c : RunningCycle}
    (hc : s.cycles.get? t = some c) {done : Nat} (hdone : c.position.done? = some done)
    {role : TriadSpanName} (hrole : roles[done]? = some role) {drawn : SpanStart}
    {traced : Traced}
    (hst : s.traced.step heap durationMs (.startPhase t role (c.roleAttrs role) drawn)
      = some traced) : Advances s t c (.inside done drawn.spanId) traced := by
  obtain ⟨root, hroot, hopen⟩ := Option.bind_eq_some_iff.mp hst
  obtain ⟨hnew, rfl⟩ := open?_some hopen
  obtain ⟨root', hroot', hcycle, hstage⟩ := h.progress t c hc
  rw [hroot, Option.some.injEq] at hroot'
  subst hroot'
  have hposition : c.position = .between done := by
    cases hp : c.position <;> rw [hp] at hdone <;> simp_all [Position.done?]
  refine ⟨h.ready, ?_, ?_, Or.inl ⟨by simp, rfl⟩⟩
  · exact fun t' ht => sameFor_withSpan h.kept.drawn hnew ht.symm
  · exact ⟨root, hroot, hcycle, stage_enter h.kept.drawn hroot hposition hstage hrole hnew⟩

theorem advances_leave {s : Running} (h : Cycling heap buffer s) {t : Utf16} {c : RunningCycle}
    (hc : s.cycles.get? t = some c) {done : Nat} {spanId : Utf16}
    (hposition : c.position = .inside done spanId) {outcome : PhaseOutcome}
    {endTime now : Numeral} {traced : Traced}
    (hst : s.traced.step heap durationMs (.endPhase spanId outcome endTime now) = some traced) :
    Advances s t c (outcome.next done) traced := by
  obtain ⟨root, hroot, hcycle, hstage⟩ := h.progress t c hc
  have hleft : Stage (s.traced.finish heap durationMs spanId outcome.mark endTime now) t
      { c with position := outcome.next done } root :=
    stage_leave h.kept.drawn h.kept.filed hroot hposition hstage outcome endTime now
  rw [Traced.step] at hst
  split at hst
  next => exact absurd hst (by simp)
  next =>
    rw [Option.some.injEq] at hst
    subst hst
    simp only [Stage, hposition] at hstage
    obtain ⟨-, -, -, -, hne, role, drawn, -, hspan⟩ := hstage
    have hmark := keepsIds_phaseOutcome outcome
    have heq := @finish_phase_eq heap durationMs s.traced h.kept.drawn h.kept.filed spanId _ hspan
      _ hmark endTime now root hroot hne
    refine ⟨(ready_finish ..).trans h.ready, ?_, ?_, Or.inl ⟨?_, ?_⟩⟩
    · exact fun t' ht =>
        sameFor_finish h.kept.drawn h.kept.filed hspan hmark endTime now ht.symm
    · refine ⟨root, ?_, hcycle, hleft⟩
      rw [heq]
      exact hroot
    · cases outcome <;> simp [PhaseOutcome.next]
    · rw [heq]

theorem advances_end {s : Running} (h : Cycling heap buffer s) {t : Utf16} {c : RunningCycle}
    (hc : s.cycles.get? t = some c) (hthrows : c.position.throws = true) {status : CycleStatus}
    (hok : status = .ok → c.position = .between roles.length) {endTime now : Numeral}
    {traced : Traced}
    (hst : s.traced.step heap durationMs (.endCycle t status endTime now) = some traced) :
    Advances s t c .over traced := by
  obtain ⟨root, hroot, rfl⟩ := Option.map_eq_some_iff.mp hst
  obtain ⟨root', hroot', hcycle, hstage⟩ := h.progress t c hc
  rw [hroot, Option.some.injEq] at hroot'
  subst hroot'
  obtain ⟨hlive, honly, count, hran, hcount⟩ :
      LiveRoot s.traced t c root ∧ LiveOnly s.traced t [root.rootSpanId] ∧
        ∃ count, Ran c.attrs.cycleId t count (s.traced.processor.bucketOf t) ∧
          (status = .ok → count = roles.length ∧ AllOk (s.traced.processor.bucketOf t)) := by
    cases hstatus : status with
    | ok =>
      simp only [Stage, hok hstatus] at hstage
      exact ⟨hstage.1, hstage.2.2.2, roles.length, hstage.2.1, fun _ => ⟨rfl, hstage.2.2.1⟩⟩
    | error message =>
      obtain ⟨hlive, honly, count, hran⟩ := stage_throws hthrows hstage
      exact ⟨hlive, honly, count, hran, fun habsurd => absurd habsurd (by simp)⟩
  obtain ⟨hover, trace, hputs, htrace, hcycleId, hof⟩ := @stage_end s.traced t heap durationMs
    h.kept.drawn h.kept.filed c root hroot hcycle hlive honly count hran status hcount endTime now
  obtain ⟨drawn, hspan⟩ := hlive
  refine ⟨(ready_finish ..).trans h.ready, ?_, ⟨root, ?_, hcycle, hover⟩,
    Or.inr ⟨rfl, trace, hputs, htrace, hcycleId, hof⟩⟩
  · exact fun t' ht => sameFor_finish h.kept.drawn h.kept.filed hspan (keepsIds_cycleStatus status)
      endTime now ht.symm
  · rw [finish_root_eq h.kept.drawn h.kept.filed hspan (keepsIds_cycleStatus status) endTime now
      hroot]
    exact hroot

theorem kept_cycleRuns : Kept heap buffer (cycleRuns heap durationMs buffer).init.traced :=
  have hinit : Kept heap buffer (tracing heap durationMs buffer).init := kept_init buffer
  hinit.withRing hinit.fed

theorem cycling_init : Cycling heap buffer (cycleRuns heap durationMs buffer).init := by
  have hnone : ∀ {t : Utf16} {c : RunningCycle}, OrderedMap.empty.get? t ≠ some c := by
    intro t c h
    exact absurd h (by simp)
  refine ⟨kept_cycleRuns, rfl, ?_, ?_, ?_, ?_, List.nodup_nil, ?_⟩
  · exact fun t => ⟨fun _ => rfl, fun _ => rfl⟩
  · exact fun t c h => absurd h hnone
  · exact fun t c t' c' h => absurd h hnone
  · exact fun trace hmem => absurd hmem List.not_mem_nil
  · exact fun t c h => absurd h hnone

/-- The cycle that takes a step was not over, and its name is its own. -/
theorem cycling_own {s : Running} (h : Cycling heap buffer s) {t : Utf16} {c : RunningCycle}
    (hc : s.cycles.get? t = some c) (hgoing : c.position ≠ .over) {position : Position}
    {traced : Traced} (hkept : Kept heap buffer traced)
    (hadvances : Advances s t c position traced) :
    Cycling heap buffer { s with traced, cycles := s.cycles.set t { c with position } } := by
  refine cycling_moved h hkept hadvances ?_ ?_
  · intro c' hc'
    rw [hc, Option.some.injEq] at hc'
    exact hc' ▸ hgoing
  · exact fun t' c' hc' heq => h.apart t c t' c' hc hc' heq

theorem cycling_step {s s' : Running} (h : Cycling heap buffer s) {e : CycleEvent}
    (hst : s.step heap durationMs e = some s') : Cycling heap buffer s' := by
  cases e with
  | begin attrs agent t drawn startedAt =>
    rw [Running.step] at hst
    split at hst
    next => exact absurd hst (by simp)
    next hnew =>
      obtain ⟨traced, hstep, rfl⟩ := Option.map_eq_some_iff.mp hst
      obtain ⟨hnone, hadvances⟩ := advances_begin h hstep
      refine cycling_moved h (kept_step h.kept hstep) hadvances ?_ ?_
      · intro c' hc'
        rw [hnone] at hc'
        exact absurd hc' (by simp)
      · intro t' c' hc' heq
        refine absurd ?_ hnew
        rw [List.any_eq_true]
        exact ⟨c', (OrderedMap.mem_values_iff _ _).mpr ⟨t', hc'⟩, decide_eq_true heq.symm⟩
  | enter t drawn =>
    obtain ⟨c, hc, hst⟩ := Option.bind_eq_some_iff.mp hst
    obtain ⟨done, hdone, hst⟩ := Option.bind_eq_some_iff.mp hst
    obtain ⟨role, hrole, hst⟩ := Option.bind_eq_some_iff.mp hst
    obtain ⟨traced, hstep, rfl⟩ := Option.map_eq_some_iff.mp hst
    refine cycling_own h hc ?_ (kept_step h.kept hstep) (advances_enter h hc hdone hrole hstep)
    intro hover
    rw [hover] at hdone
    exact absurd hdone (by simp [Position.done?])
  | leave t outcome endTime now =>
    obtain ⟨c, hc, hst⟩ := Option.bind_eq_some_iff.mp hst
    obtain ⟨⟨done, spanId⟩, hinside, hst⟩ := Option.bind_eq_some_iff.mp hst
    obtain ⟨traced, hstep, rfl⟩ := Option.map_eq_some_iff.mp hst
    have hposition : c.position = .inside done spanId := by
      cases hp : c.position <;> rw [hp] at hinside <;> simp_all [Position.inside?]
    refine cycling_own h hc ?_ (kept_step h.kept hstep) (advances_leave h hc hposition hstep)
    rw [hposition]
    simp
  | finish t verified endTime now =>
    obtain ⟨c, hc, hst⟩ := Option.bind_eq_some_iff.mp hst
    split at hst
    next hdone =>
      obtain ⟨traced, hstep, rfl⟩ := Option.map_eq_some_iff.mp hst
      have hposition : c.position = .between roles.length := by
        cases hp : c.position <;> rw [hp] at hdone <;> simp_all [Position.done?]
      refine cycling_own h hc ?_ (kept_step h.kept hstep)
        (advances_end h hc ?_ (fun _ => hposition) hstep)
      · rw [hposition]
        simp
      · rw [hposition]
        rfl
    next => exact absurd hst (by simp)
  | fail t message endTime now =>
    obtain ⟨c, hc, hst⟩ := Option.bind_eq_some_iff.mp hst
    split at hst
    next hthrows =>
      obtain ⟨traced, hstep, rfl⟩ := Option.map_eq_some_iff.mp hst
      refine cycling_own h hc ?_ (kept_step h.kept hstep)
        (advances_end h hc hthrows (fun habsurd => absurd habsurd (by simp)) hstep)
      intro hover
      rw [hover] at hthrows
      exact absurd hthrows (by simp [Position.throws])
    next => exact absurd hst (by simp)
  | trimTo retained =>
    rw [Running.step] at hst
    obtain ⟨traced, hstep, rfl⟩ := Option.map_eq_some_iff.mp hst
    have hkept := kept_step h.kept hstep
    rw [Traced.step, Option.some.injEq] at hstep
    subst hstep
    refine ⟨hkept, h.ready, h.handles, ?_, h.apart, h.traces, h.once, h.put⟩
    intro t c hc
    exact SameFor.progress ⟨rfl, rfl, fun _ _ _ => Iff.rfl⟩ (h.progress t c hc)

theorem cycling_run {es : List CycleEvent} {s : Running}
    (hrun : (cycleRuns heap durationMs buffer).exec (cycleRuns heap durationMs buffer).init es
      = some s) : Cycling heap buffer s := by
  refine Lts.exec_invariant (I := Cycling heap buffer) (C := fun _ _ => True) ?_ es cycling_init
    hrun (Lts.along_true es _)
  exact fun s e t hs _ hst => cycling_step hs hst

/-! ## What the ring lists -/

/-- Traces of different cycles are inserted one after the other. -/
theorem recorded_puts (hinit : InStep (bufferRuns buffer).init) {es : List BufferEvent}
    (hheap : ∀ h trace, .put h trace ∈ es → h = heap)
    (hnodup : ((es.filterMap BufferEvent.trace?).map CycleTrace.cycleId).Nodup) {ring : Recorded}
    (hrun : (bufferRuns buffer).exec (bufferRuns buffer).init es = some ring) :
    ring.buffer.opts = buffer.opts ∧
      ring.log = (es.filterMap BufferEvent.trace?).map CycleTrace.cycleId ∧
      ∀ trace ∈ es.filterMap BufferEvent.trace?,
        ring.latest trace.cycleId = some (boundTracePayload heap buffer.opts trace) := by
  induction es using List.reverseRecOn generalizing ring with
  | nil =>
    rw [Lts.exec_nil, Option.some.injEq] at hrun
    rw [← hrun]
    exact ⟨rfl, rfl, fun trace hmem => absurd hmem List.not_mem_nil⟩
  | append_singleton es e ih =>
    obtain ⟨before, hbefore, hstep⟩ := Lts.exec_append.mp hrun
    have hring : ring = before.step e := (Option.some.inj hstep).symm
    rw [List.filterMap_append, List.map_append] at hnodup
    obtain ⟨hopts, hlog, hlatest⟩ := ih
      (fun h trace hmem => hheap h trace (List.mem_append_left _ hmem))
      (List.nodup_append.mp hnodup).1 hbefore
    cases e with
    | trimTo retained =>
      rw [hring, List.filterMap_append]
      show _ ∧ before.log = (_ ++ []).map _ ∧ ∀ trace ∈ _ ++ [], before.latest _ = _
      rw [List.append_nil]
      exact ⟨hopts, hlog, hlatest⟩
    | put heap' trace =>
      obtain rfl : heap' = heap :=
        hheap heap' trace (List.mem_append_right _ (List.mem_singleton_self _))
      have hfresh : trace.cycleId ∉ before.log := by
        rw [hlog]
        intro hmem
        exact (List.nodup_append.mp hnodup).2.2 _ hmem _ (List.mem_singleton_self _) rfl
      have hhas : ¬ before.buffer.byCycle.has trace.cycleId = true := by
        intro hhas
        have haligned := (inStep_run hinit hbefore).aligned
        have hmem := (haligned.keys _).mpr hhas
        rw [haligned.suffix] at hmem
        exact hfresh (List.mem_of_mem_drop hmem)
      rw [hring, Recorded.step, if_neg hhas, List.filterMap_append]
      refine ⟨?_, ?_, ?_⟩
      · show (before.buffer.put heap' trace).opts = buffer.opts
        rw [TraceRingBuffer.put, if_neg hhas]
        exact hopts
      · show before.log ++ [trace.cycleId] = (_ ++ [trace]).map _
        rw [List.map_append, hlog]
        rfl
      · intro trace' hmem
        show (if trace'.cycleId = trace.cycleId then some (boundTracePayload _ _ trace)
          else before.latest trace'.cycleId) = _
        rcases List.mem_append.mp hmem with hold | hnew
        · rw [if_neg ?_]
          · exact hlatest trace' hold
          · intro heq
            exact hfresh (hlog ▸ heq ▸ List.mem_map_of_mem hold)
        · rw [List.mem_singleton.mp hnew, if_pos rfl, hopts]

/-- Traces of different cycles were put. -/
theorem cycleIds_nodup {s : Running} (h : Cycling heap buffer s) :
    (s.traced.processor.puts.map CycleTrace.cycleId).Nodup := by
  refine List.Nodup.map_on ?_ (List.Nodup.of_map _ h.once)
  intro trace hmem trace' hmem' heq
  obtain ⟨-, c, hc, -, hcycle⟩ := h.traces trace hmem
  obtain ⟨-, c', hc', -, hcycle'⟩ := h.traces trace' hmem'
  have ht := h.apart _ c _ c' hc hc' (hcycle.symm.trans (heq.trans hcycle'))
  exact List.inj_on_of_nodup_map h.once hmem hmem' ht

/-- A listing is the traces that were put last, newest first. -/
theorem list_puts {s : Running} (h : Cycling heap buffer s)
    (hinit : InStep (bufferRuns buffer).init) {n : Nat} (hn : 0 < n) :
    s.traced.processor.ring.buffer.list n =
      (s.traced.processor.puts.reverse.take (min n s.traced.processor.ring.buffer.size)).map
        (boundTracePayload heap buffer.opts) := by
  obtain ⟨es, hrun, hputs, hheap⟩ := h.kept.fed
  have hnodup := cycleIds_nodup h
  rw [← hputs] at hnodup
  obtain ⟨-, hlog, hlatest⟩ := recorded_puts hinit hheap hnodup hrun
  rw [hputs] at hlog hlatest
  have hring := inStep_run hinit hrun
  rw [(list_newest_iff hring n).mpr (Or.inl hn), Recorded.newest, hlog, ← List.map_reverse,
    ← List.map_take, List.filterMap_map]
  rw [← List.filterMap_eq_map]
  refine List.filterMap_congr ?_
  intro trace hmem
  exact hlatest trace (List.mem_reverse.mp (List.mem_of_mem_take hmem))

/-- No cycle runs. -/
def Running.Idle (s : Running) : Prop :=
  ∀ t c, s.cycles.get? t = some c → c.position = .over

theorem entries_nil {κ ν : Type} [DecidableEq κ] {m : OrderedMap κ ν}
    (h : ∀ k v, m.get? k ≠ some v) : m.entries = [] := by
  rw [List.eq_nil_iff_forall_not_mem]
  intro e hmem
  exact h e.1 e.2 ((OrderedMap.mem_entries_iff m e.1 e.2).mp hmem)

/-- Cycles that are over leave nothing open, nothing filed and nothing waited for. -/
theorem idle_empty {s : Running} (h : Cycling heap buffer s) (hidle : s.Idle) :
    s.traced.live.entries = [] ∧ s.traced.processor.cycleByTraceRoot.entries = [] ∧
      s.traced.processor.spansByTrace.entries = [] := by
  have hover : ∀ t root, s.traced.handles.get? t = some root →
      s.traced.processor.bucketOf t = [] ∧ LiveOnly s.traced t [] := by
    intro t root hroot
    cases hc : s.cycles.get? t with
    | none =>
      rw [(h.handles t).mp hc] at hroot
      exact absurd hroot (by simp)
    | some c =>
      obtain ⟨_, -, -, hstage⟩ := h.progress t c hc
      simp only [Stage, hidle t c hc] at hstage
      exact hstage
  have hlive : ∀ id span, s.traced.live.get? id ≠ some span := by
    intro id span hspan
    obtain ⟨-, -, root, hroot, -⟩ := h.kept.drawn.live id span hspan
    exact absurd ((hover _ root hroot).2 id span hspan rfl) List.not_mem_nil
  refine ⟨entries_nil hlive, entries_nil ?_, entries_nil ?_⟩
  · intro t root hroot
    obtain ⟨span, hspan⟩ := (OrderedMap.has_iff _ _).mp ((h.kept.filed.roots t root).mp hroot).2
    exact hlive _ span hspan
  · intro t bucket hbucket
    -- a bucket holds a span that ended, whose trace has a handle
    have hof : s.traced.processor.bucketOf t = bucket := by
      rw [Processor.bucketOf, hbucket, Option.getD_some]
    cases bucket with
    | nil => exact h.kept.filed.filled t hbucket
    | cons span rest =>
      have hmem : span ∈ s.traced.endedOf t := by
        rw [← h.kept.filed.spans t, hof]
        exact List.mem_append_right _ (List.mem_cons_self ..)
      obtain ⟨hended, ht⟩ := List.mem_filter.mp hmem
      obtain ⟨-, -, root, hroot, -⟩ := h.kept.drawn.ended span hended
      rw [of_decide_eq_true ht] at hroot
      rw [(hover t root hroot).1] at hof
      exact absurd hof (by simp)

end

/-- Two cycles side by side; the operator of the first throws. -/
def threwAndVerified : List CycleEvent :=
  let zero : Numeral := .finite "0"
  let returned : PhaseOutcome := .returned none
  let boom : PhaseOutcome := .threw (some (ascii "boom")) ⟨ascii "exception", zero, none⟩
  let first := ascii "t1"
  let second := ascii "t2"
  [.begin ⟨ascii "a", ascii "h"⟩ (ascii "shaev") first (drawnAt "r1") zero,
    .enter first (drawnAt "a1"),
    .begin ⟨ascii "b", ascii "h"⟩ (ascii "shaev") second (drawnAt "r2") zero,
    .enter second (drawnAt "a2"),
    .leave first returned zero zero,
    .leave second returned zero zero,
    .enter first (drawnAt "o1"),
    .enter second (drawnAt "o2"),
    .leave first boom zero zero,
    .leave second returned zero zero,
    .fail first (some (ascii "boom")) zero zero,
    .enter second (drawnAt "v2"),
    .leave second returned zero zero,
    .finish second true zero zero]

end Kovael.Trace
