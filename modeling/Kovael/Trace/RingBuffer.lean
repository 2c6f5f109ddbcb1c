import Mathlib.Data.List.Basic
import Kovael.Js.Json
import Kovael.Js.Number
import Kovael.Lts
import Kovael.Trace.Sanitizers

/-!
# The ring buffer of traces

`src/services/TraceRingBuffer.ts`: the traces of the cycles that were inserted last, in a map,
and the order of insertion in a list. A run records beside the buffer which cycles were
inserted (`log`) and which trace of a cycle was put last (`latest`); `ring_buffer_iff` says
that the buffer is the end of that log in every state of every run, and for which lengths the
listing is what it should be.

Mirroring notes:
- `order` is shifted while it is too long; the limit is never negative, so an empty list is
  short enough.
- The length of a listing is an integer.
-/

namespace Kovael.Trace

open Js (Number OrderedMap Utf16)

/-! ## `TraceRingBuffer` -/

/-- `TraceRingBufferOptions`. -/
structure TraceRingBufferOptions where
  maxTraceBytes : Option Number := none
  maxAttributeValueLength : Option Number := none
  maxEventsPerSpan : Option Number := none

structure TraceRingBuffer where
  capacity : Nat
  opts : Options
  order : List Utf16
  byCycle : OrderedMap Utf16 BoundedTrace
  insertedCount : Nat
  evictedCount : Nat

section

variable (render : Number → String)

theorem le_toNat {least : Nat} {z : Int} (h : (least : Int) ≤ z) : least ≤ z.toNat := by
  omega

/-- `!Number.isInteger(value) || value < least`, and what is thrown then. -/
def checkInteger (field mustBe : String) (least : Nat) (value : Number) :
    Except String { n : Nat // least ≤ n } :=
  match value with
  | .fin q =>
    if h : q.den = 1 ∧ (least : Int) ≤ q.num then .ok ⟨q.num.toNat, le_toNat h.2⟩
    else .error ("TraceRingBuffer " ++ field ++ " must be " ++ mustBe ++ " (got " ++ render value
      ++ ")")
  | _ => .error ("TraceRingBuffer " ++ field ++ " must be " ++ mustBe ++ " (got " ++ render value
      ++ ")")

/-- The constructor. -/
def newTraceRingBuffer (capacity : Option Number) (opts : TraceRingBufferOptions) :
    Except String TraceRingBuffer := do
  let capacity ← checkInteger render "capacity" "a positive integer" 1
    (capacity.getD (.ofNat 1000))
  let maxTraceBytes ← checkInteger render "maxTraceBytes" "an integer >= 1024" 1024
    (opts.maxTraceBytes.getD (.ofNat (256 * 1024)))
  let maxAttributeValueLength ← checkInteger render "maxAttributeValueLength"
    "an integer >= 16" 16 (opts.maxAttributeValueLength.getD (.ofNat 4096))
  let maxEventsPerSpan ← checkInteger render "maxEventsPerSpan" "a non-negative integer" 0
    (opts.maxEventsPerSpan.getD (.ofNat 32))
  .ok {
    capacity := capacity.1
    opts :=
      { maxTraceBytes := maxTraceBytes.1
        maxAttributeValueLength := maxAttributeValueLength.1
        maxEventsPerSpan := maxEventsPerSpan.1
        maxTraceBytes_ge := maxTraceBytes.2
        maxAttributeValueLength_ge := maxAttributeValueLength.2 }
    order := []
    byCycle := .empty
    insertedCount := 0
    evictedCount := 0 }

end

/-- `while (exceeds(order.length)) order.shift()`: what is shifted, and what is left. -/
def shiftWhile (exceeds : Nat → Bool) : List Utf16 → List Utf16 × List Utf16
  | [] => ([], [])
  | cycleId :: order =>
    if exceeds (order.length + 1) then
      let (dropped, order) := shiftWhile exceeds order
      (cycleId :: dropped, order)
    else ([], cycleId :: order)

/-- `byCycle.delete(cycleId)` for each of them, and how many were there. -/
def deleteAll (byCycle : OrderedMap Utf16 BoundedTrace) : List Utf16 →
    OrderedMap Utf16 BoundedTrace × Nat
  | [] => (byCycle, 0)
  | cycleId :: dropped =>
    let (left, count) := deleteAll (byCycle.delete cycleId) dropped
    (left, (if byCycle.has cycleId then 1 else 0) + count)

/-- `order.length > Math.max(0, Math.floor(retained))`. -/
def overRetained (retained : Number) (length : Nat) : Bool :=
  match retained with
  | .nan | .posInf => false
  | .negInf => 0 < length
  | .fin q => max 0 ⌊q⌋ < (length : Int)

namespace TraceRingBuffer

/-- `put(trace)`. -/
def put (b : TraceRingBuffer) (heap : Heap) (trace : CycleTrace) : TraceRingBuffer :=
  let bounded := boundTracePayload heap b.opts trace
  if b.byCycle.has trace.cycleId then { b with byCycle := b.byCycle.set trace.cycleId bounded }
  else
    let (dropped, order) := shiftWhile (b.capacity < ·) (b.order ++ [trace.cycleId])
    { b with
      byCycle := (deleteAll (b.byCycle.set trace.cycleId bounded) dropped).1
      order
      insertedCount := b.insertedCount + 1
      evictedCount := b.evictedCount + dropped.length }

/-- `slice(start)`. -/
def sliceFrom (start : Int) (order : List Utf16) : List Utf16 :=
  order.drop (if start < 0 then order.length - (-start).toNat else start.toNat)

/-- `list(limit)`. -/
def list (b : TraceRingBuffer) (limit : Int) : List BoundedTrace :=
  (sliceFrom (-(max 0 limit)) b.order).reverse.filterMap b.byCycle.get?

/-- `trimTo(retained)`: the buffer, and what is returned. -/
def trimTo (b : TraceRingBuffer) (retained : Number) : TraceRingBuffer × Nat :=
  let (dropped, order) := shiftWhile (overRetained retained) b.order
  let (byCycle, droppedCount) := deleteAll b.byCycle dropped
  ({ b with order, byCycle, evictedCount := b.evictedCount + droppedCount }, droppedCount)

/-- `size()`. -/
def size (b : TraceRingBuffer) : Nat := b.order.length

end TraceRingBuffer

/-! ## Runs -/

inductive BufferEvent where
  | put (heap : Heap) (trace : CycleTrace)
  | trimTo (retained : Number)

/-- A buffer, the cycles in the order in which they were inserted, and the trace of each that
was put last. -/
structure Recorded where
  buffer : TraceRingBuffer
  log : List Utf16
  latest : Utf16 → Option BoundedTrace

def Recorded.step (s : Recorded) : BufferEvent → Recorded
  | .put heap trace =>
    { buffer := s.buffer.put heap trace
      log := if s.buffer.byCycle.has trace.cycleId then s.log else s.log ++ [trace.cycleId]
      latest := fun cycleId =>
        if cycleId = trace.cycleId then some (boundTracePayload heap s.buffer.opts trace)
        else s.latest cycleId }
  | .trimTo retained => { s with buffer := (s.buffer.trimTo retained).1 }

/-- The runs on a new buffer. -/
def bufferRuns (buffer : TraceRingBuffer) : Lts Recorded BufferEvent where
  init := ⟨buffer, [], fun _ => none⟩
  step s e := some (s.step e)

/-- The `n` traces that were inserted last, or as many as there are, newest first. -/
def Recorded.newest (s : Recorded) (n : Nat) : List BoundedTrace :=
  (s.log.reverse.take (min n s.buffer.size)).filterMap s.latest

/-- The buffer is the end of the log. -/
structure Represents (s : Recorded) : Prop where
  nodup : s.buffer.order.Nodup
  keys : ∀ cycleId, cycleId ∈ s.buffer.order ↔ s.buffer.byCycle.has cycleId = true
  bounded : s.buffer.size ≤ s.buffer.capacity
  inserted : s.buffer.insertedCount = s.log.length
  evicted : s.buffer.insertedCount - s.buffer.evictedCount = s.buffer.size ∧
    s.buffer.evictedCount ≤ s.buffer.insertedCount
  suffix : s.buffer.order = s.log.drop s.buffer.evictedCount
  latest : ∀ cycleId ∈ s.buffer.order, s.buffer.byCycle.get? cycleId = s.latest cycleId

/-! ## Shifting -/

theorem shiftWhile_append (exceeds : Nat → Bool) (order : List Utf16) :
    (shiftWhile exceeds order).1 ++ (shiftWhile exceeds order).2 = order := by
  induction order with
  | nil => rfl
  | cons cycleId order ih =>
    rw [shiftWhile]
    split
    next => exact congrArg (List.cons cycleId) ih
    next => rfl

/-- What is left is short enough. -/
theorem shiftWhile_over (exceeds : Nat → Bool) (order : List Utf16) :
    (shiftWhile exceeds order).2 = [] ∨ exceeds (shiftWhile exceeds order).2.length = false := by
  induction order with
  | nil => exact Or.inl rfl
  | cons cycleId order ih =>
    rw [shiftWhile]
    split
    next => exact ih
    next hstop => exact Or.inr (by simpa using hstop)

theorem get?_deleteAll (dropped : List Utf16) : ∀ (byCycle : OrderedMap Utf16 BoundedTrace)
    (cycleId : Utf16), (deleteAll byCycle dropped).1.get? cycleId =
      if cycleId ∈ dropped then none else byCycle.get? cycleId := by
  induction dropped with
  | nil =>
    intro byCycle cycleId
    rw [if_neg List.not_mem_nil]
    rfl
  | cons first dropped ih =>
    intro byCycle cycleId
    show (deleteAll (byCycle.delete first) dropped).1.get? cycleId = _
    rw [ih, OrderedMap.get?_delete]
    simp only [List.mem_cons]
    by_cases hfirst : cycleId = first
    · rw [if_pos hfirst, if_pos (Or.inl hfirst), ite_self]
    · by_cases hrest : cycleId ∈ dropped
      · rw [if_pos hrest, if_pos (Or.inr hrest)]
      · rw [if_neg hrest, if_neg hfirst, if_neg (not_or.mpr ⟨hfirst, hrest⟩)]

/-- All of them were there. -/
theorem deleteAll_count (dropped : List Utf16) : ∀ (byCycle : OrderedMap Utf16 BoundedTrace),
    dropped.Nodup → (∀ cycleId ∈ dropped, byCycle.has cycleId = true) →
    (deleteAll byCycle dropped).2 = dropped.length := by
  induction dropped with
  | nil => exact fun _ _ _ => rfl
  | cons first dropped ih =>
    intro byCycle hnodup hthere
    rw [List.nodup_cons] at hnodup
    have hfirst : byCycle.has first = true := hthere first (List.mem_cons_self ..)
    show (if byCycle.has first then 1 else 0) + (deleteAll (byCycle.delete first) dropped).2 = _
    rw [if_pos hfirst, ih _ hnodup.2, List.length_cons, Nat.add_comm]
    intro cycleId hmem
    have hne : cycleId ≠ first := fun heq => hnodup.1 (heq ▸ hmem)
    rw [OrderedMap.has, OrderedMap.get?_delete_ne _ hne]
    exact hthere cycleId (List.mem_cons_of_mem _ hmem)

/-! ## The buffer is the end of the log -/

section

variable {order : List Utf16} {byCycle : OrderedMap Utf16 BoundedTrace} {log : List Utf16}
  {evicted : Nat} {latest : Utf16 → Option BoundedTrace}

/-- The order of a buffer, its map and its counter, beside a log. -/
structure Aligned (order : List Utf16) (byCycle : OrderedMap Utf16 BoundedTrace)
    (log : List Utf16) (evicted : Nat) (latest : Utf16 → Option BoundedTrace) : Prop where
  nodup : order.Nodup
  keys : ∀ cycleId, cycleId ∈ order ↔ byCycle.has cycleId = true
  length : log.length = evicted + order.length
  suffix : order = log.drop evicted
  latest : ∀ cycleId ∈ order, byCycle.get? cycleId = latest cycleId

/-- Shifting keeps the end of the log. -/
theorem Aligned.shift (h : Aligned order byCycle log evicted latest) (exceeds : Nat → Bool) :
    Aligned (shiftWhile exceeds order).2 (deleteAll byCycle (shiftWhile exceeds order).1).1 log
      (evicted + (shiftWhile exceeds order).1.length) latest := by
  have happend := shiftWhile_append exceeds order
  generalize (shiftWhile exceeds order).1 = dropped at happend
  generalize (shiftWhile exceeds order).2 = left at happend
  have hnodup := h.nodup
  rw [← happend, List.nodup_append] at hnodup
  obtain ⟨-, hleft, hdisjoint⟩ := hnodup
  have hkept : ∀ cycleId ∈ left,
      (deleteAll byCycle dropped).1.get? cycleId = byCycle.get? cycleId := by
    intro cycleId hmem
    rw [get?_deleteAll, if_neg]
    exact fun hdropped => hdisjoint cycleId hdropped cycleId hmem rfl
  refine ⟨hleft, ?_, ?_, ?_, ?_⟩
  · intro cycleId
    constructor
    · intro hmem
      rw [OrderedMap.has, hkept cycleId hmem]
      exact (h.keys cycleId).mp (happend ▸ List.mem_append_right _ hmem)
    · intro hhas
      rw [OrderedMap.has, get?_deleteAll] at hhas
      by_cases hdropped : cycleId ∈ dropped
      · rw [if_pos hdropped] at hhas
        exact absurd hhas (by simp)
      · rw [if_neg hdropped] at hhas
        have hmem := (h.keys cycleId).mpr hhas
        rw [← happend] at hmem
        exact (List.mem_append.mp hmem).resolve_left hdropped
  · rw [h.length, ← happend, List.length_append, Nat.add_assoc]
  · rw [← List.drop_drop, ← h.suffix, ← happend, List.drop_left]
  · intro cycleId hmem
    rw [hkept cycleId hmem]
    exact h.latest cycleId (happend ▸ List.mem_append_right _ hmem)

/-- A cycle that is not there is appended to both. -/
theorem Aligned.push (h : Aligned order byCycle log evicted latest) {cycleId : Utf16}
    (hnew : byCycle.has cycleId = false) (trace : BoundedTrace) :
    Aligned (order ++ [cycleId]) (byCycle.set cycleId trace) (log ++ [cycleId]) evicted
      (fun c => if c = cycleId then some trace else latest c) := by
  have hfree : cycleId ∉ order := by
    intro hmem
    rw [(h.keys cycleId).mp hmem] at hnew
    exact absurd hnew (by simp)
  refine ⟨?_, ?_, ?_, ?_, ?_⟩
  · exact List.nodup_append.mpr ⟨h.nodup, List.nodup_singleton _, fun a ha b hb hab =>
      hfree (List.mem_singleton.mp hb ▸ hab ▸ ha)⟩
  · intro c
    rw [List.mem_append, List.mem_singleton, h.keys, OrderedMap.has, OrderedMap.has,
      OrderedMap.get?_set]
    by_cases hc : c = cycleId
    · simp [hc]
    · simp [hc]
  · rw [List.length_append, List.length_append, h.length, Nat.add_assoc]
  · have hle : evicted ≤ log.length := by rw [h.length]; omega
    rw [List.drop_append_of_le_length hle, ← h.suffix]
  · intro c hc
    rw [OrderedMap.get?_set]
    split
    next => rfl
    next hne =>
      refine h.latest c ((List.mem_append.mp hc).resolve_right ?_)
      exact fun hlast => hne (List.mem_singleton.mp hlast)

/-- The trace of a cycle that is there is replaced where it is. -/
theorem Aligned.replace (h : Aligned order byCycle log evicted latest) {cycleId : Utf16}
    (hold : byCycle.has cycleId = true) (trace : BoundedTrace) :
    Aligned order (byCycle.set cycleId trace) log evicted
      (fun c => if c = cycleId then some trace else latest c) := by
  refine ⟨h.nodup, ?_, h.length, h.suffix, ?_⟩
  · intro c
    rw [h.keys, OrderedMap.has, OrderedMap.has, OrderedMap.get?_set]
    by_cases hc : c = cycleId
    · rw [if_pos hc, hc]
      exact ⟨fun _ => rfl, fun _ => hold⟩
    · rw [if_neg hc]
  · intro c hc
    rw [OrderedMap.get?_set]
    split
    next => rfl
    next => exact h.latest c hc

end

/-- The invariant: the buffer is aligned with the log, counts it, and is not too long. -/
structure InStep (s : Recorded) : Prop where
  aligned : Aligned s.buffer.order s.buffer.byCycle s.log s.buffer.evictedCount s.latest
  inserted : s.buffer.insertedCount = s.log.length
  bounded : s.buffer.order.length ≤ s.buffer.capacity

theorem inStep_put {s : Recorded} (h : InStep s) (heap : Heap) (trace : CycleTrace) :
    InStep (s.step (.put heap trace)) := by
  cases hhas : s.buffer.byCycle.has trace.cycleId with
  | true =>
    have hput : s.buffer.put heap trace = { s.buffer with
        byCycle := s.buffer.byCycle.set trace.cycleId
          (boundTracePayload heap s.buffer.opts trace) } := if_pos hhas
    rw [Recorded.step, hput, if_pos hhas]
    exact ⟨h.aligned.replace hhas _, h.inserted, h.bounded⟩
  | false =>
    have hnot : ¬ s.buffer.byCycle.has trace.cycleId = true := by
      rw [hhas]
      exact Bool.false_ne_true
    have hpush := (h.aligned.push hhas (boundTracePayload heap s.buffer.opts trace)).shift
      (s.buffer.capacity < ·)
    have hput : s.buffer.put heap trace =
        let (dropped, order) :=
          shiftWhile (s.buffer.capacity < ·) (s.buffer.order ++ [trace.cycleId])
        { s.buffer with
          byCycle := (deleteAll (s.buffer.byCycle.set trace.cycleId
            (boundTracePayload heap s.buffer.opts trace)) dropped).1
          order
          insertedCount := s.buffer.insertedCount + 1
          evictedCount := s.buffer.evictedCount + dropped.length } := if_neg hnot
    rw [Recorded.step, hput, if_neg hnot]
    refine ⟨hpush, ?_, ?_⟩
    · show s.buffer.insertedCount + 1 = _
      rw [h.inserted, List.length_append, List.length_singleton]
    · show (shiftWhile _ (s.buffer.order ++ [trace.cycleId])).2.length ≤ s.buffer.capacity
      rcases shiftWhile_over (s.buffer.capacity < ·) (s.buffer.order ++ [trace.cycleId]) with
        hnil | hstop
      · rw [hnil]
        exact Nat.zero_le _
      · exact Nat.le_of_not_lt (of_decide_eq_false hstop)

/-- All that is shifted was in the map. -/
theorem trimTo_count {s : Recorded} (h : InStep s) (retained : Number) :
    (s.buffer.trimTo retained).2 =
      (shiftWhile (overRetained retained) s.buffer.order).1.length := by
  have happend := shiftWhile_append (overRetained retained) s.buffer.order
  have hnodup := h.aligned.nodup
  rw [← happend, List.nodup_append] at hnodup
  refine deleteAll_count _ _ hnodup.1 fun cycleId hmem => ?_
  refine (h.aligned.keys cycleId).mp ?_
  rw [← happend]
  exact List.mem_append_left _ hmem

theorem inStep_trimTo {s : Recorded} (h : InStep s) (retained : Number) :
    InStep (s.step (.trimTo retained)) := by
  have hshift := h.aligned.shift (overRetained retained)
  rw [← trimTo_count h retained] at hshift
  refine ⟨hshift, h.inserted, ?_⟩
  have hlength := congrArg List.length
    (shiftWhile_append (overRetained retained) s.buffer.order)
  rw [List.length_append] at hlength
  show (shiftWhile (overRetained retained) s.buffer.order).2.length ≤ s.buffer.capacity
  have hbounded := h.bounded
  omega

/-! ## The listing -/

theorem inStep_run {buffer : TraceRingBuffer} (hinit : InStep (bufferRuns buffer).init)
    {es : List BufferEvent} {s : Recorded}
    (hrun : (bufferRuns buffer).exec (bufferRuns buffer).init es = some s) : InStep s := by
  refine Lts.exec_invariant (I := InStep) (C := fun _ _ => True) ?_ es hinit hrun
    (Lts.along_true es _)
  intro s e t hs _ hst
  rw [bufferRuns, Option.some.injEq] at hst
  rw [← hst]
  cases e with
  | put heap trace => exact inStep_put hs heap trace
  | trimTo retained => exact inStep_trimTo hs retained

theorem InStep.represents {s : Recorded} (h : InStep s) : Represents s := by
  have hlength := h.aligned.length
  refine ⟨h.aligned.nodup, h.aligned.keys, h.bounded, h.inserted, ⟨?_, ?_⟩, h.aligned.suffix,
    h.aligned.latest⟩
  · rw [h.inserted, hlength, Nat.add_sub_cancel_left]
    rfl
  · rw [h.inserted, hlength]
    exact Nat.le_add_right ..

/-- The traces of the cycles of the order. -/
theorem InStep.filterMap_eq {s : Recorded} (h : InStep s) {order : List Utf16}
    (hsub : ∀ cycleId ∈ order, cycleId ∈ s.buffer.order) :
    order.filterMap s.buffer.byCycle.get? = order.filterMap s.latest ∧
      (order.filterMap s.latest).length = order.length := by
  have hget : ∀ cycleId ∈ order, s.buffer.byCycle.get? cycleId = s.latest cycleId ∧
      (s.latest cycleId).isSome := by
    intro cycleId hmem
    have hlatest := h.aligned.latest cycleId (hsub cycleId hmem)
    refine ⟨hlatest, ?_⟩
    rw [← hlatest]
    exact (h.aligned.keys cycleId).mp (hsub cycleId hmem)
  refine ⟨List.filterMap_congr fun cycleId hmem => (hget cycleId hmem).1, ?_⟩
  clear hsub
  induction order with
  | nil => rfl
  | cons first order ih =>
    obtain ⟨trace, htrace⟩ := Option.isSome_iff_exists.mp (hget first (List.mem_cons_self ..)).2
    rw [List.filterMap_cons, htrace]
    exact congrArg (· + 1) (ih fun cycleId hmem => hget cycleId (List.mem_cons_of_mem _ hmem))

/-- The end of the order is the end of the log. -/
theorem InStep.newest_eq {s : Recorded} (h : InStep s) (n : Nat) :
    s.newest n = (s.buffer.order.reverse.take n).filterMap s.latest := by
  have hsuffix := h.aligned.suffix
  have hlength := h.aligned.length
  have hreverse : s.buffer.order.reverse = s.log.reverse.take s.buffer.order.length := by
    conv_lhs => rw [hsuffix]
    rw [List.reverse_drop, hlength, Nat.add_sub_cancel_left]
  unfold Recorded.newest TraceRingBuffer.size
  rw [hreverse, List.take_take]

theorem list_eq (b : TraceRingBuffer) (n : Nat) :
    b.list n = (b.order.reverse.take (if n = 0 then b.order.length else n)).filterMap
      b.byCycle.get? := by
  unfold TraceRingBuffer.list TraceRingBuffer.sliceFrom
  congr 1
  split
  next hneg =>
    have hpos : ¬ n = 0 := by omega
    have hcount : (- -(max 0 (n : Int))).toNat = n := by omega
    have hkept : b.order.length - (b.order.length - n) = min n b.order.reverse.length := by
      rw [List.length_reverse]
      omega
    rw [hcount, if_neg hpos, List.reverse_drop, hkept, ← List.take_eq_take_min]
  next hzero =>
    have hnone : n = 0 := by omega
    have hstart : (-(max 0 (n : Int))).toNat = 0 := by omega
    rw [hstart, if_pos hnone, List.drop_zero, List.take_of_length_le]
    rw [List.length_reverse]

/-- The listing is the newest traces, except that a listing of none is one of all. -/
theorem list_newest_iff {s : Recorded} (h : InStep s) (n : Nat) :
    s.buffer.list n = s.newest n ↔ 0 < n ∨ s.buffer.size = 0 := by
  have hsub : ∀ count, ∀ cycleId ∈ s.buffer.order.reverse.take count,
      cycleId ∈ s.buffer.order :=
    fun count cycleId hmem => List.mem_reverse.mp (List.mem_of_mem_take hmem)
  rw [h.newest_eq, list_eq, (h.filterMap_eq (hsub _)).1]
  constructor
  · intro heq
    have hlengths := congrArg List.length heq
    rw [(h.filterMap_eq (hsub _)).2, (h.filterMap_eq (hsub _)).2, List.length_take,
      List.length_take, List.length_reverse] at hlengths
    unfold TraceRingBuffer.size
    split at hlengths <;> omega
  · intro hcases
    rcases hcases with hpos | hempty
    · rw [if_neg (by omega)]
    · have hnil : s.buffer.order = [] := List.eq_nil_of_length_eq_zero hempty
      rw [hnil, List.reverse_nil, List.take_nil, List.take_nil]

theorem newTraceRingBuffer_ok {render : Number → String} {capacity : Option Number}
    {opts : TraceRingBufferOptions} {buffer : TraceRingBuffer}
    (h : newTraceRingBuffer render capacity opts = .ok buffer) :
    InStep (bufferRuns buffer).init := by
  unfold newTraceRingBuffer at h
  obtain ⟨cap, -, h⟩ := Js.bind_ok h
  obtain ⟨maxTraceBytes, -, h⟩ := Js.bind_ok h
  obtain ⟨maxAttributeValueLength, -, h⟩ := Js.bind_ok h
  obtain ⟨maxEventsPerSpan, -, h⟩ := Js.bind_ok h
  rw [Except.ok.injEq] at h
  rw [← h]
  refine ⟨⟨List.nodup_nil, ?_, rfl, rfl, ?_⟩, rfl, Nat.zero_le _⟩
  · intro cycleId
    exact ⟨fun hmem => absurd hmem List.not_mem_nil, fun hhas => absurd hhas Bool.false_ne_true⟩
  · exact fun cycleId hmem => absurd hmem List.not_mem_nil

/-- In every state of every run on a buffer that the constructor returned, the buffer is the end
of the log, trimming returns how many it dropped, and a listing is the newest traces just if it
is one of some, or there are none. -/
theorem ring_buffer_iff (render : Number → String) (capacity : Option Number)
    (opts : TraceRingBufferOptions) (buffer : TraceRingBuffer)
    (hnew : newTraceRingBuffer render capacity opts = .ok buffer) (es : List BufferEvent)
    (s : Recorded) (hrun : (bufferRuns buffer).exec (bufferRuns buffer).init es = some s) :
    Represents s ∧
      (∀ retained, (s.buffer.trimTo retained).2 =
        s.buffer.size - (s.buffer.trimTo retained).1.size) ∧
      ∀ n : Nat, s.buffer.list n = s.newest n ↔ 0 < n ∨ s.buffer.size = 0 := by
  have hs := inStep_run (newTraceRingBuffer_ok hnew) hrun
  refine ⟨hs.represents, ?_, list_newest_iff hs⟩
  intro retained
  rw [trimTo_count hs]
  have hlength := congrArg List.length
    (shiftWhile_append (overRetained retained) s.buffer.order)
  rw [List.length_append] at hlength
  show _ = s.buffer.order.length - (shiftWhile (overRetained retained) s.buffer.order).2.length
  omega

/-- A trace without spans. -/
def emptyTrace (cycleId : String) : CycleTrace :=
  ⟨Js.Utf16.ascii cycleId, [], [], .finite "0", .finite "0", []⟩

def putEmpty (cycleId : String) : BufferEvent := .put (fun _ => .record []) (emptyTrace cycleId)

/-- A buffer of the default options for two traces. -/
def bufferOfTwo : TraceRingBuffer where
  capacity := 2
  opts := ⟨256 * 1024, 4096, 32, by decide, by decide⟩
  order := []
  byCycle := .empty
  insertedCount := 0
  evictedCount := 0

theorem newTraceRingBuffer_two :
    newTraceRingBuffer (fun _ => "") (some (.ofNat 2)) {} = .ok bufferOfTwo := rfl

/-- Three cycles, of which the first is evicted. -/
theorem two_of_three_listed : ∃ s, (bufferRuns bufferOfTwo).exec (bufferRuns bufferOfTwo).init
      [putEmpty "a", putEmpty "b", putEmpty "a", putEmpty "c"] = some s ∧
    s.buffer.order = [Js.Utf16.ascii "b", Js.Utf16.ascii "c"] ∧ s.buffer.list 1 = s.newest 1 := by
  refine ⟨_, rfl, by decide +kernel, ?_⟩
  exact ((ring_buffer_iff (fun _ => "") (some (.ofNat 2)) {} bufferOfTwo newTraceRingBuffer_two
    [putEmpty "a", putEmpty "b", putEmpty "a", putEmpty "c"] _ rfl).2.2 1).mpr (Or.inl (by decide))

/-- A listing of none lists all that there is. -/
theorem list_zero_lists_all : ∃ s, (bufferRuns bufferOfTwo).exec (bufferRuns bufferOfTwo).init
      [putEmpty "a"] = some s ∧ (s.buffer.list 0).length = 1 ∧ s.newest 0 = [] := by
  exact ⟨_, rfl, by decide +kernel, by rfl⟩

end Kovael.Trace
