import Kovael.Js.OrderedMap
import Kovael.Js.Text
import Kovael.Trace.RingBuffer
import Kovael.Triad.Cycle

/-!
# `MeshOrchestrator.enterLightweightMode`

What the orchestrator gives up when it becomes idle: the tasks and the traces that are older
than the newest few, by two settings. The ring shifts while it is too long; the tasks are
sliced from the end, and a slice from minus zero is all of them. `retention_honoured_iff` says
that nothing else goes wrong.

Mirroring notes vs the TS:
- Of the configuration the two retentions are kept, and of the overrides that the constructor
  takes; an override is a count.
- Clearing the hardware sample and the active cycles, the garbage collector, and what is
  stopped and started do not touch the caches and are in no count.
- From 2 ^ 53 a setting is rounded, and no cache is that long.
- `this.tracing` may be absent.
-/

namespace Kovael.Mesh

open Js (Json Number Utf16)
open Trace (TraceRingBuffer)
open Triad (sliceFrom sliceFrom_neg length_rtake)

/-! ## The configuration -/

/-- The two of `OrchestratorResourceModeConfig` that say what is retained. -/
structure ResourceModeConfig where
  idleTaskCacheRetain : Nat
  idleTraceRetain : Nat
  deriving DecidableEq, Repr

/-- `readNonNegativeIntEnv(name, fallback)`. A number that rounds to `Infinity` is no integer. -/
def readNonNegativeIntEnv (var : Option String) (fallback : Nat) : Nat :=
  match Js.parseInt (var.getD "") with
  | some n => if 0 ≤ n ∧ n < 2 ^ 1024 - 2 ^ 970 then n.toNat else fallback
  | none => fallback

/-- `resolveResourceModeConfig(overrides)`. -/
def resolveResourceModeConfig (taskVar traceVar : Option String)
    (taskOverride traceOverride : Option Nat) : ResourceModeConfig where
  idleTaskCacheRetain := taskOverride.getD (readNonNegativeIntEnv taskVar 20)
  idleTraceRetain := traceOverride.getD (readNonNegativeIntEnv traceVar 20)

/-! ## Idle mode -/

/-- What is trimmed. -/
structure Caches where
  nodeCache : Js.OrderedMap String Json
  taskCache : List Json
  ring : Option TraceRingBuffer

/-- `resource_mode_idle`, of it the counts. -/
structure IdleLog where
  droppedNodes : Nat
  droppedTasks : Nat
  droppedTraces : Nat
  deriving DecidableEq, Repr

/-- `enterLightweightMode(event)`: the caches, and what is logged. -/
def enterLightweightMode (cfg : ResourceModeConfig) (caches : Caches) : Caches × IdleLog :=
  let droppedTasks := caches.taskCache.length - cfg.idleTaskCacheRetain
  let taskCache :=
    if 0 < droppedTasks then sliceFrom caches.taskCache (-(cfg.idleTaskCacheRetain : Int))
    else caches.taskCache
  let trimmed := caches.ring.map fun ring => ring.trimTo (.ofNat cfg.idleTraceRetain)
  ({ nodeCache := .empty, taskCache, ring := trimmed.map Prod.fst },
    { droppedNodes := caches.nodeCache.size, droppedTasks,
      droppedTraces := (trimmed.map Prod.snd).getD 0 })

/-- The ring has the newest of the traces that it had, each as it was. -/
structure RingTrimmed (n : Nat) (ring ring' : TraceRingBuffer) : Prop where
  order : ring'.order = ring.order.rtake n
  keys : ∀ cycleId, ring'.byCycle.has cycleId = true ↔ cycleId ∈ ring'.order
  traces : ∀ cycleId ∈ ring'.order, ring'.byCycle.get? cycleId = ring.byCycle.get? cycleId

/-- Both trims keep the newest, as many as are to be retained, and the log has how many were
removed. -/
structure RetentionHonoured (cfg : ResourceModeConfig) (caches : Caches) : Prop where
  tasks : (enterLightweightMode cfg caches).1.taskCache =
    caches.taskCache.rtake cfg.idleTaskCacheRetain
  traces : ∀ ring, caches.ring = some ring →
    ∃ ring', (enterLightweightMode cfg caches).1.ring = some ring' ∧
      RingTrimmed cfg.idleTraceRetain ring ring' ∧
      (enterLightweightMode cfg caches).2.droppedTraces + ring'.size = ring.size
  droppedTasks : (enterLightweightMode cfg caches).2.droppedTasks +
    (enterLightweightMode cfg caches).1.taskCache.length = caches.taskCache.length
  droppedNodes : (enterLightweightMode cfg caches).2.droppedNodes +
    (enterLightweightMode cfg caches).1.nodeCache.size = caches.nodeCache.size

/-- A ring that a run on a new buffer has led to. -/
def ReachedRing (ring : TraceRingBuffer) : Prop :=
  ∃ (render : Number → String) (capacity : Option Number) (opts : Trace.TraceRingBufferOptions)
    (buffer : TraceRingBuffer) (es : List Trace.BufferEvent) (s : Trace.Recorded),
    Trace.newTraceRingBuffer render capacity opts = .ok buffer ∧
      (Trace.bufferRuns buffer).exec (Trace.bufferRuns buffer).init es = some s ∧ s.buffer = ring

/-! ## The two trims -/

/-- The loop shifts all but the newest. -/
theorem shiftWhile_retained (n : Nat) (order : List Utf16) :
    Trace.shiftWhile (Trace.overRetained (.ofNat n)) order =
      (order.take (order.length - n), order.rtake n) := by
  induction order with
  | nil => rw [Trace.shiftWhile, List.rtake_nil, List.take_nil]
  | cons cycleId order ih =>
    have hover : Trace.overRetained (.ofNat n) (order.length + 1) =
        decide (n < order.length + 1) := by
      show decide (max 0 ⌊(n : ℚ)⌋ < ((order.length + 1 : Nat) : Int)) = _
      rw [Int.floor_natCast, decide_eq_decide]
      omega
    rw [Trace.shiftWhile, hover, ih]
    by_cases hlt : n < order.length + 1
    · have hsub : (cycleId :: order).length - n = order.length - n + 1 := by
        rw [List.length_cons]
        omega
      rw [if_pos (decide_eq_true hlt), List.rtake, List.rtake, hsub]
      rfl
    · have hsub : (cycleId :: order).length - n = 0 := by
        rw [List.length_cons]
        omega
      rw [if_neg (by simpa using hlt), List.rtake, hsub]
      rfl

theorem ring_trimmed {ring : TraceRingBuffer} (h : ReachedRing ring) (n : Nat) :
    RingTrimmed n ring (ring.trimTo (.ofNat n)).1 ∧
      (ring.trimTo (.ofNat n)).2 + (ring.trimTo (.ofNat n)).1.size = ring.size := by
  obtain ⟨render, capacity, opts, buffer, es, s, hnew, hrun, rfl⟩ := h
  have hs := Trace.inStep_run (Trace.newTraceRingBuffer_ok hnew) hrun
  have hshift := shiftWhile_retained n s.buffer.order
  have hcount := Trace.trimTo_count hs (.ofNat n)
  have hafter := Trace.inStep_trimTo hs (.ofNat n)
  have horder : (s.buffer.trimTo (.ofNat n)).1.order = s.buffer.order.rtake n :=
    congrArg Prod.snd hshift
  refine ⟨⟨horder, fun cycleId => (hafter.aligned.keys cycleId).symm, ?_⟩, ?_⟩
  · intro cycleId hmem
    have hold : cycleId ∈ s.buffer.order := List.mem_of_mem_drop (horder ▸ hmem)
    exact (hafter.aligned.latest cycleId hmem).trans (hs.aligned.latest cycleId hold).symm
  · rw [hcount, hshift, TraceRingBuffer.size, TraceRingBuffer.size, horder, length_rtake,
      List.length_take]
    omega

/-- The tasks are trimmed, if some are to be retained or there are none. -/
theorem taskCache_eq_iff (cfg : ResourceModeConfig) (caches : Caches) :
    (enterLightweightMode cfg caches).1.taskCache =
        caches.taskCache.rtake cfg.idleTaskCacheRetain ↔
      0 < cfg.idleTaskCacheRetain ∨ caches.taskCache = [] := by
  show (if 0 < caches.taskCache.length - cfg.idleTaskCacheRetain then _ else _) = _ ↔ _
  split
  next hdropped =>
    by_cases hretain : 0 < cfg.idleTaskCacheRetain
    · exact iff_of_true (sliceFrom_neg _ hretain) (Or.inl hretain)
    · have hzero : cfg.idleTaskCacheRetain = 0 := Nat.eq_zero_of_not_pos hretain
      have hne : caches.taskCache ≠ [] := by
        intro hnil
        rw [hnil, List.length_nil] at hdropped
        omega
      refine iff_of_false ?_ (not_or.mpr ⟨hretain, hne⟩)
      -- the slice from minus zero is the whole cache
      rw [hzero, List.rtake_zero]
      exact hne
  next hdropped =>
    have hle : caches.taskCache.length ≤ cfg.idleTaskCacheRetain := by omega
    refine iff_of_true ?_ ?_
    · rw [List.rtake, Nat.sub_eq_zero_of_le hle, List.drop_zero]
    · cases htasks : caches.taskCache with
      | nil => exact Or.inr rfl
      | cons task tasks =>
        rw [htasks, List.length_cons] at hle
        exact Or.inl (Nat.lt_of_lt_of_le (Nat.succ_pos _) hle)

/-- For the settings of every environment and all overrides: idle mode retains what the two
settings say just if some tasks are to be retained, or there are none. -/
theorem retention_honoured_iff (taskVar traceVar : Option String)
    (taskOverride traceOverride : Option Nat) (caches : Caches)
    (hring : ∀ ring, caches.ring = some ring → ReachedRing ring) :
    RetentionHonoured (resolveResourceModeConfig taskVar traceVar taskOverride traceOverride)
        caches ↔
      0 < (resolveResourceModeConfig taskVar traceVar taskOverride
          traceOverride).idleTaskCacheRetain ∨
        caches.taskCache = [] := by
  generalize resolveResourceModeConfig taskVar traceVar taskOverride traceOverride = cfg
  rw [← taskCache_eq_iff]
  refine ⟨RetentionHonoured.tasks, fun htasks => ⟨htasks, ?_, ?_, rfl⟩⟩
  · intro ring hsome
    obtain ⟨htrimmed, hcount⟩ := ring_trimmed (hring ring hsome) cfg.idleTraceRetain
    refine ⟨(ring.trimTo (.ofNat cfg.idleTraceRetain)).1, ?_, htrimmed, ?_⟩
    · show (caches.ring.map _).map Prod.fst = _
      rw [hsome]
      rfl
    · show ((caches.ring.map _).map Prod.snd).getD 0 + _ = _
      rw [hsome]
      exact hcount
  · show caches.taskCache.length - cfg.idleTaskCacheRetain + _ = _
    rw [htasks, length_rtake]
    omega

/-- Of three tasks and two traces, two and one are retained. -/
theorem three_tasks_trimmed : ∃ ring, ReachedRing ring ∧ ring.size = 2 ∧
    RetentionHonoured (resolveResourceModeConfig (some "2") none none (some 1))
      ⟨.empty, [.number "1", .number "2", .number "3"], some ring⟩ := by
  have hreached : ∃ ring, ReachedRing ring ∧ ring.size = 2 :=
    ⟨_, ⟨fun _ => "", some (.ofNat 2), {}, Trace.bufferOfTwo,
      [Trace.putEmpty "a", Trace.putEmpty "b", Trace.putEmpty "c"], _,
      Trace.newTraceRingBuffer_two, rfl, rfl⟩, by decide +kernel⟩
  obtain ⟨ring, hring, hsize⟩ := hreached
  refine ⟨ring, hring, hsize, (retention_honoured_iff (some "2") none none (some 1) _ ?_).mpr ?_⟩
  · intro ring' hsome
    obtain rfl := Option.some.inj hsome
    exact hring
  · exact Or.inl (by decide +kernel)

/-- With `KOVAEL_RESOURCE_IDLE_TASK_RETAIN=0` the log counts a task as dropped that stays. -/
theorem zero_retains_all :
    (enterLightweightMode (resolveResourceModeConfig (some "0") none none none)
      ⟨.empty, [.number "1"], none⟩).2.droppedTasks = 1 ∧
    ¬ ∀ taskVar traceVar taskOverride traceOverride caches,
      (∀ ring, caches.ring = some ring → ReachedRing ring) →
        RetentionHonoured (resolveResourceModeConfig taskVar traceVar taskOverride traceOverride)
          caches := by
  refine ⟨by decide +kernel, ?_⟩
  intro h
  have hone := h (some "0") none none none ⟨.empty, [.number "1"], none⟩
    fun ring hring => by cases hring
  have hlength := congrArg List.length hone.tasks
  exact absurd hlength (by decide +kernel)

end Kovael.Mesh
