import Kovael.Js.OrderedMap
import Kovael.Js.Text
import Kovael.Lts

/-!
# The idle mode

How the orchestrator goes idle and wakes: `src/services/ResourceGovernor.ts`,
`src/services/HardwareMonitor.ts`, the loop of `src/services/InterAgentChatManager.ts`, and what
`src/MeshOrchestrator.ts` wires between them. Here are the parts, the system that is made of them,
and what each call of a part does.

Mirroring notes:
- The clock does not go back.
- A sample is a child process. It may report an error, and closes once.
- A chat message is posted to a topic as well, which is left out; so are the caches that are
  trimmed, and the log.
- What the supervisor of the runtimes is told is recorded.
-/

namespace Kovael.Mesh

open Js (OrderedMap parseInt trim sliceStart)

/-! ## `ResourceGovernor` -/

inductive ResourceMode where
  | active
  | idle
  deriving DecidableEq

structure ResourceModeChange where
  mode : ResourceMode
  previousMode : ResourceMode
  timestamp : Nat
  idleForMs : Nat
  reason : String

structure ResourceGovernor where
  mode : ResourceMode
  timer : Bool
  lastActivityAt : Nat
  lastActivityReason : String
  trimCount : Nat
  lastTrimmedAt : Option Nat

structure GovernorConfig where
  enabled : Bool
  idleAfterMs : Nat

namespace ResourceGovernor

/-- `new ResourceGovernor(options)`. -/
def new (now : Nat) : ResourceGovernor := ⟨.active, false, now, "startup", 0, none⟩

/-- `start()`. -/
def start (cfg : GovernorConfig) (g : ResourceGovernor) : ResourceGovernor :=
  if !cfg.enabled || g.timer then g else { g with timer := true }

/-- `stop()`. -/
def stop (g : ResourceGovernor) : ResourceGovernor := { g with timer := false }

/-- `enterActive(now, reason)`. -/
def enterActive (now : Nat) (reason : String) (g : ResourceGovernor) :
    ResourceGovernor × Option ResourceModeChange :=
  if g.mode = .active then (g, none)
  else ({ g with mode := .active }, some ⟨.active, g.mode, now, 0, sliceStart 160 reason⟩)

/-- `enterIdle(now)`. -/
def enterIdle (now : Nat) (g : ResourceGovernor) : ResourceGovernor × Option ResourceModeChange :=
  if g.mode = .idle then (g, none)
  else
    ({ g with mode := .idle, trimCount := g.trimCount + 1, lastTrimmedAt := some now },
      some ⟨.idle, g.mode, now, now - g.lastActivityAt, "idle_timeout"⟩)

/-- `noteActivity(reason)`. -/
def noteActivity (now : Nat) (reason : String) (g : ResourceGovernor) :
    ResourceGovernor × Option ResourceModeChange :=
  let g := { g with lastActivityAt := now, lastActivityReason := sliceStart 160 reason }
  if g.mode = .idle then g.enterActive now reason else (g, none)

/-- `sweep()`. -/
def sweep (cfg : GovernorConfig) (now : Nat) (busy : Bool) (g : ResourceGovernor) :
    ResourceGovernor × Option ResourceModeChange :=
  if !cfg.enabled || g.mode ≠ .active then (g, none)
  else if busy then ({ g with lastActivityAt := now, lastActivityReason := "busy" }, none)
  else if cfg.idleAfterMs ≤ now - g.lastActivityAt then g.enterIdle now
  else (g, none)

end ResourceGovernor

/-! ## `HardwareMonitor` -/

inductive MetricsStatus where
  | ok
  | unavailable
  deriving DecidableEq

structure VramMetrics where
  status : MetricsStatus
  timestamp : Nat
  freeMb : Int
  usedMb : Int
  totalMb : Int
  utilizationPct : Int
  devices : Nat
  error : Option String

/-- A child that samples the GPU. -/
structure Probe where
  generation : Nat
  errored : Bool

structure HardwareMonitor where
  running : Bool
  /-- The generation that the callback of the timer has. -/
  timer : Option Nat
  generation : Nat
  inFlight : Bool
  latest : VramMetrics
  probes : OrderedMap Nat Probe
  nextProbe : Nat

namespace HardwareMonitor

/-- Metrics without a sample. -/
def blank (now : Nat) (error : Option String) : VramMetrics :=
  ⟨.unavailable, now, 0, 0, 0, 0, 0, error⟩

/-- `new HardwareMonitor()`. -/
def new (now : Nat) : HardwareMonitor := ⟨false, none, 0, false, blank now none, .empty, 0⟩

/-- One row of `nvidia-smi`: free, used, total and the utilization. -/
def parseRow? (row : String) : Option (Int × Int × Int × Int) :=
  match ((row.toList.splitOn ',').map fun col => parseInt (trim (String.ofList col))) with
  | some free :: some used :: some total :: util :: _ => some (free, used, total, util.getD 0)
  | _ => none

/-- `raw.split('\n')`, each row trimmed, the empty ones left out. -/
def smiRows (raw : String) : List String :=
  ((raw.toList.splitOn '\n').map fun row => trim (String.ofList row)).filter fun row => row ≠ ""

/-- `parseSmiOutput(raw)`. A row that is not parsed counts as a device all the same. -/
def parseSmiOutput (latest : VramMetrics) (now : Nat) (raw : String) : VramMetrics :=
  let rows := smiRows raw
  if rows = [] then
    { latest with status := .unavailable, timestamp := now, error := some "empty_output" }
  else
    let parsed := rows.filterMap parseRow?
    let utilSum := (parsed.map fun row => row.2.2.2).foldl (· + ·) 0
    { status := .ok
      timestamp := now
      freeMb := (parsed.map fun row => row.1).foldl (· + ·) 0
      usedMb := (parsed.map fun row => row.2.1).foldl (· + ·) 0
      totalMb := (parsed.map fun row => row.2.2.1).foldl (· + ·) 0
      -- `Math.round(utilSum / rows.length)`
      utilizationPct := (2 * utilSum + rows.length) / (2 * rows.length)
      devices := rows.length
      error := none }

/-- `publish(metrics)`: what the listeners of `vram_metrics` are given. -/
def publish (metrics : VramMetrics) (m : HardwareMonitor) :
    HardwareMonitor × Option VramMetrics :=
  ({ m with latest := metrics }, some metrics)

/-- `poll(generation)`; `spawns` says whether `spawn` returns. -/
def poll (now generation : Nat) (spawns : Bool) (m : HardwareMonitor) :
    HardwareMonitor × Option VramMetrics :=
  if !m.running || generation ≠ m.generation || m.inFlight then (m, none)
  else if spawns then
    ({ m with
      inFlight := true
      probes := m.probes.set m.nextProbe ⟨generation, false⟩
      nextProbe := m.nextProbe + 1 }, none)
  else m.publish (blank now (some "spawn_failed"))

/-- `start()`. -/
def start (now : Nat) (spawns : Bool) (m : HardwareMonitor) :
    HardwareMonitor × Option VramMetrics :=
  if m.running then (m, none)
  else
    let polled := ({ m with running := true } : HardwareMonitor).poll now m.generation spawns
    ({ polled.1 with timer := some m.generation }, polled.2)

/-- `stop()`. -/
def stop (m : HardwareMonitor) : HardwareMonitor :=
  if !m.running && m.timer.isNone then m
  else { m with running := false, generation := m.generation + 1, timer := none }

/-- A child reports: nobody hears of it who did not ask. -/
def report (probe : Probe) (metrics : VramMetrics) (m : HardwareMonitor) :
    HardwareMonitor × Option VramMetrics :=
  let m := { m with inFlight := false }
  if !m.running || probe.generation ≠ m.generation then (m, none) else m.publish metrics

/-- `child.on('error')`. -/
def onError (now id : Nat) (probe : Probe) (m : HardwareMonitor) :
    HardwareMonitor × Option VramMetrics :=
  ({ m with probes := m.probes.set id { probe with errored := true } } : HardwareMonitor).report
    probe (blank now (some "nvidia-smi_missing"))

/-- What a closed child has measured. -/
def closing (latest : VramMetrics) (now : Nat) (code : Option Int) (stdout stderr : String) :
    VramMetrics :=
  if code ≠ some 0 then
    let line := ((trim stderr).toList.splitOn '\n').headD []
    blank now (some (if line = [] then "exit_" ++ (code.map toString).getD "null"
      else String.ofList line))
  else parseSmiOutput latest now stdout

/-- `child.on('close')`. -/
def onClose (now id : Nat) (probe : Probe) (code : Option Int) (stdout stderr : String)
    (m : HardwareMonitor) : HardwareMonitor × Option VramMetrics :=
  ({ m with probes := m.probes.delete id } : HardwareMonitor).report probe
    (closing m.latest now code stdout stderr)

end HardwareMonitor

/-! ## `InterAgentChatManager` -/

inductive ChatMode where
  | technical
  | interests
  deriving DecidableEq

structure InterAgentChatManager where
  enabled : Bool
  timer : Bool
  mode : ChatMode
  currentTechnicalIndex : Nat
  currentInterestsIndex : Nat

namespace InterAgentChatManager

def new : InterAgentChatManager := ⟨false, false, .interests, 0, 0⟩

def index (c : InterAgentChatManager) : ChatMode → Nat
  | .technical => c.currentTechnicalIndex
  | .interests => c.currentInterestsIndex

def withIndex (c : InterAgentChatManager) (n : Nat) : InterAgentChatManager :=
  match c.mode with
  | .technical => { c with currentTechnicalIndex := n }
  | .interests => { c with currentInterestsIndex := n }

/-- `trigger()`: the dialogue that is broadcast. -/
def trigger {δ : Type} (dialogues : ChatMode → List δ) (c : InterAgentChatManager) :
    InterAgentChatManager × Option δ :=
  if dialogues c.mode = [] then (c, none)
  else
    (c.withIndex ((c.index c.mode + 1) % (dialogues c.mode).length),
      (dialogues c.mode)[c.index c.mode]?)

/-- `start()`. -/
def start {δ : Type} (dialogues : ChatMode → List δ) (c : InterAgentChatManager) :
    InterAgentChatManager × Option δ :=
  if c.timer then (c, none)
  else
    let triggered := c.trigger dialogues
    ({ triggered.1 with timer := true }, triggered.2)

/-- `stop()`. -/
def stop (c : InterAgentChatManager) : InterAgentChatManager := { c with timer := false }

end InterAgentChatManager

/-! ## `MeshOrchestrator` -/

/-- `snapshot()` of the governor. -/
structure ResourceGovernorSnapshot where
  enabled : Bool
  mode : ResourceMode
  idleAfterMs : Nat
  lastActivityAt : Nat
  lastActivityReason : String
  idleForMs : Nat
  trimCount : Nat
  lastTrimmedAt : Option Nat

inductive Broadcast (δ : Type) where
  | hardwareTelemetry (metrics : VramMetrics)
  | resourceMode (snapshot : ResourceGovernorSnapshot)
  | interAgentMessage (mode : ChatMode) (dialogue : δ)
  | interAgentChatState (enabled : Bool) (mode : ChatMode)

/-- What the supervisor of the runtimes is told. -/
inductive SupervisorCall where
  | start (reason : String)
  | stop (reason : String)
  deriving DecidableEq

structure IdleConfig (δ : Type) where
  governor : GovernorConfig
  parkOnIdle : Bool
  dialogues : ChatMode → List δ

structure IdleMesh (δ : Type) where
  now : Nat
  governor : ResourceGovernor
  hardware : HardwareMonitor
  chat : InterAgentChatManager
  hardwareCache : Option VramMetrics
  /-- `mevBridge.setVramFree(freeMb, available)`. -/
  vramFree : Option (Int × Bool)
  broadcasts : List (Broadcast δ)
  /-- `resource_mode_changed`. -/
  changes : List ResourceModeChange
  runtimes : List SupervisorCall
  /-- The mode in which `close()` was called. -/
  closed : Option ResourceMode

inductive ModeEvent where
  | tick (ms : Nat)
  | sweep (busy : Bool)
  | activity (reason : String) (spawns : Bool)
  | poll (spawns : Bool)
  | probeError (id : Nat)
  | probeClose (id : Nat) (code : Option Int) (stdout stderr : String)
  | chatTick
  | toggleChat (reason : String) (enabled spawns : Bool)
  | setChatMode (reason : String) (mode : ChatMode) (spawns : Bool)
  | close

/-- What becomes of the child `id`. -/
def ModeEvent.isOf (id : Nat) : ModeEvent → Prop
  | .probeError id' => id' = id
  | .probeClose id' _ _ _ => id' = id
  | _ => False

namespace IdleMesh

variable {δ : Type} (cfg : IdleConfig δ)

def broadcast (payload : Broadcast δ) (s : IdleMesh δ) : IdleMesh δ :=
  { s with broadcasts := s.broadcasts ++ [payload] }

/-- The listener of `vram_metrics`. -/
def onVramMetrics (metrics : VramMetrics) (s : IdleMesh δ) : IdleMesh δ :=
  ({ s with
    hardwareCache := some metrics
    vramFree := some (metrics.freeMb, metrics.status = .ok) } : IdleMesh δ).broadcast
    (.hardwareTelemetry metrics)

/-- What a call of the monitor leaves. -/
def withHardware (out : HardwareMonitor × Option VramMetrics) (s : IdleMesh δ) : IdleMesh δ :=
  let s := { s with hardware := out.1 }
  match out.2 with
  | some metrics => s.onVramMetrics metrics
  | none => s

/-- What a call of the chat leaves. -/
def withChat (out : InterAgentChatManager × Option δ) (s : IdleMesh δ) : IdleMesh δ :=
  let s := { s with chat := out.1 }
  match out.2 with
  | some dialogue => s.broadcast (.interAgentMessage s.chat.mode dialogue)
  | none => s

/-- `resourceGovernor.snapshot()`. -/
def governorSnapshot (s : IdleMesh δ) : ResourceGovernorSnapshot where
  enabled := cfg.governor.enabled
  mode := s.governor.mode
  idleAfterMs := cfg.governor.idleAfterMs
  lastActivityAt := s.governor.lastActivityAt
  lastActivityReason := s.governor.lastActivityReason
  idleForMs := s.now - s.governor.lastActivityAt
  trimCount := s.governor.trimCount
  lastTrimmedAt := s.governor.lastTrimmedAt

/-- `enterLightweightMode(event)`, of it what is stopped. -/
def enterLightweightMode (s : IdleMesh δ) : IdleMesh δ :=
  let s := { s with hardware := s.hardware.stop }
  let s := if s.chat.enabled then { s with chat := s.chat.stop } else s
  let s := { s with hardwareCache := none }
  if cfg.parkOnIdle then { s with runtimes := s.runtimes ++ [.stop "resource_idle"] } else s

/-- `enterActiveMode(event)`. -/
def enterActiveMode (spawns : Bool) (s : IdleMesh δ) : IdleMesh δ :=
  let s := s.withHardware (s.hardware.start s.now spawns)
  let s := if s.chat.enabled then s.withChat (s.chat.start cfg.dialogues) else s
  let s := { s with runtimes := s.runtimes ++ [SupervisorCall.start "resource_active"] }
  s.broadcast (.resourceMode (s.governorSnapshot cfg))

/-- What a call of the governor leaves. -/
def withGovernor (spawns : Bool) (out : ResourceGovernor × Option ResourceModeChange)
    (s : IdleMesh δ) : IdleMesh δ :=
  let s := { s with governor := out.1 }
  match out.2 with
  | none => s
  | some change =>
    let s := { s with changes := s.changes ++ [change] }
    match change.mode with
    | .idle => s.enterLightweightMode cfg
    | .active => s.enterActiveMode cfg spawns

/-- `resourceGovernor.noteActivity(reason)`. -/
def noteActivity (reason : String) (spawns : Bool) (s : IdleMesh δ) : IdleMesh δ :=
  s.withGovernor cfg spawns (s.governor.noteActivity s.now reason)

/-- `toggle_inter_agent_chat`. -/
def toggleChat (enabled : Bool) (s : IdleMesh δ) : IdleMesh δ :=
  let s := { s with chat := { s.chat with enabled := enabled } }
  let s :=
    if enabled then s.withChat (s.chat.start cfg.dialogues) else { s with chat := s.chat.stop }
  s.broadcast (.interAgentChatState s.chat.enabled s.chat.mode)

/-- `set_inter_agent_chat_mode`. -/
def setChatMode (mode : ChatMode) (s : IdleMesh δ) : IdleMesh δ :=
  let s := { s with chat := { s.chat with mode := mode } }
  let s := s.broadcast (.interAgentChatState s.chat.enabled s.chat.mode)
  if s.chat.enabled then s.withChat (s.chat.trigger cfg.dialogues) else s

/-- `close()`, of it what is modelled here. -/
def close (s : IdleMesh δ) : IdleMesh δ :=
  { s with
    runtimes := s.runtimes ++ [.stop "orchestrator_close"]
    governor := s.governor.stop
    chat := s.chat.stop
    hardware := s.hardware.stop
    closed := some s.governor.mode }

def step (s : IdleMesh δ) : ModeEvent → Option (IdleMesh δ)
  | .tick ms => some { s with now := s.now + ms }
  | .sweep busy =>
    if s.governor.timer then
      some (s.withGovernor cfg true (s.governor.sweep cfg.governor s.now busy))
    else none
  | .activity reason spawns => some (s.noteActivity cfg reason spawns)
  | .poll spawns =>
    s.hardware.timer.map fun generation =>
      s.withHardware (s.hardware.poll s.now generation spawns)
  | .probeError id =>
    ((s.hardware.probes.get? id).filter fun probe => !probe.errored).map fun probe =>
      s.withHardware (s.hardware.onError s.now id probe)
  | .probeClose id code stdout stderr =>
    (s.hardware.probes.get? id).map fun probe =>
      s.withHardware (s.hardware.onClose s.now id probe code stdout stderr)
  | .chatTick => if s.chat.timer then some (s.withChat (s.chat.trigger cfg.dialogues)) else none
  | .toggleChat reason enabled spawns =>
    some ((s.noteActivity cfg reason spawns).toggleChat cfg enabled)
  | .setChatMode reason mode spawns =>
    some ((s.noteActivity cfg reason spawns).setChatMode cfg mode)
  | .close => if s.closed.isSome then none else some s.close

/-- The orchestrator after its constructor. -/
def new (now : Nat) (spawns : Bool) : IdleMesh δ :=
  let s : IdleMesh δ :=
    { now := now
      governor := (ResourceGovernor.new now).start cfg.governor
      hardware := .new now
      chat := .new
      hardwareCache := none
      vramFree := none
      broadcasts := []
      changes := []
      runtimes := [.start "orchestrator_listening"]
      closed := none }
  s.withHardware (s.hardware.start now spawns)

end IdleMesh

/-- A start of the runtimes, as opposed to a stop. -/
def SupervisorCall.starts : SupervisorCall → Bool
  | .start _ => true
  | .stop _ => false

/-- The orchestrator between its modes. -/
def modeRuns {δ : Type} (cfg : IdleConfig δ) (now : Nat) (spawns : Bool) :
    Lts (IdleMesh δ) ModeEvent where
  init := .new cfg now spawns
  step := IdleMesh.step cfg

/-! ## The governor -/

namespace ResourceGovernor

variable {cfg : GovernorConfig} {now : Nat} {g : ResourceGovernor}

/-- What activity does. -/
theorem noteActivity_cases (now : Nat) (reason : String) (g : ResourceGovernor) :
    (g.mode = .active ∧ g.noteActivity now reason
      = ({ g with lastActivityAt := now, lastActivityReason := sliceStart 160 reason }, none)) ∨
    (g.mode = .idle ∧ g.noteActivity now reason
      = ({ g with
            mode := .active
            lastActivityAt := now
            lastActivityReason := sliceStart 160 reason },
          some ⟨.active, .idle, now, 0, sliceStart 160 reason⟩)) := by
  cases hmode : g.mode with
  | active => exact Or.inl ⟨rfl, by simp [noteActivity, hmode]⟩
  | idle => exact Or.inr ⟨rfl, by simp [noteActivity, enterActive, hmode]⟩

/-- What a sweep does. -/
theorem sweep_cases (cfg : GovernorConfig) (now : Nat) (busy : Bool) (g : ResourceGovernor) :
    ((cfg.enabled = false ∨ g.mode = .idle) ∧ g.sweep cfg now busy = (g, none)) ∨
    ((cfg.enabled = true ∧ g.mode = .active ∧ busy = true) ∧ g.sweep cfg now busy
      = ({ g with lastActivityAt := now, lastActivityReason := "busy" }, none)) ∨
    ((cfg.enabled = true ∧ g.mode = .active ∧ busy = false ∧
        now - g.lastActivityAt < cfg.idleAfterMs) ∧ g.sweep cfg now busy = (g, none)) ∨
    ((cfg.enabled = true ∧ g.mode = .active ∧ busy = false ∧
        cfg.idleAfterMs ≤ now - g.lastActivityAt) ∧ g.sweep cfg now busy
      = ({ g with mode := .idle, trimCount := g.trimCount + 1, lastTrimmedAt := some now },
          some ⟨.idle, .active, now, now - g.lastActivityAt, "idle_timeout"⟩)) := by
  cases henabled : cfg.enabled with
  | false => exact Or.inl ⟨Or.inl rfl, by simp [sweep, henabled]⟩
  | true =>
    cases hmode : g.mode with
    | idle => exact Or.inl ⟨Or.inr rfl, by simp [sweep, hmode]⟩
    | active =>
      cases busy with
      | true => exact Or.inr (Or.inl ⟨⟨rfl, rfl, rfl⟩, by simp [sweep, henabled, hmode]⟩)
      | false =>
        by_cases hdue : cfg.idleAfterMs ≤ now - g.lastActivityAt
        · refine Or.inr (Or.inr (Or.inr ⟨⟨rfl, rfl, rfl, hdue⟩, ?_⟩))
          simp [sweep, enterIdle, henabled, hmode, hdue]
        · refine Or.inr (Or.inr (Or.inl ⟨⟨rfl, rfl, rfl, Nat.lt_of_not_le hdue⟩, ?_⟩))
          simp [sweep, henabled, hmode, hdue]

end ResourceGovernor

/-! ## The monitor -/

namespace HardwareMonitor

/-- What a monitor keeps: its timer polls for the generation that runs, a sample that is in
flight is that of a child which has yet to report, and no child is of a generation to come. -/
structure Sound (m : HardwareMonitor) : Prop where
  timer : m.timer = if m.running then some m.generation else none
  latch : m.inFlight = true → ∃ id probe, m.probes.get? id = some probe ∧
    probe.errored = false ∧ id + 1 = m.nextProbe
  numbered : ∀ id probe, m.probes.get? id = some probe → id < m.nextProbe
  /-- Who does not run has only children of the generations before. -/
  aged : ∀ id probe, m.probes.get? id = some probe →
    probe.generation < m.generation + m.running.toNat

/-- Later: the children of before are those of before, and none of them gets younger. -/
structure Ages (m m' : HardwareMonitor) : Prop where
  generation : m.generation ≤ m'.generation
  numbers : m.nextProbe ≤ m'.nextProbe
  children : ∀ id probe', id < m.nextProbe → m'.probes.get? id = some probe' →
    ∃ probe, m.probes.get? id = some probe ∧ probe.generation = probe'.generation

/-- What a call that neither starts nor stops the monitor leaves as it was. -/
structure Measured (m : HardwareMonitor) (out : HardwareMonitor × Option VramMetrics) : Prop where
  running : out.1.running = m.running
  sound : m.Sound → out.1.Sound
  ages : Ages m out.1
  /-- Who is not running publishes nothing. -/
  quiet : m.running = false → out.2 = none

variable {m m' m'' : HardwareMonitor} {now : Nat}

theorem ages_refl (m : HardwareMonitor) : Ages m m :=
  ⟨Nat.le_refl _, Nat.le_refl _, fun _ probe _ h => ⟨probe, h, rfl⟩⟩

theorem Ages.trans (h : Ages m m') (h' : Ages m' m'') : Ages m m'' := by
  refine ⟨Nat.le_trans h.generation h'.generation, Nat.le_trans h.numbers h'.numbers, ?_⟩
  intro id probe'' hid hprobe''
  obtain ⟨probe', hprobe', heq'⟩ :=
    h'.children id probe'' (Nat.lt_of_lt_of_le hid h.numbers) hprobe''
  obtain ⟨probe, hprobe, heq⟩ := h.children id probe' hid hprobe'
  exact ⟨probe, hprobe, heq.trans heq'⟩

theorem measured_poll (now generation : Nat) (spawns : Bool) (m : HardwareMonitor) :
    Measured m (m.poll now generation spawns) := by
  rw [poll]
  split
  next => exact ⟨rfl, fun h => h, ages_refl m, fun _ => rfl⟩
  next hgo =>
    have hcond : (m.running = true ∧ generation = m.generation) ∧ m.inFlight = false := by
      simpa using hgo
    obtain ⟨⟨hrunning, hgeneration⟩, -⟩ := hcond
    have hloud : ∀ out : Option VramMetrics, m.running = false → out = none := by
      intro _ hstopped
      exact Bool.noConfusion (hrunning.symm.trans hstopped)
    split
    next =>
      refine ⟨rfl, fun h => ⟨h.timer, fun _ => ?_, ?_, ?_⟩, ⟨Nat.le_refl _, Nat.le_succ _, ?_⟩,
        hloud _⟩
      · exact ⟨m.nextProbe, ⟨generation, false⟩, OrderedMap.get?_set_self .., rfl, rfl⟩
      · intro id probe hprobe
        rcases OrderedMap.get?_set_some hprobe with ⟨rfl, -⟩ | ⟨-, hold⟩
        · exact Nat.lt_succ_self _
        · exact Nat.lt_succ_of_lt (h.numbered id probe hold)
      · intro id probe hprobe
        show probe.generation < m.generation + m.running.toNat
        rcases OrderedMap.get?_set_some hprobe with ⟨-, rfl⟩ | ⟨-, hold⟩
        · show generation < m.generation + m.running.toNat
          rw [hrunning, Bool.toNat_true, hgeneration]
          omega
        · exact h.aged id probe hold
      · -- the new child has a number of its own
        intro id probe' hid hprobe'
        rcases OrderedMap.get?_set_some hprobe' with ⟨rfl, -⟩ | ⟨-, hold⟩
        · exact absurd hid (Nat.lt_irrefl _)
        · exact ⟨probe', hold, rfl⟩
    next =>
      have hages : Ages m (m.publish (blank now (some "spawn_failed"))).1 :=
        ⟨Nat.le_refl _, Nat.le_refl _, fun _ probe _ h => ⟨probe, h, rfl⟩⟩
      exact ⟨rfl, fun h => ⟨h.timer, h.latch, h.numbered, h.aged⟩, hages, hloud _⟩

/-- A report of a child, with the children that are left then. -/
theorem measured_report {probes : OrderedMap Nat Probe} {probe : Probe} {metrics : VramMetrics}
    (hprobes : ∀ id probe', probes.get? id = some probe' →
      ∃ probe, m.probes.get? id = some probe ∧ probe.generation = probe'.generation) :
    Measured m (({ m with probes := probes } : HardwareMonitor).report probe metrics) := by
  have hsound : ∀ latest : VramMetrics, m.Sound →
      ({ m with probes := probes, inFlight := false, latest := latest } :
        HardwareMonitor).Sound := by
    intro latest h
    refine ⟨h.timer, fun habsurd => Bool.noConfusion habsurd, ?_, ?_⟩
    · intro id probe' hprobe'
      obtain ⟨probe, hprobe, -⟩ := hprobes id probe' hprobe'
      exact h.numbered id probe hprobe
    · intro id probe' hprobe'
      obtain ⟨probe, hprobe, heq⟩ := hprobes id probe' hprobe'
      rw [← heq]
      exact h.aged id probe hprobe
  have hages : ∀ latest : VramMetrics, Ages m
      { m with probes := probes, inFlight := false, latest := latest } := fun _ =>
    ⟨Nat.le_refl _, Nat.le_refl _, fun id probe' _ h => hprobes id probe' h⟩
  rw [report]
  split
  next => exact ⟨rfl, hsound m.latest, hages m.latest, fun _ => rfl⟩
  next hasked =>
    refine ⟨rfl, hsound metrics, hages metrics, fun hstopped => absurd ?_ hasked⟩
    show (!m.running || decide (probe.generation ≠ m.generation)) = true
    rw [hstopped, Bool.not_false, Bool.true_or]

theorem measured_onError {id : Nat} {probe : Probe} (hprobe : m.probes.get? id = some probe) :
    Measured m (m.onError now id probe) := by
  refine measured_report ?_
  intro id' probe' hprobe'
  rcases OrderedMap.get?_set_some hprobe' with ⟨rfl, rfl⟩ | ⟨-, hold⟩
  · exact ⟨probe, hprobe, rfl⟩
  · exact ⟨probe', hold, rfl⟩

theorem measured_onClose {id : Nat} {probe : Probe} (code : Option Int) (stdout stderr : String) :
    Measured m (m.onClose now id probe code stdout stderr) := by
  refine measured_report ?_
  intro id' probe' hprobe'
  exact ⟨probe', (OrderedMap.get?_delete_some hprobe').2, rfl⟩

/-- A start leaves a monitor that runs. -/
theorem start_running (spawns : Bool) (m : HardwareMonitor) :
    (m.start now spawns).1.running = true := by
  rw [start]
  split
  next hrunning => exact hrunning
  next => exact (measured_poll now m.generation spawns { m with running := true }).running

/-- A poll does not look at the timer. -/
theorem poll_timer (generation : Nat) (spawns : Bool) (timer : Option Nat)
    (m : HardwareMonitor) : ({ m with timer := timer } : HardwareMonitor).poll now generation spawns
      = ({ (m.poll now generation spawns).1 with timer := timer },
          (m.poll now generation spawns).2) := by
  rw [poll, poll]
  split
  next => rfl
  next => split <;> rfl

theorem sound_start (spawns : Bool) (h : m.Sound) : (m.start now spawns).1.Sound := by
  rw [start]
  split
  next => exact h
  next =>
    -- the timer may as well be set before the poll
    have hready : ({ m with running := true, timer := some m.generation } :
        HardwareMonitor).Sound := by
      refine ⟨rfl, h.latch, h.numbered, fun id probe hprobe => ?_⟩
      have hlt := h.aged id probe hprobe
      have hle : m.running.toNat ≤ 1 := Bool.toNat_le m.running
      show probe.generation < m.generation + 1
      omega
    have hpolled := (measured_poll now m.generation spawns _).sound hready
    rw [show ({ m with running := true, timer := some m.generation } : HardwareMonitor)
      = { ({ m with running := true } : HardwareMonitor) with timer := some m.generation } from rfl,
      poll_timer] at hpolled
    exact hpolled

theorem ages_start (spawns : Bool) (m : HardwareMonitor) : Ages m (m.start now spawns).1 := by
  rw [start]
  split
  next => exact ages_refl m
  next =>
    have hpolled := (measured_poll now m.generation spawns { m with running := true }).ages
    exact ⟨hpolled.generation, hpolled.numbers, hpolled.children⟩

theorem stop_running (m : HardwareMonitor) : m.stop.running = false := by
  rw [stop]
  split
  next hstopped =>
    rw [Bool.and_eq_true, Bool.not_eq_true'] at hstopped
    exact hstopped.1
  next => rfl

theorem sound_stop (h : m.Sound) : m.stop.Sound := by
  rw [stop]
  split
  next => exact h
  next =>
    refine ⟨rfl, h.latch, h.numbered, fun id probe hprobe => ?_⟩
    have hlt := h.aged id probe hprobe
    have hle : m.running.toNat ≤ 1 := Bool.toNat_le m.running
    show probe.generation < m.generation + 1 + 0
    omega

theorem ages_stop (m : HardwareMonitor) : Ages m m.stop := by
  rw [stop]
  split
  next => exact ages_refl m
  next => exact ⟨Nat.le_succ _, Nat.le_refl _, fun _ probe _ h => ⟨probe, h, rfl⟩⟩

/-- The report of a child that is not of the generation of the monitor. -/
theorem report_stale {probe : Probe} {metrics : VramMetrics}
    (hstale : probe.generation < m.generation) : (m.report probe metrics).2 = none := by
  have hne : decide (probe.generation ≠ m.generation) = true :=
    decide_eq_true (Nat.ne_of_lt hstale)
  rw [report]
  split
  next => rfl
  next hasked =>
    refine absurd ?_ hasked
    show (!m.running || decide (probe.generation ≠ m.generation)) = true
    rw [hne, Bool.or_true]

end HardwareMonitor

namespace InterAgentChatManager

variable {δ : Type} {dialogues : ChatMode → List δ} {c : InterAgentChatManager}

@[simp] theorem withIndex_enabled (n : Nat) : (c.withIndex n).enabled = c.enabled := by
  cases c with
  | mk enabled timer mode technical interests => cases mode <;> rfl

@[simp] theorem withIndex_timer (n : Nat) : (c.withIndex n).timer = c.timer := by
  cases c with
  | mk enabled timer mode technical interests => cases mode <;> rfl

@[simp] theorem trigger_enabled : (c.trigger dialogues).1.enabled = c.enabled := by
  rw [trigger]
  split
  next => rfl
  next => exact withIndex_enabled _

@[simp] theorem trigger_timer : (c.trigger dialogues).1.timer = c.timer := by
  rw [trigger]
  split
  next => rfl
  next => exact withIndex_timer _

@[simp] theorem start_enabled : (c.start dialogues).1.enabled = c.enabled := by
  rw [start]
  split
  next => rfl
  next => exact trigger_enabled

@[simp] theorem start_timer : (c.start dialogues).1.timer = true := by
  rw [start]
  split
  next hset => exact hset
  next => rfl

end InterAgentChatManager

end Kovael.Mesh
