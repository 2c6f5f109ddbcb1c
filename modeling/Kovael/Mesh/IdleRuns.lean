import Kovael.Mesh.IdleMode

/-!
# Runs between the modes

What the orchestrator keeps over the runs of `modeRuns`. `idle_mode` says, over every run of
sweeps, activity, polls, samples of the GPU that end at any time, chat messages and a close, that
the parts are on and off together, that nothing is measured while the orchestrator is idle, however
late a sample ends, and that it becomes idle after a full period without activity, and not before.
-/

namespace Kovael.Mesh

open Js (sliceStart)

/-! ## The orchestrator -/

namespace IdleMesh

variable {δ : Type} {cfg : IdleConfig δ} {s t : IdleMesh δ}

theorem withHardware_eq (out : HardwareMonitor × Option VramMetrics) (s : IdleMesh δ) :
    s.withHardware out = { s with
      hardware := out.1
      hardwareCache := out.2.or s.hardwareCache
      vramFree := (out.2.map fun metrics => (metrics.freeMb, decide (metrics.status = .ok))).or
        s.vramFree
      broadcasts := s.broadcasts ++ (out.2.map Broadcast.hardwareTelemetry).toList } := by
  cases out with
  | mk hardware published =>
    cases published with
    | none => simp [withHardware]
    | some metrics => simp [withHardware, onVramMetrics, broadcast]

theorem withChat_eq (out : InterAgentChatManager × Option δ) (s : IdleMesh δ) :
    s.withChat out = { s with
      chat := out.1
      broadcasts := s.broadcasts ++
        (out.2.map (Broadcast.interAgentMessage out.1.mode)).toList } := by
  cases out with
  | mk chat told =>
    cases told with
    | none => simp [withChat]
    | some dialogue => simp [withChat, broadcast]

theorem enterLightweightMode_eq (cfg : IdleConfig δ) (s : IdleMesh δ) :
    s.enterLightweightMode cfg = { s with
      hardware := s.hardware.stop
      chat := if s.chat.enabled then s.chat.stop else s.chat
      hardwareCache := none
      runtimes := s.runtimes ++ if cfg.parkOnIdle then [.stop "resource_idle"] else [] } := by
  rw [enterLightweightMode]
  cases s.chat.enabled <;> cases cfg.parkOnIdle <;> simp

theorem enterActiveMode_eq (cfg : IdleConfig δ) (spawns : Bool) (s : IdleMesh δ) :
    s.enterActiveMode cfg spawns = { s with
      hardware := (s.hardware.start s.now spawns).1
      chat := if s.chat.enabled then (s.chat.start cfg.dialogues).1 else s.chat
      hardwareCache := (s.hardware.start s.now spawns).2.or s.hardwareCache
      vramFree := ((s.hardware.start s.now spawns).2.map fun metrics =>
        (metrics.freeMb, decide (metrics.status = .ok))).or s.vramFree
      broadcasts := s.broadcasts
        ++ ((s.hardware.start s.now spawns).2.map Broadcast.hardwareTelemetry).toList
        ++ (if s.chat.enabled then
            ((s.chat.start cfg.dialogues).2.map
              (Broadcast.interAgentMessage (s.chat.start cfg.dialogues).1.mode)).toList
          else [])
        ++ [.resourceMode (s.governorSnapshot cfg)]
      runtimes := s.runtimes ++ [.start "resource_active"] } := by
  rw [enterActiveMode]
  cases henabled : s.chat.enabled <;>
    simp [withHardware_eq, withChat_eq, broadcast, governorSnapshot, henabled]

/-- The telemetry that was broadcast. -/
def telemetry (s : IdleMesh δ) : List VramMetrics :=
  s.broadcasts.filterMap fun payload =>
    match payload with
    | .hardwareTelemetry metrics => some metrics
    | _ => none

@[simp] theorem telemetry_withHardware (out : HardwareMonitor × Option VramMetrics)
    (s : IdleMesh δ) : (s.withHardware out).telemetry = s.telemetry ++ out.2.toList := by
  rw [withHardware_eq]
  cases hpublished : out.2 <;> simp [telemetry]

@[simp] theorem telemetry_withChat (out : InterAgentChatManager × Option δ) (s : IdleMesh δ) :
    (s.withChat out).telemetry = s.telemetry := by
  rw [withChat_eq]
  cases htold : out.2 <;> simp [telemetry]

@[simp] theorem telemetry_toggleChat (cfg : IdleConfig δ) (enabled : Bool) (s : IdleMesh δ) :
    (s.toggleChat cfg enabled).telemetry = s.telemetry := by
  rw [toggleChat]
  cases enabled with
  | true =>
    rw [if_pos rfl, withChat_eq]
    cases htold : (({ s.chat with enabled := true } : InterAgentChatManager).start
      cfg.dialogues).2 <;> simp [telemetry, broadcast]
  | false => simp [telemetry, broadcast]

@[simp] theorem telemetry_setChatMode (cfg : IdleConfig δ) (mode : ChatMode) (s : IdleMesh δ) :
    (s.setChatMode cfg mode).telemetry = s.telemetry := by
  rw [setChatMode]
  split
  next =>
    rw [telemetry_withChat]
    simp [telemetry, broadcast]
  next => simp [telemetry, broadcast]

/-- What activity does to the orchestrator. -/
theorem noteActivity_cases (cfg : IdleConfig δ) (reason : String) (spawns : Bool)
    (s : IdleMesh δ) :
    (s.governor.mode = .active ∧ s.noteActivity cfg reason spawns
      = { s with governor := { s.governor with
            lastActivityAt := s.now
            lastActivityReason := sliceStart 160 reason } }) ∨
    (s.governor.mode = .idle ∧ s.noteActivity cfg reason spawns
      = ({ s with
          governor := { s.governor with
            mode := .active
            lastActivityAt := s.now
            lastActivityReason := sliceStart 160 reason }
          changes := s.changes ++ [⟨.active, .idle, s.now, 0, sliceStart 160 reason⟩] } :
          IdleMesh δ).enterActiveMode cfg spawns) := by
  rcases ResourceGovernor.noteActivity_cases s.now reason s.governor with
    ⟨hmode, heq⟩ | ⟨hmode, heq⟩
  · exact Or.inl ⟨hmode, by rw [noteActivity, heq, withGovernor]⟩
  · exact Or.inr ⟨hmode, by rw [noteActivity, heq, withGovernor]⟩

/-- What a sweep does to the orchestrator. -/
theorem sweep_cases (cfg : IdleConfig δ) (busy : Bool) (s : IdleMesh δ) :
    ((cfg.governor.enabled = false ∨ s.governor.mode = .idle) ∧
      s.withGovernor cfg true (s.governor.sweep cfg.governor s.now busy) = s) ∨
    ((cfg.governor.enabled = true ∧ s.governor.mode = .active ∧ busy = true) ∧
      s.withGovernor cfg true (s.governor.sweep cfg.governor s.now busy)
        = { s with governor := { s.governor with
              lastActivityAt := s.now
              lastActivityReason := "busy" } }) ∨
    ((cfg.governor.enabled = true ∧ s.governor.mode = .active ∧ busy = false ∧
        s.now - s.governor.lastActivityAt < cfg.governor.idleAfterMs) ∧
      s.withGovernor cfg true (s.governor.sweep cfg.governor s.now busy) = s) ∨
    ((cfg.governor.enabled = true ∧ s.governor.mode = .active ∧ busy = false ∧
        cfg.governor.idleAfterMs ≤ s.now - s.governor.lastActivityAt) ∧
      s.withGovernor cfg true (s.governor.sweep cfg.governor s.now busy)
        = ({ s with
            governor := { s.governor with
              mode := .idle
              trimCount := s.governor.trimCount + 1
              lastTrimmedAt := some s.now }
            changes := s.changes ++ [⟨.idle, .active, s.now,
              s.now - s.governor.lastActivityAt, "idle_timeout"⟩] } :
            IdleMesh δ).enterLightweightMode cfg) := by
  rcases ResourceGovernor.sweep_cases cfg.governor s.now busy s.governor with
    ⟨hcond, heq⟩ | ⟨hcond, heq⟩ | ⟨hcond, heq⟩ | ⟨hcond, heq⟩
  · exact Or.inl ⟨hcond, by rw [heq, withGovernor]⟩
  · exact Or.inr (Or.inl ⟨hcond, by rw [heq, withGovernor]⟩)
  · exact Or.inr (Or.inr (Or.inl ⟨hcond, by rw [heq, withGovernor]⟩))
  · exact Or.inr (Or.inr (Or.inr ⟨hcond, by rw [heq, withGovernor]⟩))

/-- What the changes of the mode say of the governor: they alternate, none of them is to idle
before the time is up, and the trims are counted. -/
structure Governed (cfg : IdleConfig δ) (s : IdleMesh δ) : Prop where
  clock : s.governor.lastActivityAt ≤ s.now
  mode : s.governor.mode = if s.changes.length % 2 = 0 then .active else .idle
  trims : s.governor.trimCount = (s.changes.length + 1) / 2
  alternates : ∀ i change, s.changes[i]? = some change →
    change.mode = (if i % 2 = 0 then .idle else .active) ∧ change.previousMode ≠ change.mode
  waited : ∀ change ∈ s.changes, change.mode = .idle → cfg.governor.idleAfterMs ≤ change.idleForMs

/-- What goes on and off with the mode. -/
structure Moded (cfg : IdleConfig δ) (s : IdleMesh δ) : Prop where
  sound : s.hardware.Sound
  sweeps : s.governor.timer = (cfg.governor.enabled && s.closed.isNone)
  measures : s.closed = none → (s.hardware.running = true ↔ s.governor.mode = .active)
  chats : s.closed = none →
    (s.chat.timer = true ↔ s.chat.enabled = true ∧ s.governor.mode = .active)
  forgets : s.closed = none → s.governor.mode = .idle → s.hardwareCache = none
  runtimes : s.closed = none → cfg.parkOnIdle = true →
    ∃ call, s.runtimes.getLast? = some call ∧ (call.starts = true ↔ s.governor.mode = .active)
  shut : s.closed = some .active → s.governor.mode = .active ∧ s.hardware.running = false

/-- A call that neither starts nor stops the monitor keeps what goes with the mode. -/
theorem Moded.withHardware {out : HardwareMonitor × Option VramMetrics} (h : Moded cfg s)
    (hout : HardwareMonitor.Measured s.hardware out) : Moded cfg (s.withHardware out) := by
  rw [withHardware_eq]
  refine ⟨hout.sound h.sound, h.sweeps, fun hopen => ?_, h.chats, fun hopen hidle => ?_,
    h.runtimes, fun hclosed => ⟨(h.shut hclosed).1, hout.running.trans (h.shut hclosed).2⟩⟩
  · exact (iff_of_eq (congrArg (· = true) hout.running)).trans (h.measures hopen)
  · -- an idle orchestrator does not measure, so that nothing is published
    have hstopped : s.hardware.running = false := by
      rw [← Bool.not_eq_true, h.measures hopen, hidle]
      exact fun habsurd => ResourceMode.noConfusion habsurd
    show out.2.or s.hardwareCache = none
    rw [hout.quiet hstopped, h.forgets hopen hidle, Option.or_none]

/-- A call that leaves the loop of the chat as it was. -/
theorem Moded.withChat {out : InterAgentChatManager × Option δ} (h : Moded cfg s)
    (henabled : out.1.enabled = s.chat.enabled) (htimer : out.1.timer = s.chat.timer) :
    Moded cfg (s.withChat out) := by
  rw [withChat_eq]
  refine ⟨h.sound, h.sweeps, h.measures, fun hopen => ?_, h.forgets, h.runtimes, h.shut⟩
  show out.1.timer = true ↔ out.1.enabled = true ∧ s.governor.mode = .active
  rw [htimer, henabled]
  exact h.chats hopen

/-- Activity finds an active orchestrator or wakes it. -/
theorem Moded.noteActivity (reason : String) (spawns : Bool) (h : Moded cfg s) :
    Moded cfg (s.noteActivity cfg reason spawns) ∧
      (s.noteActivity cfg reason spawns).governor.mode = .active := by
  rcases noteActivity_cases cfg reason spawns s with ⟨hmode, heq⟩ | ⟨hmode, heq⟩
  · rw [heq]
    exact ⟨⟨h.sound, h.sweeps, h.measures, h.chats, h.forgets, h.runtimes, h.shut⟩, hmode⟩
  · rw [heq, enterActiveMode_eq]
    refine ⟨⟨HardwareMonitor.sound_start spawns h.sound, h.sweeps, fun _ => ?_, fun hopen => ?_,
      fun _ habsurd => ResourceMode.noConfusion habsurd, fun _ _ => ?_, fun hclosed => ?_⟩, rfl⟩
    · exact iff_of_true (HardwareMonitor.start_running spawns s.hardware) rfl
    · have hquiet := h.chats hopen
      cases henabled : s.chat.enabled with
      | true => simp [henabled]
      | false => simpa [henabled] using hquiet
    · exact ⟨.start "resource_active", by simp, iff_of_true rfl rfl⟩
    · -- it was closed while it was active, and has been since
      exact ResourceMode.noConfusion (hmode.symm.trans (h.shut hclosed).1)

theorem Moded.sweep (busy : Bool) (h : Moded cfg s) (htimer : s.governor.timer = true) :
    Moded cfg (s.withGovernor cfg true (s.governor.sweep cfg.governor s.now busy)) := by
  rcases sweep_cases cfg busy s with ⟨-, heq⟩ | ⟨-, heq⟩ | ⟨-, heq⟩ | ⟨hcond, heq⟩
  · rw [heq]
    exact h
  · rw [heq]
    exact ⟨h.sound, h.sweeps, h.measures, h.chats, h.forgets, h.runtimes, h.shut⟩
  · rw [heq]
    exact h
  · have hopen : s.closed = none := by
      have hsweeps := h.sweeps.symm.trans htimer
      rw [Bool.and_eq_true, Option.isNone_iff_eq_none] at hsweeps
      exact hsweeps.2
    rw [heq, enterLightweightMode_eq]
    refine ⟨HardwareMonitor.sound_stop h.sound, h.sweeps, fun _ => ?_, fun _ => ?_, fun _ _ => rfl,
      fun _ hpark => ?_, fun hclosed => ?_⟩
    · show s.hardware.stop.running = true ↔ ResourceMode.idle = .active
      rw [HardwareMonitor.stop_running]
      exact iff_of_false Bool.false_ne_true (fun habsurd => ResourceMode.noConfusion habsurd)
    · have hloud := h.chats hopen
      cases henabled : s.chat.enabled with
      | true => simp [InterAgentChatManager.stop]
      | false => simpa [henabled] using hloud
    · exact ⟨.stop "resource_idle", by simp [hpark], by simp [SupervisorCall.starts]⟩
    · exact (Option.some_ne_none _ (hclosed.symm.trans hopen)).elim

theorem Moded.toggleChat (enabled : Bool) (h : Moded cfg s) (hmode : s.governor.mode = .active) :
    Moded cfg (s.toggleChat cfg enabled) := by
  rw [IdleMesh.toggleChat]
  cases enabled with
  | true =>
    rw [if_pos rfl, withChat_eq]
    refine ⟨h.sound, h.sweeps, h.measures, fun _ => ?_, h.forgets, h.runtimes, h.shut⟩
    simp [broadcast, hmode]
  | false =>
    refine ⟨h.sound, h.sweeps, h.measures, fun _ => ?_, h.forgets, h.runtimes, h.shut⟩
    simp [broadcast, InterAgentChatManager.stop]

theorem Moded.setChatMode (mode : ChatMode) (h : Moded cfg s) :
    Moded cfg (s.setChatMode cfg mode) := by
  have htold : Moded cfg
      (({ s with chat := { s.chat with mode := mode } } : IdleMesh δ).broadcast
        (.interAgentChatState s.chat.enabled mode)) :=
    ⟨h.sound, h.sweeps, h.measures, h.chats, h.forgets, h.runtimes, h.shut⟩
  rw [IdleMesh.setChatMode]
  split
  next =>
    exact htold.withChat InterAgentChatManager.trigger_enabled InterAgentChatManager.trigger_timer
  next => exact htold

theorem Moded.close (h : Moded cfg s) : Moded cfg s.close := by
  have hshut : s.close.closed ≠ none := Option.some_ne_none _
  refine ⟨HardwareMonitor.sound_stop h.sound, ?_, fun hopen => (hshut hopen).elim,
    fun hopen => (hshut hopen).elim, fun hopen => (hshut hopen).elim,
    fun hopen => (hshut hopen).elim, fun hclosed => ?_⟩
  · show false = (cfg.governor.enabled && false)
    rw [Bool.and_false]
  · exact ⟨Option.some.inj hclosed, HardwareMonitor.stop_running s.hardware⟩

/-- Every step keeps what goes with the mode. -/
theorem Moded.step {e : ModeEvent} (h : Moded cfg s) (hstep : s.step cfg e = some t) :
    Moded cfg t := by
  cases e with
  | tick ms =>
    obtain rfl := Option.some.inj hstep
    exact ⟨h.sound, h.sweeps, h.measures, h.chats, h.forgets, h.runtimes, h.shut⟩
  | sweep busy =>
    rw [IdleMesh.step, Option.ite_none_right_eq_some] at hstep
    obtain ⟨htimer, heq⟩ := hstep
    rw [← Option.some.inj heq]
    exact h.sweep busy htimer
  | activity reason spawns =>
    obtain rfl := Option.some.inj hstep
    exact (h.noteActivity reason spawns).1
  | poll spawns =>
    obtain ⟨generation, -, rfl⟩ := Option.map_eq_some_iff.mp hstep
    exact h.withHardware (HardwareMonitor.measured_poll s.now generation spawns s.hardware)
  | probeError id =>
    obtain ⟨probe, hprobe, rfl⟩ := Option.map_eq_some_iff.mp hstep
    rw [Option.filter_eq_some_iff] at hprobe
    exact h.withHardware (HardwareMonitor.measured_onError hprobe.1)
  | probeClose id code stdout stderr =>
    obtain ⟨probe, -, rfl⟩ := Option.map_eq_some_iff.mp hstep
    exact h.withHardware (HardwareMonitor.measured_onClose code stdout stderr)
  | chatTick =>
    rw [IdleMesh.step, Option.ite_none_right_eq_some] at hstep
    obtain ⟨-, heq⟩ := hstep
    rw [← Option.some.inj heq]
    exact h.withChat InterAgentChatManager.trigger_enabled InterAgentChatManager.trigger_timer
  | toggleChat reason enabled spawns =>
    obtain rfl := Option.some.inj hstep
    have hawake := h.noteActivity reason spawns
    exact hawake.1.toggleChat enabled hawake.2
  | setChatMode reason mode spawns =>
    obtain rfl := Option.some.inj hstep
    exact (h.noteActivity reason spawns).1.setChatMode mode
  | close =>
    rw [IdleMesh.step, Option.ite_none_left_eq_some] at hstep
    rw [← Option.some.inj hstep.2]
    exact h.close

/-- What is at work when the event comes: a request, or a sweep that finds something busy. -/
def touches (cfg : IdleConfig δ) (s : IdleMesh δ) : ModeEvent → Prop
  | .activity .. | .toggleChat .. | .setChatMode .. => True
  | .sweep busy => cfg.governor.enabled = true ∧ s.governor.mode = .active ∧ busy = true
  | _ => False

/-- What a step does to the governor and to the changes of the mode. -/
inductive GovernorStep (cfg : IdleConfig δ) (s : IdleMesh δ) (e : ModeEvent) (t : IdleMesh δ) :
    Prop where
  /-- The clock alone goes on. -/
  | rests : ¬ s.touches cfg e →
      ((∃ busy, e = .sweep busy) → cfg.governor.enabled = true → s.governor.mode = .active →
        s.now - s.governor.lastActivityAt < cfg.governor.idleAfterMs) →
      t.governor.mode = s.governor.mode → t.governor.lastActivityAt = s.governor.lastActivityAt →
      t.governor.trimCount = s.governor.trimCount → t.changes = s.changes → s.now ≤ t.now →
      GovernorStep cfg s e t
  | touched : s.touches cfg e → s.governor.mode = .active → t.governor.mode = .active →
      t.governor.lastActivityAt = s.now → t.governor.trimCount = s.governor.trimCount →
      t.changes = s.changes → t.now = s.now → GovernorStep cfg s e t
  | wakes (reason : String) : s.touches cfg e → s.governor.mode = .idle →
      t.governor.mode = .active → t.governor.lastActivityAt = s.now →
      t.governor.trimCount = s.governor.trimCount →
      t.changes = s.changes ++ [⟨.active, .idle, s.now, 0, reason⟩] → t.now = s.now →
      GovernorStep cfg s e t
  | sleeps : ¬ s.touches cfg e → e = .sweep false → s.governor.mode = .active →
      t.governor.mode = .idle → cfg.governor.idleAfterMs ≤ s.now - s.governor.lastActivityAt →
      t.governor.lastActivityAt = s.governor.lastActivityAt →
      t.governor.trimCount = s.governor.trimCount + 1 →
      t.changes = s.changes ++
        [⟨.idle, .active, s.now, s.now - s.governor.lastActivityAt, "idle_timeout"⟩] →
      t.now = s.now → GovernorStep cfg s e t

theorem governorStep_sweep (busy : Bool) (s : IdleMesh δ) : GovernorStep cfg s (.sweep busy)
    (s.withGovernor cfg true (s.governor.sweep cfg.governor s.now busy)) := by
  rcases sweep_cases cfg busy s with ⟨hcond, heq⟩ | ⟨hcond, heq⟩ | ⟨hcond, heq⟩ | ⟨hcond, heq⟩
  · have hout : cfg.governor.enabled = true → s.governor.mode = .active → False := by
      intro henabled hmode
      rcases hcond with hoff | hidle
      · exact Bool.noConfusion (henabled.symm.trans hoff)
      · exact ResourceMode.noConfusion (hmode.symm.trans hidle)
    rw [heq]
    exact .rests (fun h => hout h.1 h.2.1) (fun _ henabled hmode => (hout henabled hmode).elim)
      rfl rfl rfl rfl (Nat.le_refl _)
  · rw [heq]
    exact .touched hcond hcond.2.1 hcond.2.1 rfl rfl rfl rfl
  · rw [heq]
    exact .rests (fun h => Bool.noConfusion (hcond.2.2.1.symm.trans h.2.2))
      (fun _ _ _ => hcond.2.2.2) rfl rfl rfl rfl (Nat.le_refl _)
  · rw [heq, enterLightweightMode_eq]
    exact .sleeps (fun h => Bool.noConfusion (hcond.2.2.1.symm.trans h.2.2))
      (congrArg _ hcond.2.2.1) hcond.2.1 rfl hcond.2.2.2 rfl rfl rfl rfl

/-- What activity does, and what comes of it leaves the governor alone. -/
theorem governorStep_activity {e : ModeEvent} (reason : String) (spawns : Bool)
    (he : s.touches cfg e) (hgovernor : t.governor = (s.noteActivity cfg reason spawns).governor)
    (hchanges : t.changes = (s.noteActivity cfg reason spawns).changes)
    (hnow : t.now = (s.noteActivity cfg reason spawns).now) : GovernorStep cfg s e t := by
  rcases noteActivity_cases cfg reason spawns s with ⟨hmode, heq⟩ | ⟨hmode, heq⟩
  · rw [heq] at hgovernor hchanges hnow
    exact .touched he hmode (hgovernor ▸ hmode) (hgovernor ▸ rfl) (hgovernor ▸ rfl) hchanges hnow
  · rw [heq, enterActiveMode_eq] at hgovernor hchanges hnow
    exact .wakes (sliceStart 160 reason) he hmode (hgovernor ▸ rfl) (hgovernor ▸ rfl)
      (hgovernor ▸ rfl) hchanges hnow

/-- What does not call the governor. -/
theorem governorStep_aside {e : ModeEvent} (he : ¬ s.touches cfg e)
    (hsweep : ∀ busy, e ≠ .sweep busy) (hgovernor : t.governor = s.governor)
    (hchanges : t.changes = s.changes) (hnow : s.now ≤ t.now) : GovernorStep cfg s e t :=
  .rests he (fun ⟨busy, hbusy⟩ => (hsweep busy hbusy).elim) (congrArg _ hgovernor)
    (congrArg _ hgovernor) (congrArg _ hgovernor) hchanges hnow

theorem toggleChat_governor (cfg : IdleConfig δ) (enabled : Bool) (s : IdleMesh δ) :
    (s.toggleChat cfg enabled).governor = s.governor ∧
      (s.toggleChat cfg enabled).changes = s.changes ∧
      (s.toggleChat cfg enabled).now = s.now ∧
      (s.toggleChat cfg enabled).hardware = s.hardware ∧
      (s.toggleChat cfg enabled).hardwareCache = s.hardwareCache := by
  rw [toggleChat]
  cases enabled with
  | true =>
    rw [if_pos rfl, withChat_eq]
    exact ⟨rfl, rfl, rfl, rfl, rfl⟩
  | false => exact ⟨rfl, rfl, rfl, rfl, rfl⟩

theorem setChatMode_governor (cfg : IdleConfig δ) (mode : ChatMode) (s : IdleMesh δ) :
    (s.setChatMode cfg mode).governor = s.governor ∧
      (s.setChatMode cfg mode).changes = s.changes ∧
      (s.setChatMode cfg mode).now = s.now ∧
      (s.setChatMode cfg mode).hardware = s.hardware ∧
      (s.setChatMode cfg mode).hardwareCache = s.hardwareCache := by
  rw [setChatMode]
  split
  next =>
    rw [withChat_eq]
    exact ⟨rfl, rfl, rfl, rfl, rfl⟩
  next => exact ⟨rfl, rfl, rfl, rfl, rfl⟩

theorem governorStep_of_step {e : ModeEvent} (hstep : s.step cfg e = some t) :
    GovernorStep cfg s e t := by
  cases e with
  | tick ms =>
    obtain rfl := Option.some.inj hstep
    exact governorStep_aside id (fun _ h => ModeEvent.noConfusion h) rfl rfl (Nat.le_add_right ..)
  | sweep busy =>
    rw [IdleMesh.step, Option.ite_none_right_eq_some] at hstep
    rw [← Option.some.inj hstep.2]
    exact governorStep_sweep busy s
  | activity reason spawns =>
    obtain rfl := Option.some.inj hstep
    exact governorStep_activity reason spawns trivial rfl rfl rfl
  | poll spawns =>
    obtain ⟨generation, -, rfl⟩ := Option.map_eq_some_iff.mp hstep
    rw [withHardware_eq]
    exact governorStep_aside id (fun _ h => ModeEvent.noConfusion h) rfl rfl (Nat.le_refl _)
  | probeError id =>
    obtain ⟨probe, -, rfl⟩ := Option.map_eq_some_iff.mp hstep
    rw [withHardware_eq]
    exact governorStep_aside (fun h => h) (fun _ h => ModeEvent.noConfusion h) rfl rfl
      (Nat.le_refl _)
  | probeClose id code stdout stderr =>
    obtain ⟨probe, -, rfl⟩ := Option.map_eq_some_iff.mp hstep
    rw [withHardware_eq]
    exact governorStep_aside (fun h => h) (fun _ h => ModeEvent.noConfusion h) rfl rfl
      (Nat.le_refl _)
  | chatTick =>
    rw [IdleMesh.step, Option.ite_none_right_eq_some] at hstep
    rw [← Option.some.inj hstep.2, withChat_eq]
    exact governorStep_aside id (fun _ h => ModeEvent.noConfusion h) rfl rfl (Nat.le_refl _)
  | toggleChat reason enabled spawns =>
    obtain rfl := Option.some.inj hstep
    have hsame := toggleChat_governor cfg enabled (s.noteActivity cfg reason spawns)
    exact governorStep_activity reason spawns trivial hsame.1 hsame.2.1 hsame.2.2.1
  | setChatMode reason mode spawns =>
    obtain rfl := Option.some.inj hstep
    have hsame := setChatMode_governor cfg mode (s.noteActivity cfg reason spawns)
    exact governorStep_activity reason spawns trivial hsame.1 hsame.2.1 hsame.2.2.1
  | close =>
    rw [IdleMesh.step, Option.ite_none_left_eq_some] at hstep
    rw [← Option.some.inj hstep.2]
    exact .rests id (fun ⟨_, h⟩ => ModeEvent.noConfusion h) rfl rfl rfl rfl (Nat.le_refl _)

/-- The changes with one more: the mode that the governor has come to. -/
theorem Governed.changed {change : ResourceModeChange} (h : Governed cfg s)
    (hchanges : t.changes = s.changes ++ [change]) (hmode : t.governor.mode = change.mode)
    (hprevious : change.previousMode = s.governor.mode) (hne : change.previousMode ≠ change.mode)
    (htrims : t.governor.trimCount
      = s.governor.trimCount + if change.mode = .idle then 1 else 0)
    (hclock : t.governor.lastActivityAt ≤ t.now)
    (hwaited : change.mode = .idle → cfg.governor.idleAfterMs ≤ change.idleForMs) :
    Governed cfg t := by
  have hlast : change.mode = if s.changes.length % 2 = 0 then .idle else .active := by
    have hbefore := h.mode
    split at hbefore <;> rename_i hparity <;> rw [hprevious, hbefore] at hne <;>
      cases hto : change.mode <;> simp_all
  refine ⟨hclock, ?_, ?_, fun i change' hi => ?_, fun change' hmem => ?_⟩
  · rw [hmode, hlast, hchanges, List.length_append, List.length_singleton]
    by_cases heven : s.changes.length % 2 = 0
    · rw [if_pos heven, if_neg (by omega)]
    · rw [if_neg heven, if_pos (by omega)]
  · rw [htrims, h.trims, hlast, hchanges, List.length_append, List.length_singleton]
    by_cases heven : s.changes.length % 2 = 0
    · rw [if_pos heven, if_pos rfl]
      omega
    · rw [if_neg heven, if_neg (fun habsurd => ResourceMode.noConfusion habsurd)]
      omega
  · rw [hchanges] at hi
    rcases Nat.lt_or_ge i s.changes.length with hold | hnew
    · rw [List.getElem?_append_left hold] at hi
      exact h.alternates i change' hi
    · rw [List.getElem?_append_right hnew, List.getElem?_singleton,
        Option.ite_none_right_eq_some] at hi
      obtain ⟨hzero, heq⟩ := hi
      obtain rfl := Option.some.inj heq
      have hi : i = s.changes.length := by omega
      exact ⟨hi ▸ hlast, hne⟩
  · rw [hchanges, List.mem_append, List.mem_singleton] at hmem
    rcases hmem with hold | rfl
    · exact h.waited change' hold
    · exact hwaited

/-- Every step keeps what the changes say of the governor. -/
theorem Governed.step {e : ModeEvent} (h : Governed cfg s) (hstep : s.step cfg e = some t) :
    Governed cfg t := by
  cases governorStep_of_step hstep with
  | rests _ _ hmode hlast htrims hchanges hnow =>
    refine ⟨?_, ?_, ?_, hchanges ▸ h.alternates, hchanges ▸ h.waited⟩
    · have hclock := h.clock
      omega
    · rw [hmode, hchanges]
      exact h.mode
    · rw [htrims, hchanges]
      exact h.trims
  | touched _ hbefore hmode hlast htrims hchanges hnow =>
    refine ⟨by omega, ?_, ?_, hchanges ▸ h.alternates, hchanges ▸ h.waited⟩
    · rw [hmode, hchanges]
      exact hbefore.symm.trans h.mode
    · rw [htrims, hchanges]
      exact h.trims
  | wakes reason _ hbefore hmode hlast htrims hchanges hnow =>
    exact h.changed hchanges hmode hbefore.symm (fun habsurd => ResourceMode.noConfusion habsurd)
      htrims (by omega) (fun habsurd => ResourceMode.noConfusion habsurd)
  | sleeps _ _ hbefore hmode hdue hlast htrims hchanges hnow =>
    have hclock := h.clock
    exact h.changed hchanges hmode hbefore.symm (fun habsurd => ResourceMode.noConfusion habsurd)
      htrims (by omega) (fun _ => hdue)

/-- What a step does to the monitor, to what is remembered of it and to what is told of it:
nothing is told but by a monitor that runs. -/
structure HardwareStep (s t : IdleMesh δ) : Prop where
  ages : HardwareMonitor.Ages s.hardware t.hardware
  told : t.telemetry = s.telemetry ∨ t.hardware.running = true

theorem hardwareStep_measured {out : HardwareMonitor × Option VramMetrics}
    (hout : HardwareMonitor.Measured s.hardware out) : HardwareStep s (s.withHardware out) := by
  refine ⟨?_, ?_⟩
  · rw [withHardware_eq]
    exact hout.ages
  · rw [telemetry_withHardware]
    cases hrunning : s.hardware.running with
    | false =>
      rw [hout.quiet hrunning]
      exact Or.inl (List.append_nil _)
    | true =>
      rw [withHardware_eq]
      exact Or.inr (hout.running.trans hrunning)

theorem hardwareStep_same (hhardware : t.hardware = s.hardware)
    (htelemetry : t.telemetry = s.telemetry) : HardwareStep s t :=
  ⟨hhardware ▸ HardwareMonitor.ages_refl s.hardware, Or.inl htelemetry⟩

theorem hardwareStep_noteActivity (cfg : IdleConfig δ) (reason : String) (spawns : Bool)
    (s : IdleMesh δ) :
    HardwareStep s (s.noteActivity cfg reason spawns) := by
  rcases noteActivity_cases cfg reason spawns s with ⟨-, heq⟩ | ⟨-, heq⟩
  · rw [heq]
    exact hardwareStep_same rfl rfl
  · rw [heq, enterActiveMode_eq]
    exact ⟨HardwareMonitor.ages_start spawns s.hardware,
      Or.inr (HardwareMonitor.start_running spawns s.hardware)⟩

theorem hardwareStep_of_step {e : ModeEvent} (hstep : s.step cfg e = some t) :
    HardwareStep s t := by
  cases e with
  | tick ms =>
    obtain rfl := Option.some.inj hstep
    exact hardwareStep_same rfl rfl
  | sweep busy =>
    rw [IdleMesh.step, Option.ite_none_right_eq_some] at hstep
    rw [← Option.some.inj hstep.2]
    rcases sweep_cases cfg busy s with ⟨-, heq⟩ | ⟨-, heq⟩ | ⟨-, heq⟩ | ⟨-, heq⟩
    · rw [heq]
      exact hardwareStep_same rfl rfl
    · rw [heq]
      exact hardwareStep_same rfl rfl
    · rw [heq]
      exact hardwareStep_same rfl rfl
    · rw [heq, enterLightweightMode_eq]
      exact ⟨HardwareMonitor.ages_stop s.hardware, Or.inl rfl⟩
  | activity reason spawns =>
    obtain rfl := Option.some.inj hstep
    exact hardwareStep_noteActivity cfg reason spawns s
  | poll spawns =>
    obtain ⟨generation, -, rfl⟩ := Option.map_eq_some_iff.mp hstep
    exact hardwareStep_measured (HardwareMonitor.measured_poll s.now generation spawns s.hardware)
  | probeError id =>
    obtain ⟨probe, hprobe, rfl⟩ := Option.map_eq_some_iff.mp hstep
    rw [Option.filter_eq_some_iff] at hprobe
    exact hardwareStep_measured (HardwareMonitor.measured_onError hprobe.1)
  | probeClose id code stdout stderr =>
    obtain ⟨probe, -, rfl⟩ := Option.map_eq_some_iff.mp hstep
    exact hardwareStep_measured (HardwareMonitor.measured_onClose code stdout stderr)
  | chatTick =>
    rw [IdleMesh.step, Option.ite_none_right_eq_some] at hstep
    rw [← Option.some.inj hstep.2]
    refine hardwareStep_same ?_ (telemetry_withChat _ s)
    rw [withChat_eq]
  | toggleChat reason enabled spawns =>
    obtain rfl := Option.some.inj hstep
    have hawake := hardwareStep_noteActivity cfg reason spawns s
    have hsame := (toggleChat_governor cfg enabled
      (s.noteActivity cfg reason spawns)).2.2.2.1
    refine ⟨hsame ▸ hawake.ages, ?_⟩
    rw [telemetry_toggleChat, hsame]
    exact hawake.told
  | setChatMode reason mode spawns =>
    obtain rfl := Option.some.inj hstep
    have hawake := hardwareStep_noteActivity cfg reason spawns s
    have hsame := (setChatMode_governor cfg mode
      (s.noteActivity cfg reason spawns)).2.2.2.1
    refine ⟨hsame ▸ hawake.ages, ?_⟩
    rw [telemetry_setChatMode, hsame]
    exact hawake.told
  | close =>
    rw [IdleMesh.step, Option.ite_none_left_eq_some] at hstep
    rw [← Option.some.inj hstep.2]
    exact ⟨HardwareMonitor.ages_stop s.hardware, Or.inl rfl⟩

/-- A sample that was taken for a generation before is not heard of. -/
theorem step_stale {id : Nat} {e : ModeEvent} (he : e.isOf id)
    (hstale : ∀ probe, s.hardware.probes.get? id = some probe →
      probe.generation < s.hardware.generation) (hstep : s.step cfg e = some t) :
    t.telemetry = s.telemetry ∧ t.hardwareCache = s.hardwareCache ∧ t.vramFree = s.vramFree := by
  have hnothing : ∀ out : HardwareMonitor × Option VramMetrics, out.2 = none →
      (s.withHardware out).telemetry = s.telemetry ∧
        (s.withHardware out).hardwareCache = s.hardwareCache ∧
        (s.withHardware out).vramFree = s.vramFree := by
    intro out hout
    refine ⟨?_, ?_⟩
    · rw [telemetry_withHardware, hout]
      exact List.append_nil _
    · rw [withHardware_eq, hout]
      exact ⟨rfl, rfl⟩
  cases e with
  | probeError id' =>
    obtain ⟨probe, hprobe, rfl⟩ := Option.map_eq_some_iff.mp hstep
    rw [Option.filter_eq_some_iff] at hprobe
    exact hnothing _ (HardwareMonitor.report_stale (hstale probe (he ▸ hprobe.1)))
  | probeClose id' code stdout stderr =>
    obtain ⟨probe, hprobe, rfl⟩ := Option.map_eq_some_iff.mp hstep
    exact hnothing _ (HardwareMonitor.report_stale (hstale probe (he ▸ hprobe)))
  | tick _ | sweep _ | activity _ _ | poll _ | chatTick | toggleChat _ _ _ | setChatMode _ _ _
  | close => exact he.elim

end IdleMesh

/-! ## Runs -/

section Runs

variable {δ : Type} {cfg : IdleConfig δ} {now : Nat} {spawns : Bool} {s t : IdleMesh δ}

open IdleMesh HardwareMonitor

theorem new_governor (cfg : IdleConfig δ) (now : Nat) (spawns : Bool) :
    (IdleMesh.new cfg now spawns).now = now ∧
    (IdleMesh.new cfg now spawns).changes = [] ∧
    (IdleMesh.new cfg now spawns).governor.mode = .active ∧
    (IdleMesh.new cfg now spawns).governor.lastActivityAt = now ∧
    (IdleMesh.new cfg now spawns).governor.trimCount = 0 := by
  rw [IdleMesh.new, withHardware_eq, ResourceGovernor.start]
  split <;> exact ⟨rfl, rfl, rfl, rfl, rfl⟩

theorem governed_new : Governed cfg (.new cfg now spawns) := by
  obtain ⟨hnow, hchanges, hmode, hlast, htrims⟩ :=
    new_governor cfg now spawns
  refine ⟨?_, ?_, ?_, fun i change hi => ?_, fun change hmem => ?_⟩
  · rw [hlast, hnow]
  · rw [hmode, hchanges]
    rfl
  · rw [htrims, hchanges]
    rfl
  · rw [hchanges] at hi
    exact absurd hi (by simp)
  · rw [hchanges] at hmem
    exact absurd hmem List.not_mem_nil

theorem moded_new : Moded cfg (.new cfg now spawns) := by
  have hstart : (ResourceGovernor.new now).start cfg.governor
      = { ResourceGovernor.new now with timer := cfg.governor.enabled } := by
    rw [ResourceGovernor.start]
    cases cfg.governor.enabled <;> rfl
  have hsound : (HardwareMonitor.new now).Sound :=
    ⟨rfl, fun habsurd => Bool.noConfusion habsurd,
      fun id probe h => absurd h (by simp [HardwareMonitor.new]),
      fun id probe h => absurd h (by simp [HardwareMonitor.new])⟩
  rw [IdleMesh.new, withHardware_eq, hstart]
  refine ⟨sound_start spawns hsound, ?_, fun _ => ?_, fun _ => ?_,
    fun _ habsurd => ResourceMode.noConfusion habsurd, fun _ _ => ?_,
    fun hclosed => (Option.some_ne_none _ hclosed.symm).elim⟩
  · show cfg.governor.enabled = (cfg.governor.enabled && true)
    rw [Bool.and_true]
  · exact iff_of_true (start_running spawns (HardwareMonitor.new now)) rfl
  · exact iff_of_false Bool.false_ne_true (fun habsurd => Bool.noConfusion habsurd.1)
  · exact ⟨.start "orchestrator_listening", rfl, iff_of_true rfl rfl⟩

/-- A run keeps both invariants. -/
theorem kept_of_exec {es : List ModeEvent} (hs : Governed cfg s ∧ Moded cfg s)
    (hrun : (modeRuns cfg now spawns).exec s es = some t) : Governed cfg t ∧ Moded cfg t :=
  Lts.exec_invariant (I := fun t => Governed cfg t ∧ Moded cfg t) (C := fun _ _ => True)
    (fun _ _ _ h _ hstep => ⟨h.1.step hstep, h.2.step hstep⟩) es hs hrun (Lts.along_true es s)

/-- Over a run the monitor ages. -/
theorem ages_of_exec {es : List ModeEvent}
    (hrun : (modeRuns cfg now spawns).exec s es = some t) : Ages s.hardware t.hardware :=
  Lts.exec_invariant (I := fun t => Ages s.hardware t.hardware) (C := fun _ _ => True)
    (fun _ _ _ h _ hstep => h.trans (hardwareStep_of_step hstep).ages) es (ages_refl _) hrun
    (Lts.along_true es s)

/-- What was at work at `since` is not forgotten. -/
theorem lastActivityAt_of_exec {since : Nat} {es : List ModeEvent}
    (hs : since ≤ s.governor.lastActivityAt ∧ since ≤ s.now)
    (hrun : (modeRuns cfg now spawns).exec s es = some t) :
    since ≤ t.governor.lastActivityAt ∧ since ≤ t.now := by
  refine Lts.exec_invariant (I := fun t => since ≤ t.governor.lastActivityAt ∧ since ≤ t.now)
    (C := fun _ _ => True) (fun u e v h _ hstep => ?_) es hs hrun (Lts.along_true es s)
  cases governorStep_of_step hstep <;> omega

/-- Where nothing is at work the time of the last activity stays. -/
theorem lastActivityAt_of_quiet {es : List ModeEvent} {bound : Nat}
    (hs : s.governor.lastActivityAt ≤ bound)
    (hquiet : (modeRuns cfg now spawns).Along (fun u e => ¬ u.touches cfg e) s es)
    (hrun : (modeRuns cfg now spawns).exec s es = some t) :
    t.governor.lastActivityAt ≤ bound := by
  refine Lts.exec_invariant (I := fun t => t.governor.lastActivityAt ≤ bound)
    (fun u e v h hrests hstep => ?_) es hs hrun hquiet
  cases governorStep_of_step hstep with
  | rests _ _ _ hlast => rwa [hlast]
  | touched htouches => exact absurd htouches hrests
  | wakes _ htouches => exact absurd htouches hrests
  | sleeps _ _ _ _ _ hlast => rwa [hlast]

/-- A step goes to idle only by a sweep, and when the time is up. -/
theorem sleeps_of_step {e : ModeEvent} (hstep : s.step cfg e = some t)
    (hactive : s.governor.mode = .active) (hidle : t.governor.mode = .idle) :
    e = .sweep false ∧ cfg.governor.idleAfterMs ≤ s.now - s.governor.lastActivityAt := by
  cases governorStep_of_step hstep with
  | rests _ _ hmode =>
    exact ResourceMode.noConfusion (hactive.symm.trans (hmode.symm.trans hidle))
  | touched _ _ hmode => exact ResourceMode.noConfusion (hmode.symm.trans hidle)
  | wakes _ _ _ hmode => exact ResourceMode.noConfusion (hmode.symm.trans hidle)
  | sleeps _ hsweep _ _ hdue => exact ⟨hsweep, hdue⟩

/-- What holds of an orchestrator that has run from `start` on, and of what comes after. -/
structure IdleModes (cfg : IdleConfig δ) (M : Lts (IdleMesh δ) ModeEvent) (start : Nat)
    (s : IdleMesh δ) : Prop where
  governed : Governed cfg s
  moded : Moded cfg s
  /-- A request leaves it active, and what is at work keeps it so. -/
  wakes : ∀ {e t}, M.step s e = some t → s.touches cfg e → t.governor.mode = .active
  /-- Telemetry is told by an orchestrator that is active. -/
  told : ∀ {e t}, M.step s e = some t → t.telemetry ≠ s.telemetry →
    t.closed ≠ some .active ∧ (t.closed = none → t.governor.mode = .active)
  /-- A sample that was taken before it was idle is not told, nor remembered, however late it
  ends. -/
  late : ∀ {es t id e u}, s.closed = none → s.governor.mode = .idle → id < s.hardware.nextProbe →
    M.exec s es = some t → e.isOf id → M.step t e = some u →
    u.telemetry = t.telemetry ∧ u.hardwareCache = t.hardwareCache ∧ u.vramFree = t.vramFree
  /-- After a full period with nothing at work, a sweep finds or leaves it idle. -/
  sleeps : ∀ {es t u}, M.exec s es = some t → M.Along (fun u e => ¬ u.touches cfg e) s es →
    s.now + cfg.governor.idleAfterMs ≤ t.now → M.step t (.sweep false) = some u →
    u.governor.mode = .idle
  /-- And not before. -/
  stays : ∀ {e t es u e' v}, M.step s e = some t → s.touches cfg e → M.exec t es = some u →
    u.governor.mode = .active → M.step u e' = some v → v.governor.mode = .idle →
    e' = .sweep false ∧ s.now + cfg.governor.idleAfterMs ≤ u.now
  startup : ∀ {e t}, s.governor.mode = .active → M.step s e = some t → t.governor.mode = .idle →
    start + cfg.governor.idleAfterMs ≤ s.now

/-- A sample is under way when the orchestrator goes idle, and ends after it has woken: the next
poll is what is told. -/
def sampledLate : List ModeEvent :=
  [.tick 60, .sweep false, .tick 5, .activity "http:POST /api/v1/mesh/dispatch" true,
    .probeClose 0 (some 0) "1, 2, 3, 4" "", .poll true]

def sampledConfig : IdleConfig String := ⟨⟨true, 60⟩, true, fun _ => ["hello"]⟩

end Runs

end Kovael.Mesh
