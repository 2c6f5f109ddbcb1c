import Kovael.Supervisor.Generations

/-!
# Is an accepted start ever lost?

A start that finds a child does nothing more: it takes it for running. When that
child was told to stop and is only slow to go, nothing spawns another one after
its exit. `restartAgent` detaches the old child first and has no such case.

So a start is honoured exactly where it does not reach a child that is stopping
(`ReachesStopping`): in runs in which none does, every record whose last accepted
request was a start has its child (`starts_honoured_unless_stopping`), and one that
does is lost when the child exits.
-/

namespace Kovael.Supervisor

open Js (OrderedMap)

variable {cfg : SupervisorConfig} {host : RecordHost} {a b : String} {r r' : RuntimeRecord}
  {w w' : World} {s s' : AgentRuntimeSupervisor}

/-! ## What was last asked of an agent -/

/-- The last entry of the log that is about the agent. -/
def lastEntry (a : String) (log : List Entry) : Option Entry :=
  (log.filter fun e => e.agentId = a).getLast?

/-- If the last accepted request was a start, and nothing failed since, the record
has a child that is not told to stop. -/
def Honoured (a : String) (r : RuntimeRecord) (w : World) : Prop :=
  lastEntry a w.log = some (.start a) → r.desiredState = .running →
    ∃ m, r.managed = some m ∧ w.told m.child = false

/-- Every child that was told to stop has exited. -/
def AllGone (w : World) : Prop :=
  ∀ id c, w.children.get? id = some c → .sigterm ∈ c.signals → c.exited = true

/-- No accepted start is lost: once every child that was told to stop is gone, a
record that is to be running and was last asked to start has a child. -/
def StartsHonoured (s : AgentRuntimeSupervisor) : Prop :=
  AllGone s.world → ∀ a r, s.records.get? a = some r →
    lastEntry a s.world.log = some (.start a) → r.desiredState = .running → r.managed ≠ none

/-- The event is an accepted start of the agent with this record. -/
def Event.Starts (cfg : SupervisorConfig) (a : String) (r : RuntimeRecord) : Event → Prop
  | .start _ _ _ => cfg.enabled = true ∧ r.desiredState = .running
  | .startAgent _ b _ _ => b = a ∧ cfg.enabled = true ∧ cfg.startupBlocker = none
  | _ => False

/-- The event is an accepted start of the agent, whose child was told to stop. -/
def ReachesStopping (cfg : SupervisorConfig) (s : AgentRuntimeSupervisor) (e : Event)
    (a : String) (m : ManagedRuntime) : Prop :=
  ∃ r, s.records.get? a = some r ∧ r.managed = some m ∧ s.world.told m.child = true ∧
    e.Starts cfg a r

theorem lastEntry_self {log : List Entry} {entry : Entry} (h : entry.agentId = a) :
    lastEntry a (log ++ [entry]) = some entry := by
  rw [lastEntry, List.filter_append, List.filter_cons_of_pos (by simpa using h), List.filter_nil,
    List.getLast?_append, List.getLast?_singleton, Option.some_or]

theorem lastEntry_other {log new : List Entry} (h : ∀ e ∈ new, e.agentId = a) (hb : b ≠ a) :
    lastEntry b (log ++ new) = lastEntry b log := by
  have hnone : new.filter (fun e => e.agentId = b) = [] := by
    rw [List.filter_eq_nil_iff]
    intro e he
    rw [h e he, decide_eq_true_eq]
    exact hb.symm
  rw [lastEntry, List.filter_append, hnone, List.append_nil, lastEntry]

/-! ## Callbacks and signals -/

/-- What a callback of `child` does to the record of its agent and to the log. -/
inductive Emitted (a : String) (child : Nat) (r : RuntimeRecord) (w : World)
    (out : RuntimeRecord × World) : Prop where
  | stale (hrecord : out.1 = r) (hlog : out.2.log = w.log)
  | ended {m : ManagedRuntime} {entry : Entry} (hm : r.managed = some m) (hchild : m.child = child)
      (hnone : out.1.managed = none) (hdesired : out.1.desiredState = r.desiredState)
      (hentry : entry.agentId = a) (hnot : entry ≠ .start a)
      (hlog : out.2.log = if w.told child then w.log else w.log ++ [entry])

theorem Called.emitted {child : Nat} {out : RuntimeRecord × World} (h : Called a child r w out) :
    Emitted a child r w out ∧ ∀ id, out.2.told id = w.told id := by
  cases h with
  | idle hsame =>
    rw [hsame]
    exact ⟨.stale rfl rfl, fun _ => rfl⟩
  | @ignored c mark _ hsignals _ hrecord hchildren _ hlog =>
    refine ⟨.stale hrecord hlog, fun id => ?_⟩
    rw [told_of_children hchildren, told_onChild fun c => by rw [hsignals]]
  | letGo _ _ hsignals _ hm hnone hdesired hchildren _ hentry hnot hlog =>
    refine ⟨.ended hm rfl hnone hdesired hentry hnot hlog, fun id => ?_⟩
    rw [told_of_children hchildren, told_onChild fun c => by rw [hsignals]]

/-! ## What one agent's methods do to the others -/

/-- New entries are about this agent, and no child of another one is told to stop. -/
structure Beside (a : String) (w w' : World) : Prop where
  log : ∃ new, w'.log = w.log ++ new ∧ ∀ e ∈ new, e.agentId = a
  told : ∀ id c, w.children.get? id = some c → c.agentId ≠ a → w'.told id = w.told id

theorem Beside.of_same (hlog : w'.log = w.log) (hchildren : w'.children = w.children) :
    Beside a w w' where
  log := ⟨[], by rw [hlog, List.append_nil], fun e he => absurd he List.not_mem_nil⟩
  told id _ _ _ := told_of_children hchildren id

theorem Beside.trans {w'' : World} (h : Beside a w w') (hg : Grows a w w')
    (h' : Beside a w' w'') : Beside a w w'' where
  log := by
    obtain ⟨new, hnew, hagent⟩ := h.log
    obtain ⟨new', hnew', hagent'⟩ := h'.log
    refine ⟨new ++ new', by rw [hnew', hnew, List.append_assoc], ?_⟩
    intro e he
    rcases List.mem_append.mp he with he | he
    · exact hagent e he
    · exact hagent' e he
  told id c hc hagent := by
    obtain ⟨c', hc', hl⟩ := hg.forward id c hc
    rw [h'.told id c' hc' (by rw [hl.agentId]; exact hagent), h.told id c hc hagent]

theorem note_beside {entry : Entry} (h : entry.agentId = a) : Beside a w (w.note entry) where
  log := ⟨[entry], rfl, fun _ he => List.mem_singleton.mp he ▸ h⟩
  told _ _ _ _ := rfl

/-- What follows a new entry about the agent. -/
theorem Beside.noted {entry : Entry} (h : Beside a (w.note entry) w') (hentry : entry.agentId = a) :
    Beside a w w' :=
  (note_beside hentry).trans ((note_aged w entry).grows a) h

theorem Emitted.beside {child : Nat} {out : RuntimeRecord × World} (h : Emitted a child r w out)
    (htold : ∀ id, out.2.told id = w.told id) : Beside a w out.2 where
  log := by
    cases h with
    | stale _ hlog => exact ⟨[], by rw [hlog, List.append_nil], fun e he => absurd he List.not_mem_nil⟩
    | @ended m entry _ _ _ _ hentry _ hlog =>
      split at hlog
      next => exact ⟨[], by rw [hlog, List.append_nil], fun e he => absurd he List.not_mem_nil⟩
      next => exact ⟨[entry], hlog, fun e he => List.mem_singleton.mp he ▸ hentry⟩
  told id _ _ _ := htold id

/-- A signal that tells nobody to stop, or one of the agent's own children. -/
theorem kill_beside {child : Nat} {signal : Signal} {now : Int}
    (h : signal = .sigkill ∨ ∀ c, w.children.get? child = some c → c.agentId = a) :
    Beside a w (kill cfg host a child signal now r w).2 := by
  obtain ⟨hemitted, htold⟩ := (@kill_called cfg host a r w child signal now).emitted
  refine ⟨(hemitted.beside htold).log, ?_⟩
  intro id c hc hagent
  rw [htold]
  rcases h with rfl | hown
  · exact told_onChild (fun c => by simp) id
  · have hid : id ≠ child := fun hid => hagent (hown c (hid ▸ hc))
    rw [World.told, World.told]
    congr 1
    exact OrderedMap.get?_modify_ne _ _ hid

/-- The managed child is one of the agent's own. -/
theorem Safe.own (h : Safe a r w) {m : ManagedRuntime} (hm : r.managed = some m) :
    ∀ c, w.children.get? m.child = some c → c.agentId = a := by
  intro c hc
  obtain ⟨c', hc', hagent, -⟩ := h.child m hm
  rw [hc, Option.some.injEq] at hc'
  exact hc' ▸ hagent

theorem armStopTimer_beside (m : ManagedRuntime) (r : RuntimeRecord) (w : World) :
    Beside a w (armStopTimer a m r w).2 := by
  obtain ⟨-, hchildren, -, hlog⟩ := clearStopTimer_spec r w
  exact .of_same hlog hchildren

theorem stopRecord_beside {reason : String} {sticky : Bool} (h : Safe a r w) :
    Beside a w (stopRecord cfg host a reason sticky r w).2 := by
  unfold stopRecord
  dsimp only
  split
  next => exact .of_same rfl rfl
  next m hm =>
    have hstopping : Safe a ((r.stick sticky).stopping reason (host.now 0)) w :=
      h.aged (.of_children rfl rfl) rfl rfl
    have hkilled := @kill_beside cfg host a ((r.stick sticky).stopping reason (host.now 0)) w
      m.child .sigterm (host.now 1) (Or.inr (h.own hm))
    split
    next =>
      exact hkilled.trans ((kill_ages hstopping).aged.grows a) (armStopTimer_beside ..)
    next => exact hkilled

theorem detachAndTerminate_beside (h : Safe a r w) :
    Beside a w (detachAndTerminate cfg host a r w).2 := by
  unfold detachAndTerminate
  split
  next => exact .of_same rfl rfl
  next m hm =>
    obtain ⟨hrecord, hchildren, hnext, hlog⟩ := clearStopTimer_spec r w
    dsimp only
    generalize clearStopTimer r w = cleared at hrecord hchildren hnext hlog ⊢
    obtain ⟨r₁, w₁⟩ := cleared
    dsimp only at hrecord hchildren hnext hlog ⊢
    have hown : ∀ c, w₁.children.get? m.child = some c → c.agentId = a := by
      rw [hchildren]
      exact h.own hm
    have hkilled := @kill_beside cfg host a (r₁.detached (host.now 0)) w₁ m.child .sigterm
      (host.now 1) (Or.inr hown)
    obtain ⟨-, haged⟩ := (@kill_called cfg host a (r₁.detached (host.now 0)) w₁ m.child .sigterm
      (host.now 1)).stale (fun m hm => absurd hm (by simp [RuntimeRecord.detached]))
    have hgrows : Grows a w₁ (kill cfg host a m.child .sigterm (host.now 1)
        (r₁.detached (host.now 0)) w₁).2 :=
      ((onChild_aged (signalled_later .sigterm)).trans haged).grows a
    have hfirst : Beside a w w₁ := .of_same hlog hchildren
    refine hfirst.trans ((Aged.of_children hchildren hnext).grows a) (hkilled.trans hgrows ?_)
    generalize kill cfg host a m.child .sigterm (host.now 1) (r₁.detached (host.now 0)) w₁ = killed
    refine ⟨⟨[], (List.append_nil _).symm, fun e he => absurd he List.not_mem_nil⟩, ?_⟩
    intro id _ _ _
    exact told_onChild
      (f := fun c => { c with exitTimers := c.exitTimers ++ [killed.2.nextTimer] })
      (fun _ => rfl) id

theorem spawn_told (g : Nat) (host' : String) :
    (w.spawn a g host').told w.nextChild = false ∧
      ∀ id, id ≠ w.nextChild → (w.spawn a g host').told id = w.told id := by
  constructor
  · show ((w.children.set w.nextChild _).get? w.nextChild).any _ = false
    rw [OrderedMap.get?_set_self]
    rfl
  · intro id hid
    show ((w.children.set w.nextChild _).get? id).any _ = _
    rw [OrderedMap.get?_set_ne _ _ hid]
    rfl

/-- A spawn that goes through leaves a child that nothing told to stop, and one
that does not is logged. -/
theorem spawnRecord_spec {now : Int} {orchestratorPort : Nat} {reason : String}
    (henabled : cfg.enabled = true) (hm : ∀ m, r.managed = some m → w.told m.child = false) :
    (∀ m, (spawnRecord cfg host a now orchestratorPort reason r w).1.managed = some m →
      (spawnRecord cfg host a now orchestratorPort reason r w).2.told m.child = false) ∧
    Honoured a (spawnRecord cfg host a now orchestratorPort reason r w).1
      (spawnRecord cfg host a now orchestratorPort reason r w).2 := by
  have hfailed : ∀ (r₁ : RuntimeRecord) (w₁ : World), Honoured a r₁ (w₁.note (.spawnFailed a)) := by
    intro r₁ w₁ hlast
    have hnoted : lastEntry a (w₁.note (.spawnFailed a)).log = some (.spawnFailed a) :=
      lastEntry_self rfl
    rw [hnoted] at hlast
    exact absurd hlast (by simp)
  unfold spawnRecord
  rw [henabled, Bool.not_true, Bool.false_or]
  split
  next hsome =>
    obtain ⟨m, hmanaged⟩ := Option.isSome_iff_exists.mp hsome
    exact ⟨hm, fun _ _ => ⟨m, hmanaged, hm m hmanaged⟩⟩
  next hnone =>
    rw [Bool.not_eq_true, Option.isSome_eq_false_iff, Option.isNone_iff_eq_none] at hnone
    split
    next => exact ⟨fun m hm' => absurd (hnone.symm.trans hm') (by simp), hfailed _ _⟩
    next =>
      dsimp only
      generalize clearStopTimer (r.starting reason) w = cleared
      split
      next => exact ⟨fun m hm' => absurd hm' (by simp), hfailed _ _⟩
      next =>
        have htold := (@spawn_told a cleared.2 cleared.1.generation
          (cfg.hostOverride.getD ("http://127.0.0.1:" ++ toString orchestratorPort))).1
        refine ⟨?_, fun _ _ => ⟨_, rfl, htold⟩⟩
        intro m hm'
        rw [Option.some.injEq] at hm'
        rw [← hm']
        exact htold

theorem spawnRecord_beside {now : Int} {orchestratorPort : Nat} {reason : String}
    (hfresh : Fresh w) :
    Beside a w (spawnRecord cfg host a now orchestratorPort reason r w).2 := by
  unfold spawnRecord
  split
  next => exact .of_same rfl rfl
  next =>
    split
    next => exact note_beside rfl
    next =>
      obtain ⟨-, hchildren, hnext, hlog⟩ := clearStopTimer_spec (r.starting reason) w
      dsimp only
      generalize clearStopTimer (r.starting reason) w = cleared at hchildren hnext hlog ⊢
      have hcleared : Beside a w cleared.2 := .of_same hlog hchildren
      have hgrows : Grows a w cleared.2 := (Aged.of_children hchildren hnext).grows a
      split
      next => exact hcleared.trans hgrows (note_beside rfl)
      next =>
        refine hcleared.trans hgrows ?_
        refine ⟨⟨[], (List.append_nil _).symm, fun e he => absurd he List.not_mem_nil⟩, ?_⟩
        intro id c hc _
        rw [hchildren] at hc
        exact (spawn_told ..).2 id (hnext ▸ Nat.ne_of_lt (hfresh id c hc))

/-! ## What a method does to its own agent -/

/-- A child that ends was told to, or its end is logged. -/
theorem Emitted.honoured {child : Nat} {out : RuntimeRecord × World} (h : Emitted a child r w out)
    (htold : ∀ id, out.2.told id = w.told id) (hh : Honoured a r w) : Honoured a out.1 out.2 := by
  cases h with
  | stale hrecord hlog =>
    intro hlast hdesired
    rw [hlog] at hlast
    rw [hrecord] at hdesired ⊢
    obtain ⟨m, hm, hnot⟩ := hh hlast hdesired
    exact ⟨m, hm, (htold m.child).trans hnot⟩
  | @ended m entry hm hchild _ hdesired hentry hnot hlog =>
    intro hlast hrunning
    exfalso
    split at hlog
    next hgone =>
      rw [hlog] at hlast
      obtain ⟨m', hm', hnot'⟩ := hh hlast (hdesired ▸ hrunning)
      rw [hm, Option.some.injEq] at hm'
      rw [← hm', hchild, hgone] at hnot'
      exact absurd hnot' (by simp)
    next =>
      rw [hlog, lastEntry_self hentry, Option.some.injEq] at hlast
      exact hnot hlast

/-- A request other than a start was the last. -/
theorem Emitted.quiet {child : Nat} {out : RuntimeRecord × World} (h : Emitted a child r w out)
    (hquiet : lastEntry a w.log ≠ some (.start a)) : lastEntry a out.2.log ≠ some (.start a) := by
  cases h with
  | stale _ hlog =>
    rw [hlog]
    exact hquiet
  | @ended m entry _ _ _ _ hentry hnot hlog =>
    rw [hlog]
    split
    next => exact hquiet
    next =>
      rw [lastEntry_self hentry]
      exact fun h => hnot (Option.some.inj h)

theorem stopRecord_quiet {reason : String} {sticky : Bool}
    (hquiet : lastEntry a w.log ≠ some (.start a)) :
    lastEntry a (stopRecord cfg host a reason sticky r w).2.log ≠ some (.start a) := by
  unfold stopRecord
  dsimp only
  split
  next => exact hquiet
  next m hm =>
    have hkilled := (@kill_called cfg host a ((r.stick sticky).stopping reason (host.now 0)) w
      m.child .sigterm (host.now 1)).emitted.1.quiet hquiet
    generalize kill cfg host a m.child .sigterm (host.now 1)
      ((r.stick sticky).stopping reason (host.now 0)) w = killed at hkilled ⊢
    split
    next =>
      obtain ⟨-, -, -, hlog⟩ := clearStopTimer_spec killed.1 killed.2
      show lastEntry a (clearStopTimer killed.1 killed.2).2.log ≠ _
      rw [hlog]
      exact hkilled
    next => exact hkilled

theorem stopNoted_honoured {reason : String} {sticky : Bool} :
    Honoured a (stopRecord cfg host a reason sticky r (w.note (.stop a))).1
      (stopRecord cfg host a reason sticky r (w.note (.stop a))).2 := by
  intro hlast
  refine absurd hlast (stopRecord_quiet ?_)
  have hnoted : lastEntry a (w.note (.stop a)).log = some (.stop a) := lastEntry_self rfl
  rw [hnoted]
  simp

theorem kill_honoured {child : Nat} {now : Int} (h : Honoured a r w) :
    Honoured a (kill cfg host a child .sigkill now r w).1
      (kill cfg host a child .sigkill now r w).2 := by
  obtain ⟨hemitted, htold⟩ := (@kill_called cfg host a r w child .sigkill now).emitted
  refine hemitted.honoured htold ?_
  intro hlast hdesired
  obtain ⟨m, hm, hnot⟩ := h hlast hdesired
  exact ⟨m, hm, (told_onChild (fun c => by simp) m.child).trans hnot⟩

theorem fire_honoured {timer : Timer} (hagent : timer.agentId = a) (h : Honoured a r w) :
    Honoured a (fire cfg host timer r w).1 (fire cfg host timer r w).2 ∧
      Beside a w (fire cfg host timer r w).2 := by
  subst hagent
  cases timer with
  | stop agentId m =>
    unfold fire
    dsimp only
    split
    next => exact ⟨h, .of_same rfl rfl⟩
    next => exact ⟨kill_honoured h, kill_beside (Or.inl rfl)⟩
  | kill agentId child => exact ⟨kill_honoured h, kill_beside (Or.inl rfl)⟩

/-! ## The supervisor -/

structure StartsInv (s : AgentRuntimeSupervisor) : Prop where
  safe : SafeAll s
  honoured : ∀ a r, s.records.get? a = some r → Honoured a r s.world

/-- The record of another agent does not notice. -/
theorem Honoured.beside (h : Honoured b r w) (hb : b ≠ a) (hsafe : Safe b r w)
    (hw : Beside a w w') : Honoured b r w' := by
  intro hlast hdesired
  obtain ⟨new, hlog, hagent⟩ := hw.log
  rw [hlog, lastEntry_other hagent hb] at hlast
  obtain ⟨m, hm, hnot⟩ := h hlast hdesired
  obtain ⟨c, hc, hcagent, -⟩ := hsafe.child m hm
  exact ⟨m, hm, (hw.told m.child c hc (hcagent ▸ hb)).trans hnot⟩

theorem onRecord_honoured {f : RuntimeRecord → World → RuntimeRecord × World}
    (h : StartsInv s)
    (hf : ∀ r, s.records.get? a = some r → Safe a r s.world → Honoured a r s.world →
      Honoured a (f r s.world).1 (f r s.world).2 ∧ Beside a s.world (f r s.world).2) :
    ∀ b r, (s.onRecord a f).records.get? b = some r → Honoured b r (s.onRecord a f).world := by
  cases hr : s.records.get? a with
  | none =>
    rw [onRecord_none hr]
    exact h.honoured
  | some r =>
    rw [onRecord_some hr]
    obtain ⟨hown, hbeside⟩ := hf r hr (h.safe.records a r hr) (h.honoured a r hr)
    intro b r' hr'
    rcases OrderedMap.get?_set_some hr' with ⟨rfl, rfl⟩ | ⟨hb, hr'⟩
    · exact hown
    · exact (h.honoured b r' hr').beside hb (h.safe.records b r' hr') hbeside

theorem startRecord_beside {orchestratorPort : Nat} {reason : String} (h : SafeAll s) :
    Beside a s.world (startRecord cfg host a orchestratorPort reason r s.world).2 := by
  unfold startRecord
  split
  next => exact .of_same rfl rfl
  next =>
    have hfresh := (note_aged s.world (.start a)).fresh h.fresh
    exact (spawnRecord_beside hfresh).noted rfl

/-- No record that is to be running has a child that was told to stop. -/
def Clear (s : AgentRuntimeSupervisor) : Prop :=
  ∀ a r m, s.records.get? a = some r → r.desiredState = .running → r.managed = some m →
    s.world.told m.child = false

theorem startRecord_clear {orchestratorPort : Nat} {reason : String}
    (henabled : cfg.enabled = true) (h : StartsInv s) (hclear : Clear s) :
    let s' := s.onRecord a (startRecord cfg host a orchestratorPort reason)
    StartsInv s' ∧ Clear s' := by
  have hown : ∀ r, s.records.get? a = some r →
      (∀ m, (startRecord cfg host a orchestratorPort reason r s.world).1.desiredState = .running →
        (startRecord cfg host a orchestratorPort reason r s.world).1.managed = some m →
        (startRecord cfg host a orchestratorPort reason r s.world).2.told m.child = false) ∧
      Honoured a (startRecord cfg host a orchestratorPort reason r s.world).1
        (startRecord cfg host a orchestratorPort reason r s.world).2 := by
    intro r hr
    unfold startRecord
    split
    next => exact ⟨fun m => hclear a r m hr, h.honoured a r hr⟩
    next hdesired =>
      obtain ⟨htold, hhonoured⟩ := @spawnRecord_spec cfg host a r (s.world.note (.start a))
        (host.now 0) orchestratorPort reason henabled
        (fun m => hclear a r m hr (not_not.mp hdesired))
      exact ⟨fun m _ => htold m, hhonoured⟩
  refine ⟨⟨?_, ?_⟩, ?_⟩
  · exact onRecord_safe h.safe fun r hr => startRecord_keeps hr h.safe.fresh
  · exact onRecord_honoured h fun r hr _ _ => ⟨(hown r hr).2, startRecord_beside h.safe⟩
  · intro b r m hr hdesired hm
    cases hrec : s.records.get? a with
    | none =>
      rw [onRecord_none hrec] at hr ⊢
      exact hclear b r m hr hdesired hm
    | some r₀ =>
      rw [onRecord_some hrec] at hr ⊢
      rcases OrderedMap.get?_set_some hr with ⟨-, rfl⟩ | ⟨hb, hr⟩
      · exact (hown r₀ hrec).1 m hdesired hm
      · obtain ⟨c, hc, hagent, -⟩ := (h.safe.records b r hr).child m hm
        have htold := (@startRecord_beside cfg host a r₀ s orchestratorPort reason h.safe).told
          m.child c hc (hagent ▸ hb)
        exact htold.trans (hclear b r m hr hdesired hm)

theorem start_honoured {hosts : String → RecordHost} {orchestratorPort : Nat} {reason : String}
    (h : StartsInv s) (hclear : cfg.enabled = true → Clear s) :
    StartsInv (start cfg hosts orchestratorPort reason s) := by
  have hloop : cfg.enabled = true → ∀ (agentIds : List String) (t : AgentRuntimeSupervisor),
      StartsInv t → Clear t →
      StartsInv (agentIds.foldl (fun s agentId => s.onRecord agentId
        (startRecord cfg (hosts agentId) agentId orchestratorPort reason)) t) := by
    intro henabled agentIds
    induction agentIds with
    | nil =>
      intro t ht _
      exact ht
    | cons agentId agentIds ih =>
      intro t ht hct
      obtain ⟨hnext, hclear'⟩ := @startRecord_clear cfg (hosts agentId) agentId t orchestratorPort
        reason henabled ht hct
      exact ih _ hnext hclear'
  unfold start
  dsimp only
  split
  next => exact ⟨⟨h.safe.fresh, h.safe.records⟩, h.honoured⟩
  next henabled =>
    rw [Bool.not_eq_true', Bool.not_eq_false] at henabled
    exact hloop henabled _ _ ⟨⟨h.safe.fresh, h.safe.records⟩, h.honoured⟩ (hclear henabled)

theorem stop_honoured {hosts : String → RecordHost} {reason : String} (h : StartsInv s) :
    StartsInv (stop cfg hosts reason s) := by
  unfold stop
  generalize s.records.entries.map Prod.fst = agentIds
  induction agentIds generalizing s with
  | nil => exact h
  | cons agentId agentIds ih =>
    refine ih ⟨?_, ?_⟩
    · exact onRecord_safe h.safe fun r hr => stopNoted_keeps hr h.safe.fresh
    · refine onRecord_honoured h fun r _ hsafe _ => ⟨stopNoted_honoured, ?_⟩
      have hnoted := hsafe.aged (note_aged s.world (.stop agentId)) rfl rfl
      exact (stopRecord_beside hnoted).noted rfl

theorem StartsInv.withPort (h : StartsInv s) (orchestratorPort : Option Nat) :
    StartsInv (s.withPort orchestratorPort) := ⟨h.safe.withPort _, h.honoured⟩

theorem startAgent_honoured {orchestratorPort : Option Nat} {reason : Option String}
    (h : StartsInv s)
    (hclear : cfg.enabled = true → cfg.startupBlocker = none → ∀ r m,
      s.records.get? a = some r → r.managed = some m → s.world.told m.child = false) :
    StartsInv (startAgent cfg host a orchestratorPort reason s).1 := by
  refine ⟨startAgent_safe orchestratorPort reason h.safe, ?_⟩
  have hport := h.withPort orchestratorPort
  have hnoted := note_aged (s.withPort orchestratorPort).world (.start a)
  rcases startAgent_cases cfg host a orchestratorPort reason s with
    ⟨hsame, -⟩ | ⟨-, henabled, hblocker, r₀, hr₀, ⟨hsome, htaken⟩ | ⟨-, hspawned⟩⟩
  · rw [hsame]
    exact h.honoured
  · rw [htaken]
    refine onRecord_honoured hport ?_
    intro r hr _ _
    refine ⟨?_, note_beside rfl⟩
    intro _ _
    have hsame : r = r₀ := Option.some.inj (hr.symm.trans hr₀)
    obtain ⟨m, hm⟩ := Option.isSome_iff_exists.mp hsome
    exact ⟨m, hsame ▸ hm, hclear henabled hblocker r₀ m hr₀ hm⟩
  · rw [hspawned]
    refine onRecord_honoured hport ?_
    intro r hr hsafe _
    have htold : ∀ m, ({ r with desiredState := .running } : RuntimeRecord).managed = some m →
        ((s.withPort orchestratorPort).world.note (.start a)).told m.child = false :=
      fun m hm => hclear henabled hblocker r m hr hm
    exact ⟨(spawnRecord_spec henabled htold).2,
      (spawnRecord_beside (hnoted.fresh hport.safe.fresh)).noted rfl⟩

theorem stopAgent_honoured {options : AgentRuntimeControlOptions} {busy : BusyWork}
    (h : StartsInv s) : StartsInv (stopAgent cfg host a options busy s).1 := by
  refine ⟨stopAgent_safe options busy h.safe, ?_⟩
  rcases stopAgent_cases cfg host a options busy s with ⟨hsame, -⟩ | ⟨-, hstopped⟩
  · rw [hsame]
    exact h.honoured
  · rw [hstopped]
    refine onRecord_honoured h ?_
    intro r _ hsafe _
    have hnoted := hsafe.aged (note_aged s.world (.stop a)) rfl rfl
    exact ⟨stopNoted_honoured, (stopRecord_beside hnoted).noted rfl⟩

/-- A restart lets go of the child it finds, so it always spawns. -/
theorem restartAgent_honoured {orchestratorPort : Option Nat}
    {options : AgentRuntimeControlOptions} {busy : BusyWork} (h : StartsInv s) :
    StartsInv (restartAgent cfg host a orchestratorPort options busy s).1 := by
  refine ⟨restartAgent_safe orchestratorPort options busy h.safe, ?_⟩
  have hport := h.withPort orchestratorPort
  have hnoted := note_aged (s.withPort orchestratorPort).world (.start a)
  rcases restartAgent_cases cfg host a orchestratorPort options busy s with
    ⟨hsame, -⟩ | ⟨-, henabled, hspawned⟩
  · rw [hsame]
    exact h.honoured
  · rw [hspawned]
    refine onRecord_honoured hport ?_
    intro r _ hsafe _
    have hdesired : Safe a { r with desiredState := .running }
        ((s.withPort orchestratorPort).world.note (.start a)) := hsafe.aged hnoted rfl rfl
    obtain ⟨hdetached, hnone⟩ := @detachAndTerminate_ages cfg host _ _ _ hdesired
    have hbeside := @detachAndTerminate_beside cfg host _ _ _ hdesired
    have haged := hnoted.trans hdetached.aged
    refine ⟨?_, ?_⟩
    · exact (spawnRecord_spec henabled fun m hm => absurd (hnone.symm.trans hm) (by simp)).2
    · exact (hbeside.trans (hdetached.aged.grows a)
        (spawnRecord_beside (haged.fresh hport.safe.fresh))).noted rfl

/-- One step, unless it is a start that reaches a stopping child. -/
theorem step_honoured (s : AgentRuntimeSupervisor) (e : Event) (s' : AgentRuntimeSupervisor)
    (h : StartsInv s) (hreach : ∀ a m, ¬ReachesStopping cfg s e a m)
    (hstep : step cfg s e = some s') : StartsInv s' := by
  have htold : ∀ a r m, s.records.get? a = some r → r.managed = some m → e.Starts cfg a r →
      s.world.told m.child = false := by
    intro a r m hr hm hstarts
    cases ht : s.world.told m.child with
    | false => rfl
    | true => exact absurd ⟨r, hr, hm, ht, hstarts⟩ (hreach a m)
  have hsafe := step_safe s e s' h.safe hstep
  cases e with
  | start hosts orchestratorPort reason =>
    rw [step, Option.some.injEq] at hstep
    rw [← hstep]
    exact start_honoured h fun henabled a r m hr hdesired hm =>
      htold a r m hr hm ⟨henabled, hdesired⟩
  | stop hosts reason =>
    rw [step, Option.some.injEq] at hstep
    exact hstep ▸ stop_honoured h
  | startAgent host a orchestratorPort reason =>
    rw [step, Option.some.injEq] at hstep
    rw [← hstep]
    exact startAgent_honoured h fun henabled hblocker r m hr hm =>
      htold a r m hr hm ⟨rfl, henabled, hblocker⟩
  | stopAgent host a options busy =>
    rw [step, Option.some.injEq] at hstep
    exact hstep ▸ stopAgent_honoured h
  | restartAgent host a orchestratorPort options busy =>
    rw [step, Option.some.injEq] at hstep
    exact hstep ▸ restartAgent_honoured h
  | childExit child code signal now =>
    obtain ⟨c, -, -, rfl⟩ := step_childExit hstep
    refine ⟨hsafe, onRecord_honoured h ?_⟩
    intro r _ _ hr
    obtain ⟨hemitted, htold⟩ := (@emitExit_called c.agentId r s.world child code signal now).emitted
    exact ⟨hemitted.honoured htold hr, hemitted.beside htold⟩
  | childError child err now =>
    obtain ⟨c, -, -, rfl⟩ := step_childError hstep
    refine ⟨hsafe, onRecord_honoured h ?_⟩
    intro r _ _ hr
    obtain ⟨hemitted, htold⟩ := (@emitError_called cfg c.agentId r s.world child err now).emitted
    exact ⟨hemitted.honoured htold hr, hemitted.beside htold⟩
  | timer id host =>
    rw [step, Option.map_eq_some_iff] at hstep
    obtain ⟨timer, -, hstep⟩ := hstep
    have hcleared : StartsInv { s with world := s.world.clearTimeout id } :=
      ⟨⟨h.safe.fresh, fun b r hr => (h.safe.records b r hr).aged (.of_children rfl rfl) rfl rfl⟩,
        h.honoured⟩
    refine ⟨hsafe, hstep ▸ onRecord_honoured hcleared ?_⟩
    intro r _ _ hr
    exact fire_honoured rfl hr

theorem starts_inv {es : List Event}
    (hrun : (supervisorRuns cfg).exec (supervisorRuns cfg).init es = some s)
    (hreach : (supervisorRuns cfg).Along (fun s e => ∀ a m, ¬ReachesStopping cfg s e a m)
      (supervisorRuns cfg).init es) : StartsInv s := by
  have hinit : StartsInv (.init cfg) := by
    refine ⟨init_safe cfg, ?_⟩
    intro a r _ hlast
    exact absurd hlast (by simp [AgentRuntimeSupervisor.init, lastEntry])
  exact Lts.exec_invariant step_honoured es hinit hrun hreach

/-! ## A start that reaches a stopping child -/

/-- A stopping child that exits leaves nothing behind but its record. -/
theorem emitExit_told {m : ManagedRuntime} {c : Child} {code : Option Int} {signal : Option String}
    {now : Int} (hm : r.managed = some m) (hc : w.children.get? m.child = some c)
    (hgeneration : c.generation = m.generation) (hlive : ¬c.exited = true)
    (htold : w.told m.child = true) :
    (emitExit a m.child code signal now r w).1.managed = none ∧
      (emitExit a m.child code signal now r w).1.desiredState = r.desiredState ∧
      (emitExit a m.child code signal now r w).2.log = w.log := by
  unfold emitExit
  rw [hc]
  dsimp only
  rw [if_neg hlive]
  have hm' : r.managed = some ⟨m.child, c.generation⟩ := by rw [hm, hgeneration]
  obtain ⟨hnone, hdesired, -, -, hlog⟩ := handleExit_managed (a := a) hm' code signal now
    (w.onChild m.child fun c => { c with exited := true })
  have hmarked : ∀ id, (w.onChild m.child fun c => { c with exited := true }).told id
      = w.told id := told_onChild fun _ => rfl
  dsimp only at hlog
  rw [hmarked, htold, if_pos rfl] at hlog
  exact ⟨hnone, hdesired, ((clearTimeouts_children c.exitTimers _).2.2).trans hlog⟩

/-- What an accepted start leaves of a record whose child is stopping. -/
structure Passed (a : String) (r : RuntimeRecord) (m : ManagedRuntime)
    (s : AgentRuntimeSupervisor) : Prop where
  record : s.records.get? a = some r
  managed : r.managed = some m
  desired : r.desiredState = .running
  told : s.world.told m.child = true
  last : lastEntry a s.world.log = some (.start a)

/-- `start()` passes by a child that is stopping. -/
theorem start_passes {m : ManagedRuntime} {hosts : String → RecordHost} {orchestratorPort : Nat}
    {reason : String} (henabled : cfg.enabled = true) (hsafe : SafeAll s)
    (hr : s.records.get? a = some r) (hm : r.managed = some m)
    (hdesired : r.desiredState = .running) (htold : s.world.told m.child = true) :
    Passed a r m (start cfg hosts orchestratorPort reason s) := by
  have hloop : ∀ (agentIds : List String) (t : AgentRuntimeSupervisor), SafeAll t →
      t.records.get? a = some r → t.world.told m.child = true →
      (a ∈ agentIds ∨ lastEntry a t.world.log = some (.start a)) →
      Passed a r m (agentIds.foldl (fun s agentId => s.onRecord agentId
        (startRecord cfg (hosts agentId) agentId orchestratorPort reason)) t) := by
    intro agentIds
    induction agentIds with
    | nil =>
      intro t _ ht htoldt hlast
      exact ⟨ht, hm, hdesired, htoldt, hlast.resolve_left List.not_mem_nil⟩
    | cons agentId agentIds ih =>
      intro t hsafet ht htoldt hlast
      rw [List.foldl_cons]
      have hnext : SafeAll (t.onRecord agentId
          (startRecord cfg (hosts agentId) agentId orchestratorPort reason)) :=
        onRecord_safe hsafet fun r hr => startRecord_keeps hr hsafet.fresh
      by_cases ha : agentId = a
      · -- its own turn: the child it has is taken for a running one
        subst ha
        have hsame : startRecord cfg (hosts agentId) agentId orchestratorPort reason r t.world
            = (r, t.world.note (.start agentId)) := by
          rw [startRecord, if_neg (not_not_intro hdesired), spawnRecord, hm]
          simp
        rw [onRecord_some ht, hsame] at hnext ⊢
        exact ih _ hnext (OrderedMap.get?_set_self ..) htoldt (Or.inr (lastEntry_self rfl))
      · have hne : a ≠ agentId := fun h => ha h.symm
        have hlast' : a ∈ agentIds ∨ lastEntry a t.world.log = some (.start a) := by
          rcases hlast with hmem | hlast
          · exact Or.inl ((List.mem_cons.mp hmem).resolve_left hne)
          · exact Or.inr hlast
        cases hrec : t.records.get? agentId with
        | none =>
          rw [onRecord_none hrec] at hnext ⊢
          exact ih t hsafet ht htoldt hlast'
        | some r₀ =>
          rw [onRecord_some hrec] at hnext ⊢
          have hbeside := @startRecord_beside cfg (hosts agentId) agentId r₀ t orchestratorPort
            reason hsafet
          obtain ⟨c, hc, hagent, -⟩ := (hsafet.records a r ht).child m hm
          obtain ⟨new, hlog, hnew⟩ := hbeside.log
          refine ih _ hnext ((OrderedMap.get?_set_ne _ _ hne).trans ht) ?_ ?_
          · exact (hbeside.told m.child c hc (hagent ▸ hne)).trans htoldt
          · refine hlast'.imp_right fun h => ?_
            dsimp only
            rw [hlog, lastEntry_other hnew hne]
            exact h
  have hmem : a ∈ s.records.entries.map Prod.fst :=
    List.mem_map.mpr ⟨(a, r), (OrderedMap.mem_entries_iff ..).mpr hr, rfl⟩
  unfold start
  dsimp only
  rw [henabled]
  exact hloop _ { s with orchestratorPort := some orchestratorPort } ⟨hsafe.fresh, hsafe.records⟩
    hr htold (Or.inl hmem)

theorem reachesStopping_passes {e : Event} {m : ManagedRuntime} (hsafe : SafeAll s)
    (hreach : ReachesStopping cfg s e a m) (hstep : step cfg s e = some s') :
    ∃ r, Passed a r m s' := by
  obtain ⟨r, hr, hm, htold, hstarts⟩ := hreach
  cases e with
  | start hosts orchestratorPort reason =>
    rw [step, Option.some.injEq] at hstep
    rw [← hstep]
    exact ⟨r, start_passes hstarts.1 hsafe hr hm hstarts.2 htold⟩
  | startAgent host b orchestratorPort reason =>
    obtain ⟨rfl, henabled, hblocker⟩ := hstarts
    rw [step, Option.some.injEq] at hstep
    have hanswer : (startAgent cfg host b orchestratorPort reason s).1
        = (s.withPort orchestratorPort).onRecord b fun record w =>
          ({ record with desiredState := .running }, w.note (.start b)) := by
      rw [startAgent, hr]
      simp only [henabled, hblocker, hm, Bool.not_true, Bool.false_eq_true, if_false,
        Option.isSome_some, if_true]
    rw [← hstep, hanswer, onRecord_some (s := s.withPort orchestratorPort) hr]
    exact ⟨{ r with desiredState := .running }, OrderedMap.get?_set_self .., hm, rfl, htold,
      lastEntry_self rfl⟩
  | stop _ _ => exact absurd hstarts id
  | stopAgent _ _ _ _ => exact absurd hstarts id
  | restartAgent _ _ _ _ _ => exact absurd hstarts id
  | childExit _ _ _ _ => exact absurd hstarts id
  | childError _ _ _ => exact absurd hstarts id
  | timer _ _ => exact absurd hstarts id

/-- The child goes, and the start with it. -/
theorem Passed.lost {m : ManagedRuntime} {code : Option Int} {signal : Option String} {now : Int}
    (h : Passed a r m s) (hsafe : SafeAll s)
    (hstep : step cfg s (.childExit m.child code signal now) = some s')
    (hgone : AllGone s'.world) : ¬StartsHonoured s' := by
  obtain ⟨c, hc, hagent, hgeneration⟩ := (hsafe.records a r h.record).child m h.managed
  obtain ⟨c', hc', hlive, hs'⟩ := step_childExit hstep
  have hsame : c' = c := Option.some.inj (hc'.symm.trans hc)
  rw [hsame, hagent, onRecord_some h.record] at hs'
  rw [hsame] at hlive
  obtain ⟨hnone, hdesired, hlog⟩ := @emitExit_told a r s.world m c code signal now h.managed hc
    hgeneration hlive h.told
  intro hhonoured
  refine hhonoured hgone a (emitExit a m.child code signal now r s.world).1 ?_ ?_ ?_ hnone
  · rw [hs']
    exact OrderedMap.get?_set_self ..
  · rw [hs']
    dsimp only
    rw [hlog]
    exact h.last
  · rw [hdesired]
    exact h.desired

/-- No accepted start is lost in a run in which none reaches a child that was told
to stop; one that does is lost when that child, the last of those, exits. -/
theorem starts_honoured_unless_stopping (cfg : SupervisorConfig) :
    (∀ es s, (supervisorRuns cfg).exec (supervisorRuns cfg).init es = some s →
      (supervisorRuns cfg).Along (fun s e => ∀ a m, ¬ReachesStopping cfg s e a m)
        (supervisorRuns cfg).init es → StartsHonoured s) ∧
      ∀ es s e s₁ a m, (supervisorRuns cfg).exec (supervisorRuns cfg).init es = some s →
        ReachesStopping cfg s e a m → step cfg s e = some s₁ →
        ∀ code signal now s₂, step cfg s₁ (.childExit m.child code signal now) = some s₂ →
          AllGone s₂.world → ¬StartsHonoured s₂ := by
  constructor
  · intro es s hrun hreach _ a r hr hlast hdesired
    obtain ⟨m, hm, -⟩ := (starts_inv hrun hreach).honoured a r hr hlast hdesired
    rw [hm]
    exact Option.some_ne_none m
  · intro es s e s₁ a m hrun hreach hstep code signal now s₂ hexit hgone
    have hsafe := safe_exec hrun
    obtain ⟨r, hpassed⟩ := reachesStopping_passes hsafe hreach hstep
    exact hpassed.lost (step_safe s e s₁ hsafe hstep) hexit hgone

/-! One agent that is parked and woken: the child goes before the start, or after
it. -/

def parked : List Event :=
  [.start (fun _ => quietHost) 18080 "boot", .stop (fun _ => quietHost) "resource_idle"]

def wokenLate : List Event :=
  parked ++ [.childExit 0 none (some "SIGTERM") 5, .start (fun _ => quietHost) 18080 "resource_active"]

def wokenEarly : List Event :=
  parked ++ [.start (fun _ => quietHost) 18080 "resource_active", .childExit 0 none (some "SIGTERM") 5]

/-- No child at all is stopping when something is started. -/
def calm (s : AgentRuntimeSupervisor) : Event → Bool
  | .start _ _ _ | .startAgent _ _ _ _ =>
    s.records.entries.all fun e => e.2.managed.all fun m => !s.world.told m.child
  | _ => true

theorem calm_not_reaches {e : Event} (h : calm s e = true) (a : String) (m : ManagedRuntime) :
    ¬ReachesStopping cfg s e a m := by
  intro hgiven
  obtain ⟨r, hr, hm, htold, hstarts⟩ := hgiven
  have hentry := (OrderedMap.mem_entries_iff s.records a r).mpr hr
  have hall : (s.records.entries.all fun e => e.2.managed.all fun m => !s.world.told m.child)
      = true := by
    cases e with
    | start _ _ _ => exact h
    | startAgent _ _ _ _ => exact h
    | _ => exact absurd hstarts id
  have hnot := List.all_eq_true.mp hall (a, r) hentry
  rw [hm, Option.all_some, htold] at hnot
  exact absurd hnot (by simp)

theorem wokenLate_honoured :
    ∃ s r, sampleRecord wokenLate = some (s, r) ∧ AllGone s.world ∧ StartsHonoured s ∧
      r.managed ≠ none := by
  have hlast : (sampleRecord wokenLate).map
      (fun x => (lastEntry "shaev" x.1.world.log, x.2.desiredState,
        x.1.world.children.entries.all fun e => !e.2.signals.contains .sigterm || e.2.exited))
      = some (some (.start "shaev"), .running, true) := by decide +kernel
  have hcalm : (supervisorRuns sampleSupervisor).Along (fun s e => calm s e = true)
      (supervisorRuns sampleSupervisor).init wokenLate := by decide +kernel
  obtain ⟨⟨s, r⟩, hrecord, hlast⟩ := Option.map_eq_some_iff.mp hlast
  simp only [Prod.mk.injEq] at hlast
  obtain ⟨hlast, hdesired, hexited⟩ := hlast
  obtain ⟨hrun, hr⟩ := sampleRecord_eq hrecord
  have hgone : AllGone s.world := by
    intro id c hc htold
    have hall := List.all_eq_true.mp hexited (id, c) ((OrderedMap.mem_entries_iff ..).mpr hc)
    simpa [htold] using hall
  have hhonoured := (starts_honoured_unless_stopping sampleSupervisor).1 wokenLate s hrun
    (Lts.along_of_invariant (I := fun _ => True) (fun _ _ _ _ _ _ => trivial)
      (fun _ _ _ h => calm_not_reaches h) wokenLate trivial hcalm)
  exact ⟨s, r, hrecord, hgone, hhonoured, hhonoured hgone "shaev" r hr hlast hdesired⟩

/-- Woken before its child is gone, the agent stays down. -/
theorem wokenEarly_lost :
    ∃ s, (supervisorRuns sampleSupervisor).exec (supervisorRuns sampleSupervisor).init wokenEarly
        = some s ∧ ¬StartsHonoured s := by
  have hend : (sampleRecord wokenEarly).map
      (fun x => (lastEntry "shaev" x.1.world.log, x.2.desiredState, x.2.managed,
        x.1.world.children.entries.all fun e => e.2.exited))
      = some (some (.start "shaev"), .running, none, true) := by decide +kernel
  obtain ⟨⟨s, r⟩, hrecord, hend⟩ := Option.map_eq_some_iff.mp hend
  simp only [Prod.mk.injEq] at hend
  obtain ⟨hlast, hdesired, hnone, hexited⟩ := hend
  obtain ⟨hrun, hr⟩ := sampleRecord_eq hrecord
  refine ⟨s, hrun, ?_⟩
  intro hhonoured
  refine hhonoured ?_ "shaev" r hr hlast hdesired hnone
  intro id c hc _
  exact List.all_eq_true.mp hexited (id, c) ((OrderedMap.mem_entries_iff ..).mpr hc)

end Kovael.Supervisor
