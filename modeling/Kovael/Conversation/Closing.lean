import Kovael.Conversation.Topics

/-!
# What closing a topic stops

`Abortable` is what a bus keeps as long as no run starts on a topic that has
one in flight: every run in flight whose signal is not aborted sits in its
topic's slot, so the next close reaches it, and a run that ends empties nobody
else's slot. A second run on a topic takes the slot from the first.

An aborted run that is not playing a reply back completes no further turn
(`Silenced`), whatever happens afterwards.
-/

namespace Kovael.Conversation

open Js (OrderedMap)

variable {b b' : Bus}

/-! ## `closeTopic`, agent by agent -/

/-- The controller in the topic's slot is this one. -/
def Slot (b : Bus) (topicId : String) (id : Nat) : Prop :=
  ∃ active, b.activeTopics.get? topicId = some active ∧ active.abortController = some id

theorem topics_closeTopic (b : Bus) (topicId other : String) :
    (b.closeTopic topicId).activeTopics.get? other
      = if other = topicId then none else b.activeTopics.get? other := by
  unfold Bus.closeTopic
  cases hactive : b.activeTopics.get? topicId with
  | none =>
    by_cases hother : other = topicId
    · rw [if_pos hother, hother]
      exact hactive
    · rw [if_neg hother]
  | some active => exact OrderedMap.get?_delete ..

/-- A close changes nothing of a run but its signal, and that only in the
topic's slot. -/
theorem runs_closeTopic (b : Bus) (topicId : String) (id : Nat) :
    (Slot b topicId id ∧ (b.closeTopic topicId).runs.get? id
        = (b.runs.get? id).map fun run => { run with aborted := true }) ∨
      ¬Slot b topicId id ∧ (b.closeTopic topicId).runs.get? id = b.runs.get? id := by
  unfold Bus.closeTopic
  cases hactive : b.activeTopics.get? topicId with
  | none =>
    refine .inr ⟨?_, rfl⟩
    intro hgiven
    obtain ⟨active, h, _⟩ := hgiven
    rw [hactive] at h
    exact absurd h (by simp)
  | some active =>
    cases hslot : active.abortController with
    | none =>
      simp only [hslot]
      refine .inr ⟨?_, trivial⟩
      intro hgiven
      obtain ⟨active', h, hid⟩ := hgiven
      rw [hactive, Option.some.injEq] at h
      rw [← h, hslot] at hid
      exact absurd hid (by simp)
    | some controller =>
      simp only [hslot]
      by_cases hid : id = controller
      · refine .inl ⟨⟨active, hactive, by rw [hslot, hid]⟩, ?_⟩
        rw [OrderedMap.get?_modify, if_pos hid, hid]
      · refine .inr ⟨?_, OrderedMap.get?_modify_ne _ _ hid⟩
        intro hgiven
        obtain ⟨active', h, hc⟩ := hgiven
        rw [hactive, Option.some.injEq] at h
        rw [← h, hslot, Option.some.injEq] at hc
        exact hid hc.symm

/-- A run after a close was there before, with its topic, its loop and its
phase. -/
theorem run_before_close {topicId : String} {id : Nat} {run' : Run}
    (h : (b.closeTopic topicId).runs.get? id = some run') :
    ∃ run, b.runs.get? id = some run ∧ run'.topicId = run.topicId ∧ run'.loop = run.loop ∧
      run'.phase = run.phase ∧ (run.aborted = true → run'.aborted = true) ∧
      (run'.aborted = false → run.aborted = false ∧ ¬Slot b topicId id) := by
  rcases runs_closeTopic b topicId id with ⟨_, hget⟩ | ⟨hslot, hget⟩
  · rw [hget] at h
    obtain ⟨run, hrun, rfl⟩ := Option.map_eq_some_iff.mp h
    exact ⟨run, hrun, rfl, rfl, rfl, fun _ => rfl, fun h => absurd h (by simp)⟩
  · rw [hget] at h
    exact ⟨run', h, rfl, rfl, rfl, (fun h => h), fun h => ⟨h, hslot⟩⟩

/-! ## Every run can be reached -/

structure Abortable (b : Bus) : Prop where
  slot : ∀ id run, b.runs.get? id = some run → run.InFlight → run.aborted = false →
    Slot b run.topicId id
  alone : ∀ id id' run run', b.runs.get? id = some run → b.runs.get? id' = some run' →
    run.InFlight → run'.InFlight → run.topicId = run'.topicId → id = id'
  owned : ∀ topicId id, Slot b topicId id →
    ∃ run, b.runs.get? id = some run ∧ run.topicId = topicId

theorem abortable_init : Abortable bus.init where
  slot := fun _ _ h => absurd h (by simp [bus])
  alone := fun _ _ _ _ h => absurd h (by simp [bus])
  owned := by
    intro topicId id hgiven
    obtain ⟨active, h, _⟩ := hgiven
    exact absurd h (by simp [bus])

theorem Abortable.closeTopic (h : Abortable b) (topicId : String) :
    Abortable (b.closeTopic topicId) where
  slot := by
    intro id run' hrun' hflight hlive
    obtain ⟨run, hrun, htopic, _, hphase, _, hwas⟩ := run_before_close hrun'
    obtain ⟨hwas, hslot⟩ := hwas hlive
    rw [Run.InFlight, hphase] at hflight
    obtain ⟨active, hactive, hid⟩ := h.slot id run hrun hflight hwas
    have hother : run.topicId ≠ topicId := fun he => hslot ⟨active, he ▸ hactive, hid⟩
    refine ⟨active, ?_, hid⟩
    rw [topics_closeTopic, htopic, if_neg hother]
    exact hactive
  alone := by
    intro id₁ id₂ run₁ run₂ hrun₁ hrun₂ hflight₁ hflight₂ hsame
    obtain ⟨was₁, hwas₁, htopic₁, _, hphase₁, _⟩ := run_before_close hrun₁
    obtain ⟨was₂, hwas₂, htopic₂, _, hphase₂, _⟩ := run_before_close hrun₂
    rw [Run.InFlight, hphase₁] at hflight₁
    rw [Run.InFlight, hphase₂] at hflight₂
    exact h.alone id₁ id₂ was₁ was₂ hwas₁ hwas₂ hflight₁ hflight₂ (by rw [← htopic₁, ← htopic₂, hsame])
  owned := by
    intro other id hgiven
    obtain ⟨active, hactive, hid⟩ := hgiven
    rw [topics_closeTopic] at hactive
    split at hactive
    next => exact absurd hactive (by simp)
    next =>
      obtain ⟨run, hrun, htopic⟩ := h.owned other id ⟨active, hactive, hid⟩
      rcases runs_closeTopic b topicId id with ⟨_, hget⟩ | ⟨_, hget⟩
      · exact ⟨{ run with aborted := true }, by rw [hget, hrun]; rfl, htopic⟩
      · exact ⟨run, by rw [hget]; exact hrun, htopic⟩

theorem Abortable.setRun (h : Abortable b) {id : Nat} {run run' : Run}
    (held : b.runs.get? id = some run) (going : run.InFlight) (same : SameRun run run') :
    Abortable (b.setRun id run') := by
  -- in front of every run stands one in flight on the same topic
  have hbefore : ∀ {i r}, (b.setRun id run').runs.get? i = some r → r.InFlight →
      ∃ was, b.runs.get? i = some was ∧ was.InFlight ∧ was.topicId = r.topicId ∧
        was.aborted = r.aborted := by
    intro i r hr hflight
    rcases OrderedMap.get?_set_some hr with ⟨rfl, rfl⟩ | ⟨-, hr⟩
    · exact ⟨run, held, going, same.1.symm, same.2.symm⟩
    · exact ⟨r, hr, hflight, rfl, rfl⟩
  constructor
  · intro i r hr hflight hlive
    obtain ⟨was, hwas, hwent, htopic, hsignal⟩ := hbefore hr hflight
    have hslot := h.slot i was hwas hwent (by rw [hsignal]; exact hlive)
    rw [htopic] at hslot
    exact hslot
  · intro i₁ i₂ r₁ r₂ hr₁ hr₂ hflight₁ hflight₂ hsame
    obtain ⟨was₁, hwas₁, hwent₁, htopic₁, _⟩ := hbefore hr₁ hflight₁
    obtain ⟨was₂, hwas₂, hwent₂, htopic₂, _⟩ := hbefore hr₂ hflight₂
    exact h.alone i₁ i₂ was₁ was₂ hwas₁ hwas₂ hwent₁ hwent₂ (by rw [htopic₁, htopic₂, hsame])
  · intro topicId i hslot
    obtain ⟨r, hr, htopic⟩ := h.owned topicId i hslot
    simp only [Bus.setRun, OrderedMap.get?_set]
    split
    next hi =>
      rw [hi, held, Option.some.injEq] at hr
      exact ⟨run', rfl, by rw [same.1, hr]; exact htopic⟩
    next => exact ⟨r, hr, htopic⟩

theorem slot_takeSlot {topicId other : String} {active : ActiveTopic} {id i : Nat} :
    Slot (b.takeSlot topicId active id) other i ↔
      if other = topicId then i = id else Slot b other i := by
  unfold Slot Bus.takeSlot
  simp only [OrderedMap.get?_set]
  split
  next =>
    constructor
    · intro hgiven
      obtain ⟨active', h, hi⟩ := hgiven
      rw [Option.some.injEq] at h
      rw [← h, Option.some.injEq] at hi
      exact hi.symm
    · intro heq
      obtain rfl := heq
      exact ⟨_, rfl, rfl⟩
  next => exact Iff.rfl

/-- A run that starts on a topic without a run takes nobody's slot. -/
theorem Abortable.start (h : Abortable b) {id : Nat} {run : Run} (active : ActiveTopic)
    (fresh : b.runs.get? id = none) (alone : NoneInFlight b run.topicId) :
    Abortable ((b.takeSlot run.topicId active id).setRun id run) := by
  have hruns : ∀ i, ((b.takeSlot run.topicId active id).setRun id run).runs.get? i
      = if i = id then some run else b.runs.get? i := fun i => OrderedMap.get?_set ..
  have hslots : ∀ other i, Slot ((b.takeSlot run.topicId active id).setRun id run) other i ↔
      if other = run.topicId then i = id else Slot b other i := fun other i => slot_takeSlot
  constructor
  · intro i r hr hflight hlive
    rw [hruns] at hr
    rw [hslots]
    split at hr
    next hi =>
      rw [Option.some.injEq] at hr
      rw [← hr, if_pos rfl]
      exact hi
    next =>
      rw [if_neg (alone i r hr hflight)]
      exact h.slot i r hr hflight hlive
  · intro i₁ i₂ r₁ r₂ hr₁ hr₂ hflight₁ hflight₂ hsame
    rw [hruns] at hr₁ hr₂
    split at hr₁
    next h₁ =>
      split at hr₂
      next h₂ => rw [h₁, h₂]
      next =>
        rw [Option.some.injEq] at hr₁
        exact absurd (by rw [hr₁, hsame]) (alone i₂ r₂ hr₂ hflight₂)
    next =>
      split at hr₂
      next =>
        rw [Option.some.injEq] at hr₂
        exact absurd (by rw [hr₂, hsame]) (alone i₁ r₁ hr₁ hflight₁)
      next => exact h.alone i₁ i₂ r₁ r₂ hr₁ hr₂ hflight₁ hflight₂ hsame
  · intro topicId i hslot
    rw [hslots] at hslot
    rw [hruns]
    split at hslot
    next htopic => exact ⟨run, if_pos hslot, htopic.symm⟩
    next =>
      obtain ⟨r, hr, htopic⟩ := h.owned topicId i hslot
      have hne : i ≠ id := fun he => by
        rw [he, fresh] at hr
        exact absurd hr (by simp)
      exact ⟨r, by rw [if_neg hne]; exact hr, htopic⟩

theorem Abortable.create (h : Abortable b) {topicId title : String} {participants : List String}
    (fresh : b.activeTopics.get? topicId = none) :
    Abortable { b with activeTopics := b.activeTopics.set topicId ⟨title, participants, none⟩ } := by
  have hslots : ∀ other i, Slot b other i ↔ Slot
      { b with activeTopics := b.activeTopics.set topicId ⟨title, participants, none⟩ } other i := by
    intro other i
    unfold Slot
    simp only [OrderedMap.get?_set]
    split
    next hother =>
      rw [hother, fresh]
      constructor
      · intro hgiven
        obtain ⟨active, h, _⟩ := hgiven
        exact absurd h (by simp)
      · intro hgiven
        obtain ⟨active, h, hi⟩ := hgiven
        rw [Option.some.injEq] at h
        rw [← h] at hi
        exact absurd hi (by simp)
    next => exact Iff.rfl
  constructor
  · exact fun i r hr hflight hlive => (hslots _ _).mp (h.slot i r hr hflight hlive)
  · exact h.alone
  · exact fun other i hslot => h.owned other i ((hslots other i).mpr hslot)

theorem Abortable.moved (h : Abortable b) (hmoved : Moved b b') : Abortable b' := by
  cases hmoved with
  | rejected => exact h
  | created topicId title participants fresh => exact h.create fresh
  | closed topicId => exact h.closeTopic topicId
  | started id active run fresh alone => exact h.start active fresh alone
  | startedAndEnded id active run fresh alone done =>
    exact (h.start active fresh alone).closeTopic run.topicId
  | went id run run' held going same => exact h.setRun held going same
  | ended id run run' held going same done =>
    exact (h.setRun held going same).closeTopic run'.topicId

theorem abortable_run {es : List Event} (hrun : bus.exec bus.init es = some b)
    (hno : bus.Along NoOverlap bus.init es) : Abortable b :=
  Lts.exec_invariant (M := bus) (I := Abortable)
    (fun _ _ _ hI hno hstep => hI.moved (moved_of_step hno hstep)) es abortable_init hrun hno

/-! ## Aborted runs complete no turn -/

/-- The run is aborted and plays nothing back, with these turns behind it. -/
def Silenced (id : Nat) (turns : List String) (b : Bus) : Prop :=
  ∃ run, b.runs.get? id = some run ∧ run.aborted = true ∧
    (∀ speaker live, run.phase ≠ .playing speaker live) ∧ run.loop.turns = turns

theorem Silenced.closeTopic {id : Nat} {turns : List String} (h : Silenced id turns b)
    (topicId : String) : Silenced id turns (b.closeTopic topicId) := by
  obtain ⟨run, hrun, haborted, hphase, hturns⟩ := h
  rcases runs_closeTopic b topicId id with ⟨_, hget⟩ | ⟨_, hget⟩
  · exact ⟨{ run with aborted := true }, by rw [hget, hrun]; rfl, rfl, hphase, hturns⟩
  · exact ⟨run, by rw [hget]; exact hrun, haborted, hphase, hturns⟩

theorem Silenced.setRun_ne {id i : Nat} {turns : List String} (h : Silenced id turns b)
    (hne : id ≠ i) (run : Run) : Silenced id turns (b.setRun i run) := by
  obtain ⟨held, hheld, hrest⟩ := h
  exact ⟨held, by rw [Bus.setRun, OrderedMap.get?_set_ne _ _ hne]; exact hheld, hrest⟩

theorem silenced_setRun {id : Nat} {turns : List String} {run : Run} (haborted : run.aborted = true)
    (hphase : run.phase = .finished) (hturns : run.loop.turns = turns) :
    Silenced id turns (b.setRun id run) := by
  refine ⟨run, OrderedMap.get?_set_self .., haborted, ?_, hturns⟩
  intro speaker live
  rw [hphase]
  exact fun h => nomatch h

/-- The loop condition reads the signal: an aborted run comes out of the loop. -/
theorem drive_aborted (heads : List HeadInput) (s : LoopState) :
    drive true heads s = some (s, .finished) := by
  have hover : goesOn true s = false := by simp [goesOn]
  cases heads with
  | nil => rw [drive, hover, if_neg Bool.false_ne_true]
  | cons i is => rw [drive, head, hover, if_neg Bool.false_ne_true]

theorem Silenced.finish {id : Nat} {turns : List String} (h : Silenced id turns b) (run : Run)
    (s : LoopState) (resultThrows : Bool) : Silenced id turns (finish b run s resultThrows) := by
  unfold Conversation.finish
  split
  next => exact h
  next => exact h.closeTopic run.topicId

theorem Silenced.resume {id i : Nat} {turns : List String} (h : Silenced id turns b) {run : Run}
    {heads : List HeadInput} {resultThrows : Bool} {s : LoopState}
    (hrun : id = i → run.aborted = true ∧ s.turns = turns)
    (hres : resume b i run heads resultThrows s = some b') : Silenced id turns b' := by
  by_cases hid : id = i
  · obtain ⟨haborted, hturns⟩ := hrun hid
    rw [Conversation.resume, haborted, drive_aborted] at hres
    simp only [Option.some.injEq] at hres
    rw [← hres, hid]
    have hset : Silenced i turns
        (b.setRun i { run with aborted := true, loop := s, phase := .finished }) :=
      silenced_setRun rfl rfl hturns
    exact hset.finish run s resultThrows
  · unfold Conversation.resume at hres
    split at hres
    next => exact absurd hres (by simp)
    next =>
      rw [Option.some.injEq] at hres
      rw [← hres]
      exact (h.setRun_ne hid _).finish _ _ _
    next =>
      rw [Option.some.injEq] at hres
      rw [← hres]
      exact h.setRun_ne hid _

theorem Silenced.settle {id i : Nat} {turns : List String} (h : Silenced id turns b) {run : Run}
    {speaker : String} {live : Bool} {t : TurnInput} {resultThrows : Bool}
    (hrun : id = i → run.aborted = true ∧ run.loop.turns = turns ∧ ∃ e, t.stream = .error e)
    (hset : settle b i run speaker live t resultThrows = some b') : Silenced id turns b' := by
  unfold Conversation.settle at hset
  dsimp only at hset
  split at hset
  next =>
    refine h.resume (fun hid => ?_) hset
    obtain ⟨haborted, hturns, e, he⟩ := hrun hid
    refine ⟨haborted, ?_⟩
    rw [streamEnded, he]
    exact hturns
  next hended =>
    rw [Option.some.injEq] at hset
    rw [← hset]
    apply h.setRun_ne
    intro hid
    obtain ⟨_, _, e, he⟩ := hrun hid
    apply hended
    rw [streamEnded, he]
    rfl

/-- No event makes an aborted run complete a turn. -/
theorem silenced_step {id : Nat} {turns : List String} {e : Event} (h : Silenced id turns b)
    (hstep : step b e = some b') : Silenced id turns b' := by
  obtain ⟨held, hheld, haborted, hphase, hturns⟩ := h
  have h : Silenced id turns b := ⟨held, hheld, haborted, hphase, hturns⟩
  -- an event of the run itself finds it aborted, and not playing
  have hself : ∀ {i run}, b.runs.get? i = some run → id = i → run = held := by
    intro i run hrun hid
    rw [← hid, hheld, Option.some.injEq] at hrun
    exact hrun.symm
  cases e with
  | createTopic topicId title participants =>
    simp only [step] at hstep
    split at hstep
    next => exact absurd hstep (by simp)
    next =>
      rw [Option.some.injEq] at hstep
      rw [← hstep]
      exact h
  | convene i topicId goalThrows heads resultThrows =>
    simp only [step, convene] at hstep
    split at hstep
    next => exact absurd hstep (by simp)
    next =>
      rw [Option.some.injEq] at hstep
      rw [← hstep]
      exact h
    next active _ hfresh =>
      have hne : id ≠ i := fun hid => by
        rw [← hid, hheld] at hfresh
        exact absurd hfresh (by simp)
      have htaken : Silenced id turns (b.takeSlot topicId active i) := h
      split at hstep
      next =>
        rw [Option.some.injEq] at hstep
        rw [← hstep]
        exact htaken.setRun_ne hne _
      next => exact htaken.resume (fun hid => absurd hid hne) hstep
  | replySettles i =>
    simp only [step] at hstep
    split at hstep
    next => exact absurd hstep (by simp)
    next run hrun =>
      split at hstep
      next speaker _ hlive =>
        rw [Option.some.injEq] at hstep
        rw [← hstep]
        apply h.setRun_ne
        intro hid
        rw [hself hrun hid, haborted] at hlive
        exact absurd hlive (by simp)
      next => exact absurd hstep (by simp)
  | streamEnds i t resultThrows =>
    simp only [step] at hstep
    split at hstep
    next => exact absurd hstep (by simp)
    next run hrun =>
      split at hstep
      next speaker e hdispatching he =>
        refine h.settle (fun hid => ?_) hstep
        rw [hself hrun hid]
        exact ⟨haborted, hturns, e, he⟩
      next speaker live content hplaying _ =>
        refine h.settle (fun hid => ?_) hstep
        rw [hself hrun hid] at hplaying
        exact absurd hplaying (hphase speaker live)
      next => exact absurd hstep (by simp)
  | pauseEnds i heads resultThrows =>
    simp only [step] at hstep
    split at hstep
    next => exact absurd hstep (by simp)
    next run hrun =>
      split at hstep
      next =>
        refine h.resume (fun hid => ?_) hstep
        rw [hself hrun hid]
        exact ⟨haborted, hturns⟩
      next => exact absurd hstep (by simp)
  | closeTopic topicId =>
    simp only [step, Option.some.injEq] at hstep
    rw [← hstep]
    exact h.closeTopic topicId

theorem silenced_run {id : Nat} {turns : List String} {es : List Event}
    (h : Silenced id turns b) (hrun : bus.exec b es = some b') : Silenced id turns b' :=
  Lts.exec_invariant (M := bus) (I := Silenced id turns) (C := fun _ _ => True)
    (fun _ _ _ hI _ hstep => silenced_step hI hstep) es h hrun (Lts.along_true es b)

/-! ## `closeTopic` -/

/-- A run of the topic plays a reply back. -/
def PlaysOn (b : Bus) (topicId : String) : Prop :=
  ∃ id run speaker live, b.runs.get? id = some run ∧ run.topicId = topicId ∧
    run.phase = .playing speaker live

/-- What `closeTopic(topicId)` does to the runs. -/
structure CloseTopicStops (b : Bus) (topicId : String) : Prop where
  /-- Every run of the topic that is in flight has its signal set. -/
  aborted : ∀ id run, (b.closeTopic topicId).runs.get? id = some run → run.InFlight →
    run.topicId = topicId → run.aborted = true
  /-- Whatever happens afterwards, none of them completes a further turn. -/
  silenced : ∀ id run, (b.closeTopic topicId).runs.get? id = some run → run.InFlight →
    run.topicId = topicId → ∀ es b', bus.exec (b.closeTopic topicId) es = some b' →
      ∃ run', b'.runs.get? id = some run' ∧ run'.loop.turns = run.loop.turns
  /-- The runs on other topics are untouched. -/
  others : ∀ id run, b.runs.get? id = some run → run.topicId ≠ topicId →
    (b.closeTopic topicId).runs.get? id = some run

theorem closeTopic_stops (h : Abortable b) {topicId : String} (hquiet : ¬PlaysOn b topicId) :
    CloseTopicStops b topicId := by
  have haborted : ∀ id run, (b.closeTopic topicId).runs.get? id = some run → run.InFlight →
      run.topicId = topicId → run.aborted = true := by
    intro id run hrun hflight htopic
    obtain ⟨was, hwas, hsame, _, hphase, _, hlive⟩ := run_before_close hrun
    by_contra hnot
    obtain ⟨hlive, hslot⟩ := hlive (by simpa using hnot)
    rw [Run.InFlight, hphase] at hflight
    have hreached := h.slot id was hwas hflight hlive
    rw [← hsame, htopic] at hreached
    exact hslot hreached
  refine ⟨haborted, ?_, ?_⟩
  · intro id run hrun hflight htopic es b' hexec
    obtain ⟨was, hwas, hsame, _, hphase, _⟩ := run_before_close hrun
    have hsilenced : Silenced id run.loop.turns (b.closeTopic topicId) := by
      refine ⟨run, hrun, haborted id run hrun hflight htopic, ?_, rfl⟩
      intro speaker live hplaying
      exact hquiet ⟨id, was, speaker, live, hwas, by rw [← hsame, htopic],
        by rw [← hphase, hplaying]⟩
    obtain ⟨run', hrun', _, _, hturns⟩ := silenced_run hsilenced hexec
    exact ⟨run', hrun', hturns⟩
  · intro id run hrun hother
    rcases runs_closeTopic b topicId id with ⟨hslot, _⟩ | ⟨_, hget⟩
    · obtain ⟨owner, howner, htopic⟩ := h.owned topicId id hslot
      rw [hrun, Option.some.injEq] at howner
      exact absurd (howner ▸ htopic) hother
    · rw [hget]
      exact hrun

/-- In every interleaving in which no run starts on a topic with another one in
flight: every run in flight is aborted or in its topic's slot, whatever has
ended before; and a close of a topic on which nothing is being played back
stops the topic's runs and no other. -/
theorem close_topic_stops_runs (es : List Event) (b : Bus)
    (hrun : bus.exec bus.init es = some b) (hno : bus.Along NoOverlap bus.init es) :
    (∀ id run, b.runs.get? id = some run → run.InFlight → run.aborted = false →
      Slot b run.topicId id) ∧
    ∀ topicId, ¬PlaysOn b topicId → CloseTopicStops b topicId :=
  have h := abortable_run hrun hno
  ⟨h.slot, fun _ hquiet => closeTopic_stops h hquiet⟩

/-- The chair of a speaker that takes dispatches. -/
def dispatchReady : HeadInput where
  claim := some ⟨"a", "s1", "Codex", [], .ofInt 3, 0, 0, .online, none, none,
    some "http://localhost:9999/inbox"⟩
  dispatchGate := true
  requireLiveChairs := false
  historyThrows := false
  postThrows := false

/-- A topic is opened and one run on it waits for a chair. -/
def oneWaits : List Event :=
  [.createTopic "t" "Hall" ["a", "b"], .convene 0 "t" false [dispatchReady] false]

theorem oneWaits_stopped : ∃ b, bus.exec bus.init oneWaits = some b ∧
    (∀ id run, b.runs.get? id = some run → run.InFlight → run.aborted = false →
      Slot b run.topicId id) ∧
    ∀ topicId, ¬PlaysOn b topicId → CloseTopicStops b topicId :=
  ⟨_, rfl, close_topic_stops_runs oneWaits _ rfl
    ⟨trivial, (fun _ _ h => absurd h (by simp [bus])), trivial⟩⟩

/-- A second run starts on the topic while the first one waits. -/
def twoWait : List Event := oneWaits ++ [.convene 1 "t" false [dispatchReady] false]

/-- A close reaches the second run only: the first one goes on. -/
theorem first_of_two_goes_on :
    ¬∀ (es : List Event) (b : Bus) (topicId : String), bus.exec bus.init es = some b →
      CloseTopicStops b topicId := by
  intro h
  have hend : (bus.exec bus.init twoWait).any (fun b =>
      ((b.closeTopic "t").runs.get? 0).any fun run =>
        decide (run.phase ≠ .finished) && decide (run.topicId = "t") && !run.aborted) = true := by
    decide +kernel
  obtain ⟨b, hb, hend⟩ := Option.any_eq_true _ _ |>.mp hend
  obtain ⟨run, hrun, hrest⟩ := Option.any_eq_true _ _ |>.mp hend
  simp only [Bool.and_eq_true, decide_eq_true_eq, Bool.not_eq_true'] at hrest
  have haborted := (h twoWait b "t" hb).aborted 0 run hrun hrest.1.1 hrest.1.2
  rw [hrest.2] at haborted
  exact absurd haborted (by simp)

end Kovael.Conversation
