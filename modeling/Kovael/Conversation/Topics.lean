import Kovael.Conversation.Convene
import Kovael.Js.OrderedMap

/-!
# Runs of `convene` and the topics they run on

`src/services/ConversationBus.ts`: `convene` and `closeTopic`, from one `await`
to the next, for any number of runs. A topic has one slot for an abort
controller. A run fills it when it starts and empties it, with the topic, when
it ends; `closeTopic` aborts the controller that is in the slot.

Mirroring notes vs the TS:
- A run awaits a chair (`dispatching`), a reply that is played back word by
  word (`playing`; the local fallback plays from the start), or the pause
  between two turns (`resting`). What it runs between two awaits is one event,
  whose inputs are those of the iterations it goes through.
- A dispatch that has no reply yet fails when its signal is aborted. A playback
  stops early and the turn is completed with the words played so far, so no
  playback fails.
- A controller is the number of its run. `resultThrows` is a database that
  refuses the result of the run, which then rejects and leaves its topic open.
- `crypto.randomUUID()` is fresh: a topic id in use is not drawn again.
-/

namespace Kovael.Conversation

open Js (OrderedMap)

/-! ## Topics and runs -/

structure ActiveTopic where
  title : String
  participants : List String
  abortController : Option Nat

inductive Phase where
  | dispatching (speaker : String)
  | playing (speaker : String) (live : Bool)
  | resting
  | finished
  deriving DecidableEq, Repr

/-- A call of `convene`; `aborted` is its controller's signal. -/
structure Run where
  topicId : String
  participants : List String
  aborted : Bool
  loop : LoopState
  phase : Phase

def Run.InFlight (run : Run) : Prop := run.phase ≠ .finished

structure Bus where
  activeTopics : OrderedMap String ActiveTopic
  runs : OrderedMap Nat Run

namespace Bus

/-- `closeTopic(topicId)`. -/
def closeTopic (b : Bus) (topicId : String) : Bus :=
  match b.activeTopics.get? topicId with
  | none => b
  | some active =>
    { activeTopics := b.activeTopics.delete topicId
      runs := match active.abortController with
        | none => b.runs
        | some controller => b.runs.modify controller fun run => { run with aborted := true } }

/-- A run where it is now. -/
def setRun (b : Bus) (id : Nat) (run : Run) : Bus := { b with runs := b.runs.set id run }

/-- `active.abortController = controller`, on the topic that is filed. -/
def takeSlot (b : Bus) (topicId : String) (active : ActiveTopic) (id : Nat) : Bus :=
  { b with
    activeTopics := b.activeTopics.set topicId { active with abortController := some id } }

end Bus

/-! ## Between two awaits -/

/-- The iterations that need no `await`, up to one that does or to the end. -/
def drive (aborted : Bool) : List HeadInput → LoopState → Option (LoopState × Phase)
  | [], s => if goesOn aborted s then none else some (s, .finished)
  | i :: is, s =>
    match head aborted i s with
    | .finished => some (s, .finished)
    | .threw s => some (s, .finished)
    | .next s => drive aborted is s
    | .awaiting speaker true s => some (s, .dispatching speaker)
    | .awaiting speaker false s => some (s, .playing speaker false)

/-- The end of `convene`: unless it rejects, it closes its topic. -/
def finish (b : Bus) (run : Run) (s : LoopState) (resultThrows : Bool) : Bus :=
  if s.ended = some .threw ∨ resultThrows = true then b else b.closeTopic run.topicId

/-- A run goes on in the loop, and then either awaits or ends. -/
def resume (b : Bus) (id : Nat) (run : Run) (heads : List HeadInput) (resultThrows : Bool)
    (s : LoopState) : Option Bus :=
  match drive run.aborted heads s with
  | none => none
  | some (s, .finished) =>
    some (finish (b.setRun id { run with loop := s, phase := .finished }) run s resultThrows)
  | some (s, phase) => some (b.setRun id { run with loop := s, phase := phase })

/-- The provider's stream has ended. -/
def settle (b : Bus) (id : Nat) (run : Run) (speaker : String) (live : Bool) (t : TurnInput)
    (resultThrows : Bool) : Option Bus :=
  let s := streamEnded run.participants speaker live run.aborted t run.loop
  if s.ended.isSome then resume b id run [] resultThrows s
  else some (b.setRun id { run with loop := s, phase := .resting })

inductive Event where
  | createTopic (topicId title : String) (participants : List String)
  | convene (id : Nat) (topicId : String) (goalThrows : Bool) (heads : List HeadInput)
      (resultThrows : Bool)
  /-- The chair's reply is there. -/
  | replySettles (id : Nat)
  | streamEnds (id : Nat) (t : TurnInput) (resultThrows : Bool)
  /-- The pause is over, or the signal has ended it. -/
  | pauseEnds (id : Nat) (heads : List HeadInput) (resultThrows : Bool)
  | closeTopic (topicId : String)

/-- `convene(topicId, goal)` up to its first `await`. -/
def convene (b : Bus) (id : Nat) (topicId : String) (goalThrows : Bool) (heads : List HeadInput)
    (resultThrows : Bool) : Option Bus :=
  match b.activeTopics.get? topicId, b.runs.get? id with
  | _, some _ => none
  | none, none => some b
  | some active, none =>
    let taken := b.takeSlot topicId active id
    let run : Run :=
      { topicId := topicId
        participants := active.participants
        aborted := false
        loop := .start active.participants
        phase := .finished }
    if active.participants = [] ∨ goalThrows = true then some (taken.setRun id run)
    else resume taken id run heads resultThrows run.loop

/-- What runs between two awaits; `none` if the event cannot come now. -/
def step (b : Bus) : Event → Option Bus
  | .createTopic topicId title participants =>
    match b.activeTopics.get? topicId with
    | some _ => none
    | none =>
      some { b with activeTopics := b.activeTopics.set topicId ⟨title, participants, none⟩ }
  | .convene id topicId goalThrows heads resultThrows =>
    convene b id topicId goalThrows heads resultThrows
  | .replySettles id =>
    match b.runs.get? id with
    | none => none
    | some run =>
      match run.phase, run.aborted with
      | .dispatching speaker, false =>
        some (b.setRun id { run with phase := .playing speaker true })
      | _, _ => none
  | .streamEnds id t resultThrows =>
    match b.runs.get? id with
    | none => none
    | some run =>
      match run.phase, t.stream with
      | .dispatching speaker, .error _ => settle b id run speaker true t resultThrows
      | .playing speaker live, .ok _ => settle b id run speaker live t resultThrows
      | _, _ => none
  | .pauseEnds id heads resultThrows =>
    match b.runs.get? id with
    | none => none
    | some run =>
      match run.phase with
      | .resting => resume b id run heads resultThrows run.loop
      | _ => none
  | .closeTopic topicId => some (b.closeTopic topicId)

/-- The bus with every run on it. -/
def bus : Lts Bus Event where
  init := ⟨.empty, .empty⟩
  step := step

/-! ## What a step changes -/

/-- A run is where an event of its own may put it: on the same topic, with the
same signal. -/
def SameRun (run run' : Run) : Prop :=
  run'.topicId = run.topicId ∧ run'.aborted = run.aborted

/-- No run on the topic is in flight. -/
def NoneInFlight (b : Bus) (topicId : String) : Prop :=
  ∀ id run, b.runs.get? id = some run → run.InFlight → run.topicId ≠ topicId

/-- No run starts on a topic that has another one in flight. -/
def NoOverlap (b : Bus) : Event → Prop
  | .convene _ topicId .. => NoneInFlight b topicId
  | _ => True

/-- A step without overlap is a new topic, a close, a start, or one run that
goes on, which may close its topic when it ends. -/
inductive Moved (b : Bus) : Bus → Prop where
  | rejected : Moved b b
  | created (topicId title : String) (participants : List String)
      (fresh : b.activeTopics.get? topicId = none) :
    Moved b { b with activeTopics := b.activeTopics.set topicId ⟨title, participants, none⟩ }
  | closed (topicId : String) : Moved b (b.closeTopic topicId)
  | started (id : Nat) (active : ActiveTopic) (run : Run) (fresh : b.runs.get? id = none)
      (alone : NoneInFlight b run.topicId) :
    Moved b ((b.takeSlot run.topicId active id).setRun id run)
  | startedAndEnded (id : Nat) (active : ActiveTopic) (run : Run)
      (fresh : b.runs.get? id = none) (alone : NoneInFlight b run.topicId)
      (done : run.phase = .finished) :
    Moved b (((b.takeSlot run.topicId active id).setRun id run).closeTopic run.topicId)
  | went (id : Nat) (run run' : Run) (held : b.runs.get? id = some run)
      (going : run.InFlight) (same : SameRun run run') :
    Moved b (b.setRun id run')
  | ended (id : Nat) (run run' : Run) (held : b.runs.get? id = some run)
      (going : run.InFlight) (same : SameRun run run') (done : run'.phase = .finished) :
    Moved b ((b.setRun id run').closeTopic run'.topicId)

/-- How a run goes on: it is put somewhere on its topic, and closes the topic
only if it has ended. -/
theorem resume_cases {b b' : Bus} {id : Nat} {run : Run} {heads : List HeadInput}
    {resultThrows : Bool} {s : LoopState} (h : resume b id run heads resultThrows s = some b') :
    ∃ run', SameRun run run' ∧
      (b' = b.setRun id run' ∨
        run'.phase = .finished ∧ b' = (b.setRun id run').closeTopic run'.topicId) := by
  unfold resume at h
  split at h
  next => exact absurd h (by simp)
  next s' _ =>
    rw [Option.some.injEq] at h
    refine ⟨{ run with loop := s', phase := .finished }, ⟨rfl, rfl⟩, ?_⟩
    unfold finish at h
    split at h
    next => exact .inl h.symm
    next => exact .inr ⟨rfl, h.symm⟩
  next s' phase _ _ =>
    rw [Option.some.injEq] at h
    exact ⟨{ run with loop := s', phase := phase }, ⟨rfl, rfl⟩, .inl h.symm⟩

theorem moved_of_resume {b b' : Bus} {id : Nat} {run : Run} {heads : List HeadInput}
    {resultThrows : Bool} {s : LoopState} (held : b.runs.get? id = some run)
    (going : run.InFlight) (h : resume b id run heads resultThrows s = some b') : Moved b b' := by
  obtain ⟨run', hsame, rfl | ⟨hdone, rfl⟩⟩ := resume_cases h
  · exact .went id run run' held going hsame
  · exact .ended id run run' held going hsame hdone

theorem moved_of_settle {b b' : Bus} {id : Nat} {run : Run} {speaker : String} {live : Bool}
    {t : TurnInput} {resultThrows : Bool} (held : b.runs.get? id = some run)
    (going : run.InFlight) (h : settle b id run speaker live t resultThrows = some b') :
    Moved b b' := by
  unfold settle at h
  dsimp only at h
  split at h
  next => exact moved_of_resume held going h
  next =>
    rw [Option.some.injEq] at h
    rw [← h]
    exact .went id run _ held going ⟨rfl, rfl⟩

theorem moved_of_convene {b b' : Bus} {id : Nat} {topicId : String} {goalThrows : Bool}
    {heads : List HeadInput} {resultThrows : Bool}
    (halone : NoneInFlight b topicId)
    (h : convene b id topicId goalThrows heads resultThrows = some b') : Moved b b' := by
  unfold convene at h
  split at h
  next => exact absurd h (by simp)
  next =>
    rw [Option.some.injEq] at h
    rw [← h]
    exact .rejected
  next active hactive hfresh =>
    dsimp only at h
    split at h
    next =>
      rw [Option.some.injEq] at h
      rw [← h]
      exact .started id active
        ⟨topicId, active.participants, false, .start active.participants, .finished⟩ hfresh halone
    next =>
      obtain ⟨run', ⟨htopic, _⟩, hb'⟩ := resume_cases h
      dsimp only at htopic
      rw [← htopic] at halone hb'
      rcases hb' with rfl | ⟨hdone, rfl⟩
      · exact .started id active run' hfresh halone
      · exact .startedAndEnded id active run' hfresh halone hdone

/-- What a step of the bus can be. -/
theorem moved_of_step {b b' : Bus} {e : Event} (hno : NoOverlap b e) (h : step b e = some b') :
    Moved b b' := by
  cases e with
  | createTopic topicId title participants =>
    simp only [step] at h
    split at h
    next => exact absurd h (by simp)
    next hfresh =>
      rw [Option.some.injEq] at h
      rw [← h]
      exact .created topicId title participants hfresh
  | convene id topicId goalThrows heads resultThrows => exact moved_of_convene hno h
  | replySettles id =>
    simp only [step] at h
    split at h
    next => exact absurd h (by simp)
    next run hrun =>
      split at h
      next speaker hphase _ =>
        rw [Option.some.injEq] at h
        rw [← h]
        refine .went id run _ hrun ?_ ⟨rfl, rfl⟩
        rw [Run.InFlight, hphase]
        exact fun h => nomatch h
      next => exact absurd h (by simp)
  | streamEnds id t resultThrows =>
    simp only [step] at h
    split at h
    next => exact absurd h (by simp)
    next run hrun =>
      split at h
      next speaker _ hphase _ =>
        refine moved_of_settle hrun ?_ h
        rw [Run.InFlight, hphase]
        exact fun h => nomatch h
      next speaker live _ hphase _ =>
        refine moved_of_settle hrun ?_ h
        rw [Run.InFlight, hphase]
        exact fun h => nomatch h
      next => exact absurd h (by simp)
  | pauseEnds id heads resultThrows =>
    simp only [step] at h
    split at h
    next => exact absurd h (by simp)
    next run hrun =>
      split at h
      next hphase =>
        refine moved_of_resume hrun ?_ h
        rw [Run.InFlight, hphase]
        exact fun h => nomatch h
      next => exact absurd h (by simp)
  | closeTopic topicId =>
    simp only [step, Option.some.injEq] at h
    rw [← h]
    exact .closed topicId

end Kovael.Conversation
