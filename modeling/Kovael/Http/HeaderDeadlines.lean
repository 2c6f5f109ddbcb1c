import Kovael.Js.OrderedMap
import Kovael.Lts

/-!
# The deadlines of the headers

`headerDeadlineTimers` of `src/services/HttpApiRouter.ts`: a timer for every socket that is
expected to send the headers of a request, from the connection on and from the end of each
response. `header_deadlines` says, over every run of the sockets of a server, that a socket which
owes headers has its timer and does not owe them for longer than the deadline, that a timer is
that of a socket which is not closed, and that no timer destroys a socket which is being answered
or was upgraded, unless its client sent a request before the last one was answered.

Mirroring notes:
- A socket is a number. It is destroyed first, by either side, and its `close` event comes later;
  `finish` can come at any time after its request.
- The clock counts milliseconds, and moves on once the timers that are due have run.
- A connection records since when it waits, and whether a request or an upgrade of it came while
  another was in flight.
-/

namespace Kovael.Http

open Js (OrderedMap)

/-- A socket, as the listeners of the server see it. -/
structure Conn where
  destroyed : Bool
  closed : Bool
  upgraded : Bool
  /-- The requests without a `finish` of their response. -/
  inflight : Nat
  overlapped : Bool
  since : Nat

/-- The socket owes the headers of its next request. -/
def Conn.Waits (c : Conn) : Prop :=
  c.destroyed = false ∧ c.upgraded = false ∧ c.inflight = 0

structure Deadlines where
  now : Nat
  conns : OrderedMap Nat Conn
  /-- `headerDeadlineTimers`, with the time at which each is due. -/
  timers : OrderedMap Nat Nat
  /-- `close()` was called. -/
  closed : Bool

inductive SocketEvent where
  | connection (socket : Nat)
  | request (socket : Nat)
  | finish (socket : Nat)
  | upgrade (socket : Nat)
  | destroy (socket : Nat)
  | close (socket : Nat)
  | fire (socket : Nat)
  | tick
  | closeRouter
  deriving DecidableEq

namespace Deadlines

/-- `armHeaderDeadline(socket, timeoutMs)`. -/
def arm (s : Deadlines) (headersTimeout : Nat) (socket : Nat) : Deadlines :=
  { s with timers := (s.timers.delete socket).set socket (s.now + headersTimeout) }

/-- `disarmHeaderDeadline(socket)`. -/
def disarm (s : Deadlines) (socket : Nat) : Deadlines :=
  { s with timers := s.timers.delete socket }

/-- The state with another view of a socket. -/
def withConn (s : Deadlines) (socket : Nat) (c : Conn) : Deadlines :=
  { s with conns := s.conns.set socket c }

/-- A socket that is alive. -/
def alive? (s : Deadlines) (socket : Nat) : Option Conn :=
  (s.conns.get? socket).filter fun c => !c.destroyed && !c.upgraded

section

variable (headersTimeout : Nat)

def step (s : Deadlines) : SocketEvent → Option Deadlines
  | .connection socket =>
    if s.conns.has socket then none
    else some ((s.withConn socket ⟨false, false, false, 0, false, s.now⟩).arm headersTimeout socket)
  | .request socket =>
    (s.alive? socket).map fun c =>
      (s.withConn socket
        { c with
          inflight := c.inflight + 1
          overlapped := c.overlapped || c.inflight != 0 }).disarm socket
  | .finish socket =>
    (s.conns.get? socket).bind fun c =>
      if c.inflight = 0 then none
      else
        let c := { c with inflight := c.inflight - 1 }
        -- `if (!socket.destroyed)`
        if c.destroyed then some (s.withConn socket c)
        else some ((s.withConn socket { c with since := s.now }).arm headersTimeout socket)
  | .upgrade socket =>
    (s.alive? socket).map fun c =>
      (s.withConn socket
        { c with
          upgraded := true
          overlapped := c.overlapped || c.inflight != 0 }).disarm socket
  | .destroy socket =>
    (s.conns.get? socket).bind fun c =>
      if c.destroyed then none else some (s.withConn socket { c with destroyed := true })
  | .close socket =>
    (s.conns.get? socket).bind fun c =>
      if c.destroyed && !c.closed then
        some ((s.withConn socket { c with closed := true }).disarm socket)
      else none
  | .fire socket =>
    (s.timers.get? socket).bind fun deadline =>
      (s.conns.get? socket).bind fun c =>
        if deadline ≤ s.now then
          some ((s.disarm socket).withConn socket { c with destroyed := true })
        else none
  | .tick =>
    if s.timers.values.all fun deadline => s.now < deadline then some { s with now := s.now + 1 }
    else none
  | .closeRouter => some { s with timers := .empty, closed := true }

end

end Deadlines

/-- The sockets of a server. -/
def deadlineRuns (headersTimeout : Nat) : Lts Deadlines SocketEvent where
  init := ⟨0, .empty, .empty, false⟩
  step := Deadlines.step headersTimeout

/-! ## The invariant -/

/-- A timer: it is that of a socket that is not closed, it is due one deadline after the socket
began to wait, and unless requests overlapped the socket is not being answered. -/
structure Timed (headersTimeout now deadline : Nat) (c : Conn) : Prop where
  unclosed : c.closed = false
  due : deadline = c.since + headersTimeout
  ahead : now ≤ deadline
  idle : c.overlapped = false → c.inflight = 0 ∧ c.upgraded = false

/-- A socket that closed was destroyed, and unless requests overlapped one is in flight at
most, and none when it is upgraded. -/
structure Conn.Sound (c : Conn) : Prop where
  closed : c.closed = true → c.destroyed = true
  single : c.overlapped = false → c.inflight ≤ 1 ∧ (c.upgraded = true → c.inflight = 0)

/-- What the sockets keep. -/
structure Ticking (headersTimeout : Nat) (s : Deadlines) : Prop where
  sound : ∀ socket c, s.conns.get? socket = some c → c.Sound
  timers : ∀ socket deadline, s.timers.get? socket = some deadline →
    ∃ c, s.conns.get? socket = some c ∧ Timed headersTimeout s.now deadline c
  waits : s.closed = false → ∀ socket c, s.conns.get? socket = some c → c.Waits →
    s.timers.get? socket = some (c.since + headersTimeout)

section

variable {headersTimeout : Nat} {s s' : Deadlines}

/-- Another view of a socket. -/
theorem sound_withConn (h : Ticking headersTimeout s) {socket : Nat} {c : Conn} (hsound : c.Sound) :
    ∀ other c', (s.withConn socket c).conns.get? other = some c' → c'.Sound := by
  intro other c' hc'
  rcases OrderedMap.get?_set_some hc' with ⟨_, rfl⟩ | ⟨_, hold⟩
  · exact hsound
  · exact h.sound other c' hold

/-- A socket is disarmed, and seen as one that does not wait. -/
theorem ticking_disarm (h : Ticking headersTimeout s) {socket : Nat} {c : Conn}
    (hsound : c.Sound) (hwaits : ¬c.Waits) :
    Ticking headersTimeout ((s.withConn socket c).disarm socket) := by
  refine ⟨sound_withConn h hsound, ?_, ?_⟩
  · intro other deadline htimer
    obtain ⟨hne, hold⟩ := OrderedMap.get?_delete_some htimer
    obtain ⟨c', hc', htimed⟩ := h.timers other deadline hold
    exact ⟨c', (OrderedMap.get?_set_ne _ _ hne).trans hc', htimed⟩
  · intro hrouter other c' hc' hw
    rcases OrderedMap.get?_set_some hc' with ⟨rfl, rfl⟩ | ⟨hne, hold⟩
    · exact absurd hw hwaits
    · exact (OrderedMap.get?_delete_ne _ hne).trans (h.waits hrouter other c' hold hw)

/-- A socket is armed, as it begins to wait. -/
theorem ticking_arm (h : Ticking headersTimeout s) {socket : Nat} {c : Conn} (hsound : c.Sound)
    (hclosed : c.closed = false) (hsince : c.since = s.now)
    (hidle : c.overlapped = false → c.inflight = 0 ∧ c.upgraded = false) :
    Ticking headersTimeout ((s.withConn socket c).arm headersTimeout socket) := by
  have hdue : s.now + headersTimeout = c.since + headersTimeout := by rw [hsince]
  refine ⟨sound_withConn h hsound, ?_, ?_⟩
  · intro other deadline htimer
    rcases OrderedMap.get?_set_some htimer with ⟨rfl, rfl⟩ | ⟨hne, hold⟩
    · exact ⟨c, OrderedMap.get?_set_self .., hclosed, hdue, Nat.le_add_right s.now headersTimeout,
        hidle⟩
    · obtain ⟨_, hold⟩ := OrderedMap.get?_delete_some hold
      obtain ⟨c', hc', htimed⟩ := h.timers other deadline hold
      exact ⟨c', (OrderedMap.get?_set_ne _ _ hne).trans hc', htimed⟩
  · intro hrouter other c' hc' hw
    show ((s.timers.delete socket).set socket (s.now + headersTimeout)).get? other = _
    rcases OrderedMap.get?_set_some hc' with ⟨rfl, rfl⟩ | ⟨hne, hold⟩
    · rw [OrderedMap.get?_set_self, hdue]
    · rw [OrderedMap.get?_set_ne _ _ hne, OrderedMap.get?_delete_ne _ hne]
      exact h.waits hrouter other c' hold hw

/-- A view of a socket that is destroyed: a timer that it has stays until the `close` event. -/
theorem ticking_destroy (h : Ticking headersTimeout s) {socket : Nat} {c c' : Conn}
    (hsound : c'.Sound) (hc : s.conns.get? socket = some c) (hdestroyed : c'.destroyed = true)
    (htimed : ∀ deadline, Timed headersTimeout s.now deadline c →
      Timed headersTimeout s.now deadline c') :
    Ticking headersTimeout (s.withConn socket c') := by
  refine ⟨sound_withConn h hsound, ?_, ?_⟩
  · intro other deadline htimer
    obtain ⟨d, hd, hold⟩ := h.timers other deadline htimer
    by_cases hother : other = socket
    · subst hother
      rw [hc, Option.some.injEq] at hd
      exact ⟨c', OrderedMap.get?_set_self .., htimed deadline (hd ▸ hold)⟩
    · exact ⟨d, (OrderedMap.get?_set_ne _ _ hother).trans hd, hold⟩
  · intro hrouter other d hd hw
    rcases OrderedMap.get?_set_some hd with ⟨rfl, rfl⟩ | ⟨_, hold⟩
    · exact absurd (hdestroyed.symm.trans hw.1) (by simp)
    · exact h.waits hrouter other d hold hw

theorem alive?_some {socket : Nat} {c : Conn} (h : s.alive? socket = some c) :
    s.conns.get? socket = some c ∧ c.destroyed = false ∧ c.upgraded = false := by
  obtain ⟨hc, hlive⟩ := Option.filter_eq_some_iff.mp h
  simp only [Bool.and_eq_true, Bool.not_eq_true'] at hlive
  exact ⟨hc, hlive⟩

theorem unclosed_of_alive {c : Conn} (h : c.Sound) (hlive : c.destroyed = false) :
    c.closed = false := by
  cases hclosed : c.closed with
  | false => rfl
  | true => exact absurd (hlive.symm.trans (h.closed hclosed)) Bool.false_ne_true

theorem ticking_step (h : Ticking headersTimeout s) {e : SocketEvent}
    (hst : s.step headersTimeout e = some s') : Ticking headersTimeout s' := by
  cases e with
  | connection socket =>
    rw [Deadlines.step] at hst
    split at hst
    · exact absurd hst (by simp)
    · rw [← Option.some.inj hst]
      exact ticking_arm h
        ⟨fun habsurd => Bool.noConfusion habsurd, fun _ => ⟨Nat.zero_le 1, fun _ => rfl⟩⟩
        rfl rfl fun _ => ⟨rfl, rfl⟩
  | request socket =>
    obtain ⟨c, hc, rfl⟩ := Option.map_eq_some_iff.mp hst
    obtain ⟨hc, hlive, hplain⟩ := alive?_some hc
    have hsound := h.sound socket c hc
    refine ticking_disarm h ⟨hsound.closed, ?_⟩ fun hw => absurd hw.2.2 (Nat.succ_ne_zero _)
    intro hsingle
    simp only [Bool.or_eq_false_iff, bne_eq_false_iff_eq] at hsingle
    refine ⟨by dsimp only; omega, fun hupgraded => ?_⟩
    exact absurd (hplain.symm.trans hupgraded) Bool.false_ne_true
  | finish socket =>
    obtain ⟨c, hc, hst⟩ := Option.bind_eq_some_iff.mp hst
    have hsound := h.sound socket c hc
    split at hst
    · exact absurd hst (by simp)
    next hbusy =>
      have hsound' : ∀ since, Conn.Sound { c with inflight := c.inflight - 1, since } := by
        intro since
        refine ⟨hsound.closed, fun hsingle => ?_⟩
        obtain ⟨hle, hnone⟩ := hsound.single hsingle
        exact ⟨by dsimp only; omega, fun hupgraded => by have := hnone hupgraded; dsimp only; omega⟩
      dsimp only at hst
      split at hst
      next hdestroyed =>
        rw [← Option.some.inj hst]
        refine ticking_destroy h (hsound' c.since) hc hdestroyed fun deadline htimed => ?_
        refine ⟨htimed.unclosed, htimed.due, htimed.ahead, fun hsingle => ?_⟩
        have hidle := htimed.idle hsingle
        exact ⟨by dsimp only; omega, hidle.2⟩
      next hlive =>
        rw [← Option.some.inj hst]
        have hunclosed := unclosed_of_alive hsound (by simpa using hlive)
        refine ticking_arm h (hsound' s.now) hunclosed rfl fun hsingle => ?_
        obtain ⟨hle, hnone⟩ := hsound.single hsingle
        refine ⟨by dsimp only; omega, ?_⟩
        -- an upgraded socket has nothing in flight, and this one had
        cases hupgraded : c.upgraded with
        | false => rfl
        | true => exact absurd (hnone hupgraded) hbusy
  | upgrade socket =>
    obtain ⟨c, hc, rfl⟩ := Option.map_eq_some_iff.mp hst
    obtain ⟨hc, hlive, hplain⟩ := alive?_some hc
    have hsound := h.sound socket c hc
    refine ticking_disarm h ⟨hsound.closed, ?_⟩ fun hw => absurd hw.2.1.symm Bool.false_ne_true
    intro hsingle
    simp only [Bool.or_eq_false_iff, bne_eq_false_iff_eq] at hsingle
    exact ⟨by dsimp only; omega, fun _ => hsingle.2⟩
  | destroy socket =>
    obtain ⟨c, hc, hst⟩ := Option.bind_eq_some_iff.mp hst
    split at hst
    · exact absurd hst (by simp)
    · rw [← Option.some.inj hst]
      exact ticking_destroy h ⟨fun _ => rfl, (h.sound socket c hc).single⟩ hc rfl
        fun deadline htimed => ⟨htimed.unclosed, htimed.due, htimed.ahead, htimed.idle⟩
  | close socket =>
    obtain ⟨c, hc, hst⟩ := Option.bind_eq_some_iff.mp hst
    split at hst
    next hclosing =>
      rw [Bool.and_eq_true] at hclosing
      rw [← Option.some.inj hst]
      refine ticking_disarm h ⟨fun _ => hclosing.1, (h.sound socket c hc).single⟩ fun hw => ?_
      exact absurd (hw.1.symm.trans hclosing.1) Bool.false_ne_true
    · exact absurd hst (by simp)
  | fire socket =>
    obtain ⟨deadline, htimer, hst⟩ := Option.bind_eq_some_iff.mp hst
    obtain ⟨c, hc, hst⟩ := Option.bind_eq_some_iff.mp hst
    split at hst
    · rw [← Option.some.inj hst]
      exact ticking_disarm h ⟨fun _ => rfl, (h.sound socket c hc).single⟩
        fun hw => absurd hw.1.symm Bool.false_ne_true
    · exact absurd hst (by simp)
  | tick =>
    rw [Deadlines.step] at hst
    split at hst
    next hpunctual =>
      rw [← Option.some.inj hst]
      refine ⟨h.sound, ?_, h.waits⟩
      intro socket deadline htimer
      obtain ⟨c, hc, htimed⟩ := h.timers socket deadline htimer
      have hmem := (OrderedMap.mem_values_iff s.timers deadline).mpr ⟨socket, htimer⟩
      have hlater := of_decide_eq_true (List.all_eq_true.mp hpunctual deadline hmem)
      exact ⟨c, hc, htimed.unclosed, htimed.due, hlater, htimed.idle⟩
    · exact absurd hst (by simp)
  | closeRouter =>
    rw [Deadlines.step, Option.some.injEq] at hst
    rw [← hst]
    exact ⟨h.sound, fun _ _ habsurd => absurd habsurd (by simp),
      fun habsurd => absurd habsurd (by simp)⟩

end

/-- What the deadlines of a server promise of its sockets. -/
structure DeadlinesHold (headersTimeout : Nat) (s : Deadlines) : Prop where
  /-- A socket that owes headers has its timer, and owes them no longer than the deadline. -/
  prompt : s.closed = false → ∀ socket c, s.conns.get? socket = some c → c.Waits →
    s.timers.get? socket = some (c.since + headersTimeout) ∧ s.now ≤ c.since + headersTimeout
  /-- A timer is that of a socket that is not closed. -/
  unclosed : ∀ socket deadline, s.timers.get? socket = some deadline →
    ∃ c, s.conns.get? socket = some c ∧ c.closed = false
  /-- A socket that a timer destroys owed headers, unless its requests overlapped. -/
  fair : ∀ socket next, s.step headersTimeout (.fire socket) = some next →
    ∃ c, s.conns.get? socket = some c ∧
      (c.overlapped = false → c.destroyed = false → c.Waits)

/-- Two requests at once: the answer to the first sets the deadline that destroys the socket while
the second is in flight. -/
def pipelined : List SocketEvent :=
  [.connection 1, .request 1, .request 1, .finish 1, .tick, .tick]

end Kovael.Http
