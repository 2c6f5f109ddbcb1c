import Kovael.Chair.Delivery

/-!
# The retry loop of a dispatch

`postWithRetry` POSTs until an answer is ok, an answer will not get better, the caller
aborts or no attempt is left. What it does is a fold over what happens to it: its fetches
end, its backoffs end, the caller's signal aborts (`Turn`). `FollowsFold` says how it
ends, by these alone and without the loop; `post_follows` says that it ends so in the
system of all calls, whenever the abort comes and whatever maximum is configured.

`Stream.turn` is what a turn does to the variables of the call, and `Fits` ties them to
the turns so far; `fits_turn` is its step lemma.
-/

namespace Kovael.Chair

open Js (Number)

/-- What happens to a call that POSTs. -/
inductive Turn where
  /-- The `fetch` of an attempt ends; a network error and a timeout are throws. -/
  | fetched (outcome : FetchOutcome)
  | slept
  /-- The caller's signal aborts. -/
  | aborted
  deriving DecidableEq, Repr

/-- The event of the system. -/
def Turn.event (requestId : String) (now : Int) : Turn → Event
  | fetched outcome => .fetchDone now requestId outcome
  | slept => .backoffDone now requestId
  | aborted => .abort now requestId

/-- How the fetches ended, in their order. -/
def outcomes : List Turn → List FetchOutcome
  | [] => []
  | .fetched outcome :: turns => outcome :: outcomes turns
  | _ :: turns => outcomes turns

/-- A network error, a timeout or a retryable status. -/
def Transient : FetchOutcome → Prop
  | .threw _ => True
  | .response status => status ∈ retryableStatus

/-- A status that is neither ok nor retryable. -/
def Refused : FetchOutcome → Prop
  | .threw _ => False
  | .response status => responseOk status = false ∧ status ∉ retryableStatus

/-- The last fetch is the first whose status is ok, and every other could be retried. -/
def FirstOk (outs : List FetchOutcome) : Prop :=
  ∃ before status, outs = before ++ [.response status] ∧ responseOk status = true ∧
    ∀ o ∈ before, Transient o

/-- The last fetch is the first whose status is not retryable. -/
def FirstRefused (outs : List FetchOutcome) : Prop :=
  ∃ before o, outs = before ++ [o] ∧ Refused o ∧ ∀ o ∈ before, Transient o

/-- `postWithRetry` has returned or thrown. -/
def Phase.posted : Phase → Bool
  | .postReturned _ | .postThrew .. => true
  | _ => false

/-- The fetches that were issued: those that ended, and the one of the attempt. -/
def issued (outs : List FetchOutcome) (phase : Phase) : Nat :=
  outs.length + match phase with
    | .posting _ => 1
    | _ => 0

/-- The attempts that `postWithRetry` reports, in what it returns or throws. -/
def Phase.reported? : Phase → Option Nat
  | .postReturned attempts => some attempts
  | .postThrew _ details => some details.dispatchAttempts
  | _ => none

/-- How `postWithRetry` ends; `early`: the signal had aborted before it was called. -/
structure FollowsFold (maxAttempts : Number) (early : Bool) (turns : List Turn) (phase : Phase) :
    Prop where
  /-- It succeeds with `k` attempts exactly if attempt `k` is the first with an ok status and
  all earlier ones could be retried. -/
  returned_iff : ∀ k, phase = .postReturned k ↔
    (outcomes turns).length = k ∧ FirstOk (outcomes turns)
  /-- It fails at the first status that is not retryable, without further fetches. -/
  refused : ∀ before o rest, outcomes turns = before ++ o :: rest → Refused o →
    rest = [] ∧ ∃ message details, phase = .postThrew message details
  /-- After an abort it fails, unless the fetch it was waiting for is answered ok. -/
  aborted : early = true ∨ .aborted ∈ turns → phase.posted = true → ¬ FirstOk (outcomes turns) →
    ∃ message details, phase = .postThrew message details
  /-- Otherwise it fails after as many fetches as are allowed. -/
  exhausted : phase.posted = true → ¬ FirstOk (outcomes turns) →
    (∀ o ∈ outcomes turns, ¬ Refused o) → early = false → .aborted ∉ turns →
      (∃ message details, phase = .postThrew message details) ∧
        (Number.ofNat (issued (outcomes turns) phase)).lt maxAttempts = false ∧
        ∀ n, maxAttempts = .ofNat n → issued (outcomes turns) phase = n
  /-- The attempts it reports are the fetches it issued. -/
  reported : ∀ k, phase.reported? = some k → k = issued (outcomes turns) phase
  /-- No more fetches are issued than are allowed. -/
  within : ∀ i < issued (outcomes turns) phase, (Number.ofNat i).lt maxAttempts = true
  /-- There is no end to it only while there are attempts. -/
  ends : ∀ n, maxAttempts = .ofNat n → (turns.filter fun t => t ≠ .aborted).length ≤ 2 * n

/-! ## The variables of the call -/

/-- `enterAttempt`, on the variables of the call. -/
def Stream.enter (now : Int) (attempt : Nat) (s : Stream) : Stream :=
  if (Number.ofNat attempt).lt s.policy.maxAttempts then
    if s.aborted then s.failPost now attempt "chair bridge dispatch: aborted by caller"
    else { s with attemptStartedAt := now, phase := .posting attempt }
  else s.failPost now attempt s.lastErr

/-- `afterAttempt`, on the variables of the call. -/
def Stream.after (now : Int) (attempt : Nat) (s : Stream) : Stream :=
  if (Number.ofNat attempt).lt (s.policy.maxAttempts.add (Number.ofInt (-1))) then
    { s with phase := .backoff attempt }
  else s.enter now (attempt + 1)

/-- `fetchDone`, on the variables of the call. -/
def Stream.fetched (now : Int) (outcome : FetchOutcome) (attempt : Nat) (s : Stream) : Stream :=
  match outcome with
  | .threw message =>
    if s.aborted then s.failPost now (attempt + 1) message
    else { s with lastErr := message }.after now attempt
  | .response status =>
    if responseOk status then { s with phase := .postReturned (attempt + 1) }
    else if status ∉ retryableStatus then
      s.failPost now (attempt + 1) ("upstream returned non-retryable " ++ toString status)
    else { s with lastErr := "upstream returned retryable " ++ toString status }.after now attempt

/-- What a turn does to the variables of a call that POSTs. -/
def Stream.turn (s : Stream) (now : Int) : Turn → Option Stream
  | .fetched outcome =>
    match s.phase with
    | .posting attempt => some (s.fetched now outcome attempt)
    | _ => none
  | .slept =>
    match s.phase with
    | .backoff attempt => some (s.enter now (attempt + 1))
    | _ => none
  | .aborted => if s.aborted then none else some { s with aborted := true }

theorem get_enterAttempt (now : Int) (attempt : Nat) (s : Stream) (b : Bridge) :
    (enterAttempt now attempt s b).streams.get? s.requestId = some (s.enter now attempt) := by
  unfold enterAttempt Stream.enter
  split
  next =>
    split
    next =>
      rw [get_put]
      exact if_pos rfl
    next =>
      rw [get_put]
      exact if_pos rfl
  next =>
    rw [get_put]
    exact if_pos rfl

theorem get_afterAttempt (now : Int) (attempt : Nat) (s : Stream) (b : Bridge) :
    (afterAttempt now attempt s b).streams.get? s.requestId = some (s.after now attempt) := by
  unfold afterAttempt Stream.after
  split
  next =>
    rw [get_put]
    exact if_pos rfl
  next => exact get_enterAttempt now (attempt + 1) s b

theorem get_fetchDone (now : Int) (outcome : FetchOutcome) (attempt : Nat) (s : Stream)
    (b : Bridge) :
    (fetchDone now outcome attempt s b).streams.get? s.requestId =
      some (s.fetched now outcome attempt) := by
  cases outcome with
  | threw message =>
    rw [fetchDone, Stream.fetched]
    split
    next =>
      rw [get_put]
      exact if_pos rfl
    next => exact get_afterAttempt now attempt { s with lastErr := message } _
  | response status =>
    rw [fetchDone, Stream.fetched]
    split
    next =>
      rw [get_put]
      exact if_pos rfl
    next =>
      split
      next =>
        rw [get_put]
        exact if_pos rfl
      next =>
        exact get_afterAttempt now attempt
          { s with lastErr := "upstream returned retryable " ++ toString status } _

/-- A call whose id and listener are as when it entered `postWithRetry`. -/
def Stream.Entered (id : String) (s : Stream) : Prop := s.requestId = id ∧ s.abortListener = false

theorem entered_enter {id : String} {s : Stream} (h : s.Entered id) (now : Int) (attempt : Nat) :
    (s.enter now attempt).Entered id := by
  unfold Stream.enter
  split
  next =>
    split
    next => exact h
    next => exact h
  next => exact h

theorem entered_after {id : String} {s : Stream} (h : s.Entered id) (now : Int) (attempt : Nat) :
    (s.after now attempt).Entered id := by
  unfold Stream.after
  split
  next => exact h
  next => exact entered_enter h now (attempt + 1)

theorem entered_turn {id : String} {s s' : Stream} (h : s.Entered id) {now : Int} {turn : Turn}
    (hturn : s.turn now turn = some s') : s'.Entered id := by
  cases turn with
  | fetched outcome =>
    rw [Stream.turn] at hturn
    split at hturn
    next attempt _ =>
      obtain rfl := Option.some.inj hturn
      cases outcome with
      | threw message =>
        rw [Stream.fetched]
        split
        next => exact h
        next => exact entered_after (s := { s with lastErr := message }) h now attempt
      | response status =>
        rw [Stream.fetched]
        split
        next => exact h
        next =>
          split
          next => exact h
          next =>
            exact entered_after (s := { s with
              lastErr := "upstream returned retryable " ++ toString status }) h now attempt
    next => cases hturn
  | slept =>
    rw [Stream.turn] at hturn
    split at hturn
    next attempt _ =>
      obtain rfl := Option.some.inj hturn
      exact entered_enter h now (attempt + 1)
    next => cases hturn
  | aborted =>
    rw [Stream.turn] at hturn
    split at hturn
    next => cases hturn
    next =>
      obtain rfl := Option.some.inj hturn
      exact h

/-- The step of the system does to the call what its turn does. -/
theorem step_turn (env : Env) {b : Bridge} {id : String} {s : Stream}
    (hs : b.streams.get? id = some s) (h : s.Entered id) (now : Int) (turn : Turn) :
    (step env b (turn.event id now)).map (fun b' => b'.streams.get? id)
      = (s.turn now turn).map some := by
  obtain ⟨rfl, hlistener⟩ := h
  cases turn with
  | fetched outcome =>
    rw [Turn.event, step, Bridge.onStream, hs, Option.bind_some, Stream.turn]
    cases s.phase with
    | posting attempt => exact congrArg some (get_fetchDone ..)
    | _ => rfl
  | slept =>
    rw [Turn.event, step, Bridge.onStream, hs, Option.bind_some, Stream.turn]
    cases s.phase with
    | backoff attempt => exact congrArg some (get_enterAttempt ..)
    | _ => rfl
  | aborted =>
    rw [Turn.event, step, Bridge.onStream, hs, Option.bind_some, Stream.turn]
    cases haborted : s.aborted with
    | true => rfl
    | false =>
      have hsignal : abortSignal now s b = b.put { s with aborted := true } := by
        rw [abortSignal, hlistener]
        rfl
      rw [if_neg Bool.false_ne_true, if_neg Bool.false_ne_true, hsignal]
      exact congrArg some ((get_put b { s with aborted := true } s.requestId).trans (if_pos rfl))

/-! ## The turns so far -/

/-- The phase of a call whose fetches ended so. -/
def PhaseFits (maxAttempts : Number) (aborted : Bool) (outs : List FetchOutcome) : Phase → Prop
  | .posting attempt =>
    outs.length = attempt ∧ (∀ o ∈ outs, Transient o) ∧
      (Number.ofNat attempt).lt maxAttempts = true
  | .backoff attempt => outs.length = attempt + 1 ∧ ∀ o ∈ outs, Transient o
  | .postReturned attempts => outs.length = attempts ∧ FirstOk outs
  | .postThrew _ details =>
    details.dispatchAttempts = outs.length ∧
      (FirstRefused outs ∨ (∀ o ∈ outs, Transient o) ∧
        (aborted = true ∨ (Number.ofNat outs.length).lt maxAttempts = false))
  | _ => False

/-- The turns of a call other than aborts: every fetch but the first comes after a backoff. -/
def TurnsFit (turns : Nat) (outs : Nat) : Phase → Prop
  | .backoff _ => turns + 1 ≤ 2 * outs
  | _ => turns ≤ 2 * outs

/-- The variables of the call after these turns. -/
structure Fits (maxAttempts : Number) (early : Bool) (turns : List Turn) (s : Stream) : Prop where
  policy : s.policy.maxAttempts = maxAttempts
  aborted : s.aborted = true ↔ early = true ∨ .aborted ∈ turns
  phase : PhaseFits maxAttempts s.aborted (outcomes turns) s.phase
  within : ∀ i < (outcomes turns).length, (Number.ofNat i).lt maxAttempts = true
  turns : TurnsFit (turns.filter fun t => t ≠ .aborted).length (outcomes turns).length s.phase

theorem outcomes_append (turns turns' : List Turn) :
    outcomes (turns ++ turns') = outcomes turns ++ outcomes turns' := by
  induction turns with
  | nil => rfl
  | cons t turns ih =>
    cases t with
    | fetched outcome => exact congrArg (outcome :: ·) ih
    | slept => exact ih
    | aborted => exact ih

theorem lt_ofNat (i n : Nat) : (Number.ofNat i).lt (.ofNat n) = decide (i < n) := by
  show decide ((i : ℚ) < (n : ℚ)) = decide (i < n)
  rw [decide_eq_decide]
  exact Nat.cast_lt

/-- At the head of the loop, after the fetches have ended in these ways. -/
theorem phaseFits_enter {s : Stream} {outs : List FetchOutcome} (hall : ∀ o ∈ outs, Transient o)
    (now : Int) :
    PhaseFits s.policy.maxAttempts s.aborted outs (s.enter now outs.length).phase ∧
      ∀ attempt, (s.enter now outs.length).phase ≠ .backoff attempt := by
  unfold Stream.enter
  split
  next hlt =>
    split
    next haborted => exact ⟨⟨rfl, Or.inr ⟨hall, Or.inl haborted⟩⟩, fun attempt h => by cases h⟩
    next => exact ⟨⟨rfl, hall, hlt⟩, fun attempt h => by cases h⟩
  next hlt =>
    exact ⟨⟨rfl, Or.inr ⟨hall, Or.inr (Bool.not_eq_true _ |>.mp hlt)⟩⟩,
      fun attempt h => by cases h⟩

/-- After an attempt that could be retried. -/
theorem phaseFits_after {s : Stream} {outs : List FetchOutcome} {o : FetchOutcome}
    (hall : ∀ o' ∈ outs, Transient o') (ho : Transient o) (now : Int) :
    PhaseFits s.policy.maxAttempts s.aborted (outs ++ [o]) (s.after now outs.length).phase := by
  have hall' : ∀ o' ∈ outs ++ [o], Transient o' := by
    intro o' ho'
    rcases List.mem_append.mp ho' with ho' | ho'
    · exact hall o' ho'
    · rw [List.mem_singleton.mp ho']
      exact ho
  have hlength : (outs ++ [o]).length = outs.length + 1 := by
    rw [List.length_append, List.length_singleton]
  unfold Stream.after
  split
  next => exact ⟨hlength, hall'⟩
  next =>
    rw [← hlength]
    exact (phaseFits_enter hall' now).1

/-- After the fetch of an attempt. -/
theorem phaseFits_fetched {s : Stream} {outs : List FetchOutcome}
    (hall : ∀ o' ∈ outs, Transient o') (now : Int) (o : FetchOutcome) :
    PhaseFits s.policy.maxAttempts s.aborted (outs ++ [o]) (s.fetched now o outs.length).phase := by
  have hlength : (outs ++ [o]).length = outs.length + 1 := by
    rw [List.length_append, List.length_singleton]
  cases o with
  | threw message =>
    rw [Stream.fetched]
    split
    next haborted =>
      refine ⟨hlength.symm, Or.inr ⟨?_, Or.inl haborted⟩⟩
      intro o' ho'
      rcases List.mem_append.mp ho' with ho' | ho'
      · exact hall o' ho'
      · rw [List.mem_singleton.mp ho']
        trivial
    next =>
      exact phaseFits_after (s := { s with lastErr := message }) hall
        (show Transient (.threw message) from trivial) now
  | response status =>
    rw [Stream.fetched]
    split
    next hok => exact ⟨hlength, outs, status, rfl, hok, hall⟩
    next hok =>
      split
      next hstatus =>
        exact ⟨hlength.symm,
          Or.inl ⟨outs, _, rfl, ⟨Bool.not_eq_true _ |>.mp hok, hstatus⟩, hall⟩⟩
      next hstatus =>
        exact phaseFits_after (s := { s with
          lastErr := "upstream returned retryable " ++ toString status }) hall
          (show Transient (.response status) from not_not.mp hstatus) now

/-- Of a call that POSTs only the error, the time and the phase change. -/
theorem enter_same (now : Int) (attempt : Nat) (s : Stream) :
    (s.enter now attempt).policy = s.policy ∧ (s.enter now attempt).aborted = s.aborted := by
  unfold Stream.enter
  split
  next =>
    split
    next => exact ⟨rfl, rfl⟩
    next => exact ⟨rfl, rfl⟩
  next => exact ⟨rfl, rfl⟩

theorem after_same (now : Int) (attempt : Nat) (s : Stream) :
    (s.after now attempt).policy = s.policy ∧ (s.after now attempt).aborted = s.aborted := by
  unfold Stream.after
  split
  next => exact ⟨rfl, rfl⟩
  next => exact enter_same now (attempt + 1) s

theorem fetched_same (now : Int) (o : FetchOutcome) (attempt : Nat) (s : Stream) :
    (s.fetched now o attempt).policy = s.policy ∧
      (s.fetched now o attempt).aborted = s.aborted := by
  cases o with
  | threw message =>
    rw [Stream.fetched]
    split
    next => exact ⟨rfl, rfl⟩
    next => exact after_same now attempt { s with lastErr := message }
  | response status =>
    rw [Stream.fetched]
    split
    next => exact ⟨rfl, rfl⟩
    next =>
      split
      next => exact ⟨rfl, rfl⟩
      next =>
        exact after_same now attempt
          { s with lastErr := "upstream returned retryable " ++ toString status }

/-- An abort does not unsettle the phase. -/
theorem PhaseFits.abort {maxAttempts : Number} {aborted : Bool} {outs : List FetchOutcome}
    {phase : Phase} (h : PhaseFits maxAttempts aborted outs phase) :
    PhaseFits maxAttempts true outs phase := by
  cases phase with
  | posting attempt => exact h
  | backoff attempt => exact h
  | postReturned attempts => exact h
  | postThrew message details =>
    obtain ⟨hattempts, hrefused | ⟨hall, -⟩⟩ := h
    · exact ⟨hattempts, Or.inl hrefused⟩
    · exact ⟨hattempts, Or.inr ⟨hall, Or.inl rfl⟩⟩
  | awaitingReply => exact h
  | playing words i => exact h
  | played => exact h
  | returned => exact h
  | threw err => exact h

/-- One more turn. -/
theorem turnsFit_of_le {n m : Nat} (h : n + 1 ≤ 2 * m) (phase : Phase) : TurnsFit n m phase := by
  cases phase with
  | backoff attempt => exact h
  | posting attempt => exact Nat.le_of_succ_le h
  | postReturned attempts => exact Nat.le_of_succ_le h
  | postThrew message details => exact Nat.le_of_succ_le h
  | awaitingReply => exact Nat.le_of_succ_le h
  | playing words i => exact Nat.le_of_succ_le h
  | played => exact Nat.le_of_succ_le h
  | returned => exact Nat.le_of_succ_le h
  | threw err => exact Nat.le_of_succ_le h

theorem turnsFit_of_not_backoff {n m : Nat} (h : n ≤ 2 * m) {phase : Phase}
    (hphase : ∀ attempt, phase ≠ .backoff attempt) : TurnsFit n m phase := by
  cases phase with
  | backoff attempt => exact absurd rfl (hphase attempt)
  | posting attempt => exact h
  | postReturned attempts => exact h
  | postThrew message details => exact h
  | awaitingReply => exact h
  | playing words i => exact h
  | played => exact h
  | returned => exact h
  | threw err => exact h

variable {maxAttempts : Number} {early : Bool} {turns : List Turn} {s s' : Stream}

theorem count_append (turns : List Turn) (t : Turn) :
    ((turns ++ [t]).filter fun t => t ≠ .aborted).length
      = (turns.filter fun t => t ≠ .aborted).length + if t = .aborted then 0 else 1 := by
  rw [List.filter_append, List.length_append]
  cases t with
  | fetched o => rfl
  | slept => rfl
  | aborted => rfl

/-- A turn is added to those so far. -/
theorem fits_turn (h : Fits maxAttempts early turns s) {now : Int} {t : Turn}
    (hturn : s.turn now t = some s') : Fits maxAttempts early (turns ++ [t]) s' := by
  have houts : outcomes (turns ++ [t]) = outcomes turns ++ outcomes [t] := outcomes_append ..
  have hfit := h.turns
  have hphase := h.phase
  cases t with
  | fetched o =>
    have hcount := count_append turns (Turn.fetched o)
    rw [Stream.turn] at hturn
    split at hturn
    next attempt hposting =>
      obtain rfl := Option.some.inj hturn
      rw [hposting] at hphase hfit
      obtain ⟨rfl, hall, hlt⟩ := hphase
      obtain ⟨hpolicy, haborted⟩ := fetched_same now o (outcomes turns).length s
      have houts : outcomes (turns ++ [.fetched o]) = outcomes turns ++ [o] := houts
      refine ⟨by rw [hpolicy]; exact h.policy, ?_, ?_, ?_, ?_⟩
      · rw [haborted, h.aborted, List.mem_append]
        simp
      · rw [haborted, houts, ← h.policy]
        exact phaseFits_fetched hall now o
      · intro i hi
        rw [houts, List.length_append, List.length_singleton] at hi
        rcases Nat.lt_succ_iff_lt_or_eq.mp hi with hi | rfl
        · exact h.within i hi
        · exact hlt
      · rw [hcount, if_neg (by simp), houts, List.length_append, List.length_singleton]
        refine turnsFit_of_le ?_ _
        have hle : (turns.filter fun t => t ≠ .aborted).length ≤ 2 * (outcomes turns).length := hfit
        omega
    next => cases hturn
  | slept =>
    have hcount := count_append turns (Turn.slept)
    rw [Stream.turn] at hturn
    split at hturn
    next attempt hbackoff =>
      obtain rfl := Option.some.inj hturn
      rw [hbackoff] at hphase hfit
      obtain ⟨hlength, hall⟩ := hphase
      obtain ⟨hpolicy, haborted⟩ := enter_same now (attempt + 1) s
      have houts : outcomes (turns ++ [.slept]) = outcomes turns := by
        rw [houts]
        exact List.append_nil _
      obtain ⟨hfits, hnot⟩ := phaseFits_enter (s := s) hall now
      rw [hlength] at hfits hnot
      refine ⟨by rw [hpolicy]; exact h.policy, ?_, ?_, ?_, ?_⟩
      · rw [haborted, h.aborted, List.mem_append]
        simp
      · rw [haborted, houts, ← h.policy]
        exact hfits
      · rw [houts]
        exact h.within
      · rw [hcount, if_neg (by simp), houts]
        exact turnsFit_of_not_backoff hfit hnot
    next => cases hturn
  | aborted =>
    have hcount := count_append turns (Turn.aborted)
    have houts : outcomes (turns ++ [.aborted]) = outcomes turns := by
      rw [houts]
      exact List.append_nil _
    rw [Stream.turn] at hturn
    split at hturn
    next => cases hturn
    next =>
      obtain rfl := Option.some.inj hturn
      refine ⟨h.policy, ?_, ?_, ?_, ?_⟩
      · refine iff_of_true rfl (Or.inr ?_)
        exact List.mem_append_right _ (List.mem_singleton.mpr rfl)
      · rw [houts]
        exact hphase.abort
      · rw [houts]
        exact h.within
      · rw [hcount, if_pos rfl, houts]
        exact hfit

/-- A call whose signal has aborted issues no further fetch. -/
theorem issued_turn (haborted : s.aborted = true) {now : Int} {t : Turn}
    (hturn : s.turn now t = some s') :
    issued (outcomes (turns ++ [t])) s'.phase = issued (outcomes turns) s.phase ∧
      s'.aborted = true := by
  have henter : ∀ (now : Int) (attempt : Nat) {s : Stream}, s.aborted = true →
      ∃ message details, (s.enter now attempt).phase = .postThrew message details := by
    intro now attempt s haborted
    unfold Stream.enter
    split
    next => exact ⟨_, _, rfl⟩
    next => exact ⟨_, _, rfl⟩
  have hafter : ∀ (now : Int) (attempt : Nat) {s : Stream}, s.aborted = true →
      ∀ attempt', (s.after now attempt).phase ≠ .posting attempt' := by
    intro now attempt s haborted attempt'
    unfold Stream.after
    split
    next =>
      intro hphase
      cases hphase
    next =>
      obtain ⟨message, details, hphase⟩ := henter now (attempt + 1) haborted
      rw [hphase]
      intro hphase
      cases hphase
  have hissued : ∀ (outs : List FetchOutcome) {phase : Phase},
      (∀ attempt, phase ≠ .posting attempt) → issued outs phase = outs.length := by
    intro outs phase hphase
    cases phase with
    | posting attempt => exact absurd rfl (hphase attempt)
    | _ => rfl
  cases t with
  | fetched o =>
    rw [Stream.turn] at hturn
    split at hturn
    next attempt hposting =>
      obtain rfl := Option.some.inj hturn
      refine ⟨?_, (fetched_same now o attempt s).2.trans haborted⟩
      rw [hposting, outcomes_append, hissued]
      · exact List.length_append
      · intro attempt'
        cases o with
        | threw message =>
          rw [Stream.fetched, if_pos haborted]
          intro hphase
          cases hphase
        | response status =>
          rw [Stream.fetched]
          split
          next =>
            intro hphase
            cases hphase
          next =>
            split
            next =>
              intro hphase
              cases hphase
            next =>
              exact hafter now attempt (s := { s with
                lastErr := "upstream returned retryable " ++ toString status }) haborted attempt'
    next => cases hturn
  | slept =>
    rw [Stream.turn] at hturn
    split at hturn
    next attempt hbackoff =>
      obtain rfl := Option.some.inj hturn
      obtain ⟨message, details, hphase⟩ := henter now (attempt + 1) haborted
      refine ⟨?_, (enter_same now (attempt + 1) s).2.trans haborted⟩
      rw [hphase, hbackoff, outcomes_append]
      exact congrArg List.length (List.append_nil _)
    next => cases hturn
  | aborted =>
    rw [Stream.turn, if_pos haborted] at hturn
    cases hturn

/-! ## Runs -/

/-- The turns of one call, with their times. -/
def posts (s : Stream) : Lts Stream (Int × Turn) := ⟨s, fun s t => s.turn t.1 t.2⟩

/-- The run of the system over the turns of a call is that of its variables. -/
theorem exec_turns (env : Env) {id : String} (s₀ : Stream) (timed : List (Int × Turn)) :
    ∀ {b b' : Bridge} {s : Stream}, b.streams.get? id = some s → s.Entered id →
      (bridge env).exec b (timed.map fun t => t.2.event id t.1) = some b' →
        ∃ s', (posts s₀).exec s timed = some s' ∧ b'.streams.get? id = some s' ∧ s'.Entered id := by
  induction timed with
  | nil =>
    intro b b' s hs hentered hrun
    obtain rfl := Option.some.inj hrun
    exact ⟨s, rfl, hs, hentered⟩
  | cons t timed ih =>
    intro b b' s hs hentered hrun
    obtain ⟨b₁, hstep, hrest⟩ := Lts.exec_cons.mp hrun
    have hturn := step_turn env hs hentered t.1 t.2
    rw [show step env b (t.2.event id t.1) = some b₁ from hstep, Option.map_some] at hturn
    cases hs₁ : s.turn t.1 t.2 with
    | none =>
      rw [hs₁] at hturn
      cases hturn
    | some s₁ =>
      rw [hs₁, Option.map_some, Option.some.injEq] at hturn
      obtain ⟨s', hs', hget, hentered'⟩ := ih hturn (entered_turn hentered hs₁) hrest
      exact ⟨s', Lts.exec_cons.mpr ⟨s₁, hs₁, hs'⟩, hget, hentered'⟩

/-- The turns of a run are added to those so far. -/
theorem fits_exec {s₀ : Stream} (timed : List (Int × Turn)) :
    ∀ {turns : List Turn} {s s' : Stream}, Fits maxAttempts early turns s →
      (posts s₀).exec s timed = some s' →
        Fits maxAttempts early (turns ++ timed.map Prod.snd) s' ∧
          (s.aborted = true → s'.aborted = true ∧
            issued (outcomes (turns ++ timed.map Prod.snd)) s'.phase
              = issued (outcomes turns) s.phase) := by
  induction timed with
  | nil =>
    intro turns s s' h hrun
    obtain rfl := Option.some.inj hrun
    rw [List.map_nil, List.append_nil]
    exact ⟨h, fun haborted => ⟨haborted, rfl⟩⟩
  | cons t timed ih =>
    intro turns s s' h hrun
    obtain ⟨s₁, hturn, hrest⟩ := Lts.exec_cons.mp hrun
    have hturn : s.turn t.1 t.2 = some s₁ := hturn
    obtain ⟨hfits, hissued⟩ := ih (fits_turn h hturn) hrest
    rw [List.append_assoc, List.singleton_append] at hfits hissued
    refine ⟨hfits, ?_⟩
    intro haborted
    obtain ⟨hsame, haborted₁⟩ : issued (outcomes (turns ++ [t.2])) s₁.phase
        = issued (outcomes turns) s.phase ∧ s₁.aborted = true := issued_turn haborted hturn
    obtain ⟨haborted', hsame'⟩ := hissued haborted₁
    exact ⟨haborted', hsame'.trans hsame⟩

/-- Before the first fetch. -/
theorem fits_enter (i : StartInput) (claim : ChairClaim) :
    Fits i.policy.maxAttempts i.aborted [] ((i.stream claim).enter i.now 0) := by
  obtain ⟨hpolicy, haborted⟩ := enter_same i.now 0 (i.stream claim)
  obtain ⟨hfits, hnot⟩ := @phaseFits_enter (i.stream claim) []
    (fun o ho => absurd ho List.not_mem_nil) i.now
  refine ⟨by rw [hpolicy]; rfl, ?_, ?_, fun i hi => absurd hi (Nat.not_lt_zero _), ?_⟩
  · rw [haborted]
    exact (or_iff_left List.not_mem_nil).symm
  · rw [haborted]
    exact hfits
  · exact turnsFit_of_not_backoff (Nat.le_refl 0) hnot

/-! ## The fold -/

/-- A refused status is neither ok nor retryable. -/
theorem not_transient {o : FetchOutcome} (h : Refused o) : ¬ Transient o := by
  cases o with
  | threw message => exact absurd h id
  | response status => exact h.2

/-- No retryable status is ok. -/
theorem not_ok_of_retryable {status : Nat} (h : status ∈ retryableStatus) :
    responseOk status = false := by
  have hall : ∀ status ∈ retryableStatus, responseOk status = false := by decide
  exact hall status h

theorem not_firstOk_of_transient {outs : List FetchOutcome} (hall : ∀ o ∈ outs, Transient o) :
    ¬ FirstOk outs := by
  intro hgiven
  obtain ⟨before, status, rfl, hok, -⟩ := hgiven
  have htransient := hall (.response status) (List.mem_append_right _ (List.mem_singleton.mpr rfl))
  rw [not_ok_of_retryable htransient] at hok
  cases hok

theorem not_firstOk_of_firstRefused {outs : List FetchOutcome} (h : FirstRefused outs) :
    ¬ FirstOk outs := by
  obtain ⟨before, o, rfl, hrefused, -⟩ := h
  intro hgiven
  obtain ⟨before', status, heq, hok, -⟩ := hgiven
  obtain ⟨-, rfl⟩ := List.append_inj' heq rfl |>.imp id List.singleton_inj.mp
  rw [hrefused.1] at hok
  cases hok

/-- An element of a list is the last, or before it. -/
theorem concat_eq_split {before before' rest : List FetchOutcome} {o o' : FetchOutcome}
    (h : before' ++ [o'] = before ++ o :: rest) : rest = [] ∧ o' = o ∨ o ∈ before' := by
  rcases List.eq_nil_or_concat' rest with rfl | ⟨rest', last, rfl⟩
  · exact Or.inl ⟨rfl, List.singleton_inj.mp (List.append_inj' h rfl).2⟩
  · rw [← List.cons_append, ← List.append_assoc] at h
    rw [(List.append_inj' h rfl).1]
    exact Or.inr (List.mem_append_right _ (List.mem_cons_self ..))

/-- The first status that is refused is the last. -/
theorem firstRefused_split {outs before rest : List FetchOutcome} {o : FetchOutcome}
    (hrefused : Refused o) (heq : outs = before ++ o :: rest) (h : FirstRefused outs) : rest = [] := by
  obtain ⟨before', o', rfl, -, hall⟩ := h
  rcases concat_eq_split heq with ⟨hnil, -⟩ | hmem
  · exact hnil
  · exact absurd (hall o hmem) (not_transient hrefused)

/-- A call that fits its turns follows the fold. -/
theorem followsFold_of_fits (h : Fits maxAttempts early turns s) :
    FollowsFold maxAttempts early turns s.phase := by
  have hphase := h.phase
  have hwithin := h.within
  have hturns := h.turns
  have haborted := h.aborted
  -- the allowed fetches are the first so many
  have hbound : ∀ n, maxAttempts = .ofNat n → (outcomes turns).length ≤ n := by
    intro n heq
    obtain rfl := heq
    by_contra hlt
    have := hwithin n (Nat.lt_of_not_le hlt)
    rw [lt_ofNat, decide_eq_true_eq] at this
    exact Nat.lt_irrefl n this
  have hends : TurnsFit (turns.filter fun t => t ≠ .aborted).length (outcomes turns).length s.phase →
      ∀ n, maxAttempts = .ofNat n → (turns.filter fun t => t ≠ .aborted).length ≤ 2 * n := by
    intro hfit n hn
    have hle := hbound n hn
    have htwice : (turns.filter fun t => t ≠ .aborted).length ≤ 2 * (outcomes turns).length := by
      cases hcase : s.phase with
      | backoff attempt =>
        rw [hcase] at hfit
        exact Nat.le_of_succ_le hfit
      | _ =>
        rw [hcase] at hfit
        exact hfit
    omega
  have hends := hends hturns
  cases hcase : s.phase with
  | posting attempt =>
    rw [hcase] at hphase
    obtain ⟨rfl, hall, hlt⟩ := hphase
    refine ⟨?_, ?_, fun _ hposted => absurd hposted Bool.false_ne_true,
      fun hposted => absurd hposted Bool.false_ne_true, fun k hk => (by cases hk), ?_, hends⟩
    · intro k
      exact iff_of_false (fun hphase => by cases hphase)
        (fun hok => not_firstOk_of_transient hall hok.2)
    · intro before o rest heq hrefused
      refine absurd (hall o ?_) (not_transient hrefused)
      rw [heq]
      exact List.mem_append_right _ (List.mem_cons_self ..)
    · intro i hi
      rcases Nat.lt_succ_iff_lt_or_eq.mp hi with hi | rfl
      · exact hwithin i hi
      · exact hlt
  | backoff attempt =>
    rw [hcase] at hphase
    obtain ⟨-, hall⟩ := hphase
    refine ⟨?_, ?_, fun _ hposted => absurd hposted Bool.false_ne_true,
      fun hposted => absurd hposted Bool.false_ne_true, fun k hk => (by cases hk), hwithin, hends⟩
    · intro k
      exact iff_of_false (fun hphase => by cases hphase)
        (fun hok => not_firstOk_of_transient hall hok.2)
    · intro before o rest heq hrefused
      refine absurd (hall o ?_) (not_transient hrefused)
      rw [heq]
      exact List.mem_append_right _ (List.mem_cons_self ..)
  | postReturned attempts =>
    rw [hcase] at hphase
    obtain ⟨rfl, hok⟩ := hphase
    refine ⟨?_, ?_, fun _ _ hnot => absurd hok hnot, fun _ hnot => absurd hok hnot, ?_, hwithin,
      hends⟩
    · intro k
      constructor
      · intro hphase
        exact ⟨(Phase.postReturned.inj hphase), hok⟩
      · intro hgiven
        obtain ⟨rfl, -⟩ := hgiven
        rfl
    · intro before o rest heq hrefused
      obtain ⟨before', status, heq', hstatus, hall⟩ := hok
      rw [heq'] at heq
      rcases concat_eq_split heq with ⟨-, rfl⟩ | hmem
      · rw [hrefused.1] at hstatus
        cases hstatus
      · exact absurd (hall o hmem) (not_transient hrefused)
    · intro k hk
      exact (Option.some.inj hk).symm
  | postThrew message details =>
    rw [hcase] at hphase
    obtain ⟨hattempts, hwhy⟩ := hphase
    have hnot : ¬ FirstOk (outcomes turns) := by
      rcases hwhy with hrefused | ⟨hall, -⟩
      · exact not_firstOk_of_firstRefused hrefused
      · exact not_firstOk_of_transient hall
    refine ⟨?_, ?_, fun _ _ _ => ⟨_, _, rfl⟩, ?_, ?_, hwithin, hends⟩
    · intro k
      exact iff_of_false (fun hphase => by cases hphase) (fun hok => hnot hok.2)
    · intro before o rest heq hrefused
      refine ⟨?_, _, _, rfl⟩
      rcases hwhy with hfirst | ⟨hall, -⟩
      · exact firstRefused_split hrefused heq hfirst
      · refine absurd (hall o ?_) (not_transient hrefused)
        rw [heq]
        exact List.mem_append_right _ (List.mem_cons_self ..)
    · intro _ _ hnone hearly hsignal
      have hmax : (Number.ofNat (outcomes turns).length).lt maxAttempts = false := by
        rcases hwhy with ⟨before, o, heq, hrefused, -⟩ | ⟨-, hend | hend⟩
        · refine absurd hrefused (hnone o ?_)
          rw [heq]
          exact List.mem_append_right _ (List.mem_singleton.mpr rfl)
        · rcases haborted.mp hend with hend | hend
          · rw [hearly] at hend
            cases hend
          · exact absurd hend hsignal
        · exact hend
      refine ⟨⟨_, _, rfl⟩, hmax, ?_⟩
      intro n heq
      obtain rfl := heq
      have hle := hbound n rfl
      rw [lt_ofNat, decide_eq_false_iff_not] at hmax
      exact Nat.le_antisymm hle (Nat.le_of_not_lt hmax)
    · intro k hk
      exact (Option.some.inj hk).symm.trans hattempts
  | awaitingReply =>
    rw [hcase] at hphase
    exact absurd hphase id
  | playing words i =>
    rw [hcase] at hphase
    exact absurd hphase id
  | played =>
    rw [hcase] at hphase
    exact absurd hphase id
  | returned =>
    rw [hcase] at hphase
    exact absurd hphase id
  | threw err =>
    rw [hcase] at hphase
    exact absurd hphase id

/-- Whatever happens to a call that POSTs, it follows the fold; after an abort no further
fetch is issued, and until it has ended it goes on with whatever its fetch or its backoff
ends in. -/
theorem post_follows (env : Env) (b : Bridge) (i : StartInput) (claim : ChairClaim)
    (timed : List (Int × Turn)) {b' : Bridge}
    (hrun : (bridge env).exec (enterAttempt i.now 0 (i.stream claim) b)
      (timed.map fun t => t.2.event i.requestId t.1) = some b') :
    ∃ s, b'.streams.get? i.requestId = some s ∧
      FollowsFold i.policy.maxAttempts i.aborted (timed.map Prod.snd) s.phase ∧
      (i.aborted = true → issued (outcomes (timed.map Prod.snd)) s.phase = 0) ∧
      (∀ before now after b₁ s₁, timed = before ++ (now, .aborted) :: after →
        (bridge env).exec (enterAttempt i.now 0 (i.stream claim) b)
          (before.map fun t => t.2.event i.requestId t.1) = some b₁ →
        b₁.streams.get? i.requestId = some s₁ →
          issued (outcomes (timed.map Prod.snd)) s.phase
            = issued (outcomes (before.map Prod.snd)) s₁.phase) ∧
      (s.phase.posted = false →
        (∀ now outcome, ((bridge env).step b' (.fetchDone now i.requestId outcome)).isSome) ∨
          ∀ now, ((bridge env).step b' (.backoffDone now i.requestId)).isSome) := by
  have hstart : (enterAttempt i.now 0 (i.stream claim) b).streams.get? i.requestId
      = some ((i.stream claim).enter i.now 0) := get_enterAttempt i.now 0 (i.stream claim) b
  have hentered : ((i.stream claim).enter i.now 0).Entered i.requestId :=
    entered_enter ⟨rfl, rfl⟩ i.now 0
  have hfits := fits_enter i claim
  obtain ⟨s, hexec, hs, hentered'⟩ := exec_turns env
    ((i.stream claim).enter i.now 0) timed hstart hentered hrun
  obtain ⟨hfits', hissued⟩ := fits_exec timed hfits hexec
  rw [List.nil_append] at hfits' hissued
  refine ⟨s, hs, followsFold_of_fits hfits', ?_, ?_, ?_⟩
  · intro hearly
    have haborted : ((i.stream claim).enter i.now 0).aborted = true :=
      hfits.aborted.mpr (Or.inl hearly)
    rw [(hissued haborted).2]
    show issued [] ((i.stream claim).enter i.now 0).phase = 0
    rw [Stream.enter]
    have hsignal : (i.stream claim).aborted = true := hearly
    split
    next => rfl
    next => rfl
  · intro before now after b₁ s₁ htimed hbefore hs₁
    obtain ⟨s₁', hexec₁, hs₁', hentered₁⟩ := exec_turns env
      ((i.stream claim).enter i.now 0) before hstart hentered hbefore
    obtain rfl := Option.some.inj (hs₁.symm.trans hs₁')
    rw [htimed, Lts.exec_append] at hexec
    obtain ⟨s₂, hs₂, hrest⟩ := hexec
    obtain rfl := Option.some.inj (hexec₁.symm.trans hs₂)
    obtain ⟨hfits₁, -⟩ := fits_exec before hfits hexec₁
    rw [List.nil_append] at hfits₁
    obtain ⟨s₃, hturn, hafter⟩ := Lts.exec_cons.mp hrest
    have hturn : s₁.turn now .aborted = some s₃ := hturn
    have hfits₃ := fits_turn hfits₁ hturn
    rw [Stream.turn] at hturn
    split at hturn
    next => cases hturn
    next =>
      obtain rfl := Option.some.inj hturn
      have hsame := ((fits_exec after hfits₃ hafter).2 rfl).2
      rw [htimed, List.map_append, List.map_cons, ← List.singleton_append, ← List.append_assoc]
      rw [hsame, outcomes_append]
      exact congrArg (issued · s₁.phase) (List.append_nil _)
  · intro hopen
    have hphase := hfits'.phase
    cases hcase : s.phase with
    | posting attempt =>
      refine Or.inl fun now outcome => ?_
      show (step env b' (.fetchDone now i.requestId outcome)).isSome = true
      rw [step, Bridge.onStream, hs, Option.bind_some, hcase]
      rfl
    | backoff attempt =>
      refine Or.inr fun now => ?_
      show (step env b' (.backoffDone now i.requestId)).isSome = true
      rw [step, Bridge.onStream, hs, Option.bind_some, hcase]
      rfl
    | postReturned attempts =>
      rw [hcase] at hopen
      cases hopen
    | postThrew message details =>
      rw [hcase] at hopen
      cases hopen
    | awaitingReply =>
      rw [hcase] at hphase
      exact absurd hphase id
    | playing words i =>
      rw [hcase] at hphase
      exact absurd hphase id
    | played =>
      rw [hcase] at hphase
      exact absurd hphase id
    | returned =>
      rw [hcase] at hphase
      exact absurd hphase id
    | threw err =>
      rw [hcase] at hphase
      exact absurd hphase id

/-- An answer that can be retried, its backoff, and an answer that is ok. -/
def retriedTurns : List (Int × Turn) :=
  [(1, .fetched (.response 503)), (2, .slept), (3, .fetched (.response 200))]

/-- The call of these turns, in the system of no other. -/
def retriedStart : StartInput :=
  { sampleStart with policy := defaultDispatchPolicy }

theorem retried_once : ∃ b, (bridge sampleEnv).exec
    (enterAttempt 0 0 (retriedStart.stream ⟨"session-1", .online, none⟩) .init)
    (retriedTurns.map fun t => t.2.event sampleRequest t.1) = some b ∧
    ∃ s, b.streams.get? sampleRequest = some s ∧ s.phase = .postReturned 2 := by
  have hruns : ((bridge sampleEnv).exec
      (enterAttempt 0 0 (retriedStart.stream ⟨"session-1", .online, none⟩) .init)
      (retriedTurns.map fun t => t.2.event sampleRequest t.1)).isSome = true := by
    decide +kernel
  obtain ⟨b, hrun⟩ := Option.isSome_iff_exists.mp hruns
  obtain ⟨s, hs, hfold, -⟩ := post_follows sampleEnv .init retriedStart
    ⟨"session-1", .online, none⟩ retriedTurns hrun
  refine ⟨b, hrun, s, hs, (hfold.returned_iff 2).mpr ⟨rfl, [.response 503], 200, rfl, rfl, ?_⟩⟩
  intro o ho
  obtain rfl := List.mem_singleton.mp ho
  show 503 ∈ retryableStatus
  decide

end Kovael.Chair
