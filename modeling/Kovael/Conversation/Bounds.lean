import Mathlib.Data.List.Perm.Subperm
import Kovael.Conversation.Convene

/-!
# The loop of `convene` ends

`Fits` is the invariant of the speaker queue: no speaker stands in it more
often than the participant list names it, so it is never longer than the list.
A skipped speaker makes the queue shorter, and a completed turn may refill it
but is one of six: `measure` weighs the turns that are left against the longest
queue.
-/

namespace Kovael.Conversation

variable {participants : List String}

/-- No speaker is queued more often than the participants name it. -/
def Fits (participants queue : List String) : Prop :=
  ∀ x, queue.count x ≤ participants.count x

theorem Fits.mem {queue : List String} (h : Fits participants queue) {x : String}
    (hx : x ∈ queue) : x ∈ participants := by
  have hpos := List.count_pos_iff.mpr hx
  have hle := h x
  exact List.count_pos_iff.mp (by omega)

theorem Fits.length_le {queue : List String} (h : Fits participants queue) :
    queue.length ≤ participants.length :=
  (List.subperm_ext_iff.mpr fun x _ => h x).length_le

theorem fits_self : Fits participants participants := fun _ => Nat.le_refl _

theorem fits_nil : Fits participants [] := fun _ => Nat.zero_le _

theorem Fits.tail {x : String} {queue : List String} (h : Fits participants (x :: queue)) :
    Fits participants queue := by
  intro y
  have hle := h y
  rw [List.count_cons] at hle
  omega

/-- Moving a participant to the front adds it at most where it was missing. -/
theorem Fits.prioritize {queue : List String} (h : Fits participants queue) {m : String}
    (hm : m ∈ participants) : Fits participants (prioritize queue m) := by
  intro x
  have hle := h x
  by_cases hx : x = m
  · have hpos := List.count_pos_iff.mpr hm
    rw [hx] at hle ⊢
    rw [Conversation.prioritize, List.count_cons_self, List.count_erase_self]
    omega
  · rw [Conversation.prioritize, List.count_cons_of_ne (Ne.symm hx), List.count_erase_of_ne hx]
    exact hle

theorem Fits.foldl_prioritize : ∀ (mentions : List String) {queue : List String},
    Fits participants queue → (∀ m ∈ mentions, m ∈ participants) →
    Fits participants (mentions.foldl Conversation.prioritize queue)
  | [], _, h, _ => h
  | m :: mentions, _, h, hmem =>
    foldl_prioritize mentions (h.prioritize (hmem m (List.mem_cons_self ..)))
      fun m' hm' => hmem m' (List.mem_cons_of_mem _ hm')

theorem mem_validMentions {speaker content m : String} :
    m ∈ validMentions participants speaker content ↔
      m ∈ parseMentions content ∧ m ∈ participants ∧ m ≠ speaker := by
  rw [validMentions, List.mem_filter, decide_eq_true_eq]

theorem Fits.prioritized {queue : List String} (h : Fits participants queue)
    (speaker content : String) : Fits participants (prioritized participants speaker content queue) :=
  h.foldl_prioritize _ fun _ hm => (mem_validMentions.mp (List.mem_reverse.mp hm)).2.1

theorem Fits.refilled {queue : List String} (h : Fits participants queue) (speaker : String)
    (turnCount : Nat) : Fits participants (refilled participants speaker turnCount queue) := by
  unfold Conversation.refilled
  split
  next =>
    split
    next candidate hfind =>
      split
      next => exact fits_nil
      next =>
        intro x
        have hpos := List.count_pos_iff.mpr (List.mem_of_find?_eq_some hfind)
        rw [List.count_singleton]
        split
        next hx =>
          rw [beq_iff_eq] at hx
          rw [← hx]
          omega
        next => exact Nat.zero_le _
    next => exact fits_nil
  next => exact h

/-- What holds of the loop at every iteration. -/
structure Bounded (participants : List String) (s : LoopState) : Prop where
  fits : Fits participants s.speakerQueue
  turns : s.turns.length = s.turnCount
  capped : s.turnCount ≤ maxTurns

theorem bounded_start (participants : List String) :
    Bounded participants (.start participants) where
  fits := fits_self
  turns := rfl
  capped := Nat.zero_le _

/-- The iterations that are left, at most. -/
def measure (participants : List String) (s : LoopState) : Nat :=
  (maxTurns - s.turnCount) * (participants.length + 1) + s.speakerQueue.length

/-- An iteration keeps the bounds and uses some of the measure up. -/
theorem round_bounded {s s' : LoopState} {i : RoundInput} (h : Bounded participants s)
    (hround : round participants s i = some s') :
    Bounded participants s' ∧ measure participants s' < measure participants s := by
  obtain ⟨speaker, queue, hqueue, hturns, _, _, hturn⟩ := round_cases hround
  have hfits : Fits participants queue := by
    have := h.fits
    rw [hqueue] at this
    exact this.tail
  have hlen : s.speakerQueue.length = queue.length + 1 := by rw [hqueue, List.length_cons]
  have hcompleted : (s.turns ++ [speaker]).length = s.turnCount + 1 := by
    rw [List.length_append, h.turns, List.length_singleton]
  -- a completed turn pays for the longest queue
  have hspent : (maxTurns - (s.turnCount + 1)) * (participants.length + 1)
      + (participants.length + 1) = (maxTurns - s.turnCount) * (participants.length + 1) := by
    have hone : maxTurns - s.turnCount = maxTurns - (s.turnCount + 1) + 1 := by omega
    rw [hone, Nat.add_mul, Nat.one_mul]
  unfold measure
  cases hturn with
  | threw =>
    refine ⟨⟨hfits, h.turns, h.capped⟩, ?_⟩
    show (maxTurns - s.turnCount) * (participants.length + 1) + queue.length < _
    omega
  | skipped unavailable =>
    refine ⟨⟨hfits, h.turns, h.capped⟩, ?_⟩
    show (maxTurns - s.turnCount) * (participants.length + 1) + queue.length < _
    omega
  | present =>
    refine ⟨⟨hfits, hcompleted, hturns⟩, ?_⟩
    show (maxTurns - (s.turnCount + 1)) * (participants.length + 1) + queue.length < _
    omega
  | failed fallback =>
    refine ⟨⟨hfits, h.turns, h.capped⟩, ?_⟩
    show (maxTurns - s.turnCount) * (participants.length + 1) + queue.length < _
    omega
  | replied fallback live content stream awaited =>
    have hnext := (hfits.prioritized speaker content).refilled speaker (s.turnCount + 1)
    have hle := hnext.length_le
    refine ⟨⟨hnext, hcompleted, hturns⟩, ?_⟩
    show (maxTurns - (s.turnCount + 1)) * (participants.length + 1)
      + (refilled participants speaker (s.turnCount + 1)
          (prioritized participants speaker content queue)).length < _
    omega

/-- The iterations of a loop over `n` names: six turns, and between two of them
a queue of names that are skipped. -/
def maxRounds (n : Nat) : Nat := maxTurns * (n + 1) + n

/-- The loop ends: whatever its inputs are, it is over after `maxRounds`
iterations at most, with six completed turns at most, and its queue has fitted
the participants at every iteration. -/
theorem convene_loop_bounded (participants : List String) :
    (∀ es s, (conveneLoop participants).exec (.start participants) es = some s →
      es.length ≤ maxRounds participants.length ∧
      s.turns.length = s.turnCount ∧ s.turnCount ≤ maxTurns ∧
      (∀ x ∈ s.speakerQueue, x ∈ participants) ∧
      ∀ x, s.speakerQueue.count x ≤ participants.count x) ∧
    ∀ inputs : Nat → RoundInput, ∃ n ≤ maxRounds participants.length, ∃ s,
      (conveneLoop participants).exec (.start participants) ((List.range n).map inputs) = some s ∧
      goesOn (inputs n).aborted s = false := by
  have hstep : ∀ s i t, Bounded participants s → (conveneLoop participants).step s i = some t →
      Bounded participants t ∧ measure participants t < measure participants s :=
    fun s i t hs hround => round_bounded hs hround
  have hstart : measure participants (.start participants) = maxRounds participants.length := rfl
  constructor
  · intro es s hrun
    have hlen := Lts.exec_length_le (measure participants)
      (fun s i t hs h => (hstep s i t hs h).1) (fun s i t hs h => (hstep s i t hs h).2) es
      (bounded_start participants) hrun
    have hbounded : Bounded participants s :=
      Lts.exec_invariant (C := fun _ _ => True) (fun s i t hs _ h => (hstep s i t hs h).1) es
        (bounded_start participants) hrun (Lts.along_true es _)
    exact ⟨by omega, hbounded.turns, hbounded.capped, fun x hx => hbounded.fits.mem hx,
      hbounded.fits⟩
  · intro inputs
    obtain ⟨n, hn, s, hrun, hstuck⟩ := Lts.exists_stuck (measure participants)
      (fun s i t hs h => (hstep s i t hs h).1) (fun s i t hs h => (hstep s i t hs h).2) _ inputs
      (bounded_start participants) (Nat.le_of_eq hstart)
    refine ⟨n, hn, s, hrun, ?_⟩
    by_contra hgoes
    obtain ⟨t, hround⟩ := round_of_goesOn (by simpa using hgoes)
    exact absurd (hstuck.symm.trans hround) nofun

/-- A speaker that is skipped: it has no chair, and chairs have to be live. -/
def skipped : RoundInput where
  aborted := false
  head := ⟨none, true, true, false, false⟩
  turn := ⟨.ok "", false, 0⟩
  abortedAfter := false

theorem skipped_pair_bounded : ∃ s,
    (conveneLoop ["a", "a"]).exec (.start ["a", "a"]) [skipped, skipped] = some s ∧
    [skipped, skipped].length ≤ maxRounds 2 ∧
    s.turns.length = s.turnCount ∧ s.turnCount ≤ maxTurns ∧
    (∀ x ∈ s.speakerQueue, x ∈ ["a", "a"]) ∧
    ∀ x, s.speakerQueue.count x ≤ ["a", "a"].count x :=
  ⟨_, rfl, (convene_loop_bounded ["a", "a"]).1 _ _ rfl⟩

end Kovael.Conversation
