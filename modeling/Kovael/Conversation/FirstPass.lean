import Kovael.Conversation.Bounds

/-!
# Every participant's first turn

The stop criterion waits for every participant, the hard cap does not: two
participants who keep mentioning each other spend all six turns. `Fresh` is what
a run keeps as long as no reply calls back a participant who has had a turn:
every completed turn is somebody's first, so six turns are enough for six.
-/

namespace Kovael.Conversation

variable {participants : List String}

/-- Every participant has completed a turn. -/
def AllHeard (participants : List String) (s : LoopState) : Prop :=
  ∀ p ∈ participants, p ∈ s.respondedParticipants

/-- A reply of this iteration mentions a participant, not its speaker, who has
completed a turn already. -/
def CallsBack (participants : List String) (s : LoopState) (i : RoundInput) : Prop :=
  (select i.head = .live ∨ select i.head = .localFallback) ∧
  ∃ content, i.turn.stream = .ok content ∧
    ∃ m ∈ parseMentions content, m ∈ participants ∧ m ∈ s.respondedParticipants ∧
      s.speakerQueue.head? ≠ some m

/-! ## Members of the queue -/

theorem mem_prioritize {queue : List String} {m x : String} :
    x ∈ prioritize queue m ↔ x = m ∨ x ∈ queue := by
  rw [prioritize, List.mem_cons]
  by_cases hx : x = m
  · exact iff_of_true (.inl hx) (.inl hx)
  · rw [List.mem_erase_of_ne hx]

theorem mem_foldl_prioritize (x : String) : ∀ (mentions queue : List String),
    x ∈ mentions.foldl prioritize queue ↔ x ∈ mentions ∨ x ∈ queue
  | [], queue => by simp
  | m :: mentions, queue => by
    rw [List.foldl_cons, mem_foldl_prioritize x mentions, mem_prioritize, List.mem_cons]
    constructor
    · intro hcases
      rcases hcases with h | h | h
      · exact .inl (.inr h)
      · exact .inl (.inl h)
      · exact .inr h
    · intro hcases
      rcases hcases with (h | h) | h
      · exact .inr (.inl h)
      · exact .inl h
      · exact .inr (.inr h)

/-- A mention takes nobody off the queue. -/
theorem mem_prioritized {speaker content x : String} {queue : List String} :
    x ∈ prioritized participants speaker content queue ↔
      (x ∈ parseMentions content ∧ x ∈ participants ∧ x ≠ speaker) ∨ x ∈ queue := by
  rw [prioritized, mem_foldl_prioritize, List.mem_reverse, mem_validMentions]

theorem nodup_foldl_prioritize : ∀ (mentions : List String) {queue : List String},
    queue.Nodup → (mentions.foldl prioritize queue).Nodup
  | [], _, h => h
  | m :: mentions, _, h => by
    apply nodup_foldl_prioritize mentions
    exact List.nodup_cons.mpr ⟨h.not_mem_erase, h.erase m⟩

/-! ## What every run keeps -/

/-- Who has been heard, who is waiting, and what the stop criterion saw. -/
structure FirstPass (participants : List String) (s : LoopState) : Prop where
  bounded : Bounded participants s
  heard : ∀ p ∈ s.respondedParticipants, p ∈ participants
  waiting : s.failedParticipants = ∅ → s.ended = none →
    ∀ p ∈ participants, p ∈ s.speakerQueue ∨ p ∈ s.respondedParticipants
  stopped : s.ended = some .stopCriterion → AllHeard participants s

theorem firstPass_start (participants : List String) :
    FirstPass participants (.start participants) where
  bounded := bounded_start participants
  heard := fun _ hp => absurd hp (Finset.notMem_empty _)
  waiting := fun _ _ _ hp => .inl hp
  stopped := fun h => nomatch h

/-- As many responders as participants are all of them. -/
theorem allHeard_of_card {s : LoopState} (hheard : ∀ p ∈ s.respondedParticipants, p ∈ participants)
    (hcard : participants.toFinset.card ≤ s.respondedParticipants.card) :
    AllHeard participants s := by
  have hsub : s.respondedParticipants ⊆ participants.toFinset :=
    fun p hp => List.mem_toFinset.mpr (hheard p hp)
  have heq := Finset.eq_of_subset_of_card_le hsub hcard
  intro p hp
  rw [heq]
  exact List.mem_toFinset.mpr hp

/-- Whoever was waiting before a turn waits or has been heard after it. -/
theorem waits_after {s : LoopState} {speaker : String} {queue : List String}
    (hqueue : s.speakerQueue = speaker :: queue) {p : String}
    (hp : p ∈ s.speakerQueue ∨ p ∈ s.respondedParticipants) :
    p ∈ queue ∨ p ∈ insert speaker s.respondedParticipants := by
  rw [hqueue, List.mem_cons] at hp
  rw [Finset.mem_insert]
  rcases hp with (hp | hp) | hp
  · exact .inr (.inl hp)
  · exact .inl hp
  · exact .inr (.inr hp)

theorem mem_refilled {speaker x : String} {turnCount : Nat} {queue : List String}
    (hx : x ∈ queue) : x ∈ refilled participants speaker turnCount queue := by
  unfold refilled
  split
  next h =>
    rw [h.1] at hx
    exact absurd hx List.not_mem_nil
  next => exact hx

theorem firstPass_round {s s' : LoopState} {i : RoundInput} (h : FirstPass participants s)
    (hround : round participants s i = some s') : FirstPass participants s' := by
  have hbounded := (round_bounded h.bounded hround).1
  obtain ⟨speaker, queue, hqueue, _, hended, _, hturn⟩ := round_cases hround
  have hspeaker : speaker ∈ participants :=
    h.bounded.fits.mem (by rw [hqueue]; exact List.mem_cons_self ..)
  have hheard : ∀ p ∈ insert speaker s.respondedParticipants, p ∈ participants := by
    intro p hp
    rcases Finset.mem_insert.mp hp with rfl | hp
    · exact hspeaker
    · exact h.heard p hp
  cases hturn with
  | threw => exact ⟨hbounded, h.heard, (fun _ he => nomatch he), fun he => nomatch he⟩
  | skipped unavailable =>
    refine ⟨hbounded, h.heard, ?_, ?_⟩
    · intro hfailed
      exact absurd hfailed (Finset.insert_ne_empty _ _)
    · intro he
      exact absurd (hended.symm.trans he) (by simp)
  | present =>
    refine ⟨hbounded, hheard, ?_, ?_⟩
    · intro hfailed _ p hp
      exact waits_after hqueue (h.waiting hfailed hended p hp)
    · intro he
      exact absurd (hended.symm.trans he) (by simp)
  | failed fallback => exact ⟨hbounded, h.heard, (fun _ he => nomatch he), fun he => nomatch he⟩
  | replied fallback live content stream awaited =>
    refine ⟨hbounded, hheard, ?_, ?_⟩
    · intro hfailed _ p hp
      rcases waits_after hqueue (h.waiting hfailed hended p hp) with hwaits | hdone
      · exact .inl (mem_refilled (mem_prioritized.mpr (.inr hwaits)))
      · exact .inr hdone
    · intro he
      refine allHeard_of_card hheard ?_
      simp only [replied] at he
      split at he
      next hstops =>
        rw [stops, Bool.and_eq_true, decide_eq_true_eq] at hstops
        exact hstops.1
      next =>
        split at he
        next => exact absurd he (by simp)
        next => exact absurd he (by simp)

/-! ## Runs without a call back -/

/-- Nobody has had a second turn, and nobody who had one is queued. -/
structure Fresh (s : LoopState) : Prop where
  once : s.respondedParticipants.card = s.turnCount
  queued : s.ended = none → s.speakerQueue.Nodup ∧
    ∀ x ∈ s.speakerQueue, x ∉ s.respondedParticipants

/-- A first turn: its speaker is new, and so is whoever waits behind it. -/
theorem Fresh.first {s : LoopState} (h : Fresh s) (hended : s.ended = none) {speaker : String}
    {queue : List String} (hqueue : s.speakerQueue = speaker :: queue) :
    (insert speaker s.respondedParticipants).card = s.turnCount + 1 ∧ queue.Nodup ∧
      ∀ x ∈ queue, x ∉ insert speaker s.respondedParticipants := by
  obtain ⟨hnodup, hnew⟩ := h.queued hended
  rw [hqueue] at hnodup hnew
  rw [List.nodup_cons] at hnodup
  refine ⟨?_, hnodup.2, ?_⟩
  · rw [Finset.card_insert_of_notMem (hnew speaker (List.mem_cons_self ..)), h.once]
  · intro x hx hmem
    rcases Finset.mem_insert.mp hmem with rfl | hmem
    · exact hnodup.1 hx
    · exact hnew x (List.mem_cons_of_mem _ hx) hmem

theorem AllHeard.round {s s' : LoopState} {i : RoundInput} (h : AllHeard participants s)
    (hround : round participants s i = some s') : AllHeard participants s' := by
  obtain ⟨speaker, queue, _, _, _, _, hturn⟩ := round_cases hround
  intro p hp
  cases hturn with
  | threw => exact h p hp
  | skipped unavailable => exact h p hp
  | present => exact Finset.mem_insert_of_mem (h p hp)
  | failed fallback => exact h p hp
  | replied fallback live content stream awaited => exact Finset.mem_insert_of_mem (h p hp)

theorem fresh_round {s s' : LoopState} {i : RoundInput} (hpass : FirstPass participants s)
    (h : Fresh s) (hback : ¬CallsBack participants s i)
    (hround : round participants s i = some s') (hfailed : s'.failedParticipants = ∅) :
    AllHeard participants s' ∨ Fresh s' := by
  obtain ⟨speaker, queue, hqueue, _, hended, _, hturn⟩ := round_cases hround
  obtain ⟨honce, hnodup, hnew⟩ := h.first hended hqueue
  cases hturn with
  | threw => exact .inr ⟨h.once, fun he => nomatch he⟩
  | skipped unavailable => exact absurd hfailed (Finset.insert_ne_empty _ _)
  | present => exact .inr ⟨honce, fun _ => ⟨hnodup, hnew⟩⟩
  | failed fallback => exact absurd hfailed (Finset.insert_ne_empty _ _)
  | replied fallback live content stream awaited =>
    by_cases hempty : prioritized participants speaker content queue = []
    · -- nobody waits any more, so everybody has been heard
      left
      intro p hp
      rcases waits_after hqueue (hpass.waiting hfailed hended p hp) with hwaits | hdone
      · have hmem : p ∈ prioritized participants speaker content queue :=
          mem_prioritized.mpr (.inr hwaits)
        rw [hempty] at hmem
        exact absurd hmem List.not_mem_nil
      · exact hdone
    · right
      have hkept : refilled participants speaker (s.turnCount + 1)
          (prioritized participants speaker content queue)
            = prioritized participants speaker content queue := if_neg fun hc => hempty hc.1
      refine ⟨honce, fun _ => ?_⟩
      show (refilled participants speaker (s.turnCount + 1)
          (prioritized participants speaker content queue)).Nodup ∧
        ∀ x ∈ refilled participants speaker (s.turnCount + 1)
          (prioritized participants speaker content queue),
          x ∉ insert speaker s.respondedParticipants
      rw [hkept]
      refine ⟨nodup_foldl_prioritize _ hnodup, ?_⟩
      intro x hx
      rcases mem_prioritized.mp hx with ⟨hmention, hmember, hne⟩ | hx
      · intro hmem
        have hdone := (Finset.mem_insert.mp hmem).resolve_left hne
        apply hback
        refine ⟨awaited, content, stream, x, hmention, hmember, hdone, ?_⟩
        rw [hqueue, List.head?_cons, ne_eq, Option.some.injEq]
        exact Ne.symm hne
      · exact hnew x hx

/-- A turn that has failed stays on record. -/
theorem failed_round {s s' : LoopState} {i : RoundInput}
    (hround : round participants s i = some s') (hfailed : s'.failedParticipants = ∅) :
    s.failedParticipants = ∅ := by
  obtain ⟨speaker, queue, _, _, _, _, hturn⟩ := round_cases hround
  cases hturn with
  | threw => exact hfailed
  | skipped unavailable => exact absurd hfailed (Finset.insert_ne_empty _ _)
  | present => exact hfailed
  | failed fallback => exact absurd hfailed (Finset.insert_ne_empty _ _)
  | replied fallback live content stream awaited => exact hfailed

theorem firstPass_run {es : List RoundInput} {s : LoopState}
    (hrun : (conveneLoop participants).exec (.start participants) es = some s) :
    FirstPass participants s :=
  Lts.exec_invariant (I := FirstPass participants) (C := fun _ _ => True)
    (fun _ _ _ hs _ h => firstPass_round hs h) es (firstPass_start participants) hrun
    (Lts.along_true es _)

theorem fresh_run (hnodup : participants.Nodup) {es : List RoundInput} {s : LoopState}
    (hrun : (conveneLoop participants).exec (.start participants) es = some s)
    (hback : (conveneLoop participants).Along (fun t i => ¬CallsBack participants t i)
      (.start participants) es)
    (hfailed : s.failedParticipants = ∅) : AllHeard participants s ∨ Fresh s := by
  have hinv : FirstPass participants s ∧
      (s.failedParticipants = ∅ → AllHeard participants s ∨ Fresh s) := by
    refine Lts.exec_invariant (M := conveneLoop participants)
      (I := fun s => FirstPass participants s ∧
        (s.failedParticipants = ∅ → AllHeard participants s ∨ Fresh s)) ?_ es ?_ hrun hback
    · intro s i s' hgiven
      obtain ⟨hpass, hfresh⟩ := hgiven
      intro hback hround
      refine ⟨firstPass_round hpass hround, fun hfailed => ?_⟩
      rcases hfresh (failed_round hround hfailed) with hall | hfresh
      · exact .inl (hall.round hround)
      · exact fresh_round hpass hfresh hback hround hfailed
    · refine ⟨firstPass_start participants, fun _ => .inr ⟨rfl, fun _ => ⟨hnodup, ?_⟩⟩⟩
      intro x _
      exact Finset.notMem_empty x
  exact hinv.2 hfailed

/-- A turn of the local fallback with this reply. -/
def repliesWith (content : String) : RoundInput where
  aborted := false
  head := ⟨none, true, false, false, false⟩
  turn := ⟨.ok content, false, 0⟩
  abortedAfter := false

/-- `a` and `b` mention each other until the cap, and `c` never speaks. -/
def pingPong : List RoundInput :=
  [repliesWith "@b", repliesWith "@a", repliesWith "@b", repliesWith "@a", repliesWith "@b",
    repliesWith "@a"]

end Kovael.Conversation
