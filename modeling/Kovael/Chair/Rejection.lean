import Kovael.Chair.Delivery

/-!
# Is a rejected reply awaited?

A promise that is rejected while nothing awaits it is an unhandled rejection.
`stream()` awaits `replyReceived` only after its POST, so what matters is where
a call is when its reply is rejected. Timer and abort only reject calls that
are at the `await` (they are armed right before it), so the one rejection that
can come too early is a failed submission that is accepted during the POST:
`rejections_handled_iff`.
-/

namespace Kovael.Chair

open Js (Number OrderedMap Clock)

variable {env : Env} {b b' : Bridge} {id : String} {s s' : Stream}

/-- Every pending reply that the step rejects belongs to a call that is at
`await replyReceived` when the step is over. -/
def RejectionHandled (env : Env) (b : Bridge) (e : Event) : Prop :=
  ∀ b', step env b e = some b' → ∀ id s s', b.streams.get? id = some s →
    b'.streams.get? id = some s' → s.replyReceived = .pending →
    (∃ err, s'.replyReceived = .rejected err) → s'.phase = .awaitingReply

/-- A failed submission that passes the checks finds its call at
`await replyReceived`. -/
def Timely (env : Env) (b : Bridge) : Event → Prop
  | .submit _ input =>
    input.effectiveStatus = .failed →
      ∀ pending, b.pendingReplies.get? input.requestId = some pending →
        refusal env input pending = none →
        ∀ s, b.streams.get? input.requestId = some s → s.phase = .awaitingReply
  | _ => True

/-- An evolution rejects no call that does not await. -/
theorem Evolves.handled (h : Evolves b b' id s s') {k : String} {t t' : Stream}
    (ht : b.streams.get? k = some t) (ht' : b'.streams.get? k = some t')
    (hpend : t.replyReceived = .pending) {err : StreamError}
    (hrej : t'.replyReceived = .rejected err) : t'.phase = .awaitingReply := by
  rw [h.after] at ht'
  by_cases hk : k = id
  · rw [if_pos hk, Option.some.injEq] at ht'
    rw [hk, h.before, Option.some.injEq] at ht
    rw [← ht] at hpend
    rw [← ht'] at hrej ⊢
    rcases h.reply with heq | ⟨-, hphase, -⟩
    · rw [heq, hpend] at hrej
      exact absurd hrej (by simp)
    · exact hphase
  · rw [if_neg hk, ht, Option.some.injEq] at ht'
    rw [← ht', hpend] at hrej
    exact absurd hrej (by simp)

/-- A start rejects nothing: its call is new, and the others stay as they are. -/
theorem start_handled (hb : Wired env b) {i : StartInput} (hstep : start i b = some b')
    {k : String} {t t' : Stream} (ht : b.streams.get? k = some t)
    (ht' : b'.streams.get? k = some t') (hpend : t.replyReceived = .pending) {err : StreamError}
    (hrej : t'.replyReceived = .rejected err) : t'.phase = .awaitingReply := by
  rcases start_cases hstep with ⟨message, rfl⟩ | ⟨claim, hfresh, rfl⟩
  · have hsame : b.streams.get? k = some t' := ht'
    rw [ht, Option.some.injEq] at hsame
    rw [← hsame, hpend] at hrej
    exact absurd hrej (by simp)
  · have hfiled : Wired env (b.file (i.stream claim) (i.pending claim)) :=
      file_wired hb hfresh rfl rfl rfl rfl
        ⟨⟨rfl, rfl⟩, fun harmed => absurd harmed (by simp [StartInput.stream])⟩
    obtain ⟨s', hs'⟩ := dispatch_evolves hfiled ((get_put ..).trans (if_pos rfl)) rfl i
    have hne : k ≠ (i.stream claim).requestId := by
      intro hk
      rw [hk] at ht
      exact absurd (hfresh.symm.trans ht) (by simp)
    have hkeep : (dispatch i (i.stream claim)
        (b.file (i.stream claim) (i.pending claim))).streams.get? k = some t := by
      rw [hs'.after, if_neg hne]
      exact (get_put ..).trans ((if_neg hne).trans ht)
    rw [hkeep, Option.some.injEq] at ht'
    rw [← ht', hpend] at hrej
    exact absurd hrej (by simp)

/-- A submission is handled exactly when it is timely. -/
theorem submit_handled_iff (hb : Wired env b) (clock : Clock) (input : ChairReplySubmission) :
    RejectionHandled env b (.submit clock input) ↔ Timely env b (.submit clock input) := by
  rcases submit_cases env clock input b with ⟨status, code, heq⟩ | ⟨pending, hp, hpass, heq⟩
  · -- refused: nothing is rejected, and no entry passes the checks
    constructor
    · intro _ _ pending hp hpass
      have hok := submit_accepts clock hp hpass
      rw [heq] at hok
      exact absurd hok (by simp)
    · intro _ b' hstep id s s' hs hs' hpend hrej
      obtain ⟨err, hrej⟩ := hrej
      rw [step, Option.some.injEq, heq] at hstep
      rw [← hstep, hs, Option.some.injEq] at hs'
      rw [← hs', hpend] at hrej
      exact absurd hrej (by simp)
  · obtain ⟨s, hs, hpend, -⟩ := hb.pending _ _ hp
    let receipt := receiptOf env clock input pending
    have hstep : step env b (.submit clock input) = some (b.accept input receipt) := by
      rw [step, heq]
      rfl
    constructor
    · intro hhandled hfailed pending' _ _ t ht
      rw [hs, Option.some.injEq] at ht
      rw [← ht]
      have hrej : ∃ err, replyOf input receipt = .rejected err := by
        rw [replyOf, show receipt.status = .failed from hfailed]
        exact ⟨_, rfl⟩
      -- answering the call does not move it on
      exact hhandled _ hstep input.requestId s (s.answer (replyOf input receipt)) hs
        ((get_accept hs hpend receipt _).trans (if_pos rfl)) hpend hrej
    · intro htimely b' hstep' id t t' ht ht' htpend hrej
      obtain ⟨err, hrej⟩ := hrej
      rw [hstep, Option.some.injEq] at hstep'
      rw [← hstep', get_accept hs hpend] at ht'
      by_cases hk : id = input.requestId
      · rw [if_pos hk, Option.some.injEq] at ht'
        rw [← ht'] at hrej ⊢
        have hfailed : input.effectiveStatus = .failed := by
          cases hst : input.effectiveStatus with
          | failed => rfl
          | succeeded =>
            have hres : replyOf input receipt = .resolved ⟨input.content.getD "", receipt⟩ := by
              rw [replyOf, show receipt.status = .succeeded from hst]
            exact absurd (hres.symm.trans hrej) (by simp)
        exact htimely hfailed pending hp hpass s hs
      · rw [if_neg hk, ht, Option.some.injEq] at ht'
        rw [← ht', htpend] at hrej
        exact absurd hrej (by simp)

/-- One step is handled exactly when it is timely. -/
theorem handled_iff_timely (hb : Wired env b) (e : Event) :
    RejectionHandled env b e ↔ Timely env b e := by
  by_cases hsub : ∃ clock input, e = .submit clock input
  · obtain ⟨clock, input, rfl⟩ := hsub
    exact submit_handled_iff hb clock input
  · have htimely : Timely env b e := by
      cases e with
      | submit clock input => exact absurd ⟨clock, input, rfl⟩ hsub
      | _ => trivial
    refine ⟨fun _ => htimely, ?_⟩
    intro _ b' hstep id s s' hs hs' hpend hrej
    obtain ⟨err, hrej⟩ := hrej
    rcases step_cases hb hstep with ⟨i, rfl⟩ | ⟨clock, input, rfl⟩ | ⟨id', t, t', hev⟩
    · exact start_handled hb hstep hs hs' hpend hrej
    · exact absurd ⟨clock, input, rfl⟩ hsub
    · exact hev.handled hs hs' hpend hrej

/-- **Rejections are awaited, unless a failed reply comes during the POST.** In
every run, each rejection of a pending reply leaves its call at
`await replyReceived`, if and only if each failed submission that passes the
checks finds its call there. -/
theorem rejections_handled_iff (env : Env) (es : List Event) :
    (bridge env).Along (RejectionHandled env) (bridge env).init es ↔
      (bridge env).Along (Timely env) (bridge env).init es := by
  have hstep : ∀ b e b', Wired env b → True → (bridge env).step b e = some b' → Wired env b' :=
    fun _ _ _ hb _ hst => step_wired hb hst
  constructor
  · intro h
    refine Lts.along_of_invariant (I := Wired env) (C := RejectionHandled env)
      (fun b e b' hb _ hst => hstep b e b' hb trivial hst) ?_ es init_wired h
    intro b e hb hhandled
    exact (handled_iff_timely hb e).mp hhandled
  · intro h
    refine Lts.along_of_invariant (I := Wired env) (C := Timely env)
      (fun b e b' hb _ hst => hstep b e b' hb trivial hst) ?_ es init_wired h
    intro b e hb htimely
    exact (handled_iff_timely hb e).mpr htimely

/-- A failed reply that is accepted during the POST rejects a promise that
nothing awaits: the call is still inside its `fetch`. -/
theorem early_failure_unhandled :
    ¬ (bridge sampleEnv).Along (RejectionHandled sampleEnv) (bridge sampleEnv).init
      [.start sampleStart, .submit (fun _ => 5) (sampleReply .failed)] := by
  have hstart : (sampleRun [.start sampleStart]).map (fun x => x.2.replyReceived)
      = some .pending := by
    decide +kernel
  have hend : (sampleRun [.start sampleStart, .submit (fun _ => 5) (sampleReply .failed)]).map
      (fun x => (x.2.phase, x.2.replyReceived))
      = some (.posting 0,
          .rejected (.replyFailure "two words" (sampleReceipt .failed))) := by
    decide +kernel
  obtain ⟨⟨b₁, s₁⟩, hrun₁, hpend⟩ := Option.map_eq_some_iff.mp hstart
  obtain ⟨⟨b₂, s₂⟩, hrun₂, hrej⟩ := Option.map_eq_some_iff.mp hend
  rw [Prod.mk.injEq] at hrej
  obtain ⟨hexec₁, hs₁⟩ := sampleRun_eq hrun₁
  obtain ⟨hexec₂, hs₂⟩ := sampleRun_eq hrun₂
  obtain ⟨t, hstep₁, ht⟩ := Lts.exec_cons.mp hexec₁
  obtain ⟨t', hstep₁', hexec₂⟩ := Lts.exec_cons.mp hexec₂
  obtain ⟨u, hstep₂, hu⟩ := Lts.exec_cons.mp hexec₂
  rw [Lts.exec_nil, Option.some.injEq] at ht hu
  have hsame : t' = b₁ := by
    rw [hstep₁, Option.some.injEq] at hstep₁'
    rw [← hstep₁', ht]
  rw [hsame] at hstep₂
  rw [hu] at hstep₂
  intro halong
  obtain ⟨-, halong⟩ := (Lts.along_cons (ht ▸ hstep₁)).mp halong
  obtain ⟨hhandled, -⟩ := (Lts.along_cons hstep₂).mp halong
  have hawait := hhandled b₂ hstep₂ sampleRequest s₁ s₂ hs₁ hs₂ hpend ⟨_, hrej.2⟩
  rw [hrej.1] at hawait
  exact absurd hawait (by simp)

end Kovael.Chair
