import Kovael.Chair.CircuitBreaker

/-!
# What a circuit says of its history

A circuit has a state that its questions change: the first one after the recovery time
opens it half, and the next failure opens it again. `Blocked` says the same without a
state, of the calls so far: enough failures since the last success, the last of them
recent, and no question since then that came late enough. The two agree after any calls
in any order and at any times (`canDispatch_iff_blocked`).

`Remembers` ties the circuit to the calls; `remembers_step` is its step lemma. The calls are
listed from the newest, as they are looked at.
-/

namespace Kovael.Chair

/-- A call of a method of the breaker. -/
inductive CircuitCall where
  | canDispatch (agentId : String) (now : Int)
  | recordFailure (agentId : String) (now : Int)
  | recordSuccess (agentId : String)
  deriving DecidableEq, Repr

namespace CircuitCall

def agentId : CircuitCall → String
  | canDispatch agentId _ => agentId
  | recordFailure agentId _ => agentId
  | recordSuccess agentId => agentId

/-- The time of a failure of the agent. -/
def failure? (a : String) : CircuitCall → Option Int
  | recordFailure agentId now => if agentId = a then some now else none
  | _ => none

/-- The time of a question about the agent. -/
def question? (a : String) : CircuitCall → Option Int
  | canDispatch agentId now => if agentId = a then some now else none
  | _ => none

/-- A success of the agent. -/
def isSuccess (a : String) : CircuitCall → Bool
  | recordSuccess agentId => agentId = a
  | _ => false

/-- The call is made. -/
def perform (cb : CircuitBreaker) : CircuitCall → CircuitBreaker
  | canDispatch agentId now => (cb.canDispatch agentId now).2
  | recordFailure agentId now => cb.recordFailure agentId now
  | recordSuccess agentId => cb.recordSuccess agentId

end CircuitCall

/-- The breaker after the calls, which are in the order they were made. -/
def afterCalls (cfg : CircuitBreakerConfig) (calls : List CircuitCall) : CircuitBreaker :=
  calls.foldl CircuitCall.perform (.new cfg)

/-! ## Histories -/

/-- The times of the failures since the last success, the last one first. -/
def failuresSince (a : String) (earlier : List CircuitCall) : List Int :=
  (earlier.takeWhile fun c => !c.isSuccess a).filterMap (CircuitCall.failure? a)

/-- The times of the questions since the last failure. -/
def questionsSince (a : String) (earlier : List CircuitCall) : List Int :=
  (earlier.takeWhile fun c => (c.failure? a).isNone).filterMap (CircuitCall.question? a)

/-- There are enough failures, and at `now` and at every question since then the last of them
was less than `recoveryMs` old. -/
def Blocked (cfg : CircuitBreakerConfig) (a : String) (earlier : List CircuitCall) (now : Int) :
    Prop :=
  cfg.failureThreshold ≤ (failuresSince a earlier).length ∧
    ∃ t, (failuresSince a earlier).head? = some t ∧ now - t < cfg.recoveryMs ∧
      ¬ ∃ q ∈ questionsSince a earlier, cfg.recoveryMs ≤ q - t

/-! ## The circuit and its history -/

/-- A circuit has what the calls so far say of it. -/
structure Remembers (cfg : CircuitBreakerConfig) (a : String) (earlier : List CircuitCall)
    (circuit : ChairCircuitSnapshot) : Prop where
  failures : circuit.failures = (failuresSince a earlier).length
  openedAt : cfg.failureThreshold ≤ circuit.failures →
    circuit.openedAt = (failuresSince a earlier).head?
  opened : circuit.state = .opened ↔ cfg.failureThreshold ≤ circuit.failures ∧
    ∀ q ∈ questionsSince a earlier, ∀ t ∈ (failuresSince a earlier).head?,
      q - t < cfg.recoveryMs

variable {cfg : CircuitBreakerConfig} {a : String} {earlier : List CircuitCall}
  {circuit : ChairCircuitSnapshot}

/-- A call about another agent is none of this one's history. -/
theorem since_other {c : CircuitCall} (hne : c.agentId ≠ a) (earlier : List CircuitCall) :
    failuresSince a (c :: earlier) = failuresSince a earlier ∧
      questionsSince a (c :: earlier) = questionsSince a earlier := by
  have hfailure : c.failure? a = none := by
    cases c with
    | recordFailure agentId now => exact if_neg hne
    | canDispatch agentId now => rfl
    | recordSuccess agentId => rfl
  have hquestion : c.question? a = none := by
    cases c with
    | canDispatch agentId now => exact if_neg hne
    | recordFailure agentId now => rfl
    | recordSuccess agentId => rfl
  have hsuccess : c.isSuccess a = false := by
    cases c with
    | recordSuccess agentId => exact decide_eq_false hne
    | canDispatch agentId now => rfl
    | recordFailure agentId now => rfl
  constructor
  · rw [failuresSince, List.takeWhile_cons_of_pos (by rw [hsuccess]; rfl),
      List.filterMap_cons_none hfailure]
    rfl
  · rw [questionsSince, List.takeWhile_cons_of_pos (by rw [hfailure]; rfl),
      List.filterMap_cons_none hquestion]
    rfl

theorem failuresSince_question (a : String) (now : Int) (earlier : List CircuitCall) :
    failuresSince a (.canDispatch a now :: earlier) = failuresSince a earlier := rfl

theorem questionsSince_question (a : String) (now : Int) (earlier : List CircuitCall) :
    questionsSince a (.canDispatch a now :: earlier) = now :: questionsSince a earlier := by
  rw [questionsSince, List.takeWhile_cons_of_pos rfl]
  exact List.filterMap_cons_some (if_pos rfl)

theorem failuresSince_failure (a : String) (now : Int) (earlier : List CircuitCall) :
    failuresSince a (.recordFailure a now :: earlier) = now :: failuresSince a earlier := by
  rw [failuresSince, List.takeWhile_cons_of_pos rfl]
  exact List.filterMap_cons_some (if_pos rfl)

theorem questionsSince_failure (a : String) (now : Int) (earlier : List CircuitCall) :
    questionsSince a (.recordFailure a now :: earlier) = [] := by
  have hfailure : (CircuitCall.recordFailure a now).failure? a = some now := if_pos rfl
  rw [questionsSince, List.takeWhile_cons_of_neg (by rw [hfailure]; exact Bool.false_ne_true)]
  rfl

theorem failuresSince_success (a : String) (earlier : List CircuitCall) :
    failuresSince a (.recordSuccess a :: earlier) = [] := by
  have hsuccess : (CircuitCall.recordSuccess a).isSuccess a = true := decide_eq_true rfl
  rw [failuresSince, List.takeWhile_cons_of_neg (by rw [hsuccess]; exact Bool.false_ne_true)]
  rfl

theorem questionsSince_success (a : String) (earlier : List CircuitCall) :
    questionsSince a (.recordSuccess a :: earlier) = questionsSince a earlier := rfl

/-- The history of an agent is that of the calls about it. -/
theorem since_filter (a : String) (earlier : List CircuitCall) :
    failuresSince a (earlier.filter fun c => c.agentId = a) = failuresSince a earlier ∧
      questionsSince a (earlier.filter fun c => c.agentId = a) = questionsSince a earlier := by
  induction earlier with
  | nil => exact ⟨rfl, rfl⟩
  | cons c earlier ih =>
    obtain ⟨hfailures, hquestions⟩ := ih
    by_cases hc : c.agentId = a
    · rw [List.filter_cons_of_pos (by simpa using hc)]
      cases c with
      | canDispatch agentId now =>
        obtain rfl : agentId = a := hc
        rw [failuresSince_question, failuresSince_question, questionsSince_question,
          questionsSince_question, hquestions]
        exact ⟨hfailures, rfl⟩
      | recordFailure agentId now =>
        obtain rfl : agentId = a := hc
        rw [failuresSince_failure, failuresSince_failure, questionsSince_failure,
          questionsSince_failure, hfailures]
        exact ⟨rfl, rfl⟩
      | recordSuccess agentId =>
        obtain rfl : agentId = a := hc
        rw [failuresSince_success, failuresSince_success, questionsSince_success,
          questionsSince_success]
        exact ⟨rfl, hquestions⟩
    · rw [List.filter_cons_of_neg (by simpa using hc), (since_other hc earlier).1,
        (since_other hc earlier).2]
      exact ⟨hfailures, hquestions⟩

/-- With as many failures as the threshold there is a last one. -/
theorem exists_last (hcfg : 1 ≤ cfg.failureThreshold) {times : List Int}
    (h : cfg.failureThreshold ≤ times.length) : ∃ t, times.head? = some t := by
  cases times with
  | nil =>
    rw [List.length_nil] at h
    omega
  | cons t times => exact ⟨t, rfl⟩

/-- A question is remembered by the state. -/
theorem remembers_question (hcfg : 1 ≤ cfg.failureThreshold) {cb : CircuitBreaker} (hcb : cb.cfg = cfg)
    (h : Remembers cfg a earlier (cb.ensure a)) (now : Int) :
    Remembers cfg a (.canDispatch a now :: earlier) ((cb.canDispatch a now).2.ensure a) := by
  -- the circuit stays as it is when it is not open, or when it has not recovered
  have hsame : (cb.ensure a).state ≠ .opened ∨ cb.recovered now (cb.ensure a) = false →
      Remembers cfg a (.canDispatch a now :: earlier) (cb.ensure a) := by
    intro hkeep
    refine ⟨h.failures, h.openedAt, ?_⟩
    rw [failuresSince_question, questionsSince_question, h.opened]
    refine and_congr_right fun hfailures => ?_
    rw [List.forall_mem_cons]
    constructor
    · intro hall
      refine ⟨?_, hall⟩
      intro t ht
      rcases hkeep with hnot | hrecovered
      · exact absurd (h.opened.mpr ⟨hfailures, hall⟩) hnot
      · rw [CircuitBreaker.recovered, h.openedAt hfailures, Option.mem_def.mp ht, Option.any_some,
          hcb, decide_eq_false_iff_not] at hrecovered
        exact Int.lt_of_not_ge hrecovered
    · intro hall
      exact hall.2
  rw [CircuitBreaker.canDispatch]
  split
  next hstate =>
    rw [CircuitBreaker.ensure_put, if_pos rfl]
    exact hsame (Or.inl hstate)
  next hstate =>
    split
    next hrecovered =>
      rw [CircuitBreaker.ensure_put, if_pos rfl]
      refine ⟨h.failures, h.openedAt, ?_⟩
      have hfailures := (h.opened.mp (not_not.mp hstate)).1
      constructor
      · intro hopen
        cases hopen
      · intro hgiven
        obtain ⟨-, hall⟩ := hgiven
        obtain ⟨t, ht⟩ := exists_last hcfg (h.failures ▸ hfailures)
        rw [CircuitBreaker.recovered, h.openedAt hfailures, ht, Option.any_some, hcb,
          decide_eq_true_eq] at hrecovered
        have hlt := hall now (by rw [questionsSince_question]; exact List.mem_cons_self ..) t ht
        omega
    next hrecovered =>
      rw [CircuitBreaker.ensure_put, if_pos rfl]
      exact hsame (Or.inr (Bool.not_eq_true _ |>.mp hrecovered))

/-- A failure is the last one, and no question came after it. -/
theorem remembers_failure {cb : CircuitBreaker} (hcb : cb.cfg = cfg)
    (h : Remembers cfg a earlier (cb.ensure a)) (now : Int) :
    Remembers cfg a (.recordFailure a now :: earlier) ((cb.recordFailure a now).ensure a) := by
  have hcount : (cb.ensure a).failures + 1
      = (failuresSince a (.recordFailure a now :: earlier)).length := by
    rw [failuresSince_failure, List.length_cons, h.failures]
  rw [CircuitBreaker.recordFailure, hcb]
  split
  next hthreshold =>
    rw [CircuitBreaker.ensure_put, if_pos rfl]
    refine ⟨hcount, ?_, ?_⟩
    · intro _
      rw [failuresSince_failure, List.head?_cons]
    · rw [questionsSince_failure]
      exact iff_of_true rfl ⟨hthreshold, fun q hq => absurd hq List.not_mem_nil⟩
  next hthreshold =>
    rw [CircuitBreaker.ensure_put, if_pos rfl]
    refine ⟨hcount, fun hle => absurd hle hthreshold, ?_⟩
    refine iff_of_false ?_ (fun hopen => hthreshold hopen.1)
    -- it had not opened before either
    intro hopen
    have hbefore := (h.opened.mp hopen).1
    omega

theorem remembers_success (hcfg : 1 ≤ cfg.failureThreshold) (cb : CircuitBreaker) :
    Remembers cfg a (.recordSuccess a :: earlier) ((cb.recordSuccess a).ensure a) := by
  rw [CircuitBreaker.recordSuccess, CircuitBreaker.ensure_put, if_pos rfl]
  refine ⟨?_, ?_, ?_⟩
  · rw [failuresSince_success]
    rfl
  · intro _
    rw [failuresSince_success]
    rfl
  · constructor
    · intro hopen
      cases hopen
    · intro hgiven
      obtain ⟨hthreshold, -⟩ := hgiven
      have hzero : cfg.failureThreshold ≤ 0 := hthreshold
      omega

/-- A call about another agent leaves the circuit. -/
theorem ensure_perform_ne (cb : CircuitBreaker) {c : CircuitCall} (hne : c.agentId ≠ a) :
    (c.perform cb).ensure a = cb.ensure a := by
  cases c with
  | canDispatch agentId now =>
    obtain ⟨circuit, heq, -⟩ := CircuitBreaker.canDispatch_eq cb agentId now
    rw [CircuitCall.perform, heq, CircuitBreaker.ensure_put]
    exact if_neg (Ne.symm hne)
  | recordFailure agentId now =>
    obtain ⟨circuit, heq, -⟩ := CircuitBreaker.recordFailure_eq cb agentId now
    rw [CircuitCall.perform, heq, CircuitBreaker.ensure_put]
    exact if_neg (Ne.symm hne)
  | recordSuccess agentId =>
    rw [CircuitCall.perform, CircuitBreaker.recordSuccess, CircuitBreaker.ensure_put]
    exact if_neg (Ne.symm hne)

theorem cfg_perform (cb : CircuitBreaker) (c : CircuitCall) : (c.perform cb).cfg = cb.cfg := by
  cases c with
  | canDispatch agentId now =>
    obtain ⟨circuit, heq, -⟩ := CircuitBreaker.canDispatch_eq cb agentId now
    rw [CircuitCall.perform, heq]
    rfl
  | recordFailure agentId now =>
    obtain ⟨circuit, heq, -⟩ := CircuitBreaker.recordFailure_eq cb agentId now
    rw [CircuitCall.perform, heq]
    rfl
  | recordSuccess agentId => rfl

/-- A call is added to the history. -/
theorem remembers_step (hcfg : 1 ≤ cfg.failureThreshold) {cb : CircuitBreaker} (hcb : cb.cfg = cfg)
    (h : Remembers cfg a earlier (cb.ensure a)) (c : CircuitCall) :
    Remembers cfg a (c :: earlier) ((c.perform cb).ensure a) := by
  by_cases hne : c.agentId = a
  · cases c with
    | canDispatch agentId now =>
      subst hne
      exact remembers_question hcfg hcb h now
    | recordFailure agentId now =>
      subst hne
      exact remembers_failure hcb h now
    | recordSuccess agentId =>
      subst hne
      exact remembers_success hcfg cb
  · obtain ⟨hfailures, hquestions⟩ := since_other hne earlier
    rw [ensure_perform_ne cb hne]
    refine ⟨?_, ?_, ?_⟩
    · rw [hfailures]
      exact h.failures
    · rw [hfailures]
      exact h.openedAt
    · rw [hfailures, hquestions]
      exact h.opened

/-- After the calls every circuit has what they say of it. -/
theorem remembers_foldl (hcfg : 1 ≤ cfg.failureThreshold) (calls : List CircuitCall) :
    ∀ {cb : CircuitBreaker} {earlier : List CircuitCall}, cb.cfg = cfg →
      Remembers cfg a earlier (cb.ensure a) →
        (calls.foldl CircuitCall.perform cb).cfg = cfg ∧
          Remembers cfg a (calls.reverse ++ earlier)
            ((calls.foldl CircuitCall.perform cb).ensure a) := by
  induction calls with
  | nil =>
    intro cb earlier hcb h
    exact ⟨hcb, h⟩
  | cons c calls ih =>
    intro cb earlier hcb h
    rw [List.foldl_cons, List.reverse_cons, List.append_assoc, List.singleton_append]
    exact ih ((cfg_perform cb c).trans hcb) (remembers_step hcfg hcb h c)

theorem remembers_new (hcfg : 1 ≤ cfg.failureThreshold) :
    Remembers cfg a [] ((CircuitBreaker.new cfg).ensure a) where
  failures := rfl
  openedAt := fun _ => rfl
  opened := by
    constructor
    · intro hopen
      cases hopen
    · intro hgiven
      obtain ⟨hthreshold, -⟩ := hgiven
      have hzero : cfg.failureThreshold ≤ 0 := hthreshold
      omega

/-- Whether a dispatch is let through, by the history. -/
theorem canDispatch_of_reads (hcfg : 1 ≤ cfg.failureThreshold) {cb : CircuitBreaker}
    (hcb : cb.cfg = cfg) (h : Remembers cfg a earlier (cb.ensure a)) (now : Int) :
    (cb.canDispatch a now).1 = false ↔ Blocked cfg a earlier now := by
  rw [← Bool.not_eq_true, CircuitBreaker.canDispatch_fst, not_or, not_not, h.opened, h.failures]
  rw [Blocked, and_assoc]
  refine and_congr_right fun hthreshold => ?_
  obtain ⟨t, ht⟩ := exists_last hcfg hthreshold
  have hthreshold' : cfg.failureThreshold ≤ (cb.ensure a).failures := h.failures ▸ hthreshold
  rw [CircuitBreaker.recovered, h.openedAt hthreshold', ht, Option.any_some, hcb,
    decide_eq_true_eq, Int.not_le]
  constructor
  · intro hgiven
    obtain ⟨hall, hnow⟩ := hgiven
    refine ⟨t, rfl, hnow, ?_⟩
    intro hgiven
    obtain ⟨q, hq, hlate⟩ := hgiven
    have hlt := hall q hq t rfl
    omega
  · intro hgiven
    obtain ⟨t', ht', hnow, hall⟩ := hgiven
    obtain rfl := Option.some.inj ht'
    refine ⟨?_, hnow⟩
    intro q hq t' ht'
    obtain rfl := Option.some.inj ht'
    exact Int.lt_of_not_ge fun hlate => hall ⟨q, hq, hlate⟩

/-- A dispatch is refused exactly if the history of the agent says so, whatever was called
for other agents. -/
theorem canDispatch_iff_blocked (cfg : CircuitBreakerConfig) (hcfg : 1 ≤ cfg.failureThreshold)
    (calls : List CircuitCall) (a : String) (now : Int) :
    (((afterCalls cfg calls).canDispatch a now).1 = false ↔ Blocked cfg a calls.reverse now) ∧
      ((afterCalls cfg calls).canDispatch a now).1
        = ((afterCalls cfg (calls.filter fun c => c.agentId = a)).canDispatch a now).1 := by
  obtain ⟨hcb, hreads⟩ := @remembers_foldl cfg a hcfg calls (.new cfg) [] rfl (remembers_new hcfg)
  rw [List.append_nil] at hreads
  refine ⟨canDispatch_of_reads hcfg hcb hreads now, ?_⟩
  -- both answers are those of one history
  obtain ⟨hcb', hreads'⟩ := @remembers_foldl cfg a hcfg (calls.filter fun c => c.agentId = a)
    (.new cfg) [] rfl (remembers_new hcfg)
  rw [List.append_nil] at hreads'
  rw [Bool.eq_iff_iff, ← not_iff_not, Bool.not_eq_true, Bool.not_eq_true, afterCalls, afterCalls,
    canDispatch_of_reads hcfg hcb hreads now, canDispatch_of_reads hcfg hcb' hreads' now, Blocked,
    Blocked, ← List.filter_reverse, (since_filter a calls.reverse).1,
    (since_filter a calls.reverse).2]

/-- Two failures, and a question before the recovery time. -/
theorem two_failures_blocked :
    (((afterCalls ⟨2, 1000⟩ [.recordFailure "shaev" 1000, .recordFailure "shaev" 1100]).canDispatch
      "shaev" 1500).1 = false ↔
        Blocked ⟨2, 1000⟩ "shaev" [.recordFailure "shaev" 1100, .recordFailure "shaev" 1000] 1500) ∧
      Blocked ⟨2, 1000⟩ "shaev" [.recordFailure "shaev" 1100, .recordFailure "shaev" 1000] 1500 := by
  refine ⟨(canDispatch_iff_blocked ⟨2, 1000⟩ (by decide) _ "shaev" 1500).1, ?_⟩
  exact ⟨by decide, 1100, rfl, by decide, by simp [questionsSince, CircuitCall.failure?]⟩

end Kovael.Chair
