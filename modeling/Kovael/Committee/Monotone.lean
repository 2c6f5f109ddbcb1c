import Mathlib.Data.List.Forall2
import Kovael.Committee.Verdict

/-!
# Support and dissent

Two evaluations of lists of votes that differ in one vote. The lists are compared vote by
vote (`List.Forall₂`), and the comparison is carried through the completion for missing
participants, the normalization and the sums to the two scores, in which the status is
monotone.

`committee_monotone` is about more support. More dissent is no reverse of it: the mean
confidence is over all votes, whatever they are for, so a stronger rejection raises it
(`dissent_accepts_iff`).
-/

namespace Kovael.Committee

open Js (Number)

/-! ## Normalized numbers -/

theorem clampRange_mono {q q' min max : ℚ} (h : q ≤ q') :
    clampRange (.fin q) min max ≤ clampRange (.fin q') min max :=
  min_le_min_left max (max_le_max_left min h)

theorem le_clampRange {value : Number} {min max : ℚ} (h : min ≤ max) :
    min ≤ clampRange value min max := by
  unfold clampRange
  split
  next q => exact le_min h (le_max_left min q)
  next => exact le_refl min

theorem clamp01_nonneg (value : Number) : 0 ≤ clamp01 value := le_clampRange zero_le_one

theorem voteWeight_nonneg (weight : Option Number) : 0 ≤ voteWeight weight := by
  unfold voteWeight
  split
  next q _ => exact le_max_left 0 q
  next => exact zero_le_one

theorem CommitteeOptions.le_quorum (options : CommitteeOptions) : 6 / 10 ≤ options.quorum :=
  le_clampRange (by norm_num)

/-! ## The status -/

/-- The place of a status in the order `needs_sidecar < failed < accepted`. -/
def CommitteeStatus.rank : CommitteeStatus → Nat
  | .needsSidecar => 0
  | .failed => 1
  | .accepted => 2

theorem statusOf_eq_accepted_iff {quorum failure support mean : ℚ} :
    statusOf quorum failure support mean = .accepted ↔ quorum ≤ support ∧ quorum ≤ mean := by
  unfold statusOf
  split
  next h => exact iff_of_true rfl h
  next h =>
    refine iff_of_false ?_ h
    split <;> simp

/-- A status does not fall while the scores stay over the thresholds that they are over. -/
theorem statusOf_rank_le {quorum failure support support' mean mean' : ℚ}
    (hsupport : ∀ t ∈ [quorum, failure], t ≤ support → t ≤ support')
    (hmean : ∀ t ∈ [quorum, failure], t ≤ mean → t ≤ mean') :
    (statusOf quorum failure support mean).rank ≤ (statusOf quorum failure support' mean').rank := by
  have hquorum : quorum ∈ [quorum, failure] := List.mem_cons_self ..
  have hfailure : failure ∈ [quorum, failure] := List.mem_cons_of_mem _ (List.mem_cons_self ..)
  unfold statusOf
  by_cases haccept : quorum ≤ support ∧ quorum ≤ mean
  · rw [if_pos haccept, if_pos ⟨hsupport _ hquorum haccept.1, hmean _ hquorum haccept.2⟩]
  · rw [if_neg haccept]
    by_cases hbelow : support < failure ∨ mean < failure
    · rw [if_pos hbelow]
      exact Nat.zero_le _
    · rw [if_neg hbelow]
      rw [not_or, not_lt, not_lt] at hbelow
      have hbelow' : ¬(support' < failure ∨ mean' < failure) := by
        rw [not_or, not_lt, not_lt]
        exact ⟨hsupport _ hfailure hbelow.1, hmean _ hfailure hbelow.2⟩
      rw [if_neg hbelow']
      split
      · exact Nat.le_succ 1
      · exact le_refl 1

/-! ## Lists that are compared vote by vote -/

section Lists

variable {α β : Type} {R : α → β → Prop}

theorem forall₂_find? {p : α → Bool} {q : β → Bool} (hpq : ∀ a b, R a b → p a = q b)
    {l : List α} {l' : List β} (h : List.Forall₂ R l l') :
    Option.Rel R (l.find? p) (l'.find? q) := by
  induction h with
  | nil => exact .none
  | @cons a b l l' hab _ ih =>
    rw [List.find?_cons, List.find?_cons, ← hpq a b hab]
    cases p a with
    | true => exact .some hab
    | false => exact ih

theorem forall₂_mapIdx {γ : Type} {f : Nat → γ → α} {g : Nat → γ → β}
    (h : ∀ i c, R (f i c) (g i c)) (l : List γ) : List.Forall₂ R (l.mapIdx f) (l.mapIdx g) := by
  induction l generalizing f g with
  | nil => exact .nil
  | cons c l ih =>
    rw [List.mapIdx_cons, List.mapIdx_cons]
    exact .cons (h 0 c) (ih fun i c => h (i + 1) c)

theorem forall₂_map_eq {γ : Type} {f : α → γ} {g : β → γ} (hfg : ∀ a b, R a b → f a = g b)
    {l : List α} {l' : List β} (h : List.Forall₂ R l l') : l.map f = l'.map g := by
  induction h with
  | nil => rfl
  | @cons a b l l' hab _ ih => rw [List.map_cons, List.map_cons, hfg a b hab, ih]

theorem forall₂_sum_le {f : α → ℚ} {g : β → ℚ} (hfg : ∀ a b, R a b → f a ≤ g b)
    {l : List α} {l' : List β} (h : List.Forall₂ R l l') : (l.map f).sum ≤ (l'.map g).sum := by
  refine List.Forall₂.sum_le_sum ?_
  rw [List.forall₂_map_left_iff, List.forall₂_map_right_iff]
  exact h.imp fun a b => hfg a b

end Lists

/-- The completion keeps a comparison of votes of one agent. -/
theorem forall₂_complete {R : CommitteeVote → CommitteeVote → Prop}
    (hmissing : ∀ agentId index, R (missingVote agentId index) (missingVote agentId index))
    (hagent : ∀ v v', R v v' → v.agentId = v'.agentId) {votes votes' : List CommitteeVote}
    (h : List.Forall₂ R votes votes') (active : Option (List String)) :
    List.Forall₂ R (completeParticipantVotes votes active)
      (completeParticipantVotes votes' active) := by
  unfold completeParticipantVotes
  split
  next => exact h
  next => exact h
  next participants _ =>
    have houtsiders : List.Forall₂ R (votes.filter fun vote => vote.agentId ∉ participants)
        (votes'.filter fun vote => vote.agentId ∉ participants) := by
      refine List.rel_filter ?_ h
      intro v v' hv
      show decide (v.agentId ∉ participants) = true ↔ decide (v'.agentId ∉ participants) = true
      rw [hagent v v' hv]
    refine List.rel_append (forall₂_mapIdx (fun index agentId => ?_) participants) houtsiders
    have hfound : Option.Rel R (byAgent votes agentId) (byAgent votes' agentId) :=
      forall₂_find? (fun v v' hv => by rw [hagent v v' hv]) (List.rel_reverse h)
    revert hfound
    generalize byAgent votes agentId = found, byAgent votes' agentId = found'
    intro hfound
    cases hfound with
    | none => exact hmissing agentId index
    | some hv => exact hv

/-! ## Scores -/

/-- As heavy, and at least as sure, for as much of an approval. -/
structure Supports (n n' : NormalizedVote) : Prop where
  weight : n'.weight = n.weight
  confidence : n.confidence ≤ n'.confidence
  approval : n.approval ≤ n'.approval

theorem tally_mean_mono {R : NormalizedVote → NormalizedVote → Prop}
    (hR : ∀ n n', R n n' → n.confidence ≤ n'.confidence) {l l' : List NormalizedVote}
    (h : List.Forall₂ R l l') : (tally l).confidenceMean ≤ (tally l').confidenceMean := by
  have hlength : l.length = l'.length := h.length_eq
  unfold tally
  dsimp only
  rw [hlength]
  split
  · exact le_refl 0
  · exact div_le_div_of_nonneg_right (forall₂_sum_le hR h) (Nat.cast_nonneg _)

theorem tally_support_mono {l l' : List NormalizedVote} (hweight : ∀ n ∈ l, 0 ≤ n.weight)
    (h : List.Forall₂ Supports l l') : (tally l).supportScore ≤ (tally l').supportScore := by
  have htotal : l.map (fun n => n.weight) = l'.map (fun n => n.weight) :=
    forall₂_map_eq (fun n n' hn => hn.weight.symm) h
  have hnonneg : 0 ≤ (l.map fun n => n.weight).sum :=
    List.sum_nonneg fun w hw => by
      obtain ⟨n, hn, rfl⟩ := List.mem_map.mp hw
      exact hweight n hn
  unfold tally
  dsimp only
  rw [← htotal]
  split
  · exact le_refl 0
  · exact div_le_div_of_nonneg_right (forall₂_sum_le (fun n n' hn => hn.approval) h) hnonneg

theorem normalizedVotes_weight_nonneg (votes : List CommitteeVote) (options : CommitteeOptions) :
    ∀ n ∈ normalizedVotes votes options, 0 ≤ n.weight := by
  intro n hn
  obtain ⟨v, -, rfl⟩ := List.mem_map.mp hn
  exact voteWeight_nonneg v.weight

/-- One vote of the list in another's place. -/
theorem forall₂_replace {R : CommitteeVote → CommitteeVote → Prop} (hrefl : ∀ v, R v v)
    {v v' : CommitteeVote} (h : R v v') (pre post : List CommitteeVote) :
    List.Forall₂ R (pre ++ v :: post) (pre ++ v' :: post) :=
  List.rel_append (List.forall₂_same.mpr fun w _ => hrefl w)
    (.cons h (List.forall₂_same.mpr fun w _ => hrefl w))

/-! ## More support -/

/-- A vote that is changed in favour. -/
inductive Strengthens : CommitteeVote → CommitteeVote → Prop where
  /-- a rejection or an abstention becomes an approval -/
  | approves (v : CommitteeVote) (h : v.verdict ≠ .approve) :
    Strengthens v { v with verdict := .approve }
  /-- an approval becomes surer -/
  | surer (v : CommitteeVote) (c c' : ℚ) (h : v.verdict = .approve) (hc : v.confidence = .fin c)
    (hle : c ≤ c') : Strengthens v { v with confidence := .fin c' }

theorem approval_nonneg (v : CommitteeVote) : 0 ≤ (normalizeVote v).approval := by
  unfold NormalizedVote.approval
  split
  · exact mul_nonneg (voteWeight_nonneg v.weight) (clamp01_nonneg v.confidence)
  · exact le_refl 0

theorem Strengthens.supports {v v' : CommitteeVote} (h : Strengthens v v') :
    Supports (normalizeVote v) (normalizeVote v') := by
  cases h with
  | approves h =>
    refine ⟨rfl, le_refl _, ?_⟩
    have hzero : (normalizeVote v).approval = 0 := if_neg h
    rw [hzero]
    exact approval_nonneg _
  | surer c c' h hc hle =>
    have hclamp : clamp01 v.confidence ≤ clamp01 (.fin c') := by
      rw [hc]
      exact clampRange_mono hle
    refine ⟨rfl, hclamp, ?_⟩
    have happroves : (normalizeVote v).verdict = .approve := h
    have happroves' : (normalizeVote { v with confidence := .fin c' }).verdict = .approve := h
    rw [NormalizedVote.approval, NormalizedVote.approval, if_pos happroves, if_pos happroves']
    exact mul_le_mul_of_nonneg_left hclamp (voteWeight_nonneg v.weight)

theorem Strengthens.agentId {v v' : CommitteeVote} (h : Strengthens v v') :
    v.agentId = v'.agentId := by
  cases h <;> rfl

theorem Supports.refl (n : NormalizedVote) : Supports n n := ⟨rfl, le_refl _, le_refl _⟩

/-- The counted votes, compared. -/
theorem forall₂_normalizedVotes {S : NormalizedVote → NormalizedVote → Prop}
    (hrefl : ∀ n, S n n) {v v' : CommitteeVote} (hagent : v.agentId = v'.agentId)
    (h : S (normalizeVote v) (normalizeVote v')) (pre post : List CommitteeVote)
    (options : CommitteeOptions) :
    List.Forall₂ S (normalizedVotes (pre ++ v :: post) options)
      (normalizedVotes (pre ++ v' :: post) options) := by
  unfold normalizedVotes
  rw [List.forall₂_map_left_iff, List.forall₂_map_right_iff]
  have hcompleted := forall₂_complete
    (R := fun w w' => w.agentId = w'.agentId ∧ S (normalizeVote w) (normalizeVote w'))
    (fun _ _ => ⟨rfl, hrefl _⟩) (fun _ _ hw => hw.1)
    (forall₂_replace (fun _ => ⟨rfl, hrefl _⟩) ⟨hagent, h⟩ pre post) options.activeParticipants
  exact hcompleted.imp fun _ _ hw => hw.2

/-- A participant without a vote is counted as an abstention. -/
theorem normalizedVotes_missing {votes : List CommitteeVote} {options : CommitteeOptions}
    {active : List String} (hactive : options.activeParticipants = some active) {index : Nat}
    {agentId : String} (hindex : active[index]? = some agentId)
    (hnone : ∀ vote ∈ votes, vote.agentId ≠ agentId) :
    (normalizedVotes votes options)[index]? = some (normalizeVote (missingVote agentId index)) := by
  have hbyAgent : byAgent votes agentId = none := by
    rw [byAgent, List.find?_eq_none]
    intro vote hvote
    rw [decide_eq_true_eq]
    exact hnone vote (List.mem_reverse.mp hvote)
  unfold normalizedVotes completeParticipantVotes
  rw [hactive]
  cases active with
  | nil => exact absurd hindex (by simp)
  | cons first rest =>
    dsimp only
    rw [List.map_append, List.getElem?_append_left, List.getElem?_map, List.getElem?_mapIdx, hindex]
    · simp [hbyAgent]
    · rw [List.length_map, List.length_mapIdx]
      exact (List.getElem?_eq_some_iff.mp hindex).1

/-- More support never lowers the status; what is accepted has both scores at the quorum, and
an active participant that is missing abstains. -/
theorem committee_monotone (env env' : Env) (options : CommitteeOptions)
    (votes : List CommitteeVote) :
    (∀ pre v v' post, votes = pre ++ v :: post → Strengthens v v' →
      (evaluateCommittee env votes options).status.rank ≤
        (evaluateCommittee env' (pre ++ v' :: post) options).status.rank) ∧
    ((evaluateCommittee env votes options).status = .accepted →
      (evaluateCommittee env votes options).quorumThreshold ≤
          (tally (normalizedVotes votes options)).supportScore ∧
        (evaluateCommittee env votes options).quorumThreshold ≤
          (tally (normalizedVotes votes options)).confidenceMean ∧
        6 / 10 ≤ (evaluateCommittee env votes options).quorumThreshold) ∧
    ∀ active : List String, options.activeParticipants = some active → ∀ (index : Nat) agentId,
      active[index]? = some agentId → (∀ vote ∈ votes, vote.agentId ≠ agentId) →
        ∃ n : NormalizedVote, (normalizedVotes votes options)[index]? = some n ∧ n.agentId = agentId ∧
          n.verdict = .abstain ∧ n.confidence = 0 ∧ n.weight = 1 := by
  refine ⟨?_, ?_, ?_⟩
  · intro pre v v' post heq
    obtain rfl := heq
    intro hstronger
    have hsupports : List.Forall₂ Supports (normalizedVotes (pre ++ v :: post) options)
        (normalizedVotes (pre ++ v' :: post) options) :=
      forall₂_normalizedVotes Supports.refl hstronger.agentId hstronger.supports pre post options
    have hsupport := tally_support_mono (normalizedVotes_weight_nonneg _ _) hsupports
    have hmean := tally_mean_mono (fun n n' hn => hn.confidence) hsupports
    exact statusOf_rank_le (fun t _ ht => ht.trans hsupport) fun t _ ht => ht.trans hmean
  · intro haccepted
    obtain ⟨hsupport, hmean⟩ := statusOf_eq_accepted_iff.mp haccepted
    exact ⟨hsupport, hmean, options.le_quorum⟩
  · intro active hactive index agentId hindex hnone
    refine ⟨_, normalizedVotes_missing hactive hindex hnone, rfl, rfl, ?_, ?_⟩
    · show min 1 (max 0 0) = (0 : ℚ)
      norm_num
    · show max 0 1 = (1 : ℚ)
      norm_num

/-- One vote of each agent, of weight one. -/
def sampleVote (agentId : String) (verdict : Verdict) (confidence : ℚ) : CommitteeVote where
  agentId := agentId
  role := .critic
  verdict := verdict
  confidence := .fin confidence
  weight := some (.fin 1)
  rationale := "ok"
  trace := none

def sampleEnv : Env := ⟨"v1", fun _ _ => "{}", fun _ => "0123456789abcdef"⟩

theorem approval_raises_status :
    (evaluateCommittee sampleEnv [sampleVote "a" .reject 1] {}).status.rank ≤
      (evaluateCommittee sampleEnv [sampleVote "a" .approve 1] {}).status.rank :=
  (committee_monotone sampleEnv sampleEnv {} [sampleVote "a" .reject 1]).1 []
    (sampleVote "a" .reject 1) _ [] rfl (.approves _ (by decide))

/-! ## More dissent -/

/-- A list of votes with more dissent. -/
inductive Dissents (options : CommitteeOptions) : List CommitteeVote → List CommitteeVote → Prop where
  /-- a rejection becomes surer -/
  | surer (pre post : List CommitteeVote) (v : CommitteeVote) (c c' : ℚ) (h : v.verdict = .reject)
    (hc : v.confidence = .fin c) (hle : c ≤ c') :
    Dissents options (pre ++ v :: post) (pre ++ { v with confidence := .fin c' } :: post)
  /-- a participant that was missing rejects, with the weight of a missing vote -/
  | joins (pre post : List CommitteeVote) (v : CommitteeVote) (active : List String)
    (hactive : options.activeParticipants = some active) (hmem : v.agentId ∈ active)
    (hmissing : ∀ vote ∈ pre ++ post, vote.agentId ≠ v.agentId) (h : v.verdict = .reject)
    (hweight : voteWeight v.weight = 1) :
    Dissents options (pre ++ post) (pre ++ v :: post)

/-- As heavy, and at least as sure, for no more and no less of an approval. -/
structure Opposes (n n' : NormalizedVote) : Prop where
  weight : n'.weight = n.weight
  confidence : n.confidence ≤ n'.confidence
  approval : n'.approval = n.approval

theorem Opposes.refl (n : NormalizedVote) : Opposes n n := ⟨rfl, le_refl _, rfl⟩

theorem tally_support_eq {l l' : List NormalizedVote} (h : List.Forall₂ Opposes l l') :
    (tally l').supportScore = (tally l).supportScore := by
  have htotal : l.map (fun n => n.weight) = l'.map (fun n => n.weight) :=
    forall₂_map_eq (fun n n' hn => hn.weight.symm) h
  have happroval : l.map NormalizedVote.approval = l'.map NormalizedVote.approval :=
    forall₂_map_eq (fun n n' hn => hn.approval.symm) h
  unfold tally
  dsimp only
  rw [htotal, happroval]

/-- The vote of a participant that had none is the one that is found. -/
theorem byAgent_joins {pre post : List CommitteeVote} {v : CommitteeVote}
    (hmissing : ∀ vote ∈ pre ++ post, vote.agentId ≠ v.agentId) (agentId : String) :
    byAgent (pre ++ v :: post) agentId =
      if v.agentId = agentId then some v else byAgent (pre ++ post) agentId := by
  unfold byAgent
  rw [List.reverse_append, List.reverse_cons, List.append_assoc, List.find?_append,
    List.find?_append, List.reverse_append, List.find?_append]
  split
  next hagent =>
    have hpost : post.reverse.find? (fun vote => vote.agentId = agentId) = none := by
      rw [List.find?_eq_none]
      intro vote hvote
      rw [decide_eq_true_eq, ← hagent]
      exact hmissing vote (List.mem_append_right _ (List.mem_reverse.mp hvote))
    rw [hpost, List.find?_cons_of_pos (by rw [decide_eq_true_eq]; exact hagent)]
    rfl
  next hagent =>
    rw [List.find?_cons_of_neg (by rw [decide_eq_true_eq]; exact hagent), List.find?_nil,
      Option.none_or]

theorem Dissents.opposes {options : CommitteeOptions} {votes votes' : List CommitteeVote}
    (h : Dissents options votes votes') :
    List.Forall₂ Opposes (normalizedVotes votes options) (normalizedVotes votes' options) := by
  cases h with
  | surer pre post v c c' h hc hle =>
    have hclamp : clamp01 v.confidence ≤ clamp01 (.fin c') := by
      rw [hc]
      exact clampRange_mono hle
    have hzero : ∀ w : CommitteeVote, w.verdict = .reject → (normalizeVote w).approval = 0 := by
      intro w hw
      refine if_neg fun happrove => ?_
      rw [show (normalizeVote w).verdict = .reject from hw] at happrove
      exact absurd happrove (by decide)
    have hopposes : Opposes (normalizeVote v) (normalizeVote { v with confidence := .fin c' }) :=
      ⟨rfl, hclamp, (hzero { v with confidence := .fin c' } h).trans (hzero v h).symm⟩
    have hagent : v.agentId = { v with confidence := .fin c' }.agentId := rfl
    exact forall₂_normalizedVotes Opposes.refl hagent hopposes pre post options
  | joins pre post v active hactive hmem hmissing h hweight =>
    have hzero : (normalizeVote v).approval = 0 := by
      refine if_neg fun happrove => ?_
      rw [show (normalizeVote v).verdict = .reject from h] at happrove
      exact absurd happrove (by decide)
    have hjoins : ∀ index agentId, Opposes (normalizeVote (missingVote agentId index))
        (normalizeVote v) := by
      intro index agentId
      refine ⟨?_, ?_, hzero.trans (if_neg (by simp [normalizeVote, missingVote])).symm⟩
      · rw [show (normalizeVote v).weight = voteWeight v.weight from rfl, hweight]
        exact (max_eq_right zero_le_one).symm
      · rw [show (normalizeVote (missingVote agentId index)).confidence = min 1 (max 0 0) from rfl,
          max_self, min_eq_right zero_le_one]
        exact clamp01_nonneg v.confidence
    unfold normalizedVotes completeParticipantVotes
    rw [hactive]
    cases active with
    | nil => exact absurd hmem List.not_mem_nil
    | cons first rest =>
      dsimp only
      have hin : (decide (v.agentId ∉ first :: rest)) = false :=
        decide_eq_false fun hout => hout hmem
      rw [List.filter_append, List.filter_append, List.filter_cons_of_neg (by rw [hin]; decide),
        ← List.filter_append, List.forall₂_map_left_iff, List.forall₂_map_right_iff]
      refine List.rel_append (forall₂_mapIdx (fun index agentId => ?_) _)
        (List.forall₂_same.mpr fun w _ => Opposes.refl _)
      rw [byAgent_joins hmissing]
      split
      next hagent =>
        have hnone : byAgent (pre ++ post) agentId = none := by
          rw [byAgent, List.find?_eq_none]
          intro vote hvote
          rw [decide_eq_true_eq, ← hagent]
          exact hmissing vote (List.mem_reverse.mp hvote)
        rw [hnone]
        exact hjoins index agentId
      next => exact Opposes.refl _

/-- More dissent leaves the support score as it is, and creates an acceptance just where that
score has reached the quorum and the mean confidence is lifted to it. -/
theorem dissent_accepts_iff (env env' : Env) {options : CommitteeOptions}
    {votes votes' : List CommitteeVote} (h : Dissents options votes votes') :
    (tally (normalizedVotes votes' options)).supportScore =
        (tally (normalizedVotes votes options)).supportScore ∧
      (tally (normalizedVotes votes options)).confidenceMean ≤
        (tally (normalizedVotes votes' options)).confidenceMean ∧
      ((evaluateCommittee env votes options).status ≠ .accepted ∧
          (evaluateCommittee env' votes' options).status = .accepted ↔
        options.quorum ≤ (tally (normalizedVotes votes options)).supportScore ∧
          (tally (normalizedVotes votes options)).confidenceMean < options.quorum ∧
          options.quorum ≤ (tally (normalizedVotes votes' options)).confidenceMean) := by
  have hsupport := tally_support_eq h.opposes
  refine ⟨hsupport, tally_mean_mono (fun n n' hn => hn.confidence) h.opposes, ?_⟩
  show statusOf _ _ _ _ ≠ _ ∧ statusOf _ _ _ _ = _ ↔ _
  rw [Ne, statusOf_eq_accepted_iff, statusOf_eq_accepted_iff, hsupport, not_and, not_le]
  constructor
  · intro hgiven
    obtain ⟨hbefore, hreached, hmean⟩ := hgiven
    exact ⟨hreached, hbefore hreached, hmean⟩
  · intro hgiven
    obtain ⟨hreached, hbelow, hmean⟩ := hgiven
    exact ⟨fun _ => hbelow, hreached, hmean⟩

/-- One approval of weight ten, and a rejection. -/
def tenToOne (confidence : ℚ) : List CommitteeVote :=
  [{ sampleVote "a" .approve 1 with weight := some (.fin 10) }, sampleVote "b" .reject confidence]

theorem tenToOne_dissents (options : CommitteeOptions) :
    Dissents options (tenToOne 0) (tenToOne 1) :=
  .surer [_] [] (sampleVote "b" .reject 0) 0 1 rfl rfl zero_le_one

/-- Participants `a` and `b`. -/
def twoActive : CommitteeOptions := { activeParticipants := some ["a", "b"] }

theorem tenToOne_joins : Dissents twoActive ((tenToOne 1).take 1) (tenToOne 1) :=
  .joins [_] [] (sampleVote "b" .reject 1) ["a", "b"] rfl (by decide) (by decide) rfl
    (by decide +kernel)

theorem surer_rejection_accepted :
    (evaluateCommittee sampleEnv (tenToOne 0) {}).status ≠ .accepted ∧
      (evaluateCommittee sampleEnv (tenToOne 1) {}).status = .accepted :=
  (dissent_accepts_iff sampleEnv sampleEnv (tenToOne_dissents {})).2.2.mpr (by decide +kernel)

/-- A surer rejection, and the rejection of a participant that was missing, are accepted. -/
theorem dissent_creates_acceptance :
    (Dissents {} (tenToOne 0) (tenToOne 1) ∧
        (evaluateCommittee sampleEnv (tenToOne 0) {}).status ≠ .accepted ∧
        (evaluateCommittee sampleEnv (tenToOne 1) {}).status = .accepted) ∧
      Dissents twoActive ((tenToOne 1).take 1) (tenToOne 1) ∧
        (evaluateCommittee sampleEnv ((tenToOne 1).take 1) twoActive).status ≠ .accepted ∧
        (evaluateCommittee sampleEnv (tenToOne 1) twoActive).status = .accepted := by
  refine ⟨⟨tenToOne_dissents {}, ?_⟩, tenToOne_joins, ?_⟩ <;> decide +kernel

end Kovael.Committee
