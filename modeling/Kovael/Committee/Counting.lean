import Mathlib.Tactic.FieldSimp
import Mathlib.Tactic.Linarith
import Kovael.Committee.Monotone

/-!
# What a verdict counts, and what it reports

One more copy of a vote that is already in the list, the list in another order, and the
rounding of the scores.

A vote of an active participant is found by its agent, so of several the last is counted.
Everybody else's votes are counted as they come: a copy counts again, unless it counts for
nothing (`one_vote_iff`).

The status is decided before the scores are rounded, and the thresholds are reported as
they are, so the reported scores may be on the other side of one (`reported_status`).
-/

namespace Kovael.Committee

open Js (Number)

/-! ## Statements -/

/-- Two lists of votes come to one verdict, and to the same numbers. -/
structure SameNumbers (options : CommitteeOptions) (votes votes' : List CommitteeVote) : Prop where
  status : ∀ env env', (evaluateCommittee env' votes' options).status =
    (evaluateCommittee env votes options).status
  supportScore : (tally (normalizedVotes votes' options)).supportScore =
    (tally (normalizedVotes votes options)).supportScore
  confidenceMean : (tally (normalizedVotes votes' options)).confidenceMean =
    (tally (normalizedVotes votes options)).confidenceMean
  approveWeight : (tally (normalizedVotes votes' options)).approveWeight =
    (tally (normalizedVotes votes options)).approveWeight
  rejectWeight : (tally (normalizedVotes votes' options)).rejectWeight =
    (tally (normalizedVotes votes options)).rejectWeight
  abstainWeight : (tally (normalizedVotes votes' options)).abstainWeight =
    (tally (normalizedVotes votes options)).abstainWeight

/-- The numbers of two verdicts, as they are reported. -/
structure SameReport (verdict verdict' : CommitteeVerdict) : Prop where
  status : verdict'.status = verdict.status
  supportScore : verdict'.supportScore = verdict.supportScore
  confidenceMean : verdict'.confidenceMean = verdict.confidenceMean
  approveWeight : verdict'.approveWeight = verdict.approveWeight
  rejectWeight : verdict'.rejectWeight = verdict.rejectWeight
  abstainWeight : verdict'.abstainWeight = verdict.abstainWeight

theorem SameNumbers.report {options : CommitteeOptions} {votes votes' : List CommitteeVote}
    (h : SameNumbers options votes votes') (env env' : Env) :
    SameReport (evaluateCommittee env votes options) (evaluateCommittee env' votes' options) :=
  ⟨h.status env env', congrArg round4 h.supportScore, congrArg round4 h.confidenceMean,
    congrArg round4 h.approveWeight, congrArg round4 h.rejectWeight,
    congrArg round4 h.abstainWeight⟩

/-- The options name the agent as an active participant. -/
def CommitteeOptions.isActive (options : CommitteeOptions) (agentId : String) : Prop :=
  agentId ∈ options.activeParticipants.getD []

instance (options : CommitteeOptions) (agentId : String) :
    Decidable (options.isActive agentId) := by
  unfold CommitteeOptions.isActive
  infer_instance

/-- In the place of `n`, `n'` counts as much: it is as sure, adds as much to each side, and is
as heavy if there is an approval that the weight divides. -/
structure CountsAlike (counted : List NormalizedVote) (n n' : NormalizedVote) : Prop where
  confidence : n'.confidence = n.confidence
  approval : n'.approval = n.approval
  rejection : n'.rejection = n.rejection
  abstention : n'.abstention = n.abstention
  weight : n'.weight = n.weight ∨ ∀ m ∈ counted, m.approval = 0

/-- Next to the others, `n` counts for nothing: it adds to no side, and is as sure as they are
in the mean. -/
structure AddsNothing (counted : List NormalizedVote) (n : NormalizedVote) : Prop where
  approval : n.approval = 0
  rejection : n.rejection = 0
  abstention : n.abstention = 0
  confidence : (counted.map fun m => m.confidence).sum = counted.length * n.confidence

/-- A copy of `v` between `pre` and `post` is not counted again. -/
def CopyIsHarmless (options : CommitteeOptions) (pre post : List CommitteeVote)
    (v : CommitteeVote) : Prop :=
  if options.isActive v.agentId then
    ∀ u u', byAgent (pre ++ post) v.agentId = some u →
      byAgent (pre ++ v :: post) v.agentId = some u' →
        CountsAlike (normalizedVotes (pre ++ post) options) (normalizeVote u) (normalizeVote u')
  else AddsNothing (normalizedVotes (pre ++ post) options) (normalizeVote v)

/-! ## Scores -/

theorem NormalizedVote.approval_nonneg {n : NormalizedVote} (hweight : 0 ≤ n.weight)
    (hconfidence : 0 ≤ n.confidence) : 0 ≤ n.approval := by
  unfold NormalizedVote.approval
  split
  · exact mul_nonneg hweight hconfidence
  · exact le_refl 0

/-- The votes as they come out of `normalizeVote`. -/
def Normalized (l : List NormalizedVote) : Prop := ∀ n ∈ l, 0 ≤ n.weight ∧ 0 ≤ n.confidence

theorem normalized_normalizedVotes (votes : List CommitteeVote) (options : CommitteeOptions) :
    Normalized (normalizedVotes votes options) := by
  intro n hn
  obtain ⟨v, -, rfl⟩ := List.mem_map.mp hn
  exact ⟨voteWeight_nonneg v.weight, clamp01_nonneg v.confidence⟩

theorem sum_eq_zero_iff {l : List NormalizedVote} {f : NormalizedVote → ℚ} (h : ∀ n ∈ l, 0 ≤ f n) :
    (l.map f).sum = 0 ↔ ∀ n ∈ l, f n = 0 := by
  induction l with
  | nil => simp
  | cons n l ih =>
    have hn := h n (List.mem_cons_self ..)
    have hl : ∀ m ∈ l, 0 ≤ f m := fun m hm => h m (List.mem_cons_of_mem _ hm)
    have hsum : 0 ≤ (l.map f).sum :=
      List.sum_nonneg fun q hq => by
        obtain ⟨m, hm, rfl⟩ := List.mem_map.mp hq
        exact hl m hm
    rw [List.map_cons, List.sum_cons, List.forall_mem_cons, ← ih hl]
    constructor
    · intro hzero
      constructor <;> linarith
    · intro hgiven
      obtain ⟨hfirst, hrest⟩ := hgiven
      rw [hfirst, hrest, add_zero]

/-- Nothing is approved where nothing weighs. -/
theorem approve_eq_zero_of_total {l : List NormalizedVote} (h : Normalized l)
    (htotal : (tally l).totalWeight = 0) : (tally l).approveWeight = 0 := by
  have hweights := (sum_eq_zero_iff fun n hn => (h n hn).1).mp htotal
  refine (sum_eq_zero_iff fun n hn => n.approval_nonneg (h n hn).1 (h n hn).2).mpr fun n hn => ?_
  unfold NormalizedVote.approval
  rw [hweights n hn, zero_mul, ite_self]

/-- With as much approval, the support is the same if the total is, or nothing is approved. -/
theorem support_eq_iff {l l' : List NormalizedVote} (h : Normalized l) (h' : Normalized l')
    (happrove : (tally l').approveWeight = (tally l).approveWeight) :
    (tally l').supportScore = (tally l).supportScore ↔
      (tally l').totalWeight = (tally l).totalWeight ∨ (tally l).approveWeight = 0 := by
  have hdef : ∀ l, (tally l).supportScore =
      if (tally l).totalWeight = 0 then 0 else (tally l).approveWeight / (tally l).totalWeight :=
    fun _ => rfl
  rw [hdef l, hdef l', happrove]
  by_cases hzero : (tally l).approveWeight = 0
  · rw [hzero, zero_div, zero_div, ite_self, ite_self]
    exact iff_of_true rfl (Or.inr rfl)
  · -- something is approved, so both totals are positive
    have htotal : (tally l).totalWeight ≠ 0 := fun ht => hzero (approve_eq_zero_of_total h ht)
    have htotal' : (tally l').totalWeight ≠ 0 := fun ht =>
      hzero (happrove ▸ approve_eq_zero_of_total h' ht)
    rw [if_neg htotal, if_neg htotal', or_iff_left hzero, div_eq_div_iff htotal' htotal]
    constructor
    · intro hcross
      exact (mul_left_cancel₀ hzero hcross).symm
    · intro heq
      rw [heq]

/-- The status is decided by the two scores. -/
theorem sameNumbers_iff {options : CommitteeOptions} {votes votes' : List CommitteeVote} :
    SameNumbers options votes votes' ↔
      (tally (normalizedVotes votes' options)).supportScore =
          (tally (normalizedVotes votes options)).supportScore ∧
        (tally (normalizedVotes votes' options)).confidenceMean =
          (tally (normalizedVotes votes options)).confidenceMean ∧
        (tally (normalizedVotes votes' options)).approveWeight =
          (tally (normalizedVotes votes options)).approveWeight ∧
        (tally (normalizedVotes votes' options)).rejectWeight =
          (tally (normalizedVotes votes options)).rejectWeight ∧
        (tally (normalizedVotes votes' options)).abstainWeight =
          (tally (normalizedVotes votes options)).abstainWeight := by
  constructor
  · intro h
    exact ⟨h.supportScore, h.confidenceMean, h.approveWeight, h.rejectWeight, h.abstainWeight⟩
  · intro hgiven
    obtain ⟨hsupport, hmean, happrove, hreject, habstain⟩ := hgiven
    refine ⟨fun env env' => ?_, hsupport, hmean, happrove, hreject, habstain⟩
    show statusOf _ _ _ _ = statusOf _ _ _ _
    rw [hsupport, hmean]

/-! ## Another order -/

/-- The numbers do not depend on the order of the counted votes. -/
theorem tally_perm {l l' : List NormalizedVote} (h : l.Perm l') : tally l' = tally l := by
  unfold tally
  rw [h.length_eq, (h.map fun n => n.weight).sum_eq, (h.map NormalizedVote.approval).sum_eq,
    (h.map NormalizedVote.rejection).sum_eq, (h.map NormalizedVote.abstention).sum_eq,
    (h.map fun n => n.confidence).sum_eq]

theorem byAgent_eq_some_iff {votes : List CommitteeVote}
    (hnodup : (votes.map fun v => v.agentId).Nodup) {agentId : String} {v : CommitteeVote} :
    byAgent votes agentId = some v ↔ v ∈ votes ∧ v.agentId = agentId := by
  constructor
  · intro h
    have hagent := List.find?_some h
    exact ⟨List.mem_reverse.mp (List.mem_of_find?_eq_some h), of_decide_eq_true hagent⟩
  · intro hgiven
    obtain ⟨hmem, hagent⟩ := hgiven
    cases hfound : byAgent votes agentId with
    | none =>
      have hnone := List.find?_eq_none.mp hfound v (List.mem_reverse.mpr hmem)
      exact absurd (decide_eq_true hagent) hnone
    | some u =>
      have hu : u ∈ votes := List.mem_reverse.mp (List.mem_of_find?_eq_some hfound)
      have huagent := List.find?_some hfound
      have hsame := (of_decide_eq_true huagent).trans hagent.symm
      rw [List.inj_on_of_nodup_map hnodup hu hmem hsame]

theorem complete_perm {votes votes' : List CommitteeVote} (h : votes.Perm votes')
    (hnodup : (votes.map fun v => v.agentId).Nodup) (active : Option (List String)) :
    (completeParticipantVotes votes active).Perm (completeParticipantVotes votes' active) := by
  have hbyAgent : byAgent votes' = byAgent votes := by
    funext agentId
    refine Option.ext fun v => ?_
    rw [byAgent_eq_some_iff hnodup, byAgent_eq_some_iff ((h.map _).nodup_iff.mp hnodup), h.mem_iff]
  unfold completeParticipantVotes
  rw [hbyAgent]
  split
  next => exact h
  next => exact h
  next => exact (h.filter _).append_left _

theorem sameNumbers_of_perm {votes votes' : List CommitteeVote} (h : votes.Perm votes')
    (hnodup : (votes.map fun v => v.agentId).Nodup) (options : CommitteeOptions) :
    SameNumbers options votes votes' := by
  have hperm := (complete_perm h hnodup options.activeParticipants).map normalizeVote
  have htally : tally (normalizedVotes votes' options) = tally (normalizedVotes votes options) :=
    tally_perm hperm
  rw [sameNumbers_iff, htally]
  exact ⟨rfl, rfl, rfl, rfl, rfl⟩

/-! ## A copy of an active participant's vote -/

theorem byAgent_insert_of_ne {pre post : List CommitteeVote} {v : CommitteeVote}
    {agentId : String} (hne : v.agentId ≠ agentId) :
    byAgent (pre ++ v :: post) agentId = byAgent (pre ++ post) agentId := by
  unfold byAgent
  rw [List.reverse_append, List.reverse_append, List.reverse_cons, List.append_assoc,
    List.singleton_append, List.find?_append, List.find?_append,
    List.find?_cons_of_neg (by simpa using hne)]

theorem byAgent_isSome {votes : List CommitteeVote} {v : CommitteeVote} (hmem : v ∈ votes) :
    ∃ u, byAgent votes v.agentId = some u := by
  cases hfound : byAgent votes v.agentId with
  | some u => exact ⟨u, rfl⟩
  | none =>
    have hnone := List.find?_eq_none.mp hfound v (List.mem_reverse.mpr hmem)
    exact absurd (decide_eq_true rfl) hnone

/-- A sum over the participants changes with one of them, as often as it is listed. -/
theorem sum_mapIdx_of_count (active : List String) (agentId : String) (f : CommitteeVote → ℚ)
    (d : ℚ) :
    ∀ g g' : Nat → String → CommitteeVote, (∀ i a, a ≠ agentId → g' i a = g i a) →
      (∀ i, f (g' i agentId) = f (g i agentId) + d) →
        ((active.mapIdx g').map f).sum =
          ((active.mapIdx g).map f).sum + active.count agentId * d := by
  induction active with
  | nil =>
    intro g g' _ _
    simp
  | cons a active ih =>
    intro g g' hother hthis
    have hrest := ih (fun i => g (i + 1)) (fun i => g' (i + 1)) (fun i b hb => hother (i + 1) b hb)
      fun i => hthis (i + 1)
    rw [List.mapIdx_cons, List.mapIdx_cons, List.map_cons, List.map_cons, List.sum_cons,
      List.sum_cons]
    by_cases ha : a = agentId
    · subst ha
      rw [hthis 0, List.count_cons_self, Nat.cast_succ]
      linarith
    · rw [hother 0 a ha, List.count_cons_of_ne ha]
      linarith

theorem complete_of_active (votes : List CommitteeVote) (a : String) (active : List String) :
    completeParticipantVotes votes (some (a :: active)) =
      (a :: active).mapIdx
          (fun index agentId => (byAgent votes agentId).getD (missingVote agentId index)) ++
        votes.filter fun vote => vote.agentId ∉ a :: active :=
  rfl

theorem filter_insert_active {pre post : List CommitteeVote} {v : CommitteeVote}
    {active : List String} (hmem : v.agentId ∈ active) :
    (pre ++ v :: post).filter (fun vote => vote.agentId ∉ active) =
      (pre ++ post).filter fun vote => vote.agentId ∉ active := by
  rw [List.filter_append, List.filter_append, List.filter_cons_of_neg (by simpa using hmem)]

/-- Every sum over the counted votes changes with the vote that stands for the agent. -/
theorem sum_insert_active {pre post : List CommitteeVote} {v u u' : CommitteeVote}
    {options : CommitteeOptions} {active : List String}
    (hactive : options.activeParticipants = some active) (hmem : v.agentId ∈ active)
    (hu : byAgent (pre ++ post) v.agentId = some u)
    (hu' : byAgent (pre ++ v :: post) v.agentId = some u') (f : NormalizedVote → ℚ) :
    ((normalizedVotes (pre ++ v :: post) options).map f).sum =
      ((normalizedVotes (pre ++ post) options).map f).sum +
        active.count v.agentId * (f (normalizeVote u') - f (normalizeVote u)) := by
  cases active with
  | nil => exact absurd hmem List.not_mem_nil
  | cons a active =>
    unfold normalizedVotes
    rw [hactive, complete_of_active, complete_of_active, filter_insert_active hmem]
    simp only [List.map_append, List.sum_append, List.map_map]
    rw [sum_mapIdx_of_count (a :: active) v.agentId (f ∘ normalizeVote)
      (f (normalizeVote u') - f (normalizeVote u))
      fun i b => (byAgent (pre ++ post) b).getD (missingVote b i)]
    · linarith
    · intro i b hb
      rw [byAgent_insert_of_ne (Ne.symm hb)]
    · intro i
      rw [hu, hu', Option.getD_some, Option.getD_some, Function.comp_apply, Function.comp_apply]
      linarith

theorem length_insert_active {pre post : List CommitteeVote} {v : CommitteeVote}
    {options : CommitteeOptions} {active : List String}
    (hactive : options.activeParticipants = some active) (hmem : v.agentId ∈ active) :
    (normalizedVotes (pre ++ v :: post) options).length =
      (normalizedVotes (pre ++ post) options).length := by
  cases active with
  | nil => exact absurd hmem List.not_mem_nil
  | cons a active =>
    unfold normalizedVotes
    rw [hactive, complete_of_active, complete_of_active, filter_insert_active hmem]
    simp only [List.length_map, List.length_append, List.length_mapIdx]

theorem length_pos_of_active {votes : List CommitteeVote} {agentId : String}
    {options : CommitteeOptions} {active : List String}
    (hactive : options.activeParticipants = some active) (hmem : agentId ∈ active) :
    (normalizedVotes votes options).length ≠ 0 := by
  cases active with
  | nil => exact absurd hmem List.not_mem_nil
  | cons a active =>
    unfold normalizedVotes
    rw [hactive, complete_of_active]
    simp

/-- The vote that stands for an agent may change where it counts alike. -/
theorem sameNumbers_iff_alike {pre post : List CommitteeVote} {v u u' : CommitteeVote}
    {options : CommitteeOptions} (hactive : options.isActive v.agentId)
    (hu : byAgent (pre ++ post) v.agentId = some u)
    (hu' : byAgent (pre ++ v :: post) v.agentId = some u') :
    SameNumbers options (pre ++ post) (pre ++ v :: post) ↔
      CountsAlike (normalizedVotes (pre ++ post) options) (normalizeVote u) (normalizeVote u') := by
  obtain ⟨active, hsome, hmem⟩ : ∃ active,
      options.activeParticipants = some active ∧ v.agentId ∈ active := by
    unfold CommitteeOptions.isActive at hactive
    cases hactive' : options.activeParticipants with
    | none =>
      rw [hactive', Option.getD_none] at hactive
      exact absurd hactive List.not_mem_nil
    | some active =>
      rw [hactive', Option.getD_some] at hactive
      exact ⟨active, rfl, hactive⟩
  have hcount : (active.count v.agentId : ℚ) ≠ 0 :=
    Nat.cast_ne_zero.mpr (List.count_pos_iff.mpr hmem).ne'
  have hlength : (normalizedVotes (pre ++ post) options).length ≠ 0 :=
    length_pos_of_active hsome hmem
  -- a sum is the same where the two votes have the same share in it
  have hsum : ∀ f : NormalizedVote → ℚ,
      ((normalizedVotes (pre ++ v :: post) options).map f).sum =
          ((normalizedVotes (pre ++ post) options).map f).sum ↔
        f (normalizeVote u') = f (normalizeVote u) := by
    intro f
    rw [sum_insert_active hsome hmem hu hu', add_eq_left, mul_eq_zero, or_iff_right hcount,
      sub_eq_zero]
  have hmean : (tally (normalizedVotes (pre ++ v :: post) options)).confidenceMean =
        (tally (normalizedVotes (pre ++ post) options)).confidenceMean ↔
      (normalizeVote u').confidence = (normalizeVote u).confidence := by
    rw [← hsum fun n => n.confidence]
    unfold tally
    simp only
    rw [length_insert_active hsome hmem, if_neg hlength, if_neg hlength,
      div_left_inj' (Nat.cast_ne_zero.mpr hlength)]
  have hnormal := normalized_normalizedVotes (pre ++ post) options
  have hnormal' := normalized_normalizedVotes (pre ++ v :: post) options
  have hnone : (tally (normalizedVotes (pre ++ post) options)).approveWeight = 0 ↔
      ∀ m ∈ normalizedVotes (pre ++ post) options, m.approval = 0 :=
    sum_eq_zero_iff fun m hm => m.approval_nonneg (hnormal m hm).1 (hnormal m hm).2
  rw [sameNumbers_iff]
  constructor
  · intro hgiven
    obtain ⟨hsupport, hconfidence, happrove, hreject, habstain⟩ := hgiven
    have hweight := (support_eq_iff hnormal hnormal' happrove).mp hsupport
    rw [hnone] at hweight
    exact ⟨hmean.mp hconfidence, (hsum _).mp happrove, (hsum _).mp hreject, (hsum _).mp habstain,
      hweight.imp_left (hsum fun n => n.weight).mp⟩
  · intro hgiven
    obtain ⟨hconfidence, happrove, hreject, habstain, hweight⟩ := hgiven
    have happrove' := (hsum _).mpr happrove
    refine ⟨(support_eq_iff hnormal hnormal' happrove').mpr ?_, hmean.mpr hconfidence, happrove',
      (hsum _).mpr hreject, (hsum _).mpr habstain⟩
    rw [hnone]
    exact hweight.imp_left (hsum fun n => n.weight).mpr

/-! ## A copy of anybody else's vote -/

/-- Everybody else's vote is counted once more. -/
theorem normalizedVotes_insert_perm {pre post : List CommitteeVote} {v : CommitteeVote}
    {options : CommitteeOptions} (hactive : ¬ options.isActive v.agentId) :
    (normalizedVotes (pre ++ v :: post) options).Perm
      (normalizeVote v :: normalizedVotes (pre ++ post) options) := by
  unfold CommitteeOptions.isActive at hactive
  unfold normalizedVotes
  rw [← List.map_cons]
  refine List.Perm.map normalizeVote ?_
  rcases hsome : options.activeParticipants with _ | _ | ⟨a, active⟩
  · exact List.perm_middle
  · exact List.perm_middle
  · rw [hsome, Option.getD_some] at hactive
    rw [complete_of_active, complete_of_active, List.filter_append, List.filter_append,
      List.filter_cons_of_pos (by simpa using hactive)]
    have hparticipants : (a :: active).mapIdx (fun index agentId =>
          (byAgent (pre ++ v :: post) agentId).getD (missingVote agentId index)) =
        (a :: active).mapIdx fun index agentId =>
          (byAgent (pre ++ post) agentId).getD (missingVote agentId index) := by
      rw [List.mapIdx_eq_mapIdx_iff]
      intro i hi
      rw [byAgent_insert_of_ne]
      intro heq
      exact hactive (heq ▸ List.getElem_mem hi)
    rw [hparticipants, ← List.append_assoc, ← List.append_assoc]
    exact List.perm_middle

theorem mem_normalizedVotes {votes : List CommitteeVote} {v : CommitteeVote}
    {options : CommitteeOptions} (hactive : ¬ options.isActive v.agentId) (hmem : v ∈ votes) :
    normalizeVote v ∈ normalizedVotes votes options := by
  unfold CommitteeOptions.isActive at hactive
  refine List.mem_map_of_mem ?_
  rcases hsome : options.activeParticipants with _ | _ | ⟨a, active⟩
  · exact hmem
  · exact hmem
  · rw [hsome, Option.getD_some] at hactive
    exact List.mem_append_right _ (List.mem_filter.mpr ⟨hmem, by simpa using hactive⟩)

/-- What adds to no side has no weight or no confidence. -/
theorem AddsNothing.weight_or_confidence {counted : List NormalizedVote} {n : NormalizedVote}
    (h : AddsNothing counted n) : n.weight = 0 ∨ n.confidence = 0 := by
  obtain ⟨happroval, hrejection, habstention, -⟩ := h
  unfold NormalizedVote.approval at happroval
  unfold NormalizedVote.rejection at hrejection
  unfold NormalizedVote.abstention at habstention
  cases hverdict : n.verdict with
  | approve =>
    rw [if_pos hverdict] at happroval
    exact mul_eq_zero.mp happroval
  | reject =>
    rw [if_pos hverdict] at hrejection
    exact mul_eq_zero.mp hrejection
  | abstain =>
    rw [if_pos hverdict] at habstention
    exact Or.inl habstention

/-- Nothing is approved where nobody is sure. -/
theorem approve_eq_zero_of_confidence {l : List NormalizedVote} (h : Normalized l)
    (hsum : (l.map fun n => n.confidence).sum = 0) : (tally l).approveWeight = 0 := by
  have hconfidences := (sum_eq_zero_iff fun n hn => (h n hn).2).mp hsum
  refine (sum_eq_zero_iff fun n hn => n.approval_nonneg (h n hn).1 (h n hn).2).mpr fun n hn => ?_
  unfold NormalizedVote.approval
  rw [hconfidences n hn, mul_zero, ite_self]

/-- One more vote leaves the numbers as they are where it adds nothing. -/
theorem tally_cons_iff {l : List NormalizedVote} {n : NormalizedVote} (h : Normalized l)
    (h' : Normalized (n :: l)) (hlength : (l.length : ℚ) ≠ 0) :
    ((tally (n :: l)).supportScore = (tally l).supportScore ∧
        (tally (n :: l)).confidenceMean = (tally l).confidenceMean ∧
        (tally (n :: l)).approveWeight = (tally l).approveWeight ∧
        (tally (n :: l)).rejectWeight = (tally l).rejectWeight ∧
        (tally (n :: l)).abstainWeight = (tally l).abstainWeight) ↔ AddsNothing l n := by
  have hsum : ∀ f : NormalizedVote → ℚ, ((n :: l).map f).sum = (l.map f).sum ↔ f n = 0 := by
    intro f
    rw [List.map_cons, List.sum_cons, add_eq_right]
  have hmean : (tally (n :: l)).confidenceMean = (tally l).confidenceMean ↔
      (l.map fun m => m.confidence).sum = l.length * n.confidence := by
    unfold tally
    simp only [List.map_cons, List.sum_cons, List.length_cons]
    rw [if_neg (Nat.succ_ne_zero _), if_neg (Nat.cast_ne_zero.mp hlength), Nat.cast_succ,
      div_eq_div_iff (by positivity) hlength]
    constructor <;> intro heq <;> linarith
  constructor
  · intro hgiven
    obtain ⟨-, hconfidence, happrove, hreject, habstain⟩ := hgiven
    exact ⟨(hsum _).mp happrove, (hsum _).mp hreject, (hsum _).mp habstain, hmean.mp hconfidence⟩
  · intro hadds
    have happrove := (hsum _).mpr hadds.approval
    refine ⟨(support_eq_iff h h' happrove).mpr ?_, hmean.mpr hadds.confidence, happrove,
      (hsum _).mpr hadds.rejection, (hsum _).mpr hadds.abstention⟩
    rcases hadds.weight_or_confidence with hweight | hconfidence
    · exact Or.inl ((hsum fun m => m.weight).mpr hweight)
    · -- a vote without confidence is as sure as the others only if none of them is sure
      have hnobody := hadds.confidence
      rw [hconfidence, mul_zero] at hnobody
      exact Or.inr (approve_eq_zero_of_confidence h hnobody)

theorem sameNumbers_iff_adds {pre post : List CommitteeVote} {v : CommitteeVote}
    {options : CommitteeOptions} (hactive : ¬ options.isActive v.agentId)
    (hmem : v ∈ pre ++ post) :
    SameNumbers options (pre ++ post) (pre ++ v :: post) ↔
      AddsNothing (normalizedVotes (pre ++ post) options) (normalizeVote v) := by
  have hperm : (normalizedVotes (pre ++ v :: post) options).Perm
      (normalizeVote v :: normalizedVotes (pre ++ post) options) :=
    normalizedVotes_insert_perm hactive
  have hnormal' : Normalized (normalizeVote v :: normalizedVotes (pre ++ post) options) :=
    fun n hn => normalized_normalizedVotes _ options n (hperm.mem_iff.mpr hn)
  have hlength := List.length_pos_of_mem (mem_normalizedVotes hactive hmem)
  rw [sameNumbers_iff, ← tally_perm hperm]
  exact tally_cons_iff (normalized_normalizedVotes _ options) hnormal'
    (Nat.cast_ne_zero.mpr hlength.ne')

/-! ## One agent, one vote -/

/-- One more copy of a vote leaves the verdict's numbers as they are if and only if it is not
counted again; the order of the votes of different agents is never counted. -/
theorem one_vote_iff (options : CommitteeOptions) :
    (∀ (pre post : List CommitteeVote) (v : CommitteeVote), v ∈ pre ++ post →
      (SameNumbers options (pre ++ post) (pre ++ v :: post) ↔ CopyIsHarmless options pre post v) ∧
        (CopyIsHarmless options pre post v → ∀ env env', SameReport
          (evaluateCommittee env (pre ++ post) options)
          (evaluateCommittee env' (pre ++ v :: post) options))) ∧
      ∀ votes votes' : List CommitteeVote, votes.Perm votes' →
        (votes.map fun v => v.agentId).Nodup →
          SameNumbers options votes votes' ∧ ∀ env env', SameReport
            (evaluateCommittee env votes options) (evaluateCommittee env' votes' options) := by
  constructor
  · intro pre post v hmem
    have hiff : SameNumbers options (pre ++ post) (pre ++ v :: post) ↔
        CopyIsHarmless options pre post v := by
      unfold CopyIsHarmless
      split
      next hactive =>
        obtain ⟨u, hu⟩ := byAgent_isSome hmem
        have hmem' : v ∈ pre ++ v :: post := List.mem_append_right pre (List.mem_cons_self ..)
        obtain ⟨u', hu'⟩ := byAgent_isSome hmem'
        rw [sameNumbers_iff_alike hactive hu hu']
        constructor
        · intro h w w' hw hw'
          rw [hu] at hw
          rw [hu'] at hw'
          obtain rfl := Option.some.inj hw
          obtain rfl := Option.some.inj hw'
          exact h
        · intro h
          exact h u u' hu hu'
      next hactive => exact sameNumbers_iff_adds hactive hmem
    exact ⟨hiff, fun h => (hiff.mpr h).report⟩
  · intro votes votes' hperm hnodup
    have hsame := sameNumbers_of_perm hperm hnodup options
    exact ⟨hsame, hsame.report⟩

/-- A quorum of six tenths. -/
def sixTenths : CommitteeOptions := { quorumThreshold := some (.fin (6 / 10)) }

/-- `a` approves, `b` rejects. -/
def oneToOne : List CommitteeVote := [sampleVote "a" .approve 1, sampleVote "b" .reject 1]

/-- A copy of a participant's vote next to it does not count. -/
theorem participant_copy_harmless :
    SameReport (evaluateCommittee sampleEnv oneToOne twoActive)
      (evaluateCommittee sampleEnv (sampleVote "a" .approve 1 :: oneToOne) twoActive) := by
  refine ((one_vote_iff twoActive).1 [] oneToOne (sampleVote "a" .approve 1) (by decide)).2 ?_
    sampleEnv sampleEnv
  have hactive : twoActive.isActive (sampleVote "a" .approve 1).agentId := by decide
  unfold CopyIsHarmless
  rw [if_pos hactive]
  intro u u' hu hu'
  have hsame : byAgent ([] ++ oneToOne) (sampleVote "a" .approve 1).agentId =
      byAgent ([] ++ sampleVote "a" .approve 1 :: oneToOne) (sampleVote "a" .approve 1).agentId := by
    decide
  obtain rfl : u = u' := Option.some.inj (hu.symm.trans (hsame.trans hu'))
  exact ⟨rfl, rfl, rfl, rfl, Or.inl rfl⟩

/-- `a` approves and then rejects, `b` approves. -/
def changedMind : List CommitteeVote :=
  [sampleVote "a" .approve 1, sampleVote "a" .reject 1, sampleVote "b" .approve 1]

/-- With nobody named as active, a copy of the approval turns a failure into an acceptance;
so does, for a participant that voted twice, a copy of the first vote after the last. -/
theorem copied_vote_counts :
    ((evaluateCommittee sampleEnv oneToOne sixTenths).status = .failed ∧
        (evaluateCommittee sampleEnv (sampleVote "a" .approve 1 :: oneToOne) sixTenths).status =
          .accepted ∧
        (evaluateCommittee sampleEnv oneToOne sixTenths).approveWeight = 1 ∧
        (evaluateCommittee sampleEnv (sampleVote "a" .approve 1 :: oneToOne)
          sixTenths).approveWeight = 2) ∧
      (evaluateCommittee sampleEnv changedMind twoActive).status = .failed ∧
      (evaluateCommittee sampleEnv (changedMind ++ [sampleVote "a" .approve 1]) twoActive).status =
        .accepted := by
  decide +kernel

/-! ## What is reported -/

theorem CommitteeOptions.failure_le_quorum (options : CommitteeOptions) :
    options.failure ≤ options.quorum := by
  have hquorum := options.le_quorum
  unfold CommitteeOptions.failure clampRange
  split
  next => exact min_le_left ..
  next => linarith

/-- `round4` moves a number by half a step at most. -/
theorem abs_round4_sub_le (x : ℚ) : |round4 x - x| ≤ 1 / 20000 := by
  unfold round4
  have hle := Int.floor_le (x * 10000 + 1 / 2)
  have hlt := Int.lt_floor_add_one (x * 10000 + 1 / 2)
  rw [abs_le]
  constructor <;> linarith

theorem round4_mono {x y : ℚ} (h : x ≤ y) : round4 x ≤ round4 y := by
  unfold round4
  have hfloor : (⌊x * 10000 + 1 / 2⌋ : ℚ) ≤ ⌊y * 10000 + 1 / 2⌋ :=
    Int.cast_le.mpr (Int.floor_le_floor (by linarith))
  linarith

/-- Four decimals stay as they are. -/
theorem round4_of_decimals (k : ℤ) : round4 (k / 10000) = k / 10000 := by
  unfold round4
  have hfloor : ⌊(k / 10000 * 10000 + 1 / 2 : ℚ)⌋ = k := by
    rw [div_mul_cancel₀ (k : ℚ) (by norm_num), Int.floor_eq_iff]
    constructor <;> linarith
  rw [hfloor]

/-- A number that is further than half a step from `t` is rounded on its side of it. -/
theorem le_round4_iff {t x : ℚ} (h : 1 / 20000 < |x - t|) : t ≤ round4 x ↔ t ≤ x := by
  have hround := abs_le.mp (abs_round4_sub_le x)
  rcases lt_abs.mp h with habove | hbelow
  · exact iff_of_true (by linarith [hround.1]) (by linarith)
  · exact iff_of_false (by linarith [hround.2]) (by linarith)

theorem status_ite_eq_iff {A B A' B' : Prop} [Decidable A] [Decidable B] [Decidable A']
    [Decidable B'] (h : A → ¬ B) (h' : A' → ¬ B') :
    ((if A' then CommitteeStatus.accepted else if B' then .needsSidecar else .failed) =
        if A then CommitteeStatus.accepted else if B then .needsSidecar else .failed) ↔
      (A' ↔ A) ∧ (B' ↔ B) := by
  by_cases hA : A
  · have hB := h hA
    by_cases hA' : A'
    · simp [hA, hA', hB, h' hA']
    · by_cases hB' : B' <;> simp [hA, hA', hB']
  · by_cases hA' : A'
    · by_cases hB : B <;> simp [hA, hA', hB]
    · by_cases hB : B <;> by_cases hB' : B' <;> simp [hA, hA', hB, hB']

/-- Two pairs of scores have one status when they agree on whether both reach the quorum and
on whether one is below the other threshold. -/
theorem statusOf_eq_iff {quorum failure support support' mean mean' : ℚ}
    (hle : failure ≤ quorum) :
    statusOf quorum failure support' mean' = statusOf quorum failure support mean ↔
      ((quorum ≤ support' ∧ quorum ≤ mean') ↔ quorum ≤ support ∧ quorum ≤ mean) ∧
        ((support' < failure ∨ mean' < failure) ↔ support < failure ∨ mean < failure) := by
  have hdisjoint : ∀ s m : ℚ, quorum ≤ s ∧ quorum ≤ m → ¬ (s < failure ∨ m < failure) := by
    rintro s m ⟨hs, hm⟩ (hlt | hlt) <;> linarith
  exact status_ite_eq_iff (hdisjoint support mean) (hdisjoint support' mean')

/-- The status rule, on the numbers that a verdict reports. -/
def CommitteeVerdict.reportedStatus (verdict : CommitteeVerdict) : CommitteeStatus :=
  statusOf verdict.quorumThreshold verdict.failureThreshold verdict.supportScore
    verdict.confidenceMean

/-- A threshold of four decimals. -/
def FourDecimals (t : ℚ) : Prop := ∃ k : ℤ, t = k / 10000

/-- One approval of a confidence just below the quorum. -/
def almostSure : List CommitteeVote := [sampleVote "a" .approve (84996 / 100000)]

end Kovael.Committee
