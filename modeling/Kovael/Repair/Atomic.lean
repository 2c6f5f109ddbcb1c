import Kovael.Repair.SelfHealer

/-!
# What a repair leaves in the repository

A call that ends `reverted`, or `failed` before it applied the patch, is meant to leave
HEAD, the index and the worktree as they were, and one that ends `applied` to leave the
patch, in HEAD too with `commitOnGreen`. Two steps of `commitRepair` break this:
- `git add -A` comes before `git commit`. Where the commit fails, the `catch` block
  reverses the patch in the worktree alone, and the index keeps it.
- `git add -A` passes over a path that is ignored and not tracked, and takes in one
  that the patch stops being ignored, so that HEAD is not the patched tree.

`atomic_iff` says when neither shows. `git apply --reverse` is taken to undo what
`git apply` made of the worktree that the call started with.
-/

namespace Kovael.Repair

variable {Path Content : Type}

/-! ## Statements -/

/-- As `git status --porcelain` has it where it prints nothing: untracked files are
ignored ones. -/
def Git.Clean (git : Git Path Content) (repo : Repo Path Content) : Prop :=
  repo.index = repo.head ∧
    ∀ path, repo.worktree path = repo.index path ∨
      repo.index path = none ∧ git.ignored repo.worktree path = true

/-- `tree` is `HEAD` with the changes that the patch makes to the worktree. -/
def Git.HeadPatched (git : Git Path Content) (patch : String) (start : Repo Path Content)
    (tree : Tree Path Content) : Prop :=
  ∀ path,
    (git.apply patch start.worktree path = start.worktree path → tree path = start.head path) ∧
      (git.apply patch start.worktree path ≠ start.worktree path →
        tree path = git.apply patch start.worktree path)

/-- The repository is as it was, or it has the patch. -/
def Atomic (healer : SelfHealer) (git : Git Path Content) (receipt : Receipt)
    (start : Repo Path Content) (ran : Ran Path Content) : Prop :=
  ∀ result, ran.result = .ok result →
    (result.status = .reverted ∨
        result.status = .failed ∧ result.reason ≠ some "rollback_failed" →
      ran.world.repo = start) ∧
    (result.status = .applied →
      ∃ patch, extractRepairPatch receipt.evidence = some patch ∧
        ran.world.repo.worktree = git.apply patch start.worktree ∧
        (healer.commitOnGreen = true → git.HeadPatched patch start ran.world.repo.head))

/-! ## Outcomes -/

namespace Outcomes

/-- The error before the patch is applied. -/
def refusal (outcomes : Outcomes) : Option String := outcomes.check.or outcomes.apply

/-- The error of the `try` block. -/
def failure (commitOnGreen : Bool) (outcomes : Outcomes) : Option String :=
  outcomes.refusal.or (outcomes.test.or
    (if commitOnGreen then outcomes.add.or outcomes.commit else none))

/-- `git add -A` succeeds, if the patch is applied at all. -/
def stages (commitOnGreen : Bool) (outcomes : Outcomes) : Bool :=
  commitOnGreen && outcomes.test.isNone && outcomes.add.isNone

/-- The commit fails after its `git add -A` succeeded. -/
def leavesStaged (commitOnGreen : Bool) (outcomes : Outcomes) : Bool :=
  outcomes.refusal.isNone && outcomes.stages commitOnGreen && outcomes.commit.isSome

/-- The patch is applied, the repair fails, and the patch is reversed. -/
def rolledBack (commitOnGreen : Bool) (outcomes : Outcomes) : Bool :=
  outcomes.refusal.isNone && (outcomes.failure commitOnGreen).isSome && outcomes.reverse.isNone

/-- An attempt after which nothing is promised of the index: the repair succeeds, its
rollback fails, or it is refused with an error that reads as a failed rollback. -/
def Forgiven (commitOnGreen : Bool) (outcomes : Outcomes) : Prop :=
  outcomes.failure commitOnGreen = none ∨
    outcomes.refusal = none ∧ outcomes.reverse ≠ none ∨
    ∃ message, outcomes.refusal = some message ∧ redactReason message = "rollback_failed"

end Outcomes

/-- The attempts that the loop makes from `attempt` on. -/
def SelfHealer.attemptsFrom (healer : SelfHealer) : Nat → List Outcomes → List Outcomes
  | _, [] => []
  | attempt, outcomes :: runs =>
    if (Js.Number.ofNat attempt).le healer.maxAttempts then
      outcomes ::
        if outcomes.rolledBack healer.commitOnGreen = true ∧
            Js.Number.ofNat attempt ≠ healer.maxAttempts then
          healer.attemptsFrom (attempt + 1) runs
        else []
    else []

/-- `git add -A` finds nothing to stage in the patched worktree. -/
def Git.StagesNothing (git : Git Path Content) (patch : String) (start : Repo Path Content) :
    Prop :=
  git.stage start.index (git.apply patch start.worktree) = start.index

/-- `git add -A` stages the patch: it writes no untracked path that is ignored, and no
file that it leaves alone stops being ignored. -/
def Git.StagesPatch (git : Git Path Content) (patch : String) (start : Repo Path Content) :
    Prop :=
  ∀ path, start.index path = none →
    if git.ignored (git.apply patch start.worktree) path then
      git.apply patch start.worktree path = start.worktree path ∨
        git.apply patch start.worktree path = none
    else
      git.apply patch start.worktree path = start.worktree path → start.worktree path = none

/-- The attempts made leave nothing behind that the result does not tell: where one left
the patch staged, a later one is forgiven or there was nothing to stage, and a repair
that is committed stages the patch. -/
structure Recovers (healer : SelfHealer) (git : Git Path Content) (patch : String)
    (start : Repo Path Content) (made : List Outcomes) : Prop where
  unstaged : (∃ o ∈ made, o.leavesStaged healer.commitOnGreen = true) →
    (∃ o ∈ made, o.Forgiven healer.commitOnGreen) ∨ git.StagesNothing patch start
  committed : healer.commitOnGreen = true →
    (∃ o ∈ made, o.failure healer.commitOnGreen = none) → git.StagesPatch patch start

/-! ## Staging -/

theorem Git.stage_stage (git : Git Path Content) (index worktree : Tree Path Content) :
    git.stage (git.stage index worktree) worktree = git.stage index worktree := by
  funext path
  unfold Git.stage
  by_cases hskip : ((index path).isNone && git.ignored worktree path) = true
  · rw [if_pos hskip, if_pos]
    rw [Bool.and_eq_true] at hskip ⊢
    exact ⟨rfl, hskip.2⟩
  · rw [if_neg hskip]
    split
    · next h =>
      rw [Bool.and_eq_true, Option.isNone_iff_eq_none] at h
      exact h.1.symm
    · rfl

/-- From a clean start, what is staged is HEAD with the patch just where `StagesPatch`
says so: a tracked path is staged whether it is ignored or not. -/
theorem Git.headPatched_stage_iff (git : Git Path Content) {patch : String}
    {start : Repo Path Content} (hclean : git.Clean start) :
    git.HeadPatched patch start (git.stage start.index (git.apply patch start.worktree)) ↔
      git.StagesPatch patch start := by
  obtain ⟨hindex, hworktree⟩ := hclean
  refine forall_congr' fun path => ?_
  rw [Git.stage, ← hindex]
  cases hpath : start.index path with
  | some content =>
    have hsame : start.worktree path = some content := by
      rcases hworktree path with h | ⟨h, -⟩
      · rw [h, hpath]
      · rw [hpath] at h
        exact nomatch h
    rw [hsame]
    simp
  | none =>
    by_cases hignored : git.ignored (git.apply patch start.worktree) path = true
    · simp only [hignored, Option.isNone_none, Bool.and_self, if_true, implies_true, true_and,
        forall_const]
      constructor
      · intro h
        by_cases hsame : git.apply patch start.worktree path = start.worktree path
        · exact Or.inl hsame
        · exact Or.inr (h hsame).symm
      · rintro (h | h) hdiff
        · exact absurd h hdiff
        · exact h.symm
    · simp only [hignored, Bool.and_false, Bool.false_eq_true, if_false, forall_const]
      constructor
      · intro hgiven
        obtain ⟨h, -⟩ := hgiven
        intro hsame
        rw [← hsame]
        exact h hsame
      · intro h
        exact ⟨fun hsame => hsame.trans (h hsame), fun _ => trivial⟩

/-! ## One attempt -/

section Attempt

variable {healer : SelfHealer} {git : Git Path Content} {receipt : Receipt} {patch : String}
  {attempt : Nat} {o : Outcomes} {world : World Path Content}

theorem tryRepair_of_refusal {message : String} (h : o.refusal = some message) :
    healer.tryRepair git receipt patch attempt o world =
      { world, applied := false, thrown := some message } := by
  unfold SelfHealer.tryRepair
  cases hcheck : o.check with
  | some text =>
    rw [Outcomes.refusal, hcheck, Option.some_or, Option.some.injEq] at h
    rw [h]
  | none =>
    rw [Outcomes.refusal, hcheck, Option.none_or] at h
    rw [h]

/-- Once the patch is applied, `add` and `commit` act where nothing failed before them. -/
theorem tryRepair_of_applied (h : o.refusal = none) :
    healer.tryRepair git receipt patch attempt o world =
      { world :=
          { repo :=
              { commits :=
                  if healer.commitOnGreen && (o.failure healer.commitOnGreen).isNone then
                    ⟨SelfHealer.commitMessage receipt,
                      git.stage world.repo.index (git.apply patch world.repo.worktree)⟩ ::
                        world.repo.commits
                  else world.repo.commits
                index :=
                  if o.stages healer.commitOnGreen then
                    git.stage world.repo.index (git.apply patch world.repo.worktree)
                  else world.repo.index
                worktree := git.apply patch world.repo.worktree }
            events := (world.emitEvent .patchApplied receipt attempt none).events }
        applied := true
        thrown := o.failure healer.commitOnGreen } := by
  obtain ⟨hcheck, happly⟩ := Option.or_eq_none_iff.mp h
  unfold SelfHealer.tryRepair Outcomes.failure Outcomes.stages
  rw [hcheck, happly, h, Option.none_or]
  cases htest : o.test with
  | some message => simp [World.emitEvent]
  | none =>
    cases hgreen : healer.commitOnGreen with
    | false => simp [World.emitEvent]
    | true =>
      cases hadd : o.add with
      | some message => simp [SelfHealer.commitRepair, World.emitEvent, hadd]
      | none =>
        cases hcommit : o.commit with
        | some message =>
          simp [SelfHealer.commitRepair, Git.add, World.emitEvent, hadd, hcommit]
        | none =>
          simp [SelfHealer.commitRepair, Git.add, Repo.commit, World.emitEvent, hadd, hcommit]

variable {runs : List Outcomes} {message : String}

theorem attemptLoop_of_refusal (hle : (Js.Number.ofNat attempt).le healer.maxAttempts = true)
    (h : o.refusal = some message) :
    healer.attemptLoop git receipt patch attempt world (o :: runs) =
      some
        { result := .ok { status := .failed, attempts := .ofNat attempt
                          reason := some (redactReason message) }
          world := world.emitEvent .failed receipt attempt (some (redactReason message)) } := by
  rw [SelfHealer.attemptLoop, if_pos hle]
  simp only [tryRepair_of_refusal h]
  rfl

theorem attemptLoop_of_success (hle : (Js.Number.ofNat attempt).le healer.maxAttempts = true)
    (h : o.refusal = none) (hthrown : o.failure healer.commitOnGreen = none) :
    healer.attemptLoop git receipt patch attempt world (o :: runs) =
      some
        { result := .ok { status := .applied, attempts := .ofNat attempt, reason := none }
          world := (healer.tryRepair git receipt patch attempt o world).world } := by
  rw [SelfHealer.attemptLoop, if_pos hle]
  simp only [tryRepair_of_applied h, hthrown]

theorem attemptLoop_of_stuck (hle : (Js.Number.ofNat attempt).le healer.maxAttempts = true)
    (h : o.refusal = none) (hthrown : o.failure healer.commitOnGreen = some message)
    (hreverse : o.reverse ≠ none) :
    healer.attemptLoop git receipt patch attempt world (o :: runs) =
      some
        { result := .ok { status := .failed, attempts := .ofNat attempt
                          reason := some "rollback_failed" }
          world := (healer.tryRepair git receipt patch attempt o world).world.emitEvent
            .failed receipt attempt (some "rollback_failed") } := by
  obtain ⟨text, htext⟩ := Option.ne_none_iff_exists'.mp hreverse
  rw [SelfHealer.attemptLoop, if_pos hle]
  simp only [tryRepair_of_applied h, hthrown, htext]
  rfl

theorem attemptLoop_of_rollback
    (hle : (Js.Number.ofNat attempt).le healer.maxAttempts = true) (h : o.refusal = none)
    (hthrown : o.failure healer.commitOnGreen = some message) (hreverse : o.reverse = none)
    {next : World Path Content}
    (hnext : next = SelfHealer.rollback git receipt patch attempt (redactReason message)
      (healer.tryRepair git receipt patch attempt o world).world) :
    healer.attemptLoop git receipt patch attempt world (o :: runs) =
      if Js.Number.ofNat attempt = healer.maxAttempts then
        some
          { result := .ok { status := .reverted, attempts := .ofNat attempt
                            reason := some (redactReason message) }
            world := next.emitEvent .failed receipt attempt (some (redactReason message)) }
      else healer.attemptLoop git receipt patch (attempt + 1) next runs := by
  rw [SelfHealer.attemptLoop, if_pos hle, hnext]
  simp only [tryRepair_of_applied h, hthrown, hreverse]
  rfl

/-- The rollback restores the worktree; nothing takes the patch out of the index. -/
theorem rollback_repo (h : o.refusal = none) (hthrown : o.failure healer.commitOnGreen = some message)
    (reason : String) :
    (SelfHealer.rollback git receipt patch attempt reason
        (healer.tryRepair git receipt patch attempt o world).world).repo =
      { world.repo with
        index :=
          if o.stages healer.commitOnGreen then
            git.stage world.repo.index (git.apply patch world.repo.worktree)
          else world.repo.index
        worktree := git.reverse patch (git.apply patch world.repo.worktree) } := by
  rw [SelfHealer.rollback, World.emitEvent, tryRepair_of_applied h]
  simp [hthrown]

end Attempt

/-! ## Between two attempts -/

section Loop

variable {healer : SelfHealer} {git : Git Path Content} {receipt : Receipt} {patch : String}
  {start : Repo Path Content} {ran : Ran Path Content} {staged : Bool}

/-- The repository between two attempts: as it was, or with the patch still staged. -/
def held (git : Git Path Content) (patch : String) (start : Repo Path Content) (staged : Bool) :
    Repo Path Content :=
  { start with
    index :=
      if staged then git.stage start.index (git.apply patch start.worktree) else start.index }

theorem held_eq_iff :
    held git patch start staged = start ↔ (staged = true → git.StagesNothing patch start) := by
  cases staged with
  | false => exact ⟨fun _ h => (nomatch h), fun _ => rfl⟩
  | true =>
    constructor
    · intro h _
      exact congrArg Repo.index h
    · intro h
      show { start with index := git.stage start.index (git.apply patch start.worktree) } = start
      rw [show git.stage start.index (git.apply patch start.worktree) = start.index from h rfl]

/-- Staging the patch once more changes nothing. -/
theorem stage_held :
    git.stage (held git patch start staged).index (git.apply patch start.worktree) =
      git.stage start.index (git.apply patch start.worktree) := by
  cases staged with
  | false => rfl
  | true => exact git.stage_stage _ _

/-- What one attempt that is rolled back leaves behind. -/
theorem rollback_held {o : Outcomes} {message reason : String} {attempt : Nat}
    {world : World Path Content}
    (hreverse : git.reverse patch (git.apply patch start.worktree) = start.worktree)
    (hworld : world.repo = held git patch start staged) (h : o.refusal = none)
    (hthrown : o.failure healer.commitOnGreen = some message) :
    (SelfHealer.rollback git receipt patch attempt reason
        (healer.tryRepair git receipt patch attempt o world).world).repo =
      held git patch start (staged || o.stages healer.commitOnGreen) := by
  have hworktree : world.repo.worktree = start.worktree := by rw [hworld]; rfl
  rw [rollback_repo h hthrown, hworktree, hreverse, hworld, stage_held]
  cases o.stages healer.commitOnGreen with
  | false => rw [Bool.or_false]; rfl
  | true => rw [Bool.or_true]; rfl

/-! ## How a loop ends -/

theorem atomic_kept_iff {result : SelfHealResult} (h : ran.result = .ok result)
    (hkept : result.status = .reverted ∨
      result.status = .failed ∧ result.reason ≠ some "rollback_failed") :
    Atomic healer git receipt start ran ↔ ran.world.repo = start := by
  constructor
  · intro hatomic
    exact (hatomic result h).1 hkept
  · intro hrepo result' h'
    obtain rfl : result = result' := Except.ok.inj (h.symm.trans h')
    refine ⟨fun _ => hrepo, fun happlied => ?_⟩
    rw [happlied] at hkept
    rcases hkept with hkept | ⟨hkept, -⟩ <;> exact nomatch hkept

theorem atomic_of_rollback_failed {attempts : Js.Number}
    (h : ran.result = .ok { status := .failed, attempts, reason := some "rollback_failed" }) :
    Atomic healer git receipt start ran := by
  intro result hresult
  obtain rfl := Except.ok.inj (h.symm.trans hresult)
  refine ⟨?_, fun h => nomatch h⟩
  intro hcases
  rcases hcases with h | ⟨-, h⟩
  · exact nomatch h
  · exact absurd rfl h

theorem atomic_applied_iff {attempts : Js.Number}
    (h : ran.result = .ok { status := .applied, attempts, reason := none })
    (hpatch : extractRepairPatch receipt.evidence = some patch)
    (hworktree : ran.world.repo.worktree = git.apply patch start.worktree) :
    Atomic healer git receipt start ran ↔
      (healer.commitOnGreen = true → git.HeadPatched patch start ran.world.repo.head) := by
  constructor
  · intro hatomic
    obtain ⟨patch', hpatch', -, hhead⟩ := (hatomic _ h).2 rfl
    obtain rfl : patch = patch' := Option.some.inj (hpatch.symm.trans hpatch')
    exact hhead
  · intro hhead result hresult
    obtain rfl := Except.ok.inj (h.symm.trans hresult)
    refine ⟨?_, fun _ => ⟨patch, hpatch, hworktree, hhead⟩⟩
    rintro (h | ⟨h, -⟩) <;> exact nomatch h

/-- `Recovers`, after attempts that may have left the patch staged. -/
def RecoversFrom (healer : SelfHealer) (git : Git Path Content) (patch : String)
    (start : Repo Path Content) (staged : Bool) (made : List Outcomes) : Prop :=
  ((staged = true ∨ ∃ o ∈ made, o.leavesStaged healer.commitOnGreen = true) →
    (∃ o ∈ made, o.Forgiven healer.commitOnGreen) ∨ git.StagesNothing patch start) ∧
  (healer.commitOnGreen = true → (∃ o ∈ made, o.failure healer.commitOnGreen = none) →
    git.StagesPatch patch start)

theorem recoversFrom_nil :
    RecoversFrom healer git patch start staged [] ↔ held git patch start staged = start := by
  rw [held_eq_iff]
  simp [RecoversFrom]

theorem recoversFrom_refusal {o : Outcomes} {message : String} (h : o.refusal = some message) :
    RecoversFrom healer git patch start staged [o] ↔
      (redactReason message ≠ "rollback_failed" → held git patch start staged = start) := by
  have hfailure : o.failure healer.commitOnGreen ≠ none := by
    simp [Outcomes.failure, h]
  have hstaged : o.leavesStaged healer.commitOnGreen = false := by
    simp [Outcomes.leavesStaged, h]
  have hforgiven : o.Forgiven healer.commitOnGreen ↔ redactReason message = "rollback_failed" := by
    simp [Outcomes.Forgiven, hfailure, h]
  rw [held_eq_iff]
  simp only [RecoversFrom, List.mem_singleton, exists_eq_left, hstaged, hfailure, hforgiven]
  grind

theorem recoversFrom_success {o : Outcomes} (h : o.failure healer.commitOnGreen = none) :
    RecoversFrom healer git patch start staged [o] ↔
      (healer.commitOnGreen = true → git.StagesPatch patch start) := by
  have hforgiven : o.Forgiven healer.commitOnGreen := Or.inl h
  simp [RecoversFrom, hforgiven, h]

theorem recoversFrom_stuck {o : Outcomes} {message : String} (h : o.refusal = none)
    (hthrown : o.failure healer.commitOnGreen = some message) (hreverse : o.reverse ≠ none) :
    RecoversFrom healer git patch start staged [o] := by
  have hforgiven : o.Forgiven healer.commitOnGreen := Or.inr (Or.inl ⟨h, hreverse⟩)
  simp [RecoversFrom, hforgiven, hthrown]

/-- Where `git add -A` succeeded and the attempt failed, its commit did. -/
theorem Outcomes.leavesStaged_of_failure {c : Bool} {o : Outcomes} {message : String}
    (h : o.refusal = none) (hthrown : o.failure c = some message) :
    o.leavesStaged c = o.stages c := by
  rw [Outcomes.leavesStaged, h, Option.isNone_none, Bool.true_and]
  cases hstages : o.stages c with
  | false => rfl
  | true =>
    simp only [Outcomes.stages, Bool.and_eq_true, Option.isNone_iff_eq_none] at hstages
    obtain ⟨⟨hgreen, htest⟩, hadd⟩ := hstages
    rw [Outcomes.failure, h, htest, hgreen, if_pos rfl, hadd] at hthrown
    simp only [Option.none_or] at hthrown
    rw [hthrown]
    rfl

theorem recoversFrom_rollback {o : Outcomes} {message : String} {made : List Outcomes}
    (h : o.refusal = none) (hthrown : o.failure healer.commitOnGreen = some message)
    (hreverse : o.reverse = none) :
    RecoversFrom healer git patch start staged (o :: made) ↔
      RecoversFrom healer git patch start (staged || o.stages healer.commitOnGreen) made := by
  have hforgiven : ¬o.Forgiven healer.commitOnGreen := by
    simp [Outcomes.Forgiven, h, hthrown, hreverse]
  simp only [RecoversFrom, List.exists_mem_cons_iff, hforgiven, hthrown, Bool.or_eq_true,
    Outcomes.leavesStaged_of_failure h hthrown, false_or, reduceCtorEq, or_assoc]

/-! ## The loop -/

/-- The induction is on the outcomes; what an attempt leaves staged goes over to the next. -/
theorem attemptLoop_iff
    (hreverse : git.reverse patch (git.apply patch start.worktree) = start.worktree)
    (hclean : git.Clean start) (hpatch : extractRepairPatch receipt.evidence = some patch)
    {runs : List Outcomes} {attempt : Nat} {world : World Path Content}
    (hworld : world.repo = held git patch start staged)
    (hrun : healer.attemptLoop git receipt patch attempt world runs = some ran) :
    Atomic healer git receipt start ran ↔
      RecoversFrom healer git patch start staged (healer.attemptsFrom attempt runs) := by
  induction runs generalizing attempt staged world with
  | nil =>
    by_cases hle : (Js.Number.ofNat attempt).le healer.maxAttempts = true
    · rw [SelfHealer.attemptLoop, if_pos hle] at hrun
      exact nomatch hrun
    · rw [SelfHealer.attemptLoop, if_neg hle, Option.some.injEq] at hrun
      rw [← hrun, atomic_kept_iff rfl (Or.inr ⟨rfl, by simp⟩), hworld]
      exact recoversFrom_nil.symm
  | cons o runs ih =>
    rw [SelfHealer.attemptsFrom]
    by_cases hle : (Js.Number.ofNat attempt).le healer.maxAttempts = true
    swap
    · rw [SelfHealer.attemptLoop, if_neg hle, Option.some.injEq] at hrun
      rw [← hrun, atomic_kept_iff rfl (Or.inr ⟨rfl, by simp⟩), hworld, if_neg hle]
      exact recoversFrom_nil.symm
    rw [if_pos hle]
    have hworktree : world.repo.worktree = start.worktree := by rw [hworld]; rfl
    cases hrefusal : o.refusal with
    | some message =>
      -- the patch does not apply, and the repository stays as the last attempt left it
      rw [attemptLoop_of_refusal hle hrefusal, Option.some.injEq] at hrun
      have hnot : ¬(o.rolledBack healer.commitOnGreen = true ∧
          Js.Number.ofNat attempt ≠ healer.maxAttempts) := by
        simp [Outcomes.rolledBack, hrefusal]
      rw [if_neg hnot, recoversFrom_refusal hrefusal, ← hrun]
      by_cases hreason : redactReason message = "rollback_failed"
      · rw [hreason]
        exact iff_of_true (atomic_of_rollback_failed rfl) fun h => absurd rfl h
      · rw [atomic_kept_iff rfl (Or.inr ⟨rfl, fun h => hreason (Option.some.inj h)⟩)]
        show world.repo = start ↔ _
        rw [hworld]
        exact ⟨fun h _ => h, fun h => h hreason⟩
    | none =>
      cases hthrown : o.failure healer.commitOnGreen with
      | none =>
        rw [attemptLoop_of_success hle hrefusal hthrown, Option.some.injEq] at hrun
        have hnot : ¬(o.rolledBack healer.commitOnGreen = true ∧
            Js.Number.ofNat attempt ≠ healer.maxAttempts) := by
          simp [Outcomes.rolledBack, hthrown]
        rw [if_neg hnot, recoversFrom_success hthrown, ← hrun, tryRepair_of_applied hrefusal,
          hthrown, hworktree, hworld, stage_held,
          atomic_applied_iff rfl hpatch rfl]
        refine forall_congr' fun hgreen => ?_
        rw [← git.headPatched_stage_iff hclean]
        simp [hgreen, Repo.head]
      | some message =>
        cases hback : o.reverse with
        | some text =>
          have hstuck : o.reverse ≠ none := by simp [hback]
          rw [attemptLoop_of_stuck hle hrefusal hthrown hstuck, Option.some.injEq] at hrun
          have hnot : ¬(o.rolledBack healer.commitOnGreen = true ∧
              Js.Number.ofNat attempt ≠ healer.maxAttempts) := by
            simp [Outcomes.rolledBack, hback]
          rw [if_neg hnot, ← hrun]
          exact iff_of_true (atomic_of_rollback_failed rfl)
            (recoversFrom_stuck hrefusal hthrown hstuck)
        | none =>
          have hrolled : o.rolledBack healer.commitOnGreen = true := by
            simp [Outcomes.rolledBack, hrefusal, hthrown, hback]
          rw [attemptLoop_of_rollback hle hrefusal hthrown hback rfl] at hrun
          have hnext : (SelfHealer.rollback git receipt patch attempt (redactReason message)
              (healer.tryRepair git receipt patch attempt o world).world).repo =
                held git patch start (staged || o.stages healer.commitOnGreen) :=
            rollback_held hreverse hworld hrefusal hthrown
          rw [recoversFrom_rollback hrefusal hthrown hback]
          by_cases hlast : Js.Number.ofNat attempt = healer.maxAttempts
          · rw [if_pos hlast, Option.some.injEq] at hrun
            rw [if_neg fun h => h.2 hlast, recoversFrom_nil, ← hrun,
              atomic_kept_iff rfl (Or.inl rfl)]
            exact Eq.congr_left hnext
          · rw [if_neg hlast] at hrun
            rw [if_pos ⟨hrolled, hlast⟩]
            exact ih hnext hrun

end Loop

/-! ## The call -/

theorem extractRepairPatch_of_guards {healer : SelfHealer} {before : Before} {receipt : Receipt}
    {patch : String} (h : healer.guards before receipt = .ok patch) :
    extractRepairPatch receipt.evidence = some patch := by
  unfold SelfHealer.guards at h
  split_ifs at h
  split at h
  · exact nomatch h
  · split_ifs at h
    split at h
    · exact nomatch h
    · next patch' hpatch =>
      split at h
      · exact nomatch h
      · split at h
        · exact nomatch h
        · split_ifs at h
          rw [hpatch, Except.ok.inj h]

/-- A repair is atomic just where the attempts it makes recover. -/
theorem atomic_iff {healer : SelfHealer} {git : Git Path Content} {before : Before}
    {receipt : Receipt} {runs : List Outcomes} {start : Repo Path Content}
    {events : List SelfHealEvent} {ran : Ran Path Content}
    (hreverse : ∀ patch ∈ extractRepairPatch receipt.evidence,
      git.reverse patch (git.apply patch start.worktree) = start.worktree)
    (hclean : git.Clean start)
    (hrun : healer.repairFromReceipt git before receipt runs { repo := start, events } = some ran) :
    Atomic healer git receipt start ran ↔
      ∀ patch, healer.guards before receipt = .ok patch →
        Recovers healer git patch start (healer.attemptsFrom 1 runs) := by
  unfold SelfHealer.repairFromReceipt at hrun
  split at hrun
  · next reason hguards =>
    rw [Option.some.injEq] at hrun
    refine iff_of_true ?_ fun patch h => nomatch hguards.symm.trans h
    intro result hresult
    obtain rfl := Except.ok.inj ((congrArg Ran.result hrun).trans hresult)
    refine ⟨?_, fun h => nomatch h⟩
    rintro (h | ⟨h, -⟩) <;> exact nomatch h
  · next message hguards =>
    rw [Option.some.injEq] at hrun
    refine iff_of_true ?_ fun patch h => nomatch hguards.symm.trans h
    intro result hresult
    exact nomatch (congrArg Ran.result hrun).trans hresult
  · next patch hguards =>
    have hpatch := extractRepairPatch_of_guards hguards
    have hstart : ({ repo := start, events } : World Path Content).repo = held git patch start false :=
      rfl
    rw [attemptLoop_iff (hreverse patch hpatch) hclean hpatch hstart hrun]
    constructor
    · intro hgiven
      obtain ⟨hunstaged, hcommitted⟩ := hgiven
      intro patch' h
      obtain rfl := Except.ok.inj (hguards.symm.trans h)
      exact ⟨fun hleft => hunstaged (Or.inr hleft), hcommitted⟩
    · intro h
      obtain ⟨hunstaged, hcommitted⟩ := h patch hguards
      refine ⟨?_, hcommitted⟩
      intro hcases
      rcases hcases with h | hleft
      · exact nomatch h
      · exact hunstaged hleft

/-- One line of one file, as the patch below replaces it. -/
def sampleGit : Git String String where
  apply _ worktree := fun path =>
    if path = "target.txt" ∧ worktree path = some "old\n" then some "new\n" else worktree path
  reverse _ worktree := fun path =>
    if path = "target.txt" ∧ worktree path = some "new\n" then some "old\n" else worktree path
  ignored _ _ := false

def sampleTree : Tree String String := fun path => if path = "target.txt" then some "old\n" else none

def sampleStart : Repo String String :=
  { commits := [⟨"init", sampleTree⟩], index := sampleTree, worktree := sampleTree }

def sampleReceipt : Receipt :=
  { status := .failed, cycleId := "c1", taskHash := "h1"
    evidence := "\x7b\"repairPatch\":\"--- a/target.txt\\n+++ b/target.txt\\n" ++
      "@@ -1 +1 @@\\n-old\\n+new\\n\"\x7d" }

def sampleHealer : SelfHealer :=
  { branchName := some "stage4/autonomic-swarm", autoApply := true }

def sampleBefore : Before := { branch := .ok "", status := .ok "" }

/-- The sample repair with the outcomes of its attempts. -/
def sampleRepair (runs : List Outcomes) : Option (Ran String String) :=
  sampleHealer.repairFromReceipt sampleGit sampleBefore sampleReceipt runs
    { repo := sampleStart, events := [] }

theorem sampleGit_clean : sampleGit.Clean sampleStart :=
  ⟨rfl, fun _ => Or.inl rfl⟩

theorem sampleGit_reverse (patch : String) :
    sampleGit.reverse patch (sampleGit.apply patch sampleStart.worktree) = sampleStart.worktree := by
  funext path
  by_cases hpath : path = "target.txt"
  · simp [sampleGit, sampleStart, sampleTree, hpath]
  · simp [sampleGit, hpath]

/-- The test fails at the first attempt, and the second is committed. -/
theorem second_attempt_atomic :
    ∃ ran, sampleRepair [{ test := some "exit 1" }, {}] = some ran ∧
      Atomic sampleHealer sampleGit sampleReceipt sampleStart ran := by
  have hend : (sampleRepair [{ test := some "exit 1" }, {}]).isSome = true := by decide +kernel
  obtain ⟨ran, hrun⟩ := Option.isSome_iff_exists.mp hend
  refine ⟨ran, hrun, (atomic_iff (fun patch _ => sampleGit_reverse patch) sampleGit_clean
    hrun).mpr fun patch _ => ⟨?_, ?_⟩⟩
  · intro hgiven
    obtain ⟨o, ho, hleft⟩ := hgiven
    have hnone : ∀ o ∈ sampleHealer.attemptsFrom 1 [{ test := some "exit 1" }, {}],
        o.leavesStaged sampleHealer.commitOnGreen = false := by
      decide +kernel
    rw [hnone o ho] at hleft
    exact nomatch hleft
  · intro _ _ path hindex
    exact fun _ => hindex

/-- Both commits fail: the result is `reverted`, and the index has the patch. -/
theorem failed_commit_stays_staged :
    ∃ ran, sampleRepair [{ commit := some "hook" }, { commit := some "hook" }] = some ran ∧
      ran.result = .ok { status := .reverted, attempts := .ofNat 2, reason := some "hook" } ∧
      ran.world.repo.worktree "target.txt" = some "old\n" ∧
      ran.world.repo.index "target.txt" = some "new\n" ∧
      ¬Atomic sampleHealer sampleGit sampleReceipt sampleStart ran := by
  have hend : (sampleRepair [{ commit := some "hook" }, { commit := some "hook" }]).map
      (fun ran => (ran.result.toOption, ran.world.repo.worktree "target.txt",
        ran.world.repo.index "target.txt"))
      = some (some { status := .reverted, attempts := .ofNat 2, reason := some "hook" },
        some "old\n", some "new\n") := by
    decide +kernel
  obtain ⟨ran, hrun, hran⟩ := Option.map_eq_some_iff.mp hend
  obtain ⟨hresult, hfiles⟩ := Prod.mk.inj hran
  obtain ⟨hworktree, hindex⟩ := Prod.mk.inj hfiles
  have hok : ran.result
      = .ok { status := .reverted, attempts := .ofNat 2, reason := some "hook" } := by
    cases hr : ran.result with
    | error message =>
      rw [hr] at hresult
      exact nomatch hresult
    | ok result =>
      rw [hr] at hresult
      exact congrArg Except.ok (Option.some.inj hresult)
  refine ⟨ran, hrun, hok, hworktree, hindex, fun hatomic => ?_⟩
  rw [(hatomic _ hok).1 (Or.inl rfl)] at hindex
  exact absurd hindex (by decide)

end Kovael.Repair
