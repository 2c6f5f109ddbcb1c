import Kovael.Sql

/-!
# Programs that can be run again after a stop

A list of steps is resumable if a step that was made is done, and stays done under the
steps after it: then the steps that come before a stop do nothing the second time, and
the list goes on where it was (`Resumable.steps_take`).

`Implements` says that the statements of a program are the steps of such a list, up to
what `view` leaves out of the database; a step that is done may be left out. What the
program means is then what the steps do (`Implements.eval`), and wherever a fault stops
it, it made the first steps of the list (`Implements.ends`).
-/

namespace Sql

variable {σ τ α β : Type}

/-! ## Steps -/

/-- The steps one after the other, up to the first that fails. -/
def steps : List (τ → Except String τ) → τ → Except String τ
  | [], s => .ok s
  | u :: us, s => (u s).bind (steps us)

/-- The step has nothing to do. -/
def Done (u : τ → Except String τ) (s : τ) : Prop := u s = .ok s

/-- Once done, the first step is done after the second, too. -/
def StaysDone (u v : τ → Except String τ) : Prop := ∀ s s', Done u s → v s = .ok s' → Done u s'

/-- A step that was made is done, and stays done under the steps after it. -/
structure Resumable (us : List (τ → Except String τ)) : Prop where
  made : ∀ u ∈ us, ∀ s s', u s = .ok s' → Done u s'
  stays : us.Pairwise StaysDone

theorem steps_append (us vs : List (τ → Except String τ)) (s : τ) :
    steps (us ++ vs) s = (steps us s).bind (steps vs) := by
  induction us generalizing s with
  | nil => rfl
  | cons u us ih =>
    rw [List.cons_append, steps, steps]
    cases u s with
    | error err => rfl
    | ok s' => exact ih s'

theorem steps_cons_ok {u : τ → Except String τ} {us : List (τ → Except String τ)} {s s' : τ}
    (h : steps (u :: us) s = .ok s') : ∃ s₁, u s = .ok s₁ ∧ steps us s₁ = .ok s' := by
  rw [steps] at h
  cases hu : u s with
  | error err =>
    rw [hu] at h
    cases h
  | ok s₁ =>
    rw [hu] at h
    exact ⟨s₁, rfl, h⟩

theorem steps_of_done {us : List (τ → Except String τ)} {s : τ} (h : ∀ u ∈ us, Done u s) :
    steps us s = .ok s := by
  induction us with
  | nil => rfl
  | cons u us ih =>
    rw [steps, h u (List.mem_cons_self ..)]
    exact ih fun v hv => h v (List.mem_cons_of_mem _ hv)

/-- What every step preserves, the run does. -/
theorem steps_induct {R : τ → τ → Prop} (hrefl : ∀ s, R s s)
    (htrans : ∀ {s₁ s₂ s₃}, R s₁ s₂ → R s₂ s₃ → R s₁ s₃) {us : List (τ → Except String τ)}
    (hstep : ∀ u ∈ us, ∀ s s', u s = .ok s' → R s s') :
    ∀ {s s'}, steps us s = .ok s' → R s s' := by
  induction us with
  | nil =>
    intro s s' h
    obtain rfl := Except.ok.inj h
    exact hrefl s
  | cons u us ih =>
    intro s s' h
    obtain ⟨s₁, hu, hus⟩ := steps_cons_ok h
    exact htrans (hstep u (List.mem_cons_self ..) s s₁ hu)
      (ih (fun v hv => hstep v (List.mem_cons_of_mem _ hv)) hus)

theorem done_steps {u : τ → Except String τ} {us : List (τ → Except String τ)}
    (hstays : ∀ v ∈ us, StaysDone u v) : ∀ {s s'}, Done u s → steps us s = .ok s' → Done u s' := by
  intro s s' hdone h
  refine @steps_induct _ (fun s s' => Done u s → Done u s') (fun _ h => h)
    (fun h₁ h₂ h => h₂ (h₁ h)) us ?_ s s' h hdone
  intro v hv s s' hstep hdone
  exact hstays v hv s s' hdone hstep

/-- After a run every step is done. -/
theorem Resumable.done {us : List (τ → Except String τ)} (h : Resumable us) :
    ∀ {s s'}, steps us s = .ok s' → ∀ u ∈ us, Done u s' := by
  induction us with
  | nil =>
    intro s s' _ u hu
    exact absurd hu List.not_mem_nil
  | cons u us ih =>
    intro s s' hrun v hv
    obtain ⟨s₁, hstep, hrest⟩ := steps_cons_ok hrun
    have hpairwise := List.pairwise_cons.mp h.stays
    rcases List.mem_cons.mp hv with rfl | hv
    · exact done_steps hpairwise.1 (h.made v (List.mem_cons_self ..) s s₁ hstep) hrest
    · exact ih ⟨fun w hw => h.made w (List.mem_cons_of_mem _ hw), hpairwise.2⟩ hrest v hv

theorem Resumable.take {us : List (τ → Except String τ)} (h : Resumable us) (k : Nat) :
    Resumable (us.take k) :=
  ⟨fun u hu => h.made u (List.take_subset k us hu), h.stays.sublist (List.take_sublist k us)⟩

/-- Run again after a stop, the steps do what they would have done without it. -/
theorem Resumable.steps_take {us : List (τ → Except String τ)} (h : Resumable us) {k : Nat}
    {s s' : τ} (hrun : steps (us.take k) s = .ok s') : steps us s' = steps us s := by
  have hdone := steps_of_done ((h.take k).done hrun)
  calc steps us s' = (steps (us.take k) s').bind (steps (us.drop k)) := by
        rw [← steps_append, List.take_append_drop]
    _ = steps (us.drop k) s' := by rw [hdone]; rfl
    _ = (steps (us.take k) s).bind (steps (us.drop k)) := by rw [hrun]; rfl
    _ = steps us s := by rw [← steps_append, List.take_append_drop]

/-! ## Programs -/

/-- From `s` on, the program makes the steps on what `view` shows. -/
inductive Implements (view : σ → τ) : Prog σ α → σ → List (τ → Except String τ) → Prop
  | done (a : α) (s : σ) : Implements view (.done (.ok a)) s []
  /-- What the program throws itself is how the step fails. -/
  | throws {err : String} {s : σ} {u : τ → Except String τ} {us : List (τ → Except String τ)}
      (hstep : u (view s) = .error err) : Implements view (.done (.error err)) s (u :: us)
  | exec {β' : Type} {f : σ → Except String (σ × β')} {rest : Except String β' → Prog σ α} {s : σ}
      {u : τ → Except String τ} {us : List (τ → Except String τ)}
      (herror : ∀ err, rest (.error err) = .done (.error err))
      (hstep : u (view s) = (f s).map fun r => view r.1)
      (hrest : ∀ s' b, f s = .ok (s', b) → Implements view (rest (.ok b)) s' us) :
      Implements view (.exec (Db.apply f) rest) s (u :: us)
  /-- A statement that only reads. -/
  | read {β' : Type} {f : σ → Except String (σ × β')} {rest : Except String β' → Prog σ α} {s : σ}
      {b : β'} {us : List (τ → Except String τ)}
      (herror : ∀ err, rest (.error err) = .done (.error err)) (hread : f s = .ok (s, b))
      (hrest : Implements view (rest (.ok b)) s us) :
      Implements view (.exec (Db.apply f) rest) s us
  | skip {p : Prog σ α} {s : σ} {u : τ → Except String τ} {us : List (τ → Except String τ)}
      (hdone : Done u (view s)) (hrest : Implements view p s us) : Implements view p s (u :: us)

variable {view : σ → τ}

/-- One statement. -/
theorem implements_sql {f : σ → Except String (σ × β)} {s : σ} {u : τ → Except String τ}
    (hstep : u (view s) = (f s).map fun r => view r.1) : Implements view (sql f) s [u] :=
  .exec (fun _ => rfl) hstep fun s' b _ => .done b s'

/-- One statement, and what comes after it. -/
theorem implements_sql_bind {f : σ → Except String (σ × β)} {k : β → Prog σ α} {s : σ}
    {u : τ → Except String τ} {us : List (τ → Except String τ)}
    (hstep : u (view s) = (f s).map fun r => view r.1)
    (hk : ∀ s' b, f s = .ok (s', b) → Implements view (k b) s' us) :
    Implements view (sql f >>= k) s (u :: us) :=
  @Implements.exec _ _ _ view _ f (fun r => (Prog.done r).bind k) s u us (fun _ => rfl) hstep hk

/-- A statement that only reads, and what comes after it. -/
theorem implements_read {f : σ → Except String (σ × β)} {k : β → Prog σ α} {s : σ} {b : β}
    {us : List (τ → Except String τ)} (hread : f s = .ok (s, b)) (hk : Implements view (k b) s us) :
    Implements view (sql f >>= k) s us :=
  @Implements.read _ _ _ view _ f (fun r => (Prog.done r).bind k) s b us (fun _ => rfl) hread hk

/-- A program and what comes after it. -/
theorem Implements.bind {p : Prog σ α} {k : α → Prog σ β} {s : σ}
    {us vs : List (τ → Except String τ)} (hp : Implements view p s us)
    (hk : ∀ s' a, p.eval s = .ok (s', a) → Implements view (k a) s' vs) :
    Implements view (p >>= k) s (us ++ vs) := by
  show Implements view (p.bind k) s (us ++ vs)
  induction hp with
  | done a s => exact hk s a rfl
  | throws hstep => exact .throws hstep
  | exec herror hstep hrest ih =>
    refine .exec ?_ hstep ?_
    · intro err
      show Prog.bind _ k = _
      rw [herror]
      rfl
    · intro s' b hf
      refine ih s' b hf ?_
      intro s'' a heval
      refine hk s'' a ?_
      rw [eval_exec herror, hf]
      exact heval
  | read herror hread hrest ih =>
    refine .read ?_ hread ?_
    · intro err
      show Prog.bind _ k = _
      rw [herror]
      rfl
    · refine ih ?_
      intro s'' a heval
      refine hk s'' a ?_
      rw [eval_exec herror, hread]
      exact heval
  | skip hdone hrest ih => exact .skip hdone (ih hk)

/-- Steps that are done may be left out. -/
theorem Implements.skips {p : Prog σ α} {s : σ} {us vs : List (τ → Except String τ)}
    (hdone : ∀ u ∈ us, Done u (view s)) (hp : Implements view p s vs) :
    Implements view p s (us ++ vs) := by
  induction us with
  | nil => exact hp
  | cons u us ih =>
    exact .skip (hdone u (List.mem_cons_self ..)) (ih fun v hv => hdone v (List.mem_cons_of_mem _ hv))

/-- What the program means is what the steps do. -/
theorem Implements.eval {p : Prog σ α} {s : σ} {us : List (τ → Except String τ)}
    (hp : Implements view p s us) : (p.eval s).map (fun r => view r.1) = steps us (view s) := by
  induction hp with
  | done a s => rfl
  | throws hstep =>
    rw [steps, hstep]
    rfl
  | @exec _ f rest s u us herror hstep hrest ih =>
    rw [eval_exec herror, steps, hstep]
    cases hf : f s with
    | error err => rfl
    | ok r => exact ih r.1 r.2 hf
  | @read _ f rest s b us herror hread hrest ih =>
    rw [eval_exec herror, hread]
    exact ih
  | skip hdone hrest ih =>
    rw [steps, hdone]
    exact ih

theorem Implements.eval_ok {p : Prog σ α} {s s' : σ} {a : α} {us : List (τ → Except String τ)}
    (hp : Implements view p s us) (h : p.eval s = .ok (s', a)) :
    steps us (view s) = .ok (view s') := by
  rw [← hp.eval, h]
  rfl

/-- Wherever faults stop it, the program made the first steps. -/
theorem Implements.ends {p : Prog σ α} {s : σ} {us : List (τ → Except String τ)}
    (hp : Implements view p s us) :
    Ends p s fun s' _ => ∃ k, steps (us.take k) (view s) = .ok (view s') := by
  induction hp with
  | done a s => exact ends_done ⟨0, rfl⟩
  | throws hstep => exact ends_done ⟨0, rfl⟩
  | @exec _ f rest s u us herror hstep hrest ih =>
    intro faults
    rw [Prog.run]
    have hthrown : ∀ err, ∃ s' faults' result,
        (rest (.error err)).run faults.tail ⟨s, none⟩ = ⟨⟨s', none⟩, faults', result⟩ ∧
          ∃ k, steps ((u :: us).take k) (view s) = .ok (view s') := by
      intro err
      rw [herror]
      exact ⟨s, faults.tail, .error err, rfl, 0, rfl⟩
    cases faults.head?.join with
    | some err => exact hthrown err
    | none =>
      cases hf : f s with
      | error err =>
        simp only [Prog.attempt, Db.apply, hf, Except.map]
        exact hthrown err
      | ok r =>
        simp only [Prog.attempt, Db.apply, hf, Except.map]
        obtain ⟨s', faults', result, hrun, k, hk⟩ := ih r.1 r.2 hf faults.tail
        refine ⟨s', faults', result, hrun, k + 1, ?_⟩
        rw [List.take_succ_cons, steps, hstep, hf]
        exact hk
  | @read _ f rest s b us herror hread hrest ih =>
    intro faults
    rw [Prog.run]
    cases faults.head?.join with
    | some err =>
      refine ⟨s, faults.tail, .error err, ?_, 0, rfl⟩
      show (rest (.error err)).run _ _ = _
      rw [herror]
      rfl
    | none =>
      simp only [Prog.attempt, Db.apply, hread, Except.map]
      exact ih faults.tail
  | @skip p s u us hdone hrest ih =>
    intro faults
    obtain ⟨s', faults', result, hrun, k, hk⟩ := ih faults
    refine ⟨s', faults', result, hrun, k + 1, ?_⟩
    rw [List.take_succ_cons, steps, hdone]
    exact hk

end Sql
