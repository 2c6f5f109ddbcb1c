/-!
# Programs of statements over a database

A program executes one statement after the other and goes on with what each
returned; a statement that fails hands its error on instead, to be thrown or
caught. A statement outside a transaction is committed at once; between BEGIN
and COMMIT the statements see and write a working copy, which ROLLBACK drops.
A failing statement changes nothing.

`run` takes the faults of the run as a list, one entry for each statement that
is executed: `some err` makes the statement fail with `err`, whatever it is,
BEGIN and COMMIT included. Only ROLLBACK cannot fail. A fault between two
statements is one of the second of them.

`withTransaction_run` is what a transaction is for: under any faults it leaves
the database as it was and throws, or does all that its body does. `Ends p s Q`
says that `p`, started outside a transaction on `s`, ends outside a transaction
and meets `Q`, under any faults; its rules follow the structure of a program.
-/

namespace Sql

variable {σ α β : Type}

/-- What is committed, and the working copy of the transaction that is open. -/
structure Db (σ : Type) where
  committed : σ
  working : Option σ

/-- A statement that reads and writes what the connection sees. -/
def Db.apply (f : σ → Except String (σ × β)) (db : Db σ) : Except String (Db σ × β) :=
  match db.working with
  | some s => (f s).map fun r => (⟨db.committed, some r.1⟩, r.2)
  | none => (f db.committed).map fun r => (⟨r.1, none⟩, r.2)

/-- `BEGIN`. -/
def Db.begin (db : Db σ) : Except String (Db σ × Unit) :=
  match db.working with
  | some _ => .error "cannot start a transaction within a transaction"
  | none => .ok (⟨db.committed, some db.committed⟩, ())

/-- `COMMIT`. -/
def Db.commit (db : Db σ) : Except String (Db σ × Unit) :=
  match db.working with
  | some s => .ok (⟨s, none⟩, ())
  | none => .error "cannot commit - no transaction is active"

/-- A program. -/
inductive Prog (σ α : Type) : Type 1 where
  | done (result : Except String α)
  | exec {β : Type} (statement : Db σ → Except String (Db σ × β))
      (rest : Except String β → Prog σ α)
  | rollback (rest : Prog σ α)

namespace Prog

def bind : Prog σ α → (α → Prog σ β) → Prog σ β
  | done (.ok a), k => k a
  | done (.error err), _ => done (.error err)
  | exec statement rest, k => exec statement fun r => (rest r).bind k
  | rollback rest, k => rollback (rest.bind k)

/-- `try { p } catch (err) { handler(err) }`. -/
def catchError : Prog σ α → (String → Prog σ α) → Prog σ α
  | done (.ok a), _ => done (.ok a)
  | done (.error err), handler => handler err
  | exec statement rest, handler => exec statement fun r => (rest r).catchError handler
  | rollback rest, handler => rollback (rest.catchError handler)

instance : Monad (Prog σ) where
  pure a := done (.ok a)
  bind := bind

instance : MonadExcept String (Prog σ) where
  throw err := done (.error err)
  tryCatch := catchError

end Prog

/-- Execute one statement, and throw its error. -/
def sql (f : σ → Except String (σ × β)) : Prog σ β := .exec (Db.apply f) .done

/-- `withTransaction(fn)`: BEGIN, the body and COMMIT; what throws is rolled back. -/
def withTransaction (fn : Prog σ α) : Prog σ α := do
  Prog.exec Db.begin .done
  tryCatch (do
      let result ← fn
      Prog.exec Db.commit .done
      pure result)
    fun err => .rollback (throw err)

/-! ## Runs -/

/-- How a program ended: the database, the faults that were not used up and
what it returned or threw. -/
structure Ended (σ α : Type) where
  db : Db σ
  faults : List (Option String)
  result : Except String α

namespace Prog

/-- What a statement does, its fault first. -/
def attempt (statement : Db σ → Except String (Db σ × β)) (fault : Option String) (db : Db σ) :
    Except String (Db σ × β) :=
  match fault with
  | some err => .error err
  | none => statement db

def run : Prog σ α → List (Option String) → Db σ → Ended σ α
  | done result, faults, db => ⟨db, faults, result⟩
  | exec statement rest, faults, db =>
    match attempt statement faults.head?.join db with
    | .error err => (rest (.error err)).run faults.tail db
    | .ok (db', b) => (rest (.ok b)).run faults.tail db'
  | rollback rest, faults, db => rest.run faults ⟨db.committed, none⟩

/-- The meaning of a program without faults, on what the connection sees. -/
def eval (p : Prog σ α) (s : σ) : Except String (σ × α) :=
  let ended := p.run [] ⟨s, none⟩
  ended.result.map fun a => (ended.db.committed, a)

end Prog

/-- Go on with a program's result, or throw its error. -/
def Ended.andThen (ended : Ended σ α) (k : α → Prog σ β) : Ended σ β :=
  match ended.result with
  | .ok a => (k a).run ended.faults ended.db
  | .error err => ⟨ended.db, ended.faults, .error err⟩

/-- Keep a program's result, or handle its error. -/
def Ended.orElse (ended : Ended σ α) (handler : String → Prog σ α) : Ended σ α :=
  match ended.result with
  | .ok a => ⟨ended.db, ended.faults, .ok a⟩
  | .error err => (handler err).run ended.faults ended.db

theorem run_bind (p : Prog σ α) (k : α → Prog σ β) :
    ∀ faults db, (p >>= k).run faults db = (p.run faults db).andThen k := by
  show ∀ faults db, (p.bind k).run faults db = (p.run faults db).andThen k
  induction p with
  | done result =>
    intro faults db
    cases result with
    | ok a => rfl
    | error err => rfl
  | exec statement rest ih =>
    intro faults db
    simp only [Prog.bind, Prog.run]
    split
    next => exact ih ..
    next => exact ih ..
  | rollback rest ih =>
    intro faults db
    exact ih ..

theorem run_tryCatch (p : Prog σ α) (handler : String → Prog σ α) :
    ∀ faults db, (tryCatch p handler).run faults db = (p.run faults db).orElse handler := by
  show ∀ faults db, (p.catchError handler).run faults db = (p.run faults db).orElse handler
  induction p with
  | done result =>
    intro faults db
    cases result with
    | ok a => rfl
    | error err => rfl
  | exec statement rest ih =>
    intro faults db
    simp only [Prog.catchError, Prog.run]
    split
    next => exact ih ..
    next => exact ih ..
  | rollback rest ih =>
    intro faults db
    exact ih ..

/-! ## Bodies of transactions -/

/-- A program that executes statements only and throws the first error. -/
inductive Plain : Prog σ α → Prop where
  | done (result : Except String α) : Plain (.done result)
  | exec {β' : Type} {f : σ → Except String (σ × β')} {rest : Except String β' → Prog σ α}
      (herror : ∀ err, rest (.error err) = .done (.error err))
      (hok : ∀ b, Plain (rest (.ok b))) : Plain (.exec (Db.apply f) rest)

theorem plain_pure (a : α) : Plain (pure a : Prog σ α) := .done _

theorem plain_throw (err : String) : Plain (throw err : Prog σ α) := .done _

theorem plain_sql (f : σ → Except String (σ × β)) : Plain (sql f) :=
  .exec (fun _ => rfl) fun _ => .done _

theorem plain_bind {p : Prog σ α} {k : α → Prog σ β} (hp : Plain p) (hk : ∀ a, Plain (k a)) :
    Plain (p >>= k) := by
  show Plain (p.bind k)
  induction hp with
  | done result =>
    cases result with
    | ok a => exact hk a
    | error err => exact .done _
  | exec herror _ ih =>
    refine .exec ?_ ih
    intro err
    rw [herror]
    rfl

theorem eval_pure (a : α) (s : σ) : (pure a : Prog σ α).eval s = .ok (s, a) := rfl

theorem eval_sql (f : σ → Except String (σ × β)) (s : σ) : (sql f).eval s = f s := by
  cases h : f s <;> simp [Prog.eval, sql, Prog.run, Prog.attempt, Db.apply, h, Except.map]

/-- A plain program outside a transaction: its meaning, statement by statement. -/
theorem eval_exec {f : σ → Except String (σ × β)} {rest : Except String β → Prog σ α}
    (herror : ∀ err, rest (.error err) = .done (.error err)) (s : σ) :
    (Prog.exec (Db.apply f) rest).eval s
      = (f s).bind fun r => (rest (.ok r.2)).eval r.1 := by
  cases h : f s <;>
    simp [Prog.eval, Prog.run, Prog.attempt, Db.apply, h, Except.map, Except.bind, herror]

theorem eval_sql_bind (f : σ → Except String (σ × β)) (k : β → Prog σ α) (s : σ) :
    (sql f >>= k).eval s = (f s).bind fun r => (k r.2).eval r.1 :=
  @eval_exec σ α β f (fun r => (Prog.done r).bind k) (fun _ => rfl) s

theorem eval_bind {p : Prog σ α} (hp : Plain p) (k : α → Prog σ β) (s : σ) :
    (p >>= k).eval s = (p.eval s).bind fun r => (k r.2).eval r.1 := by
  show (p.bind k).eval s = _
  induction hp generalizing s with
  | done result =>
    cases result with
    | ok a => rfl
    | error err => rfl
  | @exec _ f rest herror _ ih =>
    have hbound : ∀ err, (rest (.error err)).bind k = .done (.error err) := by
      intro err
      rw [herror]
      rfl
    rw [Prog.bind, eval_exec hbound, eval_exec herror]
    cases f s with
    | error err => rfl
    | ok r => exact ih r.2 r.1

/-- In a transaction a plain program works on the copy: it throws, or did what
it means. -/
theorem run_plain {p : Prog σ α} (hp : Plain p) (committed : σ) :
    ∀ faults s, ∃ s' faults' result,
      p.run faults ⟨committed, some s⟩ = ⟨⟨committed, some s'⟩, faults', result⟩ ∧
        ∀ a, result = .ok a → p.eval s = .ok (s', a) := by
  induction hp with
  | done result =>
    intro faults s
    refine ⟨s, faults, result, rfl, ?_⟩
    intro a heq
    obtain rfl := heq
    rfl
  | @exec _ f rest herror _ ih =>
    intro faults s
    have hthrown : ∀ err, ∃ s' faults' result,
        (rest (.error err)).run faults.tail ⟨committed, some s⟩
          = ⟨⟨committed, some s'⟩, faults', result⟩ ∧
          ∀ a, result = .ok a → (Prog.exec (Db.apply f) rest).eval s = .ok (s', a) := by
      intro err
      rw [herror]
      exact ⟨s, faults.tail, .error err, rfl, fun a h => absurd h (by simp)⟩
    rw [Prog.run]
    cases faults.head?.join with
    | some err => exact hthrown err
    | none =>
      rw [eval_exec herror]
      cases hf : f s with
      | error err =>
        rw [eval_exec herror, hf] at hthrown
        simp only [Prog.attempt, Db.apply, hf, Except.map]
        exact hthrown err
      | ok r =>
        simp only [Prog.attempt, Db.apply, hf, Except.map]
        exact ih r.2 faults.tail r.1

/-- Under any faults a transaction leaves the database as it was and throws, or
does all of its body. -/
theorem withTransaction_run {fn : Prog σ α} (hfn : Plain fn) (faults : List (Option String))
    (s : σ) :
    ∃ s' faults' result,
      (withTransaction fn).run faults ⟨s, none⟩ = ⟨⟨s', none⟩, faults', result⟩ ∧
        ((∃ err, result = .error err ∧ s' = s) ∨
          ∃ a, result = .ok a ∧ fn.eval s = .ok (s', a)) := by
  unfold withTransaction
  rw [run_bind, Prog.run]
  cases faults.head?.join with
  | some err => exact ⟨s, faults.tail, .error err, rfl, Or.inl ⟨err, rfl, rfl⟩⟩
  | none =>
    show ∃ s' faults' result,
      Prog.run (tryCatch _ _) faults.tail ⟨s, some s⟩ = ⟨⟨s', none⟩, faults', result⟩ ∧ _
    obtain ⟨s', faults', result, hrun, hresult⟩ := run_plain hfn s faults.tail s
    rw [run_tryCatch, run_bind, hrun]
    cases result with
    | error err => exact ⟨s, faults', .error err, rfl, Or.inl ⟨err, rfl, rfl⟩⟩
    | ok a =>
      simp only [Ended.andThen]
      rw [run_bind, Prog.run]
      cases faults'.head?.join with
      | some err => exact ⟨s, faults'.tail, .error err, rfl, Or.inl ⟨err, rfl, rfl⟩⟩
      | none => exact ⟨s', faults'.tail, .ok a, rfl, Or.inr ⟨a, rfl, hresult a rfl⟩⟩

/-! ## Rules -/

/-- Under any faults the program ends, outside a transaction, with a database
and a result that meet `Q`. -/
def Ends (p : Prog σ α) (s : σ) (Q : σ → Except String α → Prop) : Prop :=
  ∀ faults, ∃ s' faults' result,
    p.run faults ⟨s, none⟩ = ⟨⟨s', none⟩, faults', result⟩ ∧ Q s' result

/-- It threw and changed nothing, or it is the step. -/
def Atomic (step : Except String (σ × α)) (s s' : σ) (result : Except String α) : Prop :=
  (∃ err, result = .error err ∧ s' = s) ∨ ∃ a, result = .ok a ∧ step = .ok (s', a)

theorem Atomic.failed {step : Except String (σ × α)} {s : σ} (err : String) :
    Atomic step s s (.error err) := Or.inl ⟨err, rfl, rfl⟩

theorem Ends.mono {p : Prog σ α} {s : σ} {Q Q' : σ → Except String α → Prop} (h : Ends p s Q)
    (hQ : ∀ s' result, Q s' result → Q' s' result) : Ends p s Q' := by
  intro faults
  obtain ⟨s', faults', result, hrun, hres⟩ := h faults
  exact ⟨s', faults', result, hrun, hQ s' result hres⟩

theorem ends_done {s : σ} {Q : σ → Except String α → Prop} {result : Except String α}
    (h : Q s result) : Ends (.done result) s Q :=
  fun faults => ⟨s, faults, result, rfl, h⟩

/-- Go on with what a program returned. -/
theorem ends_bind {p : Prog σ α} {k : α → Prog σ β} {s : σ} {step : Except String (σ × α)}
    {Q : σ → Except String β → Prop} (hp : Ends p s (Atomic step s))
    (herror : ∀ err, Q s (.error err))
    (hok : ∀ s' a, step = .ok (s', a) → Ends (k a) s' Q) : Ends (p >>= k) s Q := by
  intro faults
  rw [run_bind]
  obtain ⟨s', faults', result, hrun, ⟨err, rfl, rfl⟩ | ⟨a, rfl, hstep⟩⟩ := hp faults
  · rw [hrun]
    exact ⟨s', faults', .error err, rfl, herror err⟩
  · rw [hrun]
    exact hok s' a hstep faults'

/-- A statement outside a transaction is committed at once. -/
theorem ends_sql (f : σ → Except String (σ × α)) (s : σ) :
    Ends (sql f) s (Atomic (f s) s) := by
  intro faults
  rw [sql, Prog.run]
  cases faults.head?.join with
  | some err => exact ⟨s, faults.tail, .error err, rfl, .failed err⟩
  | none =>
    cases hf : f s with
    | error err =>
      simp only [Prog.attempt, Db.apply, hf, Except.map]
      exact ⟨s, faults.tail, .error err, rfl, .failed err⟩
    | ok r =>
      simp only [Prog.attempt, Db.apply, hf, Except.map]
      exact ⟨r.1, faults.tail, .ok r.2, rfl, Or.inr ⟨r.2, rfl, rfl⟩⟩

theorem ends_withTransaction {fn : Prog σ α} (hfn : Plain fn) (s : σ) :
    Ends (withTransaction fn) s (Atomic (fn.eval s) s) := by
  intro faults
  obtain ⟨s', faults', result, hrun, hres⟩ := withTransaction_run hfn faults s
  exact ⟨s', faults', result, hrun, hres⟩

end Sql
