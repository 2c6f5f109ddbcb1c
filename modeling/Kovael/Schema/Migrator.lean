import Mathlib.Data.List.Perm.Basic
import Kovael.Sql

/-!
# The migrator

`Migrator.apply` of `src/services/Migrator.ts` as the program of statements it
executes, over any number of calls on one database and under any faults.

Mirroring notes vs the TS:
- The database is the ledger `schema_migrations`, once it is there, and the tables
  of the application, of any type `σ`. An `up` executes statements on those tables,
  each followed by what its result or its error leads to: it can go on after an
  error, and it can throw after any statement. It neither ends the transaction it
  runs in nor writes the ledger.
- A version is an integer: STRICT refuses any other number in the ledger's INSERT.
- `Date.now()` is read once for each migration: `now` gives the reading.
- The `prepare` of the INSERT is a statement of its own, it comes before the loop.
- `ups` is not in the program: it records in the transaction of an `up`, before
  its first statement, that this `up` ran.

`migrate_run` says what the transaction of one migration leaves, `applySorted_run`
lifts it to the loop by induction on the migrations that are left, and `Exact` is
what both say about one call.
-/

namespace Kovael.Schema

open Sql (Db Prog sql)

/-- A row of `schema_migrations`. -/
structure LedgerRow where
  version : Int
  name : String
  appliedAt : Int
deriving DecidableEq, Repr

structure Database (σ : Type) where
  schemaMigrations : Option (List LedgerRow)
  tables : σ
  ups : List Int

/-- The body of a migration. -/
inductive Up (σ : Type) : Type 1 where
  | done (result : Except String Unit)
  | exec {β : Type} (statement : σ → Except String (σ × β)) (rest : Except String β → Up σ)

structure Migration (σ : Type) where
  version : Int
  name : String
  up : Up σ

structure Applied where
  applied : List Int
  skipped : List Int
deriving DecidableEq, Repr

variable {σ : Type}

namespace Migrator

/-! ## Statements -/

/-- `CREATE TABLE IF NOT EXISTS schema_migrations …`. -/
def createLedger (s : Database σ) : Except String (Database σ × Unit) :=
  .ok ({ s with schemaMigrations := some (s.schemaMigrations.getD []) }, ())

/-- `SELECT version FROM schema_migrations ORDER BY version ASC`. -/
def selectVersions (s : Database σ) : Except String (Database σ × List Int) :=
  match s.schemaMigrations with
  | none => .error "no such table: schema_migrations"
  | some rows => .ok (s, (rows.map LedgerRow.version).mergeSort (· ≤ ·))

/-- `prepare('INSERT INTO schema_migrations …')`. -/
def prepareInsert (s : Database σ) : Except String (Database σ × Unit) :=
  match s.schemaMigrations with
  | none => .error "no such table: schema_migrations"
  | some _ => .ok (s, ())

/-- `insertStmt.run(version, name, Date.now())`. -/
def insertVersion (row : LedgerRow) (s : Database σ) : Except String (Database σ × Unit) :=
  match s.schemaMigrations with
  | none => .error "no such table: schema_migrations"
  | some rows =>
    if row.version ∈ rows.map LedgerRow.version then
      .error "UNIQUE constraint failed: schema_migrations.version"
    else .ok ({ s with schemaMigrations := some (rows ++ [row]) }, ())

def recordUp (version : Int) (s : Database σ) : Except String (Database σ × Unit) :=
  .ok ({ s with ups := s.ups ++ [version] }, ())

def onTables {β : Type} (statement : σ → Except String (σ × β)) (s : Database σ) :
    Except String (Database σ × β) :=
  (statement s.tables).map fun r => ({ s with tables := r.1 }, r.2)

end Migrator

/-- `up(db)`. -/
def Up.prog : Up σ → Prog (Database σ) Unit
  | done result => .done result
  | exec statement rest => .exec (Db.apply (Migrator.onTables statement)) fun r => (rest r).prog

namespace Migrator

/-! ## The program -/

/-- The loop over `sorted` with the set `seen`. -/
def findDuplicate (seen : List Int) : List (Migration σ) → Option Int
  | [] => none
  | m :: ms => if m.version ∈ seen then some m.version else findDuplicate (m.version :: seen) ms

/-- What is tried in the transaction of one migration. -/
def attempt (now : Int) (m : Migration σ) : Prog (Database σ) Unit := do
  sql (recordUp m.version)
  m.up.prog
  sql (insertVersion ⟨m.version, m.name, now⟩)
  Prog.exec Db.commit .done

/-- The transaction of one migration. -/
def migrate (now : Int) (m : Migration σ) : Prog (Database σ) Unit := do
  Prog.exec Db.begin .done
  tryCatch (attempt now m) fun err => .rollback (throw
    ("Migrator: migration " ++ toString m.version ++ " \"" ++ m.name ++ "\" failed: " ++ err))

/-- The loop that migrates. -/
def applySorted (now : Int → Int) (known : List Int) :
    List (Migration σ) → Applied → Prog (Database σ) Applied
  | [], result => pure result
  | m :: ms, result =>
    if m.version ∈ known then
      applySorted now known ms { result with skipped := result.skipped ++ [m.version] }
    else do
      migrate (now m.version) m
      applySorted now known ms { result with applied := result.applied ++ [m.version] }

/-- `[...migrations].sort((a, b) => a.version - b.version)`. -/
def sorted (migrations : List (Migration σ)) : List (Migration σ) :=
  migrations.mergeSort fun a b => decide (a.version ≤ b.version)

/-- `apply(migrations)`. -/
def apply (now : Int → Int) (migrations : List (Migration σ)) : Prog (Database σ) Applied := do
  sql createLedger
  let known ← sql selectVersions
  match findDuplicate [] (sorted migrations) with
  | some version => throw ("Migrator: duplicate migration version " ++ toString version)
  | none => do
    sql prepareInsert
    applySorted now known (sorted migrations) ⟨[], []⟩

end Migrator

/-- One call of `apply`, with what the clock reads and the faults of its run. -/
structure Call (σ : Type) where
  migrations : List (Migration σ)
  now : Int → Int
  faults : List (Option String)

def Call.run (call : Call σ) (db : Db (Database σ)) : Sql.Ended (Database σ) Applied :=
  (Migrator.apply call.now call.migrations).run call.faults db

/-- The calls one after the other on one database. -/
def afterAll (calls : List (Call σ)) (db : Db (Database σ)) : Db (Database σ) :=
  calls.foldl (fun db call => (call.run db).db) db

/-- A database on which `apply` was never called. -/
def fresh (tables : σ) : Db (Database σ) := ⟨⟨none, tables, []⟩, none⟩

/-- The versions in `schema_migrations`. -/
def Database.versions (s : Database σ) : List Int :=
  (s.schemaMigrations.getD []).map LedgerRow.version

/-! ## What an `up` does to the tables -/

/-- An `up` on the tables alone: what it leaves, the faults it did not use up and
what it returned or threw. -/
def Up.run : Up σ → List (Option String) → σ → σ × List (Option String) × Except String Unit
  | done result, faults, tables => (tables, faults, result)
  | exec statement rest, faults, tables =>
    match faults.head?.join with
    | some err => (rest (.error err)).run faults.tail tables
    | none =>
      match statement tables with
      | .error err => (rest (.error err)).run faults.tail tables
      | .ok (tables', b) => (rest (.ok b)).run faults.tail tables'

/-- The migration's `up` ran to its end. -/
def Migration.Ran (m : Migration σ) (tables tables' : σ) : Prop :=
  ∃ faults faults', m.up.run faults tables = (tables', faults', .ok ())

/-- The `up`s of these migrations ran to their end, one on what the other left. -/
def RanAll : List (Migration σ) → σ → σ → Prop
  | [], tables, tables' => tables' = tables
  | m :: ms, tables, tables' => ∃ t, m.Ran tables t ∧ RanAll ms t tables'

/-- In a transaction an `up` writes the tables of the working copy and nothing else. -/
theorem prog_run (up : Up σ) (committed : Database σ) :
    ∀ faults s, up.prog.run faults ⟨committed, some s⟩
      = ⟨⟨committed, some { s with tables := (up.run faults s.tables).1 }⟩,
        (up.run faults s.tables).2.1, (up.run faults s.tables).2.2⟩ := by
  induction up with
  | done result =>
    intro faults s
    rfl
  | exec statement rest ih =>
    intro faults s
    rw [Up.prog, Prog.run, Up.run]
    cases faults.head?.join with
    | some err => exact ih (.error err) faults.tail s
    | none =>
      cases hstatement : statement s.tables with
      | error err =>
        simp only [Prog.attempt, Db.apply, Migrator.onTables, hstatement, Except.map]
        exact ih (.error err) faults.tail s
      | ok r =>
        simp only [Prog.attempt, Db.apply, Migrator.onTables, hstatement, Except.map]
        exact ih (.ok r.2) faults.tail { s with tables := r.1 }

/-! ## One migration -/

namespace Migrator

/-- What the migration leaves when it is committed. -/
def migrated (now : Int) (m : Migration σ) (rows : List LedgerRow) (tables : σ)
    (s : Database σ) : Database σ :=
  ⟨some (rows ++ [⟨m.version, m.name, now⟩]), tables, s.ups ++ [m.version]⟩

/-- A migration in its transaction throws and leaves the transaction open, or it
is committed with all its `up` did and with its row. -/
theorem attempt_run (now : Int) (m : Migration σ) {s : Database σ} {rows : List LedgerRow}
    (hrows : s.schemaMigrations = some rows) (faults : List (Option String)) :
    (∃ w faults' err,
      (attempt now m).run faults ⟨s, some s⟩ = ⟨⟨s, some w⟩, faults', .error err⟩) ∨
    ∃ t faults', m.Ran s.tables t ∧
      (attempt now m).run faults ⟨s, some s⟩ = ⟨⟨migrated now m rows t s, none⟩, faults', .ok ()⟩ := by
  unfold attempt
  rw [Sql.run_bind, sql, Prog.run]
  cases faults.head?.join with
  | some err => exact Or.inl ⟨s, faults.tail, err, rfl⟩
  | none =>
    show (∃ w faults' err, Prog.run _ faults.tail
        ⟨s, some { s with ups := s.ups ++ [m.version] }⟩ = ⟨⟨s, some w⟩, faults', .error err⟩) ∨
      ∃ t faults', m.Ran s.tables t ∧ Prog.run _ faults.tail
        ⟨s, some { s with ups := s.ups ++ [m.version] }⟩ = _
    rw [Sql.run_bind, prog_run]
    rcases hup : m.up.run faults.tail s.tables with ⟨t, faults', result⟩
    cases result with
    | error err => exact Or.inl ⟨_, faults', err, rfl⟩
    | ok u =>
      have hran : m.Ran s.tables t := ⟨faults.tail, faults', hup⟩
      simp only [Sql.Ended.andThen]
      rw [Sql.run_bind, sql, Prog.run]
      cases faults'.head?.join with
      | some err => exact Or.inl ⟨_, faults'.tail, err, rfl⟩
      | none =>
        simp only [Prog.attempt, Db.apply, insertVersion, hrows]
        by_cases hmem : m.version ∈ rows.map LedgerRow.version
        · rw [if_pos hmem]
          exact Or.inl ⟨_, faults'.tail, _, rfl⟩
        · rw [if_neg hmem]
          simp only [Except.map, Prog.run, Sql.Ended.andThen]
          cases faults'.tail.head?.join with
          | some err => exact Or.inl ⟨_, faults'.tail.tail, err, rfl⟩
          | none => exact Or.inr ⟨t, faults'.tail.tail, hran, rfl⟩

/-- The transaction of one migration leaves nothing of it and throws, or it leaves
all of it. -/
theorem migrate_run (now : Int) (m : Migration σ) {s : Database σ} {rows : List LedgerRow}
    (hrows : s.schemaMigrations = some rows) (faults : List (Option String)) :
    (∃ faults' err, (migrate now m).run faults ⟨s, none⟩ = ⟨⟨s, none⟩, faults', .error err⟩) ∨
    ∃ t faults', m.Ran s.tables t ∧
      (migrate now m).run faults ⟨s, none⟩ = ⟨⟨migrated now m rows t s, none⟩, faults', .ok ()⟩ := by
  unfold migrate
  rw [Sql.run_bind, Prog.run]
  cases faults.head?.join with
  | some err => exact Or.inl ⟨faults.tail, err, rfl⟩
  | none =>
    simp only [Prog.attempt, Db.begin, Prog.run, Sql.Ended.andThen]
    rw [Sql.run_tryCatch]
    rcases attempt_run now m hrows faults.tail with ⟨w, faults', err, hrun⟩ | ⟨t, faults', hran, hrun⟩
    · rw [hrun]
      exact Or.inl ⟨faults', _, rfl⟩
    · rw [hrun]
      exact Or.inr ⟨t, faults', hran, rfl⟩

/-! ## One call -/

def versionsOf (ms : List (Migration σ)) : List Int := ms.map Migration.version

@[simp] theorem versionsOf_nil : versionsOf ([] : List (Migration σ)) = [] := rfl

@[simp] theorem versionsOf_cons (m : Migration σ) (ms : List (Migration σ)) :
    versionsOf (m :: ms) = m.version :: versionsOf ms := rfl

@[simp] theorem versionsOf_append (ms ms' : List (Migration σ)) :
    versionsOf (ms ++ ms') = versionsOf ms ++ versionsOf ms' := List.map_append

/-- The migrations that the ledger does not hold. -/
def pending (known : List Int) (ms : List (Migration σ)) : List (Migration σ) :=
  ms.filter fun m => decide (m.version ∉ known)

/-- The migrations that the ledger holds. -/
def skipped (known : List Int) (ms : List (Migration σ)) : List (Migration σ) :=
  ms.filter fun m => decide (m.version ∈ known)

/-- Between the two states exactly these migrations were committed, in this order. -/
structure Committed (ms : List (Migration σ)) (s s' : Database σ) : Prop where
  tables : RanAll ms s.tables s'.tables
  ups : s'.ups = s.ups ++ versionsOf ms
  versions : s'.versions = s.versions ++ versionsOf ms

theorem committed_nil {s s' : Database σ} (htables : s'.tables = s.tables) (hups : s'.ups = s.ups)
    (hversions : s'.versions = s.versions) : Committed [] s s' :=
  ⟨htables, by rw [hups, versionsOf_nil, List.append_nil],
    by rw [hversions, versionsOf_nil, List.append_nil]⟩

theorem committed_cons {now : Int} {m : Migration σ} {ms : List (Migration σ)}
    {s s' : Database σ} {rows : List LedgerRow} {t : σ} (hrows : s.schemaMigrations = some rows)
    (hran : m.Ran s.tables t) (h : Committed ms (migrated now m rows t s) s') :
    Committed (m :: ms) s s' where
  tables := ⟨t, hran, h.tables⟩
  ups := by
    rw [h.ups, migrated, versionsOf_cons, List.append_assoc]
    rfl
  versions := by
    have hbefore : s.versions = rows.map LedgerRow.version := by
      rw [Database.versions, hrows, Option.getD_some]
    have hafter : (migrated now m rows t s).versions = s.versions ++ [m.version] := by
      rw [hbefore, Database.versions, migrated, Option.getD_some, List.map_append]
      rfl
    rw [h.versions, hafter, versionsOf_cons, List.append_assoc]
    rfl

/-- The loop commits the pending migrations up to the first that throws. The
induction is on the migrations that are left. -/
theorem applySorted_run (now : Int → Int) (known : List Int) (ms : List (Migration σ)) :
    ∀ (result : Applied) (s : Database σ) (rows : List LedgerRow) (faults : List (Option String)),
      s.schemaMigrations = some rows →
      ∃ done rest s' faults' r,
        (applySorted now known ms result).run faults ⟨s, none⟩ = ⟨⟨s', none⟩, faults', r⟩ ∧
        pending known ms = done ++ rest ∧ Committed done s s' ∧
        (rest = [] ∧ r = .ok ⟨result.applied ++ versionsOf done,
            result.skipped ++ versionsOf (skipped known ms)⟩ ∨
          rest ≠ [] ∧ ∃ err, r = .error err) := by
  induction ms with
  | nil =>
    intro result s rows faults _
    refine ⟨[], [], s, faults, .ok result, rfl, rfl, committed_nil rfl rfl rfl, Or.inl ⟨rfl, ?_⟩⟩
    simp only [skipped, List.filter_nil, versionsOf_nil, List.append_nil]
  | cons m ms ih =>
    intro result s rows faults hrows
    rw [applySorted]
    by_cases hknown : m.version ∈ known
    · rw [if_pos hknown]
      have hpending : pending known (m :: ms) = pending known ms := by
        simp [pending, hknown]
      have hskipped : skipped known (m :: ms) = m :: skipped known ms := by
        simp [skipped, hknown]
      obtain ⟨done, rest, s', faults', r, hrun, hsplit, hcommitted, hr⟩ :=
        ih { result with skipped := result.skipped ++ [m.version] } s rows faults hrows
      refine ⟨done, rest, s', faults', r, hrun, by rw [hpending, hsplit], hcommitted, ?_⟩
      rw [List.append_assoc] at hr
      rw [hskipped, versionsOf_cons]
      exact hr
    · rw [if_neg hknown]
      have hpending : pending known (m :: ms) = m :: pending known ms := by
        simp [pending, hknown]
      have hskipped : skipped known (m :: ms) = skipped known ms := by
        simp [skipped, hknown]
      rw [hpending, hskipped]
      rcases migrate_run (now m.version) m hrows faults with
        ⟨faults', err, hfailed⟩ | ⟨t, faults', hran, hmigrated⟩
      · refine ⟨[], m :: pending known ms, s, faults', .error err, ?_, rfl,
          committed_nil rfl rfl rfl, Or.inr ⟨List.cons_ne_nil _ _, err, rfl⟩⟩
        rw [Sql.run_bind, hfailed]
        rfl
      · obtain ⟨done, rest, s', faults'', r, hrun, hsplit, hcommitted, hr⟩ :=
          ih { result with applied := result.applied ++ [m.version] }
            (migrated (now m.version) m rows t s) _ faults' rfl
        refine ⟨m :: done, rest, s', faults'', r, ?_, by rw [hsplit, List.cons_append],
          committed_cons hrows hran hcommitted, ?_⟩
        · rw [Sql.run_bind, hmigrated]
          exact hrun
        · rw [List.append_assoc] at hr
          rw [versionsOf_cons]
          exact hr

theorem findDuplicate_eq_none {ms : List (Migration σ)} :
    ∀ {seen : List Int}, findDuplicate seen ms = none ↔
      (versionsOf ms).Nodup ∧ ∀ m ∈ ms, m.version ∉ seen := by
  induction ms with
  | nil => simp [findDuplicate, versionsOf]
  | cons m ms ih =>
    intro seen
    rw [findDuplicate]
    by_cases hseen : m.version ∈ seen
    · rw [if_pos hseen]
      constructor
      · intro h
        cases h
      · intro h
        exact absurd hseen (h.2 m (List.mem_cons_self ..))
    · rw [if_neg hseen, ih, versionsOf_cons, List.nodup_cons, versionsOf, List.mem_map]
      constructor
      · intro hgiven
        obtain ⟨hnodup, hrest⟩ := hgiven
        refine ⟨⟨?_, hnodup⟩, ?_⟩
        · intro hgiven
          obtain ⟨m', hm', heq⟩ := hgiven
          exact hrest m' hm' (heq ▸ List.mem_cons_self ..)
        · intro m' hm'
          rcases List.mem_cons.mp hm' with rfl | hm'
          · exact hseen
          · exact fun h => hrest m' hm' (List.mem_cons_of_mem _ h)
      · intro hgiven
        obtain ⟨⟨hfirst, hnodup⟩, hall⟩ := hgiven
        refine ⟨hnodup, ?_⟩
        intro m' hm' h
        rcases List.mem_cons.mp h with heq | h
        · exact hfirst ⟨m', hm', heq⟩
        · exact hall m' (List.mem_cons_of_mem _ hm') h

theorem sorted_perm (ms : List (Migration σ)) : (sorted ms).Perm ms := List.mergeSort_perm _ _

/-- A list of distinct versions is sorted strictly. -/
theorem sorted_lt {ms : List (Migration σ)} (hnodup : (versionsOf ms).Nodup) :
    (versionsOf (sorted ms)).Pairwise (· < ·) := by
  have hle : (sorted ms).Pairwise fun a b => a.version ≤ b.version := by
    refine (List.pairwise_mergeSort ?_ ?_ ms).imp fun h => of_decide_eq_true h
    · intro a b c hab hbc
      exact decide_eq_true (Int.le_trans (of_decide_eq_true hab) (of_decide_eq_true hbc))
    · intro a b
      rw [Bool.or_eq_true, decide_eq_true_eq, decide_eq_true_eq]
      exact Int.le_total a.version b.version
  have hne : (versionsOf (sorted ms)).Nodup := ((sorted_perm ms).map _).nodup_iff.mpr hnodup
  rw [versionsOf, List.pairwise_map]
  rw [versionsOf, List.Nodup, List.pairwise_map] at hne
  exact (hle.and hne).imp fun h => Int.lt_iff_le_and_ne.mpr h

/-- `migrations` with other bodies. -/
def withUps (up : Migration σ → Up σ) (ms : List (Migration σ)) : List (Migration σ) :=
  ms.map fun m => { m with up := up m }

theorem sorted_withUps (up : Migration σ → Up σ) (ms : List (Migration σ)) :
    sorted (withUps up ms) = withUps up (sorted ms) := by
  rw [sorted, sorted, withUps, withUps]
  refine (List.map_mergeSort ?_).symm
  intro a _ b _
  rfl

theorem findDuplicate_withUps (up : Migration σ → Up σ) (ms : List (Migration σ)) :
    ∀ seen, findDuplicate seen (withUps up ms) = findDuplicate seen ms := by
  induction ms with
  | nil =>
    intro seen
    rfl
  | cons m ms ih =>
    intro seen
    rw [findDuplicate, ← ih]
    rfl

/-- What one call of `apply` does to the database it is called on. -/
structure Exact (call : Call σ) (db : Db (Database σ)) : Prop where
  /-- A list with a duplicate is refused, and no `up` of it has a part in the run. -/
  refused : ¬ (versionsOf call.migrations).Nodup →
    (∃ err, (call.run db).result = .error err) ∧
      Committed [] db.committed (call.run db).db.committed ∧
      ∀ up, ({ call with migrations := withUps up call.migrations }).run db = call.run db
  /-- Another list is committed in ascending order, up to the first migration that fails. -/
  ran : (versionsOf call.migrations).Nodup → ∃ done rest,
    (done ++ rest).Perm (pending db.committed.versions call.migrations) ∧
      (versionsOf (done ++ rest)).Pairwise (· < ·) ∧
      Committed done db.committed (call.run db).db.committed ∧
      match (call.run db).result with
      | .ok result => rest = [] ∧ result.applied = versionsOf done ∧
          result.skipped = versionsOf (skipped db.committed.versions (sorted call.migrations))
      | .error _ => rest = [] → done = []

/-- Outside a transaction, with a ledger of the `up`s that were committed, each once. -/
structure Kept (db : Db (Database σ)) : Prop where
  closed : db.working = none
  ledger : db.committed.versions = db.committed.ups
  once : db.committed.ups.Nodup

/-- A list with a duplicate is refused whatever its `up`s are. -/
theorem apply_withUps {ms : List (Migration σ)} (hdup : ¬ (versionsOf ms).Nodup)
    (now : Int → Int) (up : Migration σ → Up σ) : apply now (withUps up ms) = apply now ms := by
  have hsome : findDuplicate [] (sorted ms) ≠ none := by
    intro hnone
    exact hdup (((sorted_perm ms).map _).nodup_iff.mp (findDuplicate_eq_none.mp hnone).1)
  obtain ⟨version, hversion⟩ := Option.ne_none_iff_exists'.mp hsome
  rw [apply, apply, sorted_withUps, findDuplicate_withUps, hversion]

/-- A call that ends before its loop. -/
theorem exact_of_error {call : Call σ} {db : Db (Database σ)} {err : String}
    (hresult : (call.run db).result = .error err)
    (hnothing : Committed [] db.committed (call.run db).db.committed) : Exact call db where
  refused := by
    intro hdup
    refine ⟨⟨err, hresult⟩, hnothing, ?_⟩
    intro up
    rw [Call.run, Call.run, apply_withUps hdup]
  ran := by
    intro hnodup
    refine ⟨[], pending db.committed.versions (sorted call.migrations), ?_, ?_, hnothing, ?_⟩
    · exact (sorted_perm _).filter _
    · exact (sorted_lt hnodup).sublist (List.filter_sublist.map _)
    · rw [hresult]
      exact fun _ => rfl

/-- The database with its ledger. -/
def created (s : Database σ) : Database σ :=
  { s with schemaMigrations := some (s.schemaMigrations.getD []) }

/-- The statements before the loop: one of them throws, or the loop runs with the
versions of the ledger on a list without duplicates. -/
theorem apply_run (now : Int → Int) (ms : List (Migration σ)) (faults : List (Option String))
    (s : Database σ) :
    (∃ s' faults' err, (apply now ms).run faults ⟨s, none⟩ = ⟨⟨s', none⟩, faults', .error err⟩ ∧
      Committed [] s s') ∨
    (versionsOf ms).Nodup ∧ ∃ faults' known, (∀ v, v ∈ known ↔ v ∈ s.versions) ∧
      (apply now ms).run faults ⟨s, none⟩
        = (applySorted now known (sorted ms) ⟨[], []⟩).run faults' ⟨created s, none⟩ := by
  have hnothing : Committed [] s s := committed_nil rfl rfl rfl
  have hcreated : Committed [] s (created s) := committed_nil rfl rfl rfl
  unfold apply
  rw [Sql.run_bind, sql, Prog.run]
  cases faults.head?.join with
  | some err => exact Or.inl ⟨s, faults.tail, err, rfl, hnothing⟩
  | none =>
    simp only [Prog.attempt, Db.apply, createLedger, Except.map, Prog.run, Sql.Ended.andThen]
    rw [Sql.run_bind, sql, Prog.run]
    cases faults.tail.head?.join with
    | some err => exact Or.inl ⟨created s, faults.tail.tail, err, rfl, hcreated⟩
    | none =>
      simp only [Prog.attempt, Db.apply, selectVersions, Except.map, Prog.run, Sql.Ended.andThen]
      cases hdup : findDuplicate [] (sorted ms) with
      | some version => exact Or.inl ⟨created s, faults.tail.tail, _, rfl, hcreated⟩
      | none =>
        have hnodup : (versionsOf ms).Nodup :=
          ((sorted_perm ms).map _).nodup_iff.mp (findDuplicate_eq_none.mp hdup).1
        dsimp only
        rw [Sql.run_bind, sql, Prog.run]
        cases faults.tail.tail.head?.join with
        | some err => exact Or.inl ⟨created s, faults.tail.tail.tail, err, rfl, hcreated⟩
        | none =>
          refine Or.inr ⟨hnodup, faults.tail.tail.tail, _, ?_, rfl⟩
          intro v
          exact List.mem_mergeSort

/-- A call on a database outside a transaction ends outside a transaction and is exact. -/
theorem run_exact (call : Call σ) (s : Database σ) :
    (call.run ⟨s, none⟩).db.working = none ∧ Exact call ⟨s, none⟩ := by
  rcases apply_run call.now call.migrations call.faults s with
    ⟨s', faults', err, hrun, hnothing⟩ | ⟨hnodup, faults', known, hknown, hrun⟩
  · have hrun : call.run ⟨s, none⟩ = ⟨⟨s', none⟩, faults', .error err⟩ := hrun
    refine ⟨by rw [hrun], exact_of_error (by rw [hrun]) ?_⟩
    rw [hrun]
    exact hnothing
  · obtain ⟨done, rest, s', faults'', r, hloop, hsplit, hcommitted, hr⟩ :=
      applySorted_run call.now known (sorted call.migrations) ⟨[], []⟩ (created s) _ faults' rfl
    have hrun : call.run ⟨s, none⟩ = ⟨⟨s', none⟩, faults'', r⟩ := hrun.trans hloop
    have hpending : pending known (sorted call.migrations)
        = pending s.versions (sorted call.migrations) := by
      simp only [pending, hknown]
    have hskipped : skipped known (sorted call.migrations)
        = skipped s.versions (sorted call.migrations) := by
      simp only [skipped, hknown]
    refine ⟨by rw [hrun], fun hdup => absurd hnodup hdup, fun _ => ⟨done, rest, ?_, ?_, ?_, ?_⟩⟩
    · rw [← hsplit, hpending]
      exact (sorted_perm _).filter _
    · rw [← hsplit]
      exact (sorted_lt hnodup).sublist (List.filter_sublist.map _)
    · rw [hrun]
      exact ⟨hcommitted.tables, hcommitted.ups, hcommitted.versions⟩
    · rw [hrun]
      rcases hr with ⟨hrest, hok⟩ | ⟨hrest, err, herr⟩
      · rw [hok, hskipped]
        exact ⟨hrest, rfl, rfl⟩
      · rw [herr]
        exact fun h => absurd h hrest

/-- A call keeps the ledger exact: what it commits is not in the ledger, and no
version twice. -/
theorem run_kept (call : Call σ) {db : Db (Database σ)} (h : Kept db) : Kept (call.run db).db := by
  obtain ⟨s, working⟩ := db
  obtain rfl : working = none := h.closed
  obtain ⟨hclosed, hexact⟩ := run_exact call s
  by_cases hnodup : (versionsOf call.migrations).Nodup
  · obtain ⟨done, rest, hperm, hlt, hcommitted, -⟩ := hexact.ran hnodup
    refine ⟨hclosed, by rw [hcommitted.versions, hcommitted.ups, h.ledger], ?_⟩
    rw [hcommitted.ups]
    refine List.nodup_append.mpr ⟨h.once, ?_, ?_⟩
    · rw [versionsOf_append] at hlt
      exact ((List.pairwise_append.mp hlt).1).imp fun hab => Int.ne_of_lt hab
    · intro v hv v' hdone heq
      obtain rfl := heq
      obtain ⟨m, hm, rfl⟩ := List.mem_map.mp hdone
      have hmem := hperm.subset (List.mem_append_left rest hm)
      rw [pending, List.mem_filter, decide_eq_true_eq] at hmem
      rw [← h.ledger] at hv
      exact hmem.2 hv
  · obtain ⟨-, hcommitted, -⟩ := hexact.refused hnodup
    have hups : (call.run ⟨s, none⟩).db.committed.ups = s.ups := by
      rw [hcommitted.ups, versionsOf_nil, List.append_nil]
    refine ⟨hclosed, by rw [hcommitted.versions, hcommitted.ups, h.ledger], ?_⟩
    rw [hups]
    exact h.once

theorem kept_fresh (tables : σ) : Kept (fresh tables) := ⟨rfl, rfl, List.nodup_nil⟩

theorem kept_afterAll (calls : List (Call σ)) :
    ∀ {db : Db (Database σ)}, Kept db → Kept (afterAll calls db) := by
  induction calls with
  | nil => exact id
  | cons call calls ih =>
    intro db h
    exact ih (run_kept call h)

end Migrator

/-- After any calls of `apply` on one database, under any faults, the ledger holds
exactly the versions whose `up` was committed, each was committed once, and the
next call is exact. -/
theorem bookkeeping_exact (tables : σ) (calls : List (Call σ)) :
    Migrator.Kept (afterAll calls (fresh tables)) ∧
      ∀ call, Migrator.Exact call (afterAll calls (fresh tables)) := by
  have h := Migrator.kept_afterAll calls (Migrator.kept_fresh tables)
  refine ⟨h, ?_⟩
  intro call
  revert h
  generalize afterAll calls (fresh tables) = db
  intro h
  obtain ⟨s, working⟩ := db
  obtain rfl : working = none := h.closed
  exact (Migrator.run_exact call s).2

end Kovael.Schema
