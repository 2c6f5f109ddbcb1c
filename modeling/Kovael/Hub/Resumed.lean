import Kovael.Hub.MigrationSteps

/-!
# A migration that is run again

Every statement of `runMigrations` is a step of `migrationSteps`, or it only reads
(`runMigrations_implements`); so a run that comes after any number of stopped ones ends
as if they had not been (`migration_resumable`): the tables are those of one run, but for
the times in `agent_hub_meta`.

What a run does depends on the salt. A run that was stopped can have stored its own; a
run after it goes on with that one, and so does the run it is compared with. `Current` is
what carries the proof over the stops: once the version is stamped, nothing is left to do
but the stamp of the agent, and that is why a current hub need not be backfilled.
-/

namespace Kovael.Hub.Migration

open Js (OrderedMap)
open Sql (Prog sql Cell Row Table Tables Done Implements steps)

/-! ## Statements -/

theorem metaOf_untimed (key : String) (file : HubFile) : metaOf key (untimed file) = metaOf key file := by
  rw [metaOf, metaOf, untimed]
  cases file.agentHubMeta with
  | none => rfl
  | some rows =>
    show ((rows.adjust _).get? key).map MetaRow.value = (rows.get? key).map MetaRow.value
    rw [OrderedMap.get?_adjust, Option.map_map]
    rfl

theorem map_write (f : HubFile → Except String HubFile) (file : HubFile) :
    ((f file).map fun file => (file, ())).map (fun p => untimed p.1) = (f file).map untimed := by
  cases f file with
  | error err => rfl
  | ok file' => rfl

/-- A statement that a step is. -/
theorem write_implements {f : HubFile → Except String HubFile} {v : Step} {file : HubFile}
    (h : v.run (untimed file) = (f file).map untimed) :
    Implements untimed (write f) file [v.run] :=
  Sql.implements_sql (h.trans (map_write f file).symm)

/-- A statement that a step is, and what comes after it. -/
theorem write_bind_implements {α : Type} {f : HubFile → Except String HubFile} {v : Step}
    {file : HubFile} {k : Unit → Prog HubFile α} {us : List (HubFile → Except String HubFile)}
    (h : v.run (untimed file) = (f file).map untimed)
    (hk : ∀ file', f file = .ok file' → Implements untimed (k ()) file' us) :
    Implements untimed (write f >>= k) file (v.run :: us) := by
  refine Sql.implements_sql_bind (h.trans (map_write f file).symm) ?_
  intro file' _ hf
  cases hfile : f file with
  | error err =>
    rw [hfile] at hf
    cases hf
  | ok file₁ =>
    rw [hfile] at hf
    obtain ⟨rfl, -⟩ := Prod.mk.inj (Except.ok.inj hf)
    exact hk file₁ hfile

theorem eval_write_bind {α : Type} {f : HubFile → Except String HubFile} {file file' : HubFile}
    (h : f file = .ok file') (k : Unit → Prog HubFile α) :
    (write f >>= k).eval file = (k ()).eval file' := by
  rw [write, Sql.eval_sql_bind, h]
  rfl

theorem change_untimed (c : Sql.Change) (file : HubFile) :
    (Step.change c).run (untimed file) = (onTables c.run file).map untimed := by
  show onTables c.run (untimed file) = _
  rw [onTables, onTables]
  show (c.run file.tables).map _ = _
  cases c.run file.tables with
  | error err => rfl
  | ok t => rfl

theorem createMeta_untimed (file : HubFile) :
    Step.createMeta.run (untimed file) = .ok (untimed (createMeta file)) := by
  cases file with
  | mk agentHubMeta tables =>
    cases agentHubMeta with
    | none => rfl
    | some rows => rfl

theorem insertMeta_untimed (key value : String) (updatedAt : Int) (file : HubFile) :
    (Step.insertMeta key value).run (untimed file) = (insertMeta key value updatedAt file).map untimed := by
  cases file with
  | mk agentHubMeta tables =>
    cases agentHubMeta with
    | none => rfl
    | some rows =>
      have hhas : (rows.adjust fun _ row => { row with updatedAt := 0 }).has key = rows.has key := by
        rw [OrderedMap.has, OrderedMap.get?_adjust, Option.isSome_map]
        rfl
      show Except.ok (HubFile.mk (some (if OrderedMap.has _ key = true then _ else _)) tables) =
        Except.ok (HubFile.mk (some (OrderedMap.adjust (if _ then _ else _) _)) tables)
      rw [hhas]
      split
      next => rfl
      next => rw [OrderedMap.adjust_set]

theorem upsertMeta_untimed (key value : String) (updatedAt : Int) (file : HubFile) :
    (Step.upsertMeta key value).run (untimed file) = (upsertMeta key value updatedAt file).map untimed := by
  cases file with
  | mk agentHubMeta tables =>
    cases agentHubMeta with
    | none => rfl
    | some rows =>
      show Except.ok (HubFile.mk (some (OrderedMap.set _ key _)) tables) =
        Except.ok (HubFile.mk (some (OrderedMap.adjust (OrderedMap.set _ key _) _)) tables)
      rw [OrderedMap.adjust_set]

/-! ## The program -/

theorem each_implements (cs : List Sql.Change) :
    ∀ file, Implements untimed (each (cs.map Sql.Change.run)) file
      ((cs.map Step.change).map Step.run) := by
  induction cs with
  | nil =>
    intro file
    exact .done () file
  | cons c cs ih =>
    intro file
    refine (write_implements (change_untimed c file)).bind ?_
    intro file' _ _
    exact ih file'

theorem ensureColumn_implements (table : String) (column : Sql.Column) (file : HubFile) :
    Implements untimed (ensureColumn table column) file
      [(Step.change (.ensureColumn table column)).run] := by
  refine Sql.implements_read rfl ?_
  split
  next hcolumn => exact .skip (done_change.mpr ((Sql.Change.done_iff ..).mpr hcolumn)) (.done () file)
  next hcolumn =>
    refine write_implements ?_
    rw [change_untimed]
    have hrun : (Sql.Change.ensureColumn table column).run file.tables =
        file.tables.addColumn table column := if_neg hcolumn
    rw [onTables, onTables, hrun]

theorem ensureColumns_implements (columns : List (String × Sql.Column)) :
    ∀ file, Implements untimed (ensureColumns columns) file
      (((columns.map fun c => Sql.Change.ensureColumn c.1 c.2).map Step.change).map Step.run) := by
  induction columns with
  | nil =>
    intro file
    exact .done () file
  | cons c columns ih =>
    intro file
    refine (ensureColumn_implements c.1 c.2 file).bind ?_
    intro file' _ _
    exact ih file'

section

variable {κ : Type} (ctx : MigrationContext κ) (r : Readings)

/-- The salt that a run uses. -/
def saltFor (file : HubFile) : String := (metaOf "encryption_salt" file).getD r.salt

theorem metaValue_eq {file : HubFile} {rows : OrderedMap String MetaRow}
    (h : file.agentHubMeta = some rows) (key : String) :
    metaValue key file = .ok (file, metaOf key file) := by
  rw [metaValue, metaOf, h]
  rfl

/-- The salt that is stored or was stored before. -/
theorem encryptionSalt_implements {file : HubFile} {rows : OrderedMap String MetaRow}
    (h : file.agentHubMeta = some rows) :
    Implements untimed (encryptionSalt r) file
        [(Step.insertMeta "encryption_salt" (saltFor r file)).run] ∧
      ∃ file', (encryptionSalt r).eval file = .ok (file', saltFor r file) := by
  have hread := metaValue_eq h "encryption_salt"
  rw [encryptionSalt, Sql.eval_sql_bind, hread, saltFor]
  have hrows := @metaOf_of_some "encryption_salt" _ _ h
  cases hsalt : metaOf "encryption_salt" file with
  | some salt =>
    constructor
    · refine Sql.implements_read hread ?_
      rw [hsalt]
      refine .skip (done_insertMeta.mpr ⟨_, by rw [untimed, h]; rfl, ?_⟩) (.done salt file)
      rw [hsalt] at hrows
      rw [OrderedMap.has, OrderedMap.get?_adjust]
      cases hget : rows.get? "encryption_salt" with
      | none =>
        rw [hget] at hrows
        cases hrows
      | some row => rfl
    · exact ⟨file, rfl⟩
  | none =>
    have hnone : rows.has "encryption_salt" = false := by
      rw [hsalt] at hrows
      rw [OrderedMap.has]
      cases hget : rows.get? "encryption_salt" with
      | none => rfl
      | some row =>
        rw [hget] at hrows
        cases hrows
    have hinsert : insertMeta "encryption_salt" r.salt r.saltAt file = .ok { file with
        agentHubMeta := some (rows.set "encryption_salt" ⟨r.salt, r.saltAt⟩) } := by
      rw [insertMeta, h]
      show Except.ok { file with agentHubMeta := some (if _ then _ else _) } = _
      rw [if_neg (by rw [hnone]; exact Bool.false_ne_true)]
    have hstored : metaValue "encryption_salt" { file with
        agentHubMeta := some (rows.set "encryption_salt" ⟨r.salt, r.saltAt⟩) } = .ok ({ file with
          agentHubMeta := some (rows.set "encryption_salt" ⟨r.salt, r.saltAt⟩) }, some r.salt) := by
      show Except.ok ((_ : HubFile), Option.map MetaRow.value _) = _
      rw [OrderedMap.get?_set_self]
      rfl
    constructor
    · refine Sql.implements_read hread ?_
      rw [hsalt]
      refine write_bind_implements (insertMeta_untimed _ r.salt r.saltAt file) ?_
      intro file' hfile'
      rw [hinsert] at hfile'
      obtain rfl := Except.ok.inj hfile'
      exact Sql.implements_read hstored (.done _ _)
    · refine ⟨{ file with agentHubMeta := some (rows.set "encryption_salt" ⟨r.salt, r.saltAt⟩) }, ?_⟩
      show (createEncryptionSalt r).eval file = _
      rw [createEncryptionSalt, eval_write_bind hinsert, Sql.eval_sql_bind, hstored]
      rfl

/-- The key of a run is that for its salt. -/
theorem initializeEncryptionKey_implements {file : HubFile} {rows : OrderedMap String MetaRow}
    (h : file.agentHubMeta = some rows) :
    Implements untimed (initializeEncryptionKey ctx r) file
        ((saltSteps ctx (saltFor r file)).map Step.run) ∧
      ∀ file' key, (initializeEncryptionKey ctx r).eval file = .ok (file', key) →
        key = keyWith ctx (saltFor r file) := by
  obtain ⟨himplements, file₁, heval₁⟩ := encryptionSalt_implements r h
  rw [initializeEncryptionKey, saltSteps]
  split
  next =>
    constructor
    · refine @Implements.bind _ _ _ _ _ _ (fun salt => pure (keyWith ctx salt)) _ _ [] himplements ?_
      intro file' salt _
      exact .done _ file'
    · intro file' key heval
      have hplain : Sql.Plain (encryptionSalt r) := by
        refine Sql.plain_bind (Sql.plain_sql _) ?_
        intro stored
        cases stored with
        | some salt => exact Sql.plain_pure salt
        | none =>
          refine Sql.plain_bind (Sql.plain_sql _) fun _ => ?_
          exact Sql.plain_bind (Sql.plain_sql _) fun _ => Sql.plain_pure _
      rw [Sql.eval_bind hplain, heval₁] at heval
      obtain ⟨-, rfl⟩ := Prod.mk.inj (Except.ok.inj heval)
      rfl
  next hsecret =>
    refine ⟨.done none file, ?_⟩
    intro file' key heval
    obtain ⟨-, rfl⟩ := Prod.mk.inj (Except.ok.inj heval)
    rw [keyWith]
    rw [hasSecret] at hsecret
    cases hsome : ctx.encryptionSecret with
    | none => rfl
    | some secret =>
      rw [hsome] at hsecret
      dsimp only at hsecret ⊢
      rw [if_pos (by simpa using hsecret)]

/-- The loop over rows that are still as they were read. -/
theorem backfillRows_implements {α : Type} {table : String}
    {arguments : String → Row → Except String α} {update : α → Row → Row}
    (rows : List (String × Row)) :
    ∀ {file : HubFile}, (rows.map Prod.fst).Nodup →
      (∀ e ∈ rows, file.tables.row? table e.1 = some e.2) →
        Implements untimed (backfillRows table arguments update rows) file
          (((fills table arguments update (rows.map Prod.fst)).map Step.change).map Step.run) := by
  induction rows with
  | nil =>
    intro file _ _
    exact .done () file
  | cons e rows ih =>
    intro file hids hrows
    obtain ⟨id, row⟩ := e
    obtain ⟨hid, hids⟩ := List.nodup_cons.mp hids
    have hrow := hrows (id, row) (List.mem_cons_self ..)
    show Implements untimed ((Prog.done (arguments id row)).bind _) file _
    cases hargs : arguments id row with
    | error err =>
      refine .throws ?_
      rw [change_untimed, onTables]
      show (Except.map _ (file.tables.rewrite table id _)).map untimed = _
      rw [@Tables.rewrite_error _ _ _ _ _ err hrow]
      · rfl
      · rw [fill, hargs]
        rfl
    | ok args =>
      refine write_bind_implements ?_ ?_
      · rw [change_untimed, onTables, onTables]
        refine congrArg (fun t => Except.map untimed (Except.map _ t)) ?_
        refine Tables.rewrite_congr hrow ?_
        rw [fill, hargs]
        rfl
      · intro file' hfile'
        obtain ⟨t, ht, rfl⟩ := onTables_ok hfile'
        refine ih hids ?_
        intro e he
        show t.row? table e.1 = some e.2
        rw [Sql.Change.run_row? (c := .rewrite table id fun row => .ok (update args row)) ht]
        · exact hrows e (List.mem_cons_of_mem _ he)
        · intro hgiven
          obtain ⟨-, rfl⟩ := hgiven
          exact hid (List.mem_map.mpr ⟨e, he, rfl⟩)

/-- A SELECT reads the rows that are there. -/
theorem selectRows_bind_implements {α : Type} {table : String} {columns : List String}
    {file : HubFile} {k : List (String × Row) → Prog HubFile α}
    {us : List (HubFile → Except String HubFile)}
    (hk : ∀ t, file.tables.tables.get? table = some t → Implements untimed (k t.rows.entries) file us) :
    Implements untimed (sql (selectRows table columns) >>= k) file
      ((Step.change (.resolve table columns)).run :: us) := by
  refine Sql.implements_sql_bind ?_ ?_
  · rw [change_untimed, onTables, selectRows]
    show Except.map untimed (Except.map _ (Except.map _ _)) = _
    cases file.tables.resolve table columns with
    | error err => rfl
    | ok t => rfl
  · intro file' rows h
    rw [selectRows] at h
    cases hres : file.tables.resolve table columns with
    | error err =>
      rw [hres] at h
      cases h
    | ok t =>
      rw [hres] at h
      obtain ⟨rfl, rfl⟩ := Prod.mk.inj (Except.ok.inj h)
      exact hk t (Tables.resolve_eq_ok_iff.mp hres).1

/-- A statement that is prepared changes nothing. -/
theorem prepare_bind_implements {α : Type} {table : String} {columns : List String}
    {file : HubFile} {k : Unit → Prog HubFile α} {us : List (HubFile → Except String HubFile)}
    (hk : Implements untimed (k ()) file us) :
    Implements untimed (prepare table columns >>= k) file
      ((Step.change (.resolve table columns)).run :: us) := by
  refine write_bind_implements (change_untimed (.resolve table columns) file) ?_
  intro file' h
  obtain ⟨t, ht, rfl⟩ := onTables_ok h
  rw [Sql.Change.run] at ht
  cases hres : file.tables.resolve table columns with
  | error err =>
    rw [hres] at ht
    cases ht
  | ok t' =>
    rw [hres] at ht
    obtain rfl := Except.ok.inj ht
    exact hk

/-- The rows of a table, as they were read. -/
theorem row?_of_mem {file : HubFile} {table : String} {t : Table}
    (ht : file.tables.tables.get? table = some t) :
    ∀ e ∈ t.rows.entries, file.tables.row? table e.1 = some e.2 := by
  intro e he
  rw [Tables.row?_of_get? ht]
  exact (t.rows.mem_entries_iff e.1 e.2).mp he

theorem keys_of_get? {file : HubFile} {table : String} {t : Table}
    (ht : file.tables.tables.get? table = some t) :
    file.tables.keys table = t.rows.entries.map Prod.fst := by
  rw [Tables.keys, ht]
  rfl

variable [DecidableEq κ]

theorem backfillV2Columns_implements (key : Option κ) (file : HubFile) :
    Implements untimed (backfillV2Columns ctx key) file
      (((backfillChanges ctx key (file.tables.keys "agent_dispatches")
        (file.tables.keys "agent_memory")).map Step.change).map Step.run) := by
  rw [backfillV2Columns, backfillChanges]
  refine selectRows_bind_implements ?_
  intro t ht
  refine prepare_bind_implements ?_
  show Implements untimed _ file (((fills "agent_dispatches" (dispatchArguments ctx key)
    updateDispatch (file.tables.keys "agent_dispatches") ++ _).map Step.change).map Step.run)
  rw [keys_of_get? ht, List.map_append, List.map_append]
  have hloop := @backfillRows_implements _ _ (dispatchArguments ctx key) updateDispatch
    t.rows.entries file t.rows.nodup (row?_of_mem ht)
  refine hloop.bind ?_
  intro file' _ heval
  have hkeys := (grows_steps (hloop.eval_ok heval)).keys "agent_memory"
  rw [show file.tables.keys "agent_memory" = file'.tables.keys "agent_memory" from hkeys.symm]
  refine selectRows_bind_implements ?_
  intro t' ht'
  refine prepare_bind_implements ?_
  rw [keys_of_get? ht']
  exact backfillRows_implements t'.rows.entries t'.rows.nodup (row?_of_mem ht')

/-- The requests and the memory keys of a hub file. -/
def requestIds (file : HubFile) : List String := file.tables.keys "agent_dispatches"

def memoryKeys (file : HubFile) : List String := file.tables.keys "agent_memory"

/-- What a run writes to a hub file. -/
def stepsFor (file : HubFile) : List Step :=
  migrationSteps ctx (saltFor r file) (requestIds file) (memoryKeys file)

/-- A file with the stamp of this version has nothing left to do but that of the agent. -/
def Current (file : HubFile) : Prop :=
  metaOf "schema_version" file = some schemaVersion →
    ∀ r, ∀ u ∈ versionSteps ctx (saltFor r file) (requestIds file) (memoryKeys file),
      Done u.run (untimed file)

/-- What a run keeps while it is on its way: the rows, and all of a current file. -/
structure OnTheWay (file file' : HubFile) : Prop where
  keys : ∀ table, file'.tables.keys table = file.tables.keys table
  current : metaOf "schema_version" file = some schemaVersion → untimed file' = untimed file

variable {ctx r}

theorem OnTheWay.refl (file : HubFile) : OnTheWay file file := ⟨fun _ => rfl, fun _ => rfl⟩

theorem OnTheWay.next (r : Readings) {file file₁ file₂ : HubFile} (h : OnTheWay file file₁)
    (hcurrent : Current ctx file) {vs : List Step}
    (hvs : vs ⊆ versionSteps ctx (saltFor r file) (requestIds file) (memoryKeys file))
    (hsteps : steps (vs.map Step.run) (untimed file₁) = .ok (untimed file₂)) :
    OnTheWay file file₂ := by
  constructor
  · intro table
    exact ((grows_steps hsteps).keys table).trans (h.keys table)
  · intro hstamp
    have hdone : ∀ u ∈ vs.map Step.run, Done u (untimed file₁) := by
      intro u hu
      obtain ⟨v, hv, rfl⟩ := List.mem_map.mp hu
      rw [h.current hstamp]
      exact hcurrent hstamp r v (hvs hv)
    rw [Sql.steps_of_done hdone] at hsteps
    rw [← Except.ok.inj hsteps]
    exact h.current hstamp

theorem metaOf_createMeta (key : String) (file : HubFile) :
    metaOf key (createMeta file) = metaOf key file := by
  rw [metaOf, metaOf, createMeta]
  cases file.agentHubMeta with
  | none => rfl
  | some rows => rfl

/-- What comes before the backfill, in the steps up to the stamp. -/
theorem mem_schema {salt : String} {ids keys : List String} {u : Step}
    (h : u ∈ schemaSteps ctx salt) : u ∈ versionSteps ctx salt ids keys :=
  List.mem_append_left _ (List.mem_append_left _ h)

/-- The backfill of a current file is left out. -/
theorem backfillOlder_implements {file file' : HubFile} (hcurrent : Current ctx file)
    (h : OnTheWay file file') :
    Implements untimed
      (backfillOlder ctx (metaOf "schema_version" file) (keyWith ctx (saltFor r file))) file'
      (((backfillChanges ctx (keyWith ctx (saltFor r file)) (requestIds file)
        (memoryKeys file)).map Step.change).map Step.run) := by
  rw [backfillOlder]
  split
  next hstamp =>
    have hdone : ∀ u ∈ ((backfillChanges ctx (keyWith ctx (saltFor r file)) (requestIds file)
        (memoryKeys file)).map Step.change).map Step.run, Done u (untimed file') := by
      intro u hu
      obtain ⟨v, hv, rfl⟩ := List.mem_map.mp hu
      rw [h.current hstamp]
      exact hcurrent hstamp r v
        (List.mem_append_left _ (List.mem_append_right _ (List.mem_append_left _ hv)))
    have hskips := Implements.skips hdone (.done () file')
    rw [List.append_nil] at hskips
    exact hskips
  next =>
    rw [requestIds, memoryKeys, ← h.keys, ← h.keys]
    exact backfillV2Columns_implements ctx _ file'

/-- Every statement of a migration is a step, or it only reads. -/
theorem runMigrations_implements {file : HubFile} (hcurrent : Current ctx file) :
    Implements untimed (runMigrations ctx r) file ((stepsFor ctx r file).map Step.run) := by
  have hlist : (stepsFor ctx r file).map Step.run = Step.createMeta.run ::
      ((saltSteps ctx (saltFor r file)).map Step.run ++
        ((createChanges.map Step.change).map Step.run ++
          ((columnChanges.map Step.change).map Step.run ++
            (((backfillChanges ctx (keyWith ctx (saltFor r file)) (requestIds file)
                (memoryKeys file)).map Step.change).map Step.run ++
              ((indexChanges.map Step.change).map Step.run ++
                [(Step.upsertMeta "schema_version" schemaVersion).run,
                  (Step.upsertMeta "agent_id" ctx.agentId).run]))))) := by
    simp only [stepsFor, migrationSteps, versionSteps, unstampedSteps, schemaSteps, schemaChanges,
      List.map_append, List.map_cons, List.map_nil, List.append_assoc, List.cons_append,
      List.nil_append]
  have htables : ∀ file', Implements untimed
      (each (tables.map fun t => fun s => .ok (s.createTable t.1 t.2.1 t.2.2))) file'
      ((createChanges.map Step.change).map Step.run) := each_implements createChanges
  have hindexes : ∀ file', Implements untimed
      (each (indexes.map fun i => Tables.createIndex i.1 i.2)) file'
      ((indexChanges.map Step.change).map Step.run) := each_implements indexChanges
  rw [hlist, runMigrations]
  refine write_bind_implements (createMeta_untimed file) ?_
  intro file₁ h₁
  obtain rfl := Except.ok.inj h₁
  have hway : OnTheWay file (createMeta file) := by
    refine @OnTheWay.next κ ctx _ r file file (createMeta file) (.refl file) hcurrent
      [.createMeta] ?_ ?_
    · intro v hv
      obtain rfl := List.mem_singleton.mp hv
      exact mem_schema (List.mem_cons_self ..)
    · show (Step.createMeta.run (untimed file)).bind _ = _
      rw [createMeta_untimed]
      rfl
  refine Sql.implements_read
    (@metaValue_eq (createMeta file) (file.agentHubMeta.getD .empty) rfl _) ?_
  rw [metaOf_createMeta]
  obtain ⟨hinit, hkey⟩ := @initializeEncryptionKey_implements κ ctx r (createMeta file)
    (file.agentHubMeta.getD .empty) rfl
  have hsalt : saltFor r (createMeta file) = saltFor r file := by
    rw [saltFor, saltFor, metaOf_createMeta]
  rw [hsalt] at hinit hkey
  refine hinit.bind ?_
  intro file₂ key heval₂
  rw [hkey file₂ key heval₂]
  have hway := hway.next r hcurrent
    (fun v hv => mem_schema (List.mem_cons_of_mem _ (List.mem_append_left _ hv)))
    (hinit.eval_ok heval₂)
  refine (htables file₂).bind ?_
  intro file₃ _ heval₃
  have hway := hway.next r hcurrent (fun v hv => mem_schema (List.mem_cons_of_mem _
    (List.mem_append_right _ (by rw [schemaChanges, List.map_append]; exact List.mem_append_left _ hv))))
    ((htables file₂).eval_ok heval₃)
  have hcolumns := ensureColumns_implements addedColumns file₃
  refine hcolumns.bind ?_
  intro file₄ _ heval₄
  have hway := hway.next r hcurrent (fun v hv => mem_schema (List.mem_cons_of_mem _
    (List.mem_append_right _ (by rw [schemaChanges, List.map_append]; exact List.mem_append_right _ hv))))
    (hcolumns.eval_ok heval₄)
  refine (backfillOlder_implements hcurrent hway).bind ?_
  intro file₅ _ _
  refine (hindexes file₅).bind ?_
  intro file₆ _ _
  refine write_bind_implements (upsertMeta_untimed _ _ r.stamp file₆) ?_
  intro file₇ _
  exact write_implements (upsertMeta_untimed _ _ r.stamp file₇)

/-! ## Stops -/

variable (ctx r)

/-- The run was stopped, maybe after its last step. -/
def StoppedAt (file file' : HubFile) : Prop :=
  ∃ k, steps (((stepsFor ctx r file).map Step.run).take k) (untimed file) = .ok (untimed file')

/-- What the steps of a run end with. -/
def outcome (file : HubFile) : Except String HubFile :=
  steps ((stepsFor ctx r file).map Step.run) (untimed file)

variable {ctx r}

theorem nodup_keys (table : String) (file : HubFile) : (file.tables.keys table).Nodup := by
  rw [Tables.keys]
  cases file.tables.tables.get? table with
  | none => exact List.nodup_nil
  | some t => exact t.rows.nodup

theorem resumable_stepsFor (file : HubFile) :
    Sql.Resumable ((stepsFor ctx r file).map Step.run) :=
  resumable_steps _ (nodup_keys ..) (nodup_keys ..)

theorem StoppedAt.kept {file file' : HubFile} (h : StoppedAt ctx r file file') :
    Sql.Kept backfilled file.tables file'.tables := by
  obtain ⟨k, hk⟩ := h
  exact @kept_steps _ _ _ _ _ _ k (untimed file) (untimed file') hk

theorem StoppedAt.requestIds_eq {file file' : HubFile} (h : StoppedAt ctx r file file') :
    requestIds file' = requestIds file := h.kept.grows.keys _

theorem StoppedAt.memoryKeys_eq {file file' : HubFile} (h : StoppedAt ctx r file file') :
    memoryKeys file' = memoryKeys file := h.kept.grows.keys _

/-- The step stores no other salt. -/
def Step.KeepsSalt (salt : String) : Step → Prop
  | insertMeta _ value => value = salt
  | upsertMeta key _ => key ≠ "encryption_salt"
  | _ => True

/-- A stored salt stays, and no other than that of the run is stored. -/
theorem StoppedAt.salt {file file' : HubFile} (h : StoppedAt ctx r file file') :
    (metaOf "encryption_salt" file' = none ∧ metaOf "encryption_salt" file = none) ∨
      metaOf "encryption_salt" file' = some (saltFor r file) := by
  obtain ⟨k, hk⟩ := h
  have hkeys : ∀ v ∈ stepsFor ctx r file, v.KeepsSalt (saltFor r file) := by
    refine migrationSteps_forall (unstampedSteps_forall ?_ ?_ ?_ ?_ ?_) ?_ ?_
    · trivial
    · rfl
    · intro c _
      trivial
    · intro id
      trivial
    · intro id
      trivial
    · show "schema_version" ≠ "encryption_salt"
      decide
    · show "agent_id" ≠ "encryption_salt"
      decide
  have hrun := @Sql.steps_induct HubFile
    (fun s s' => (metaOf "encryption_salt" s ≠ none →
        metaOf "encryption_salt" s' = metaOf "encryption_salt" s) ∧
      (metaOf "encryption_salt" s = none → metaOf "encryption_salt" s' = none ∨
        metaOf "encryption_salt" s' = some (saltFor r file)))
    (fun s => ⟨fun _ => rfl, fun h => Or.inl h⟩) ?_ (((stepsFor ctx r file).map Step.run).take k) ?_
    (untimed file) (untimed file') hk
  · rw [metaOf_untimed, metaOf_untimed] at hrun
    cases hsalt : metaOf "encryption_salt" file with
    | none =>
      rcases hrun.2 hsalt with hnone | hsome
      · exact Or.inl ⟨hnone, rfl⟩
      · exact Or.inr hsome
    | some salt =>
      refine Or.inr ?_
      rw [hrun.1 (by rw [hsalt]; exact Option.some_ne_none salt), hsalt, saltFor, hsalt]
      rfl
  · intro s₁ s₂ s₃ h₁ h₂
    refine ⟨?_, ?_⟩
    · intro hne
      have h := h₁.1 hne
      rw [← h] at hne
      exact (h₂.1 hne).trans h
    · intro hnone
      rcases h₁.2 hnone with h | h
      · exact h₂.2 h
      · refine Or.inr ((h₂.1 ?_).trans h)
        rw [h]
        exact Option.some_ne_none _
  · intro u hu s s' hs
    obtain ⟨v, hv, rfl⟩ := List.mem_map.mp (List.take_subset k _ hu)
    have hsalt := hkeys v hv
    rcases step_metaOf hs "encryption_salt" with hsame | ⟨hnone, value, hvalue, hset⟩ | ⟨value, hvalue, -⟩
    · exact ⟨fun _ => hsame, fun h => Or.inl (hsame.trans h)⟩
    · refine ⟨fun h => absurd hnone h, fun _ => Or.inr ?_⟩
      rw [hvalue] at hsalt
      rw [hset, show value = saltFor r file from hsalt]
    · rw [hvalue] at hsalt
      exact absurd rfl hsalt

omit [DecidableEq κ] in
theorem keyWith_of_no_secret (h : hasSecret ctx = false) (salt : String) : keyWith ctx salt = none := by
  rw [hasSecret] at h
  rw [keyWith]
  cases hsecret : ctx.encryptionSecret with
  | none => rfl
  | some secret =>
    rw [hsecret] at h
    dsimp only at h ⊢
    rw [if_pos (by simpa using h)]

/-- Without a secret the salt does not matter. -/
theorem unstampedSteps_congr {salt salt' : String} (h : hasSecret ctx = true → salt = salt')
    (ids keys : List String) :
    unstampedSteps ctx salt ids keys = unstampedSteps ctx salt' ids keys := by
  cases hsecret : hasSecret ctx with
  | true => rw [h hsecret]
  | false =>
    rw [unstampedSteps, unstampedSteps, schemaSteps, schemaSteps, saltSteps, saltSteps, hsecret,
      keyWith_of_no_secret hsecret, keyWith_of_no_secret hsecret]
    rfl

/-- The salt of a run is known from its store. -/
theorem StoppedAt.saltFor_eq {file file' : HubFile} (h : StoppedAt ctx r file file')
    (hdone : Done (Step.insertMeta "encryption_salt" (saltFor r file)).run (untimed file'))
    (r' : Readings) : saltFor r' file' = saltFor r file := by
  rcases h.salt with ⟨hnone, -⟩ | hsome
  · obtain ⟨rows, hrows, hkey⟩ := done_insertMeta.mp hdone
    obtain ⟨row, hrow⟩ := (OrderedMap.has_iff ..).mp hkey
    rw [← metaOf_untimed, metaOf_of_some hrows, hrow] at hnone
    cases hnone
  · rw [saltFor, hsome]
    rfl

/-- Where the salt of a run is stored if it has a secret, the next run has the same
steps. -/
theorem StoppedAt.unstampedSteps_eq {file file' : HubFile} (h : StoppedAt ctx r file file')
    (hdone : ∀ u ∈ unstampedSteps ctx (saltFor r file) (requestIds file) (memoryKeys file),
      Done u.run (untimed file')) (r' : Readings) :
    unstampedSteps ctx (saltFor r' file') (requestIds file') (memoryKeys file') =
      unstampedSteps ctx (saltFor r file) (requestIds file) (memoryKeys file) := by
  rw [h.requestIds_eq, h.memoryKeys_eq]
  refine unstampedSteps_congr ?_ ..
  intro hsecret
  refine h.saltFor_eq (hdone _ ?_) r'
  refine List.mem_append_left _ (List.mem_cons_of_mem _ (List.mem_append_left _ ?_))
  rw [saltSteps, if_pos hsecret]
  exact List.mem_singleton.mpr rfl

/-- The step does not stamp the version. -/
def Step.KeepsVersion : Step → Prop
  | insertMeta key _ => key ≠ "schema_version"
  | upsertMeta key _ => key ≠ "schema_version"
  | _ => True

theorem unstampedSteps_keep {salt : String} {ids keys : List String} :
    ∀ v ∈ unstampedSteps ctx salt ids keys, v.KeepsVersion := by
  refine unstampedSteps_forall ?_ ?_ ?_ ?_ ?_
  · trivial
  · show "encryption_salt" ≠ "schema_version"
    decide
  · intro c _
    trivial
  · intro id
    trivial
  · intro id
    trivial

/-- Before its stamp the version stays what it was. -/
theorem steps_keep_version {us : List (HubFile → Except String HubFile)} {s s' : HubFile}
    (hus : ∀ u ∈ us, ∃ v : Step, u = v.run ∧ v.KeepsVersion) (h : steps us s = .ok s') :
    metaOf "schema_version" s' = metaOf "schema_version" s := by
  refine @Sql.steps_induct HubFile
    (fun s s' => metaOf "schema_version" s' = metaOf "schema_version" s)
    (fun s => rfl) (fun h₁ h₂ => h₂.trans h₁) us ?_ s s' h
  intro u hu s₁ s₂ hs
  obtain ⟨v, rfl, hv⟩ := hus u hu
  rcases step_metaOf hs "schema_version" with hsame | ⟨-, value, rfl, -⟩ | ⟨value, rfl, -⟩
  · exact hsame
  · exact absurd rfl hv
  · exact absurd rfl hv

/-- After the stamp of the version the steps up to it are done. -/
theorem StoppedAt.done_versionSteps {file file' : HubFile} (hcurrent : Current ctx file)
    (h : StoppedAt ctx r file file') (hstamp : metaOf "schema_version" file' = some schemaVersion) :
    ∀ u ∈ versionSteps ctx (saltFor r file) (requestIds file) (memoryKeys file),
      Done u.run (untimed file') := by
  have hresumable := @resumable_stepsFor _ ctx r _ file
  obtain ⟨k, hk⟩ := h
  rw [stepsFor, migrationSteps, List.map_append] at hresumable hk
  generalize hV : versionSteps ctx (saltFor r file) (requestIds file) (memoryKeys file) = V at hresumable hk
  intro u hu
  by_cases hbefore : metaOf "schema_version" file = some schemaVersion
  · -- nothing was left to do but the stamp of the agent
    have hdone : ∀ u ∈ V.map Step.run, Done u (untimed file) := by
      intro u hu
      obtain ⟨v, hv, rfl⟩ := List.mem_map.mp hu
      rw [← hV] at hv
      exact hcurrent hbefore r v hv
    have hu := List.mem_map_of_mem (f := Step.run) hu
    rw [List.take_append, Sql.steps_append,
      Sql.steps_of_done fun u hu => hdone u (List.take_subset _ _ hu)] at hk
    refine Sql.done_steps ?_ (hdone _ hu) hk
    intro v hv
    exact List.pairwise_append.mp hresumable.stays |>.2.2 _ hu v (List.take_subset _ _ hv)
  · -- the stamp is new, so the run was stopped after it
    have hlength : V.length ≤ k := by
      by_contra hshort
      refine hbefore ?_
      rw [← hV, versionSteps, List.length_append, List.length_singleton] at hshort
      rw [← hV, versionSteps, List.map_append, List.append_assoc,
        List.take_append_of_le_length (by rw [List.length_map]; omega)] at hk
      have hsame := steps_keep_version (fun u hu => by
        obtain ⟨v, hv, rfl⟩ := List.mem_map.mp (List.take_subset _ _ hu)
        exact ⟨v, rfl, unstampedSteps_keep v hv⟩) hk
      rw [metaOf_untimed, metaOf_untimed] at hsame
      rw [← hsame]
      exact hstamp
    have hinit : V.map Step.run <+: ((V.map Step.run) ++
        [Step.upsertMeta "agent_id" ctx.agentId].map Step.run).take k := by
      rw [List.prefix_take_iff]
      exact ⟨List.prefix_append .., by rw [List.length_map]; exact hlength⟩
    exact (hresumable.take k).done hk _ (hinit.subset (List.mem_map_of_mem hu))

/-- A file that a run left when it was stopped is current once it is stamped. -/
theorem Current.stopped {file file' : HubFile} (hcurrent : Current ctx file)
    (h : StoppedAt ctx r file file') : Current ctx file' := by
  intro hstamp r'
  have hdone := h.done_versionSteps hcurrent hstamp
  have hunstamped := h.unstampedSteps_eq
    (fun u hu => hdone u (List.mem_append_left _ hu)) r'
  rw [versionSteps, hunstamped]
  exact hdone

/-- The steps with another salt are the same up to the stop, if no salt was stored. -/
theorem StoppedAt.take_eq {file file' : HubFile} {k : Nat}
    (hk : steps (((stepsFor ctx r file).map Step.run).take k) (untimed file) = .ok (untimed file'))
    (hnone : metaOf "encryption_salt" file' = none) (salt : String) :
    ((stepsFor ctx r file).map Step.run).take k =
      ((migrationSteps ctx salt (requestIds file) (memoryKeys file)).map Step.run).take k := by
  cases hsecret : hasSecret ctx with
  | false =>
    rw [stepsFor, migrationSteps, migrationSteps, versionSteps, versionSteps,
      @unstampedSteps_congr _ ctx _ (saltFor r file) salt (fun h => by rw [hsecret] at h; cases h)]
  | true =>
    have hlist : ∀ salt, ∃ rest, (migrationSteps ctx salt (requestIds file) (memoryKeys file)).map
        Step.run = Step.createMeta.run :: (Step.insertMeta "encryption_salt" salt).run :: rest := by
      intro salt
      refine ⟨(schemaChanges.map Step.change ++
        ((backfillChanges ctx (keyWith ctx salt) (requestIds file) (memoryKeys file)).map
          Step.change ++ indexChanges.map Step.change) ++
        [Step.upsertMeta "schema_version" schemaVersion] ++
        [Step.upsertMeta "agent_id" ctx.agentId]).map Step.run, ?_⟩
      rw [migrationSteps, versionSteps, unstampedSteps, schemaSteps, saltSteps, if_pos hsecret]
      rfl
    have hresumable := @resumable_stepsFor _ ctx r _ file
    obtain ⟨rest, hrest⟩ := hlist (saltFor r file)
    obtain ⟨rest', hrest'⟩ := hlist salt
    rw [stepsFor, hrest] at hresumable hk
    rw [stepsFor, hrest, hrest']
    cases k with
    | zero => rfl
    | succ k =>
      cases k with
      | zero => rfl
      | succ k =>
        have hdone := (hresumable.take (k + 2)).done hk _
          (List.mem_cons_of_mem _ (List.mem_cons_self ..))
        obtain ⟨rows, hrows, hkey⟩ := done_insertMeta.mp hdone
        obtain ⟨row, hrow⟩ := (OrderedMap.has_iff ..).mp hkey
        rw [← metaOf_untimed, metaOf_of_some hrows, hrow] at hnone
        cases hnone

/-- A run after a stopped one ends as one run would have, with the salt of one of the
two. -/
theorem outcome_resumed {file file' : HubFile} (h : StoppedAt ctx r file file') (r' : Readings) :
    ∃ salt, (salt = r'.salt ∨ salt = r.salt) ∧
      outcome ctx r' file' = outcome ctx { r' with salt } file := by
  have hids := h.requestIds_eq
  have hkeys := h.memoryKeys_eq
  rcases h.salt with ⟨hnone, hbefore⟩ | hsome
  · refine ⟨r'.salt, Or.inl rfl, ?_⟩
    obtain ⟨k, hk⟩ := h
    have hsalt : saltFor r' file' = saltFor r' file := by
      rw [saltFor, saltFor, hnone, hbefore]
    rw [StoppedAt.take_eq hk hnone (saltFor r' file)] at hk
    rw [outcome, outcome, stepsFor, hids, hkeys, hsalt]
    exact (resumable_steps _ (nodup_keys ..) (nodup_keys ..)).steps_take hk
  · refine ⟨r.salt, Or.inr rfl, ?_⟩
    obtain ⟨k, hk⟩ := h
    have hsalt : saltFor r' file' = saltFor { r' with salt := r.salt } file := by
      rw [saltFor, hsome]
      rfl
    rw [outcome, outcome, stepsFor, hids, hkeys, hsalt]
    exact (resumable_steps _ (nodup_keys ..) (nodup_keys ..)).steps_take hk

/-- A run after one that came to its end changes nothing. -/
theorem outcome_again {file file' : HubFile} (h : outcome ctx r file = .ok (untimed file'))
    (r' : Readings) : outcome ctx r' file' = .ok (untimed file') := by
  have hstopped : StoppedAt ctx r file file' := by
    refine ⟨((stepsFor ctx r file).map Step.run).length, ?_⟩
    rw [List.take_length]
    exact h
  have hdone : ∀ u ∈ stepsFor ctx r file, Done u.run (untimed file') := fun u hu =>
    (resumable_stepsFor file).done h _ (List.mem_map_of_mem hu)
  have hsteps : stepsFor ctx r' file' = stepsFor ctx r file := by
    rw [stepsFor, migrationSteps, versionSteps, hstopped.unstampedSteps_eq (fun u hu =>
      hdone u (List.mem_append_left _ (List.mem_append_left _ hu))) r']
    rfl
  rw [outcome, hsteps]
  refine Sql.steps_of_done ?_
  intro u hu
  obtain ⟨v, hv, rfl⟩ := List.mem_map.mp hu
  exact hdone v hv

/-! ## Runs -/

variable (ctx)

/-- A run that comes to its end. -/
def migrated (r : Readings) (file : HubFile) : Except String HubFile :=
  ((runMigrations ctx r).eval file).map Prod.fst

/-- A run that stops at its first fault. -/
structure Stop where
  readings : Readings
  faults : List (Option String)

/-- What runs that were stopped leave, one after the other. -/
def interrupted : List Stop → HubFile → HubFile
  | [], file => file
  | stop :: stops, file =>
    interrupted stops ((runMigrations ctx stop.readings).run stop.faults ⟨file, none⟩).db.committed

variable {ctx}

theorem migrated_eq {file : HubFile} (hcurrent : Current ctx file) :
    (migrated ctx r file).map untimed = outcome ctx r file := by
  rw [outcome, ← (runMigrations_implements hcurrent).eval, migrated]
  cases (runMigrations ctx r).eval file with
  | error err => rfl
  | ok p => rfl

theorem stoppedAt_run {file : HubFile} (hcurrent : Current ctx file) (stop : Stop) :
    StoppedAt ctx stop.readings file
      ((runMigrations ctx stop.readings).run stop.faults ⟨file, none⟩).db.committed := by
  obtain ⟨file', faults', result, hrun, hk⟩ :=
    (runMigrations_implements hcurrent).ends stop.faults
  rw [hrun]
  exact hk

/-- Stopped runs leave a file that is current if it is stamped, and that a run brings to
where it would have brought the first. -/
theorem interrupted_outcome (stops : List Stop) :
    ∀ {file : HubFile}, Current ctx file → ∀ r : Readings,
      Current ctx (interrupted ctx stops file) ∧
        Sql.Kept backfilled file.tables (interrupted ctx stops file).tables ∧
          ∃ salt ∈ r.salt :: stops.map fun stop => stop.readings.salt,
            outcome ctx r (interrupted ctx stops file) = outcome ctx { r with salt } file := by
  induction stops with
  | nil =>
    intro file hcurrent r
    exact ⟨hcurrent, .refl _, r.salt, List.mem_cons_self .., rfl⟩
  | cons stop stops ih =>
    intro file hcurrent r
    have hstopped := stoppedAt_run hcurrent stop
    obtain ⟨hcurrent', hkept, salt, hsalt, houtcome⟩ := ih (hcurrent.stopped hstopped) r
    refine ⟨hcurrent', hstopped.kept.trans hkept, ?_⟩
    obtain ⟨salt', hsalt', houtcome'⟩ := outcome_resumed hstopped { r with salt }
    refine ⟨salt', ?_, houtcome.trans houtcome'⟩
    rw [List.map_cons]
    rcases hsalt' with rfl | rfl
    · rcases List.mem_cons.mp hsalt with h | h
      · exact List.mem_cons.mpr (Or.inl h)
      · exact List.mem_cons_of_mem _ (List.mem_cons_of_mem _ h)
    · exact List.mem_cons_of_mem _ (List.mem_cons_self ..)

/-- A migration can be stopped anywhere, any number of times: a run that comes to its end
then leaves what one run would have left, a further run changes nothing, and no value that
was set, payload or other, is lost or overwritten on the way. -/
theorem migration_resumable (ctx : MigrationContext κ) {file : HubFile}
    (hfile : metaOf "schema_version" file ≠ some schemaVersion) (stops : List Stop) (r : Readings) :
    (∃ salt ∈ r.salt :: stops.map fun stop => stop.readings.salt,
      (migrated ctx r (interrupted ctx stops file)).map untimed =
        (migrated ctx { r with salt } file).map untimed) ∧
    (∀ file', migrated ctx r (interrupted ctx stops file) = .ok file' →
      ∀ r', (migrated ctx r' file').map untimed = .ok (untimed file')) ∧
    Sql.Kept backfilled file.tables (interrupted ctx stops file).tables ∧
    ∀ file', migrated ctx r (interrupted ctx stops file) = .ok file' →
      Sql.Kept backfilled file.tables file'.tables := by
  have hcurrent : Current ctx file := fun h => absurd h hfile
  obtain ⟨hcurrent', hkept, salt, hsalt, houtcome⟩ := interrupted_outcome stops hcurrent r
  have hend : ∀ file', migrated ctx r (interrupted ctx stops file) = .ok file' →
      outcome ctx r (interrupted ctx stops file) = .ok (untimed file') := by
    intro file' h
    rw [← migrated_eq hcurrent', h]
    rfl
  have hstopped : ∀ file', migrated ctx r (interrupted ctx stops file) = .ok file' →
      StoppedAt ctx r (interrupted ctx stops file) file' := by
    intro file' h
    refine ⟨((stepsFor ctx r (interrupted ctx stops file)).map Step.run).length, ?_⟩
    rw [List.take_length]
    exact hend file' h
  refine ⟨⟨salt, hsalt, ?_⟩, ?_, hkept, ?_⟩
  · rw [migrated_eq hcurrent', migrated_eq hcurrent]
    exact houtcome
  · intro file' h r'
    rw [migrated_eq (hcurrent'.stopped (hstopped file' h))]
    exact outcome_again (hend file' h) r'
  · intro file' h
    exact hkept.trans (hstopped file' h).kept

end

/-! ## A hub file of version 1 -/

/-- A hub with a secret, and a cipher that hides nothing. -/
def sampleContext : MigrationContext String where
  agentId := "shaev"
  encryptionSecret := some "secret"
  deriveEncryptionKey := fun secret salt => secret ++ salt
  gcm :=
    { ciphertext := fun _ _ plaintext => plaintext
      tag := fun _ _ _ _ => List.replicate 16 0
      length_ciphertext := fun _ _ _ => rfl
      ciphertext_injective := fun _ _ _ _ h => h
      length_tag := fun _ _ _ _ => List.length_replicate }
  number := id
  calls := []
  sha256 := id

def versionOne : HubFile where
  agentHubMeta := some (OrderedMap.empty.set "schema_version" ⟨"1", 10⟩)
  tables :=
    { tables := (OrderedMap.empty.set "agent_dispatches"
        { columns := [column "request_id" "TEXT PRIMARY KEY", column "status" "TEXT NOT NULL",
            column "received_at" "INTEGER NOT NULL", column "payload_json" "TEXT NOT NULL"]
          constraints := []
          rows := OrderedMap.empty.set "req-v1" fun c =>
            if c = "payload_json" then .text "\x7b\"replyUrl\":\"u\"\x7d"
            else if c = "received_at" then .integer 11 else .null }).set "agent_memory"
        { columns := [column "key" "TEXT PRIMARY KEY", column "value_json" "TEXT NOT NULL",
            column "updated_at" "INTEGER NOT NULL"]
          constraints := []
          rows := OrderedMap.empty.set "v1-memory" fun c =>
            if c = "value_json" then .text "true" else .integer 12 }
      indexes := .empty }

/-- A run that stops after 20 statements. -/
def firstStop : Stop := ⟨⟨"salt-1", 20, 21⟩, List.replicate 20 none ++ [some "disk I/O error"]⟩

/-- It is resumed with the salt of the first run. -/
theorem version_one_resumed :
    ((migrated sampleContext ⟨"salt-2", 30, 31⟩ (interrupted sampleContext [firstStop] versionOne)).map
      (metaOf "encryption_salt")).toOption = some (some "salt-1") ∧
    ∃ salt ∈ ["salt-2", "salt-1"],
      (migrated sampleContext ⟨"salt-2", 30, 31⟩ (interrupted sampleContext [firstStop]
        versionOne)).map untimed =
          (migrated sampleContext ⟨salt, 30, 31⟩ versionOne).map untimed :=
  ⟨by decide +kernel, (migration_resumable sampleContext (by decide) [firstStop] ⟨"salt-2", 30, 31⟩).1⟩

end Kovael.Hub.Migration
