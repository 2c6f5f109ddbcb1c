import Kovael.Hub.Migration

/-!
# The steps of a migration

What `runMigrations` writes is the list `migrationSteps`, times in `agent_hub_meta`
apart: it depends on the salt and on the rows that are there. The steps are resumable
(`resumable_steps`), and they only fill (`kept_steps`). Of the values in
`agent_hub_meta` each step sets at most its own (`step_metaOf`).
-/

namespace Kovael.Hub.Migration

open Js (OrderedMap)
open Sql (Prog sql Cell Row Table Tables Done StaysDone Implements steps)

/-! ## Steps -/

/-- A statement that writes; times are left out. -/
inductive Step where
  | createMeta
  | insertMeta (key value : String)
  | upsertMeta (key value : String)
  | change (c : Sql.Change)

def Step.run : Step → HubFile → Except String HubFile
  | createMeta, file => .ok (Migration.createMeta file)
  | insertMeta key value, file => Migration.insertMeta key value 0 file
  | upsertMeta key value, file => Migration.upsertMeta key value 0 file
  | change c, file => onTables c.run file

/-- A hub file without the times in `agent_hub_meta`. -/
def untimed (file : HubFile) : HubFile :=
  { file with agentHubMeta := file.agentHubMeta.map fun rows =>
      rows.adjust fun _ row => { row with updatedAt := 0 } }

/-- The second step can be made without undoing the first. -/
def Step.Leaves (v : Step) : Step → Prop
  | upsertMeta key _ => ∀ key' value', v = upsertMeta key' value' → key' ≠ key
  | change c => ∀ d, v = change d → d.Leaves c
  | _ => True

theorem onTables_ok {f : Tables → Except String Tables} {file file' : HubFile}
    (h : onTables f file = .ok file') :
    ∃ t, f file.tables = .ok t ∧ file' = { file with tables := t } := by
  rw [onTables] at h
  cases ht : f file.tables with
  | error err =>
    rw [ht] at h
    cases h
  | ok t =>
    rw [ht] at h
    exact ⟨t, rfl, (Except.ok.inj h).symm⟩

theorem done_change {c : Sql.Change} {file : HubFile} :
    Done (Step.change c).run file ↔ Done c.run file.tables := by
  constructor
  · intro h
    obtain ⟨t, ht, hfile⟩ := onTables_ok h
    have htables : file.tables = t := congrArg HubFile.tables hfile
    show c.run file.tables = .ok file.tables
    rw [ht, htables]
  · intro h
    show onTables c.run file = .ok file
    rw [onTables, h]
    rfl

theorem done_createMeta {file : HubFile} :
    Done Step.createMeta.run file ↔ file.agentHubMeta.isSome = true := by
  show Except.ok (createMeta file) = .ok file ↔ _
  rw [Except.ok.injEq, createMeta]
  constructor
  · intro h
    rw [← h]
    rfl
  · intro h
    obtain ⟨rows, hrows⟩ := Option.isSome_iff_exists.mp h
    cases file with
    | mk agentHubMeta tables =>
      obtain rfl : agentHubMeta = some rows := hrows
      rfl

theorem done_insertMeta {key value : String} {file : HubFile} :
    Done (Step.insertMeta key value).run file ↔
      ∃ rows, file.agentHubMeta = some rows ∧ rows.has key = true := by
  show insertMeta key value 0 file = .ok file ↔ _
  cases file with
  | mk agentHubMeta tables =>
    cases agentHubMeta with
    | none =>
      constructor
      · intro h
        cases h
      · intro hgiven
        obtain ⟨rows, h, -⟩ := hgiven
        cases h
    | some rows =>
      show Except.ok (HubFile.mk _ tables) = .ok _ ↔ _
      rw [Except.ok.injEq, HubFile.mk.injEq, Option.some.injEq]
      by_cases hkey : rows.has key = true
      · rw [if_pos hkey]
        exact iff_of_true ⟨rfl, rfl⟩ ⟨rows, rfl, hkey⟩
      · rw [if_neg hkey]
        refine iff_of_false ?_ ?_
        · intro hgiven
          obtain ⟨h, -⟩ := hgiven
          refine hkey ?_
          rw [← h]
          exact (OrderedMap.has_iff ..).mpr ⟨_, OrderedMap.get?_set_self ..⟩
        · intro hgiven
          obtain ⟨rows', h, hkey'⟩ := hgiven
          obtain rfl := Option.some.inj h
          exact hkey hkey'

theorem done_upsertMeta {key value : String} {file : HubFile} :
    Done (Step.upsertMeta key value).run file ↔
      ∃ rows, file.agentHubMeta = some rows ∧ rows.get? key = some ⟨value, 0⟩ := by
  show upsertMeta key value 0 file = .ok file ↔ _
  cases file with
  | mk agentHubMeta tables =>
    cases agentHubMeta with
    | none =>
      constructor
      · intro h
        cases h
      · intro hgiven
        obtain ⟨rows, h, -⟩ := hgiven
        cases h
    | some rows =>
      show Except.ok (HubFile.mk _ tables) = .ok _ ↔ _
      rw [Except.ok.injEq, HubFile.mk.injEq, Option.some.injEq]
      constructor
      · intro hgiven
        obtain ⟨h, -⟩ := hgiven
        refine ⟨rows, rfl, ?_⟩
        rw [← h]
        exact OrderedMap.get?_set_self ..
      · intro hgiven
        obtain ⟨rows', h, hkey⟩ := hgiven
        obtain rfl := Option.some.inj h
        exact ⟨OrderedMap.set_self hkey, rfl⟩

/-- What a step leaves of `agent_hub_meta`. -/
theorem step_meta {v : Step} {file file' : HubFile} (h : v.run file = .ok file')
    {rows : OrderedMap String MetaRow} (hrows : file.agentHubMeta = some rows) :
    ∃ rows', file'.agentHubMeta = some rows' ∧
      (∀ key, rows.has key = true → rows'.has key = true) ∧
      ∀ key row, (∀ key' value, v = .upsertMeta key' value → key' ≠ key) →
        rows.get? key = some row → rows'.get? key = some row := by
  cases v with
  | createMeta =>
    obtain rfl := Except.ok.inj h
    refine ⟨rows, ?_, fun _ h => h, fun _ _ _ h => h⟩
    show some (file.agentHubMeta.getD .empty) = some rows
    rw [hrows]
    rfl
  | insertMeta key value =>
    rw [Step.run, insertMeta, hrows] at h
    obtain rfl := Except.ok.inj h
    refine ⟨_, rfl, ?_, ?_⟩
    · intro key' hkey'
      split
      next => exact hkey'
      next hnew =>
        obtain ⟨row, hrow⟩ := (OrderedMap.has_iff ..).mp hkey'
        rw [OrderedMap.has_iff, OrderedMap.get?_set]
        split
        next => exact ⟨_, rfl⟩
        next => exact ⟨row, hrow⟩
    · intro key' row _ hrow
      split
      next => exact hrow
      next hnew =>
        rw [OrderedMap.get?_set_ne]
        · exact hrow
        · intro heq
          obtain rfl := heq
          exact hnew ((OrderedMap.has_iff ..).mpr ⟨row, hrow⟩)
  | upsertMeta key value =>
    rw [Step.run, upsertMeta, hrows] at h
    obtain rfl := Except.ok.inj h
    refine ⟨_, rfl, ?_, ?_⟩
    · intro key' hkey'
      obtain ⟨row, hrow⟩ := (OrderedMap.has_iff ..).mp hkey'
      rw [OrderedMap.has_iff, OrderedMap.get?_set]
      split
      next => exact ⟨_, rfl⟩
      next => exact ⟨row, hrow⟩
    · intro key' row hkey' hrow
      rw [OrderedMap.get?_set_ne]
      · exact hrow
      · exact (hkey' key value rfl).symm
  | change c =>
    obtain ⟨t, -, rfl⟩ := onTables_ok h
    exact ⟨rows, hrows, fun _ h => h, fun _ _ _ h => h⟩

/-- What a step leaves of the other tables. -/
theorem step_tables {v : Step} {file file' : HubFile} (h : v.run file = .ok file') :
    file'.tables = file.tables ∨ ∃ c, v = .change c ∧ c.run file.tables = .ok file'.tables := by
  cases v with
  | createMeta =>
    obtain rfl := Except.ok.inj h
    exact Or.inl rfl
  | insertMeta key value =>
    rw [Step.run, insertMeta] at h
    cases hrows : file.agentHubMeta with
    | none =>
      rw [hrows] at h
      cases h
    | some rows =>
      rw [hrows] at h
      obtain rfl := Except.ok.inj h
      exact Or.inl rfl
  | upsertMeta key value =>
    rw [Step.run, upsertMeta] at h
    cases hrows : file.agentHubMeta with
    | none =>
      rw [hrows] at h
      cases h
    | some rows =>
      rw [hrows] at h
      obtain rfl := Except.ok.inj h
      exact Or.inl rfl
  | change c =>
    obtain ⟨t, ht, rfl⟩ := onTables_ok h
    exact Or.inr ⟨c, rfl, ht⟩

/-- What was made is done. -/
theorem Step.made {u : Step} (hu : ∀ c, u = .change c → c.Idempotent) {file file' : HubFile}
    (h : u.run file = .ok file') : Done u.run file' := by
  cases u with
  | createMeta =>
    obtain rfl := Except.ok.inj h
    exact done_createMeta.mpr rfl
  | insertMeta key value =>
    rw [Step.run, Migration.insertMeta] at h
    cases hrows : file.agentHubMeta with
    | none =>
      rw [hrows] at h
      cases h
    | some rows =>
      rw [hrows] at h
      obtain rfl := Except.ok.inj h
      refine done_insertMeta.mpr ⟨_, rfl, ?_⟩
      split
      next hkey => exact hkey
      next => exact (OrderedMap.has_iff ..).mpr ⟨_, OrderedMap.get?_set_self ..⟩
  | upsertMeta key value =>
    rw [Step.run, Migration.upsertMeta] at h
    cases hrows : file.agentHubMeta with
    | none =>
      rw [hrows] at h
      cases h
    | some rows =>
      rw [hrows] at h
      obtain rfl := Except.ok.inj h
      exact done_upsertMeta.mpr ⟨_, rfl, OrderedMap.get?_set_self ..⟩
  | change c =>
    obtain ⟨t, ht, rfl⟩ := onTables_ok h
    exact done_change.mpr (Sql.Change.made (hu c rfl) ht)

/-- What is done stays done. -/
theorem Step.stays {u v : Step} (hv : v.Leaves u) : StaysDone u.run v.run := by
  intro file file' hdone h
  cases u with
  | createMeta =>
    obtain ⟨rows, hrows⟩ := Option.isSome_iff_exists.mp (done_createMeta.mp hdone)
    obtain ⟨rows', hrows', -⟩ := step_meta h hrows
    exact done_createMeta.mpr (by rw [hrows']; rfl)
  | insertMeta key value =>
    obtain ⟨rows, hrows, hkey⟩ := done_insertMeta.mp hdone
    obtain ⟨rows', hrows', hhas, -⟩ := step_meta h hrows
    exact done_insertMeta.mpr ⟨rows', hrows', hhas key hkey⟩
  | upsertMeta key value =>
    obtain ⟨rows, hrows, hkey⟩ := done_upsertMeta.mp hdone
    obtain ⟨rows', hrows', -, hget⟩ := step_meta h hrows
    exact done_upsertMeta.mpr ⟨rows', hrows', hget key _ hv hkey⟩
  | change c =>
    have hdone := done_change.mp hdone
    refine done_change.mpr ?_
    rcases step_tables h with hsame | ⟨d, rfl, hd⟩
    · rw [hsame]
      exact hdone
    · exact Sql.Change.stays (hv d rfl) _ _ hdone hd

theorem grows_steps {vs : List Step} {file file' : HubFile}
    (h : steps (vs.map Step.run) file = .ok file') : Sql.Grows file.tables file'.tables := by
  refine @Sql.steps_induct HubFile (fun s s' => Sql.Grows s.tables s'.tables)
    (fun s => .refl _) (fun h₁ h₂ => Sql.Grows.trans h₁ h₂) _ ?_ _ _ h
  intro u hu s s' hs
  obtain ⟨v, hv, rfl⟩ := List.mem_map.mp hu
  rcases step_tables hs with hsame | ⟨c, rfl, hc⟩
  · rw [hsame]
    exact .refl _
  · exact Sql.Change.run_grows hc

/-! ## The steps of a migration -/

section

variable {κ : Type} [DecidableEq κ] (ctx : MigrationContext κ)

/-- One row of a loop: its arguments and its UPDATE. -/
def fill {α : Type} (arguments : String → Row → Except String α) (update : α → Row → Row)
    (id : String) (row : Row) : Except String Row :=
  (arguments id row).map fun args => update args row

def fills {α : Type} (table : String) (arguments : String → Row → Except String α)
    (update : α → Row → Row) (ids : List String) : List Sql.Change :=
  ids.map fun id => .rewrite table id (fill arguments update id)

def createChanges : List Sql.Change := tables.map fun t => .createTable t.1 t.2.1 t.2.2

def columnChanges : List Sql.Change := addedColumns.map fun c => .ensureColumn c.1 c.2

/-- The tables that are created and the columns that are added. -/
def schemaChanges : List Sql.Change := createChanges ++ columnChanges

/-- The statements of `backfillV2Columns`, for tables with these rows. -/
def backfillChanges (key : Option κ) (requestIds memoryKeys : List String) : List Sql.Change :=
  [.resolve "agent_dispatches" dispatchSelect, .resolve "agent_dispatches" dispatchUpdate] ++
    (fills "agent_dispatches" (dispatchArguments ctx key) updateDispatch requestIds ++
      ([.resolve "agent_memory" memorySelect, .resolve "agent_memory" memoryUpdate] ++
        fills "agent_memory" (memoryArguments ctx key) updateMemory memoryKeys))

def indexChanges : List Sql.Change := indexes.map fun i => .createIndex i.1 i.2

def saltSteps (salt : String) : List Step :=
  if hasSecret ctx then [.insertMeta "encryption_salt" salt] else []

/-- Up to the columns. -/
def schemaSteps (salt : String) : List Step :=
  .createMeta :: (saltSteps ctx salt ++ schemaChanges.map .change)

/-- Up to the stamp of the version. -/
def unstampedSteps (salt : String) (requestIds memoryKeys : List String) : List Step :=
  schemaSteps ctx salt ++
    ((backfillChanges ctx (keyWith ctx salt) requestIds memoryKeys).map .change ++
      indexChanges.map .change)

def versionSteps (salt : String) (requestIds memoryKeys : List String) : List Step :=
  unstampedSteps ctx salt requestIds memoryKeys ++ [.upsertMeta "schema_version" schemaVersion]

/-- All that a migration writes. -/
def migrationSteps (salt : String) (requestIds memoryKeys : List String) : List Step :=
  versionSteps ctx salt requestIds memoryKeys ++ [.upsertMeta "agent_id" ctx.agentId]

/-- What a dispatch row is filled with, by its payload. -/
def dispatchDefaults (key : Option κ) (requestId : String) (payloadJson : Cell) :
    Except String (Cell × Cell) :=
  (decode ctx key payloadJson (aadFor "agent_dispatches" requestId "payload_json")).map fun text =>
    (.text (ctx.sha256 (stableStringify (safeJsonObject ctx text))),
      Cell.ofOption (stringOrNull ((safeJsonObject ctx text).stringField? "replyUrl")))

theorem dispatchArguments_eq (key : Option κ) (requestId : String) (row : Row) :
    dispatchArguments ctx key requestId row =
      (dispatchDefaults ctx key requestId (row "payload_json")).map fun d =>
        ((row "payload_sha256").coalesce d.1, (row "reply_url").coalesce d.2) := by
  rw [dispatchArguments, dispatchDefaults]
  cases decode ctx key (row "payload_json") (aadFor "agent_dispatches" requestId "payload_json") with
  | error err => rfl
  | ok text => rfl

/-- What a memory row is filled with, by its value. -/
def memoryDefaults (key : Option κ) (memoryKey : String) (valueJson : Cell) :
    Except String (Cell × Cell) :=
  (decode ctx key valueJson (aadFor "agent_memory" memoryKey "value_json")).map fun text =>
    (.text (ctx.sha256 text), .integer (Js.Utf8.encode text).length)

theorem memoryArguments_eq (key : Option κ) (memoryKey : String) (row : Row) :
    memoryArguments ctx key memoryKey row =
      (memoryDefaults ctx key memoryKey (row "value_json")).map fun d =>
        ((row "created_at").coalesce (row "updated_at"), (row "value_sha256").coalesce d.1,
          (row "size_bytes").coalesce d.2) := by
  rw [memoryArguments, memoryDefaults]
  cases decode ctx key (row "value_json") (aadFor "agent_memory" memoryKey "value_json") with
  | error err => rfl
  | ok text => rfl

variable {ctx}

/-- A dispatch row that was filled stays as it is. -/
theorem fill_dispatch_again {key : Option κ} {id : String} {row row' : Row}
    (h : fill (dispatchArguments ctx key) updateDispatch id row = .ok row') :
    fill (dispatchArguments ctx key) updateDispatch id row' = .ok row' := by
  rw [fill, dispatchArguments_eq] at h ⊢
  cases hd : dispatchDefaults ctx key id (row "payload_json") with
  | error err =>
    rw [hd] at h
    cases h
  | ok d =>
    rw [hd] at h
    obtain rfl := Except.ok.inj h
    dsimp only
    generalize hargs : ((row "payload_sha256").coalesce d.1, (row "reply_url").coalesce d.2) = args
    have hpayload : updateDispatch args row "payload_json" = row "payload_json" :=
      Row.coalesce_of_none rfl
    have hreceived : updateDispatch args row "received_at" = row "received_at" :=
      Row.coalesce_of_none rfl
    have hsha : updateDispatch args row "payload_sha256" =
        (row "payload_sha256").coalesce args.1 := rfl
    have hurl : updateDispatch args row "reply_url" = (row "reply_url").coalesce args.2 := rfl
    rw [hpayload, hd, Except.map, Except.map, hsha, hurl, ← hargs]
    simp only [Cell.coalesce_left, Cell.coalesce_coalesce]
    rw [hargs, updateDispatch, hreceived]
    exact congrArg Except.ok (Row.coalesce_again row _)

/-- A memory row that was filled stays as it is. -/
theorem fill_memory_again {key : Option κ} {id : String} {row row' : Row}
    (h : fill (memoryArguments ctx key) updateMemory id row = .ok row') :
    fill (memoryArguments ctx key) updateMemory id row' = .ok row' := by
  rw [fill, memoryArguments_eq] at h ⊢
  cases hd : memoryDefaults ctx key id (row "value_json") with
  | error err =>
    rw [hd] at h
    cases h
  | ok d =>
    rw [hd] at h
    obtain rfl := Except.ok.inj h
    dsimp only
    generalize hargs : ((row "created_at").coalesce (row "updated_at"),
      (row "value_sha256").coalesce d.1, (row "size_bytes").coalesce d.2) = args
    have hvalue : updateMemory args row "value_json" = row "value_json" :=
      Row.coalesce_of_none rfl
    have hupdated : updateMemory args row "updated_at" = row "updated_at" :=
      Row.coalesce_of_none rfl
    have hcreated : updateMemory args row "created_at" = (row "created_at").coalesce args.1 := rfl
    have hsha : updateMemory args row "value_sha256" = (row "value_sha256").coalesce args.2.1 := rfl
    have hsize : updateMemory args row "size_bytes" = (row "size_bytes").coalesce args.2.2 := rfl
    rw [hvalue, hd, Except.map, Except.map, hcreated, hsha, hsize, hupdated, ← hargs]
    simp only [Cell.coalesce_left, Cell.coalesce_coalesce]
    exact congrArg Except.ok (Row.coalesce_again row _)

/-- What holds of each kind of step holds of all. -/
theorem unstampedSteps_forall {P : Step → Prop} {salt : String} {requestIds memoryKeys : List String}
    (hmeta : P .createMeta) (hsalt : P (.insertMeta "encryption_salt" salt))
    (hchange : ∀ c : Sql.Change, (∀ table id f, c ≠ .rewrite table id f) → P (.change c))
    (hdispatch : ∀ id, P (.change (.rewrite "agent_dispatches" id
      (fill (dispatchArguments ctx (keyWith ctx salt)) updateDispatch id))))
    (hmemory : ∀ id, P (.change (.rewrite "agent_memory" id
      (fill (memoryArguments ctx (keyWith ctx salt)) updateMemory id)))) :
    ∀ u ∈ unstampedSteps ctx salt requestIds memoryKeys, P u := by
  intro u hu
  rcases List.mem_append.mp hu with hu | hu
  · rcases List.mem_cons.mp hu with rfl | hu
    · exact hmeta
    · rcases List.mem_append.mp hu with hu | hu
      · rw [saltSteps] at hu
        split at hu
        next =>
          obtain rfl := List.mem_singleton.mp hu
          exact hsalt
        next => exact absurd hu List.not_mem_nil
      · obtain ⟨c, hc, rfl⟩ := List.mem_map.mp hu
        refine hchange c ?_
        intro table id f heq
        obtain rfl := heq
        rcases List.mem_append.mp hc with hc | hc
        · obtain ⟨t, -, ht⟩ := List.mem_map.mp hc
          cases ht
        · obtain ⟨t, -, ht⟩ := List.mem_map.mp hc
          cases ht
  · rcases List.mem_append.mp hu with hu | hu
    · obtain ⟨c, hc, rfl⟩ := List.mem_map.mp hu
      have hresolve : ∀ {table columns columns'}, c ∈ [Sql.Change.resolve table columns,
          .resolve table columns'] → P (.change c) := by
        intro table columns columns' hc
        refine hchange c ?_
        intro table' id f heq
        obtain rfl := heq
        simp at hc
      rcases List.mem_append.mp hc with hc | hc
      · exact hresolve hc
      · rcases List.mem_append.mp hc with hc | hc
        · obtain ⟨id, -, rfl⟩ := List.mem_map.mp hc
          exact hdispatch id
        · rcases List.mem_append.mp hc with hc | hc
          · exact hresolve hc
          · obtain ⟨id, -, rfl⟩ := List.mem_map.mp hc
            exact hmemory id
    · obtain ⟨c, hc, rfl⟩ := List.mem_map.mp hu
      refine hchange c ?_
      intro table id f heq
      obtain rfl := heq
      obtain ⟨t, -, ht⟩ := List.mem_map.mp hc
      cases ht

theorem migrationSteps_forall {P : Step → Prop} {salt : String} {requestIds memoryKeys : List String}
    (hunstamped : ∀ u ∈ unstampedSteps ctx salt requestIds memoryKeys, P u)
    (hversion : P (.upsertMeta "schema_version" schemaVersion))
    (hagent : P (.upsertMeta "agent_id" ctx.agentId)) :
    ∀ u ∈ migrationSteps ctx salt requestIds memoryKeys, P u := by
  intro u hu
  rcases List.mem_append.mp hu with hu | hu
  · rcases List.mem_append.mp hu with hu | hu
    · exact hunstamped u hu
    · obtain rfl := List.mem_singleton.mp hu
      exact hversion
  · obtain rfl := List.mem_singleton.mp hu
    exact hagent

/-- Steps that any step leaves done. -/
theorem pairwise_free {us vs : List Step} (hus : ∀ u ∈ us, ∀ v : Step, v.Leaves u)
    (hvs : vs.Pairwise fun u v => v.Leaves u) : (us ++ vs).Pairwise fun u v => v.Leaves u := by
  induction us with
  | nil => exact hvs
  | cons u us ih =>
    refine List.pairwise_cons.mpr ⟨fun v _ => hus u (List.mem_cons_self ..) v, ?_⟩
    exact ih fun u' hu' => hus u' (List.mem_cons_of_mem _ hu')

/-- The rows of one table are filled one by one. -/
theorem pairwise_fills {α : Type} {table : String} {arguments : String → Row → Except String α}
    {update : α → Row → Row} {ids : List String} {vs : List Step} (hids : ids.Nodup)
    (hvs : vs.Pairwise fun u v => v.Leaves u)
    (hother : ∀ d, Step.change d ∈ vs → ∀ id, ¬ d.Touches table id) :
    ((fills table arguments update ids).map Step.change ++ vs).Pairwise fun u v => v.Leaves u := by
  induction ids with
  | nil => exact hvs
  | cons id ids ih =>
    obtain ⟨hid, hids⟩ := List.nodup_cons.mp hids
    refine List.pairwise_cons.mpr ⟨?_, ih hids⟩
    intro v hv d hd
    subst hd
    rcases List.mem_append.mp hv with hv | hv
    · obtain ⟨c, hc, hd⟩ := List.mem_map.mp hv
      obtain rfl := Step.change.inj hd
      obtain ⟨id', hid', rfl⟩ := List.mem_map.mp hc
      intro hgiven
      obtain ⟨-, rfl⟩ := hgiven
      exact hid hid'
    · exact hother d hv id

theorem leaves_change {c : Sql.Change} (hc : ∀ table id f, c ≠ .rewrite table id f) (v : Step) :
    v.Leaves (.change c) := by
  intro d _
  cases c with
  | rewrite table id f => exact absurd rfl (hc table id f)
  | createTable name columns constraints => trivial
  | resolve name columns => trivial
  | ensureColumn name column => trivial
  | createIndex name index => trivial

theorem leaves_of_mem {cs : List Sql.Change} (hcs : ∀ c ∈ cs, ∀ table id f, c ≠ .rewrite table id f) :
    ∀ u ∈ cs.map Step.change, ∀ v : Step, v.Leaves u := by
  intro u hu v
  obtain ⟨c, hc, rfl⟩ := List.mem_map.mp hu
  exact leaves_change (hcs c hc) v

omit [DecidableEq κ] in
theorem schemaSteps_leaves (salt : String) : ∀ u ∈ schemaSteps ctx salt, ∀ v : Step, v.Leaves u := by
  intro u hu
  rcases List.mem_cons.mp hu with rfl | hu
  · intro v
    trivial
  · rcases List.mem_append.mp hu with hu | hu
    · rw [saltSteps] at hu
      split at hu
      next =>
        obtain rfl := List.mem_singleton.mp hu
        intro v
        trivial
      next => exact absurd hu List.not_mem_nil
    · refine leaves_of_mem ?_ u hu
      intro c hc table id f heq
      obtain rfl := heq
      rcases List.mem_append.mp hc with hc | hc
      · obtain ⟨t, -, ht⟩ := List.mem_map.mp hc
        cases ht
      · obtain ⟨t, -, ht⟩ := List.mem_map.mp hc
        cases ht

theorem indexChanges_eq {c : Sql.Change} (hc : c ∈ indexChanges) :
    ∃ name index, c = .createIndex name index := by
  obtain ⟨i, -, rfl⟩ := List.mem_map.mp hc
  exact ⟨i.1, i.2, rfl⟩

theorem migrationSteps_pairwise (salt : String) {requestIds memoryKeys : List String}
    (hids : requestIds.Nodup) (hkeys : memoryKeys.Nodup) :
    (migrationSteps ctx salt requestIds memoryKeys).Pairwise fun u v => v.Leaves u := by
  have hstamps : [Step.upsertMeta "schema_version" schemaVersion,
      .upsertMeta "agent_id" ctx.agentId].Pairwise fun u v => v.Leaves u := by
    refine List.pairwise_cons.mpr ⟨?_, List.pairwise_singleton ..⟩
    intro v hv key value h
    obtain rfl := List.mem_singleton.mp hv
    obtain ⟨rfl, rfl⟩ := Step.upsertMeta.inj h
    decide
  have hindexes : (indexChanges.map Step.change ++ [Step.upsertMeta "schema_version" schemaVersion,
      .upsertMeta "agent_id" ctx.agentId]).Pairwise fun u v => v.Leaves u := by
    refine pairwise_free (leaves_of_mem ?_) hstamps
    intro c hc table id f heq
    obtain rfl := heq
    obtain ⟨name, index, h⟩ := indexChanges_eq hc
    cases h
  have htail : ∀ d, Step.change d ∈ indexChanges.map Step.change ++
      [Step.upsertMeta "schema_version" schemaVersion, .upsertMeta "agent_id" ctx.agentId] →
      ∀ table id, ¬ d.Touches table id := by
    intro d hd table id
    rcases List.mem_append.mp hd with hd | hd
    · obtain ⟨c, hc, h⟩ := List.mem_map.mp hd
      obtain rfl := Step.change.inj h
      obtain ⟨name, index, rfl⟩ := indexChanges_eq hc
      exact fun h => h
    · simp at hd
  have hmemory := @pairwise_fills _ _ (memoryArguments ctx (keyWith ctx salt)) updateMemory _ _ hkeys
    hindexes (fun d hd => htail d hd "agent_memory")
  have hresolve : ∀ columns columns' table, ∀ u ∈ [Sql.Change.resolve table columns,
      .resolve table columns'].map Step.change, ∀ v : Step, v.Leaves u := by
    intro columns columns' table
    refine leaves_of_mem ?_
    intro c hc table' id f heq
    obtain rfl := heq
    simp at hc
  have hmemory := pairwise_free (hresolve memorySelect memoryUpdate "agent_memory") hmemory
  have hdispatch := @pairwise_fills _ _ (dispatchArguments ctx (keyWith ctx salt)) updateDispatch _ _
    hids hmemory (by
      intro d hd id
      rcases List.mem_append.mp hd with hd | hd
      · obtain ⟨c, hc, h⟩ := List.mem_map.mp hd
        obtain rfl := Step.change.inj h
        simp only [List.mem_cons, List.not_mem_nil, or_false] at hc
        rcases hc with rfl | rfl
        · exact fun h => h
        · exact fun h => h
      · rcases List.mem_append.mp hd with hd | hd
        · obtain ⟨c, hc, h⟩ := List.mem_map.mp hd
          obtain rfl := Step.change.inj h
          obtain ⟨id', -, rfl⟩ := List.mem_map.mp hc
          intro hgiven
          obtain ⟨h, -⟩ := hgiven
          exact absurd (show "agent_memory" = "agent_dispatches" from h) (by decide)
        · exact htail d hd "agent_dispatches" id)
  have hall := pairwise_free (@schemaSteps_leaves κ ctx salt)
    (pairwise_free (hresolve dispatchSelect dispatchUpdate "agent_dispatches") hdispatch)
  rw [migrationSteps, versionSteps, unstampedSteps, backfillChanges]
  simpa only [List.map_append, List.append_assoc, List.singleton_append] using hall

/-- A migration can be stopped after any of its steps. -/
theorem resumable_steps (salt : String) {requestIds memoryKeys : List String}
    (hids : requestIds.Nodup) (hkeys : memoryKeys.Nodup) :
    Sql.Resumable ((migrationSteps ctx salt requestIds memoryKeys).map Step.run) := by
  constructor
  · intro u hu file file' h
    obtain ⟨v, hv, rfl⟩ := List.mem_map.mp hu
    refine Step.made ?_ h
    refine migrationSteps_forall (P := fun v => ∀ c, v = .change c → c.Idempotent)
      (unstampedSteps_forall ?_ ?_ ?_ ?_ ?_) ?_ ?_ v hv
    · intro c hc
      cases hc
    · intro c hc
      cases hc
    · intro c hc d hd
      obtain rfl := Step.change.inj hd
      cases c with
      | rewrite table id f => exact absurd rfl (hc table id f)
      | createTable name columns constraints => trivial
      | resolve name columns => trivial
      | ensureColumn name column => trivial
      | createIndex name index => trivial
    · intro id d hd
      obtain rfl := Step.change.inj hd
      exact fun row row' => fill_dispatch_again
    · intro id d hd
      obtain rfl := Step.change.inj hd
      exact fun row row' => fill_memory_again
    · intro c hc
      cases hc
    · intro c hc
      cases hc
  · rw [List.pairwise_map]
    exact (migrationSteps_pairwise salt hids hkeys).imp fun h => Step.stays h

/-! ## What a migration leaves -/

/-- The columns that are filled. -/
def backfilled (table : String) : List String :=
  if table = "agent_dispatches" then
    ["payload_sha256", "reply_url", "duplicate_count", "last_seen_at", "runtime_attempts"]
  else if table = "agent_memory" then
    ["kind", "created_at", "access_count", "value_sha256", "size_bytes"]
  else []

theorem fill_fills {α : Type} {table : String} {arguments : String → Row → Except String α}
    {update : α → Row → Row} (id : String)
    (hupdate : ∀ args row, ∃ sets, update args row = Row.coalesce row sets ∧
      sets.map Prod.fst = backfilled table) :
    (Sql.Change.rewrite table id (fill arguments update id)).Fills backfilled := by
  intro row row' h c hc
  rw [fill] at h
  cases hargs : arguments id row with
  | error err =>
    rw [hargs] at h
    cases h
  | ok args =>
    rw [hargs] at h
    obtain rfl := Except.ok.inj h
    obtain ⟨sets, hsets, hcolumns⟩ := hupdate args row
    dsimp only
    rw [hsets]
    refine Row.coalesce_eq ?_
    rcases hc with hc | hc
    · exact Or.inl hc
    · rw [← hcolumns] at hc
      exact Or.inr (Js.getEntry_eq_none_iff.mpr hc)

/-- The steps of a migration fill, and do nothing else with values that are there. -/
theorem migrationSteps_fill {salt : String} {requestIds memoryKeys : List String} :
    ∀ v ∈ migrationSteps ctx salt requestIds memoryKeys, ∀ c, v = .change c → c.Fills backfilled := by
  refine migrationSteps_forall (unstampedSteps_forall ?_ ?_ ?_ ?_ ?_) ?_ ?_
  · intro c hc
    cases hc
  · intro c hc
    cases hc
  · intro c hc d hd
    obtain rfl := Step.change.inj hd
    cases c with
    | rewrite table id f => exact absurd rfl (hc table id f)
    | createTable name columns constraints => trivial
    | resolve name columns => trivial
    | ensureColumn name column => trivial
    | createIndex name index => trivial
  · intro id d hd
    obtain rfl := Step.change.inj hd
    exact fill_fills id fun args row => ⟨_, rfl, rfl⟩
  · intro id d hd
    obtain rfl := Step.change.inj hd
    exact fill_fills id fun args row => ⟨_, rfl, rfl⟩
  · intro c hc
    cases hc
  · intro c hc
    cases hc

theorem kept_steps {salt : String} {requestIds memoryKeys : List String} {k : Nat}
    {file file' : HubFile}
    (h : steps (((migrationSteps ctx salt requestIds memoryKeys).map Step.run).take k) file =
      .ok file') : Sql.Kept backfilled file.tables file'.tables := by
  refine @Sql.steps_induct HubFile (fun s s' => Sql.Kept backfilled s.tables s'.tables)
    (fun s => .refl _) (fun h₁ h₂ => Sql.Kept.trans h₁ h₂) _ ?_ _ _ h
  intro u hu s s' hs
  obtain ⟨v, hv, rfl⟩ := List.mem_map.mp (List.take_subset k _ hu)
  rcases step_tables hs with hsame | ⟨c, rfl, hc⟩
  · rw [hsame]
    exact .refl _
  · exact Sql.Change.run_kept (migrationSteps_fill _ hv c rfl) hc

/-- A value of `agent_hub_meta`. -/
def metaOf (key : String) (file : HubFile) : Option String :=
  (file.agentHubMeta.bind fun rows => rows.get? key).map MetaRow.value

theorem metaOf_of_some {key : String} {file : HubFile} {rows : OrderedMap String MetaRow}
    (h : file.agentHubMeta = some rows) : metaOf key file = (rows.get? key).map MetaRow.value := by
  rw [metaOf, h]
  rfl

/-- What a step makes of the values of `agent_hub_meta`. -/
theorem step_metaOf {v : Step} {file file' : HubFile} (h : v.run file = .ok file') (key : String) :
    metaOf key file' = metaOf key file ∨
      (metaOf key file = none ∧ ∃ value, v = .insertMeta key value ∧ metaOf key file' = some value) ∨
        ∃ value, v = .upsertMeta key value ∧ metaOf key file' = some value := by
  cases v with
  | createMeta =>
    obtain rfl := Except.ok.inj h
    refine Or.inl ?_
    rw [metaOf, metaOf, createMeta]
    cases file.agentHubMeta with
    | none => rfl
    | some rows => rfl
  | insertMeta key' value =>
    rw [Step.run, insertMeta] at h
    cases hrows : file.agentHubMeta with
    | none =>
      rw [hrows] at h
      cases h
    | some rows =>
      rw [hrows] at h
      obtain rfl := Except.ok.inj h
      rw [metaOf_of_some rfl, metaOf_of_some hrows]
      split
      next => exact Or.inl rfl
      next hnew =>
        rw [OrderedMap.get?_set]
        by_cases hkey : key = key'
        · subst hkey
          rw [if_pos rfl]
          rw [OrderedMap.has, Bool.not_eq_true, Option.isSome_eq_false_iff,
            Option.isNone_iff_eq_none] at hnew
          rw [hnew]
          exact Or.inr (Or.inl ⟨rfl, value, rfl, rfl⟩)
        · rw [if_neg hkey]
          exact Or.inl rfl
  | upsertMeta key' value =>
    rw [Step.run, upsertMeta] at h
    cases hrows : file.agentHubMeta with
    | none =>
      rw [hrows] at h
      cases h
    | some rows =>
      rw [hrows] at h
      obtain rfl := Except.ok.inj h
      rw [metaOf_of_some rfl, metaOf_of_some hrows, OrderedMap.get?_set]
      by_cases hkey : key = key'
      · subst hkey
        rw [if_pos rfl]
        exact Or.inr (Or.inr ⟨value, rfl, rfl⟩)
      · rw [if_neg hkey]
        exact Or.inl rfl
  | change c =>
    obtain ⟨t, -, rfl⟩ := onTables_ok h
    exact Or.inl rfl

end

end Kovael.Hub.Migration
