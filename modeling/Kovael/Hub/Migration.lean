import Kovael.Hub.Crypto
import Kovael.Sql.Tables

/-!
# The migration of a hub file

`runMigrations` of `src/services/AgentHubSchema.ts` as the program of statements it
executes, with `initializeEncryptionKey` of the store. It is no transaction: a process
that stops leaves what was done so far, and the next one starts from there.

Mirroring notes vs the TS:
- `agent_hub_meta` is apart from the other tables: it has the same columns in every
  version of a hub file.
- A row is under its primary key, which is not null. `payload_json` and `value_json` are
  texts: their columns are `TEXT NOT NULL`.
- No statement here can break a constraint: an UPDATE only fills, and what it fills a
  `NOT NULL` column with is not null; so the constraints are text.
- The messages of SQLite are its own; `deriveEncryptionKey` is a parameter.

`Kovael.Hub.Resumed` proves that a run after stopped ones ends as if they had not been.
-/

namespace Kovael.Hub

open Js (OrderedMap)
open Crypto
open Sql (Prog sql Cell Column Row Table Tables Index)

/-- A row of `agent_hub_meta`, under its `key`. -/
structure MetaRow where
  value : String
  updatedAt : Int
  deriving DecidableEq, Repr

/-- A hub file, of any version. -/
structure HubFile where
  agentHubMeta : Option (OrderedMap String MetaRow)
  tables : Tables

namespace Migration

/-- `SCHEMA_VERSION`. -/
def schemaVersion : String := "2"

structure MigrationContext (κ : Type) where
  agentId : String
  encryptionSecret : Option String
  deriveEncryptionKey : String → String → κ
  gcm : Gcm κ
  number : String → String
  calls : List (Crypto.Call κ)
  sha256 : String → String

/-- What one run reads from outside: the random salt, and the times of its rows in
`agent_hub_meta`. -/
structure Readings where
  salt : String
  saltAt : Int
  stamp : Int

/-! ## Tables -/

def column (name definition : String) : Column := ⟨name, definition, .null⟩

def counter (name : String) : Column := ⟨name, "INTEGER NOT NULL DEFAULT 0", .integer 0⟩

def agentDispatches : List Column := [
  column "request_id" "TEXT PRIMARY KEY",
  column "topic_id" "TEXT NOT NULL",
  column "agent_id" "TEXT NOT NULL",
  column "status"
    "TEXT NOT NULL CHECK(status IN ('accepted', 'running', 'succeeded', 'failed'))",
  column "received_at" "INTEGER NOT NULL",
  column "started_at" "INTEGER",
  column "completed_at" "INTEGER",
  column "payload_json" "TEXT NOT NULL",
  column "payload_sha256" "TEXT NOT NULL",
  column "reply_url" "TEXT",
  column "reply_content" "TEXT",
  column "error" "TEXT",
  counter "duplicate_count",
  column "last_seen_at" "INTEGER",
  counter "runtime_attempts",
  column "last_runtime_started_at" "INTEGER",
  column "replay_after" "INTEGER"]

def agentMemory : List Column := [
  column "key" "TEXT PRIMARY KEY",
  column "value_json" "TEXT NOT NULL",
  column "updated_at" "INTEGER NOT NULL",
  ⟨"kind", "TEXT NOT NULL DEFAULT 'memory' CHECK(kind IN ('memory', 'cache'))", .text "memory"⟩,
  column "created_at" "INTEGER",
  column "expires_at" "INTEGER",
  column "last_accessed_at" "INTEGER",
  counter "access_count",
  column "value_sha256" "TEXT",
  column "size_bytes" "INTEGER"]

def agentOutbox : List Column := [
  column "id" "TEXT PRIMARY KEY",
  column "request_id" "TEXT NOT NULL",
  column "kind" "TEXT NOT NULL CHECK(kind IN ('reply', 'receipt'))",
  column "dedupe_key" "TEXT NOT NULL UNIQUE",
  column "target_url" "TEXT NOT NULL",
  column "payload_body" "TEXT NOT NULL",
  column "payload_sha256" "TEXT NOT NULL",
  column "status"
    "TEXT NOT NULL CHECK(status IN ('pending', 'sending', 'sent', 'failed', 'dead'))",
  counter "attempts",
  column "next_attempt_at" "INTEGER",
  column "last_error" "TEXT",
  column "created_at" "INTEGER NOT NULL",
  column "updated_at" "INTEGER NOT NULL",
  column "sent_at" "INTEGER"]

def agentReceipts : List Column := [
  column "id" "TEXT PRIMARY KEY",
  column "request_id" "TEXT",
  column "kind" "TEXT NOT NULL",
  column "payload_body" "TEXT NOT NULL",
  column "prev_hash" "TEXT",
  column "receipt_hash" "TEXT NOT NULL",
  column "created_at" "INTEGER NOT NULL"]

/-- The tables that are created, with their columns and constraints. -/
def tables : List (String × List Column × List String) := [
  ("agent_dispatches", agentDispatches, []),
  ("agent_memory", agentMemory, []),
  ("agent_outbox", agentOutbox,
    ["FOREIGN KEY(request_id) REFERENCES agent_dispatches(request_id) ON DELETE CASCADE"]),
  ("agent_receipts", agentReceipts,
    ["FOREIGN KEY(request_id) REFERENCES agent_dispatches(request_id) ON DELETE SET NULL"])]

/-- The columns that a hub file of version 1 has not. -/
def addedColumns : List (String × Column) := [
  ("agent_dispatches", column "payload_sha256" "TEXT"),
  ("agent_dispatches", column "reply_url" "TEXT"),
  ("agent_dispatches", counter "duplicate_count"),
  ("agent_dispatches", column "last_seen_at" "INTEGER"),
  ("agent_dispatches", counter "runtime_attempts"),
  ("agent_dispatches", column "last_runtime_started_at" "INTEGER"),
  ("agent_dispatches", column "replay_after" "INTEGER"),
  ("agent_memory", ⟨"kind", "TEXT NOT NULL DEFAULT 'memory'", .text "memory"⟩),
  ("agent_memory", column "created_at" "INTEGER"),
  ("agent_memory", column "expires_at" "INTEGER"),
  ("agent_memory", column "last_accessed_at" "INTEGER"),
  ("agent_memory", counter "access_count"),
  ("agent_memory", column "value_sha256" "TEXT"),
  ("agent_memory", column "size_bytes" "INTEGER")]

def indexes : List (String × Index) := [
  ("idx_agent_dispatches_status", ⟨"agent_dispatches", ["status", "received_at"]⟩),
  ("idx_agent_dispatches_replay", ⟨"agent_dispatches", ["status", "replay_after"]⟩),
  ("idx_agent_outbox_status", ⟨"agent_outbox", ["status", "next_attempt_at"]⟩),
  ("idx_agent_memory_expiry", ⟨"agent_memory", ["kind", "expires_at"]⟩),
  ("idx_agent_receipts_request", ⟨"agent_receipts", ["request_id", "created_at"]⟩)]

/-! ## Statements -/

def noMeta : String := "no such table: agent_hub_meta"

/-- `CREATE TABLE IF NOT EXISTS agent_hub_meta`. -/
def createMeta (file : HubFile) : HubFile :=
  { file with agentHubMeta := some (file.agentHubMeta.getD .empty) }

/-- `metaValue(db, key)`. -/
def metaValue (key : String) (file : HubFile) : Except String (HubFile × Option String) :=
  match file.agentHubMeta with
  | none => .error noMeta
  | some rows => .ok (file, (rows.get? key).map MetaRow.value)

/-- `INSERT INTO agent_hub_meta … ON CONFLICT(key) DO NOTHING`. -/
def insertMeta (key value : String) (updatedAt : Int) (file : HubFile) : Except String HubFile :=
  match file.agentHubMeta with
  | none => .error noMeta
  | some rows => .ok { file with
      agentHubMeta := some (if rows.has key then rows else rows.set key ⟨value, updatedAt⟩) }

/-- `INSERT INTO agent_hub_meta … ON CONFLICT(key) DO UPDATE`. -/
def upsertMeta (key value : String) (updatedAt : Int) (file : HubFile) : Except String HubFile :=
  match file.agentHubMeta with
  | none => .error noMeta
  | some rows => .ok { file with agentHubMeta := some (rows.set key ⟨value, updatedAt⟩) }

/-- A statement on the other tables. -/
def onTables (f : Tables → Except String Tables) (file : HubFile) : Except String HubFile :=
  (f file.tables).map fun t => { file with tables := t }

/-- A statement that returns nothing. -/
def write (f : HubFile → Except String HubFile) : Prog HubFile Unit :=
  sql fun file => (f file).map fun file => (file, ())

/-- A SELECT of all rows. -/
def selectRows (name : String) (columns : List String) (file : HubFile) :
    Except String (HubFile × List (String × Row)) :=
  (file.tables.resolve name columns).map fun t => (file, t.rows.entries)

/-- The columns of a statement, when it is prepared. -/
def prepare (name : String) (columns : List String) : Prog HubFile Unit :=
  write (onTables (Sql.Change.resolve name columns).run)

/-! ## The program -/

/-- `columnExists` and `ALTER TABLE`. -/
def ensureColumn (table : String) (column : Column) : Prog HubFile Unit := do
  let names ← sql fun file => .ok (file, file.tables.tableInfo table)
  if column.name ∈ names then pure () else write (onTables (Tables.addColumn table column))

def ensureColumns : List (String × Column) → Prog HubFile Unit
  | [] => pure ()
  | (table, column) :: columns => do
    ensureColumn table column
    ensureColumns columns

/-- Statements of one `exec`. -/
def each : List (Tables → Except String Tables) → Prog HubFile Unit
  | [] => pure ()
  | f :: fs => do
    write (onTables f)
    each fs

section

variable {κ : Type} (ctx : MigrationContext κ) (r : Readings)

/-- `createEncryptionSalt()`. -/
def createEncryptionSalt : Prog HubFile String := do
  write (insertMeta "encryption_salt" r.salt r.saltAt)
  let stored ← sql (metaValue "encryption_salt")
  pure (stored.getD r.salt)

/-- The salt that is there, or a new one. -/
def encryptionSalt : Prog HubFile String := do
  let stored ← sql (metaValue "encryption_salt")
  match stored with
  | some salt => pure salt
  | none => createEncryptionSalt r

/-- The key for a salt, if the hub has a secret. -/
def keyWith (salt : String) : Option κ :=
  match ctx.encryptionSecret with
  | none => none
  | some secret => if secret = "" then none else some (ctx.deriveEncryptionKey secret salt)

/-- The secret of the hub is not empty. -/
def hasSecret : Bool :=
  match ctx.encryptionSecret with
  | none => false
  | some secret => secret ≠ ""

/-- `initializeEncryptionKey()`. -/
def initializeEncryptionKey : Prog HubFile (Option κ) :=
  if hasSecret ctx then do
    let salt ← encryptionSalt r
    pure (keyWith ctx salt)
  else pure none

variable [DecidableEq κ]

/-- `decode(value, aad)`. -/
def decode (key : Option κ) (value : Cell) (aad : String) : Except String String :=
  match value with
  | .text value => openSensitive ctx.gcm ctx.number ctx.calls key value aad
  | _ => .error "not a text"

/-- `safeJsonObject(raw)`. -/
def safeJsonObject (raw : String) : Js.Json :=
  match Js.Json.parse ctx.number raw with
  | some (.object fields) => .object fields
  | _ => .object []

def Cell.ofOption : Option String → Cell
  | some s => .text s
  | none => .null

/-- What the UPDATE of a dispatch row is given. -/
def dispatchArguments (key : Option κ) (requestId : String) (row : Row) :
    Except String (Cell × Cell) := do
  let payloadJson ← decode ctx key (row "payload_json")
    (aadFor "agent_dispatches" requestId "payload_json")
  let payload := safeJsonObject ctx payloadJson
  .ok ((row "payload_sha256").coalesce (.text (ctx.sha256 (stableStringify payload))),
    (row "reply_url").coalesce (Cell.ofOption (stringOrNull (payload.stringField? "replyUrl"))))

/-- The UPDATE of a dispatch row. -/
def updateDispatch (arguments : Cell × Cell) (row : Row) : Row :=
  row.coalesce [
    ("payload_sha256", arguments.1),
    ("reply_url", arguments.2),
    ("duplicate_count", .integer 0),
    ("last_seen_at", row "received_at"),
    ("runtime_attempts", .integer 0)]

/-- What the UPDATE of a memory row is given. -/
def memoryArguments (key : Option κ) (memoryKey : String) (row : Row) :
    Except String (Cell × Cell × Cell) := do
  let valueJson ← decode ctx key (row "value_json") (aadFor "agent_memory" memoryKey "value_json")
  .ok ((row "created_at").coalesce (row "updated_at"),
    (row "value_sha256").coalesce (.text (ctx.sha256 valueJson)),
    (row "size_bytes").coalesce (.integer (Js.Utf8.encode valueJson).length))

/-- The UPDATE of a memory row. -/
def updateMemory (arguments : Cell × Cell × Cell) (row : Row) : Row :=
  row.coalesce [
    ("kind", .text "memory"),
    ("created_at", arguments.1),
    ("access_count", .integer 0),
    ("value_sha256", arguments.2.1),
    ("size_bytes", arguments.2.2)]

/-- A loop over the rows that were read: each row gives the arguments of its UPDATE. -/
def backfillRows {α : Type} (table : String) (arguments : String → Row → Except String α)
    (update : α → Row → Row) : List (String × Row) → Prog HubFile Unit
  | [] => pure ()
  | (id, row) :: rows => do
    let args ← Prog.done (arguments id row)
    write (onTables (Tables.rewrite table id fun row => .ok (update args row)))
    backfillRows table arguments update rows

/-- The columns of the SELECT of dispatch rows, of their UPDATE, and those of memory rows. -/
def dispatchSelect : List String :=
  ["request_id", "payload_json", "payload_sha256", "reply_url", "last_seen_at"]

def dispatchUpdate : List String :=
  ["payload_sha256", "reply_url", "duplicate_count", "last_seen_at", "received_at",
    "runtime_attempts", "request_id"]

def memorySelect : List String :=
  ["key", "value_json", "updated_at", "created_at", "value_sha256", "size_bytes"]

def memoryUpdate : List String :=
  ["kind", "created_at", "access_count", "value_sha256", "size_bytes", "key"]

/-- `backfillV2Columns(db, ctx)`. -/
def backfillV2Columns (key : Option κ) : Prog HubFile Unit := do
  let dispatchRows ← sql (selectRows "agent_dispatches" dispatchSelect)
  prepare "agent_dispatches" dispatchUpdate
  backfillRows "agent_dispatches" (dispatchArguments ctx key) updateDispatch dispatchRows
  let memoryRows ← sql (selectRows "agent_memory" memorySelect)
  prepare "agent_memory" memoryUpdate
  backfillRows "agent_memory" (memoryArguments ctx key) updateMemory memoryRows

/-- Only hub files that are not current are backfilled. -/
def backfillOlder (priorSchemaVersion : Option String) (key : Option κ) : Prog HubFile Unit :=
  if priorSchemaVersion = some schemaVersion then pure () else backfillV2Columns ctx key

/-- `runMigrations(db, ctx)`. -/
def runMigrations : Prog HubFile Unit := do
  write fun file => .ok (createMeta file)
  let priorSchemaVersion ← sql (metaValue "schema_version")
  let key ← initializeEncryptionKey ctx r
  each (tables.map fun t => fun s => .ok (s.createTable t.1 t.2.1 t.2.2))
  ensureColumns addedColumns
  backfillOlder ctx priorSchemaVersion key
  each (indexes.map fun i => Tables.createIndex i.1 i.2)
  write (upsertMeta "schema_version" schemaVersion r.stamp)
  write (upsertMeta "agent_id" ctx.agentId r.stamp)

end

end Migration

end Kovael.Hub
