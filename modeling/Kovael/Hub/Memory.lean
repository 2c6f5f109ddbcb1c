import Kovael.Hub.Crypto
import Kovael.Js.OrderedMap
import Kovael.Lts

/-!
# Memory and cache

The memory and the cache of `src/services/AgentHubStore.ts`, two kinds of row in the one table
`agent_memory`, whose primary key is the key alone.

Mirroring notes:
- A row is kept as it is at rest: `value_json` is the text that `encodeSensitive` returned.
- The clock reads whole milliseconds and does not step back; an operation that reads it
  more than once sees it go on in between.
- SQLite binds `NaN` as `NULL`, keeps a whole double in an `INTEGER` column as an integer, and
  `node:sqlite` throws when it reads an integer that is no safe one.
-/

namespace Kovael.Hub

open Js (Number OrderedMap Json)
open Js.Json (Held Prints Same)
open Crypto (Call Gcm)

/-! ## The table -/

inductive AgentMemoryKind where
  | memory
  | cache
  deriving DecidableEq, Repr

/-- A row of `agent_memory`, under its `key`. -/
structure MemoryRow where
  valueJson : String
  updatedAt : Int
  kind : AgentMemoryKind
  createdAt : Int
  expiresAt : Option Number
  lastAccessedAt : Option Int
  accessCount : Nat
  valueSha256 : String
  sizeBytes : Nat
  deriving DecidableEq, Repr

abbrev MemoryTable := OrderedMap String MemoryRow

/-- `stamp + Math.floor(ttlMs)`, as the column keeps it. -/
def expiry (stamp : Int) : Option Number → Option Number
  | none | some .nan => none
  | some (.fin ttlMs) => some (.ofInt (stamp + ⌊ttlMs⌋))
  | some ttlMs => some ttlMs

/-- `expires_at !== null && expires_at <= now`. -/
def expired (expiresAt : Option Number) (now : Int) : Bool :=
  expiresAt.any fun due => due.le (.ofInt now)

/-- An integer at rest that `node:sqlite` does not read: it is no safe integer. A double
that rounds to 2^63 is kept as a double. -/
def unreadable (expiresAt : Option Number) : Bool :=
  match expiresAt with
  | some (.fin due) => 2 ^ 53 - 1 < |due| && |due| < 2 ^ 63 - 512
  | _ => false

/-- What `node:sqlite` throws then. -/
def unsafeInteger : String := "Value is too large to be represented as a JavaScript number"

/-- `aad('agent_memory', key, 'value_json')`. -/
def memoryAad (key : String) : String := aadFor "agent_memory" key "value_json"

section

variable {κ : Type} [DecidableEq κ] (cipher : FieldCipher κ) (sha256 : String → String)

/-- `upsertMemoryValue(key, value, kind, ttlMs)`. -/
def upsertMemoryValue (stamp : Int) (iv : Iv) (key : String) (value : Json)
    (kind : AgentMemoryKind) (ttlMs : Option Number) (rows : MemoryTable) :
    Except String MemoryTable :=
  let trimmed := Js.trim key
  if trimmed = "" then .error "memory key is required"
  else
    let plain := stableStringify value
    let row : MemoryRow :=
      { valueJson := cipher.encodeSensitive iv plain (memoryAad trimmed)
        updatedAt := stamp
        kind
        createdAt := stamp
        expiresAt := expiry stamp ttlMs
        lastAccessedAt := none
        accessCount := 0
        valueSha256 := sha256 plain
        sizeBytes := (Js.Utf8.encode plain).length }
    match rows.get? trimmed with
    | none => .ok (rows.set trimmed row)
    -- ON CONFLICT(key) DO UPDATE
    | some old =>
      .ok (rows.set trimmed { row with
        createdAt := old.createdAt
        lastAccessedAt := old.lastAccessedAt
        accessCount := old.accessCount })

/-- `upsertMemory(key, value, ttlMs)`. -/
def upsertMemory (stamp : Int) (iv : Iv) (key : String) (value : Json) (ttlMs : Option Number)
    (rows : MemoryTable) : Except String MemoryTable :=
  upsertMemoryValue cipher sha256 stamp iv key value .memory ttlMs rows

/-- `upsertCache(key, value, ttlMs)`. -/
def upsertCache (stamp : Int) (iv : Iv) (key : String) (value : Json) (ttlMs : Number)
    (rows : MemoryTable) : Except String MemoryTable :=
  if !ttlMs.isFinite || ttlMs.le (.ofInt 0) then .error "ttlMs must be positive"
  else upsertMemoryValue cipher sha256 stamp iv key value .cache (some ttlMs) rows

/-- `getMemoryValue(key, kind)`: what it returns, and the table with the access counted. The
clock reads `now`, then `later`. -/
def getMemoryValue (calls : List (Call κ)) (now later : Int) (key : String)
    (kind : AgentMemoryKind) (rows : MemoryTable) : Except String Json × MemoryTable :=
  match rows.get? key with
  | none => (.ok .null, rows)
  | some row =>
    if row.kind ≠ kind then (.ok .null, rows)
    else if unreadable row.expiresAt then (.error unsafeInteger, rows)
    else if expired row.expiresAt now then (.ok .null, rows)
    else
      (cipher.readJson calls row.valueJson (memoryAad key),
        rows.set key
          { row with lastAccessedAt := some later, accessCount := row.accessCount + 1 })

/-- `getMemory(key)`. -/
def getMemory (calls : List (Call κ)) (now later : Int) (key : String) (rows : MemoryTable) :
    Except String Json × MemoryTable :=
  getMemoryValue cipher calls now later key .memory rows

/-- `getCache(key)`. -/
def getCache (calls : List (Call κ)) (now later : Int) (key : String) (rows : MemoryTable) :
    Except String Json × MemoryTable :=
  getMemoryValue cipher calls now later key .cache rows

/-- `pruneExpiredCache()`: the rows that stay, and how many were deleted. -/
def pruneExpiredCache (now : Int) (rows : MemoryTable) : MemoryTable × Nat :=
  let left := rows.filter fun _ row => !(row.kind = .cache && expired row.expiresAt now)
  (left, rows.size - left.size)

/-! ## Runs -/

/-- The table, the encryptions that were made, and the clock. -/
structure MemoryHub (κ : Type) where
  rows : MemoryTable
  calls : List (Call κ)
  now : Int

inductive MemoryEvent where
  | upsertMemory (key : String) (value : Json) (ttlMs : Option Number) (iv : Iv)
  | upsertCache (key : String) (value : Json) (ttlMs : Number) (iv : Iv)
  | getMemory (key : String) (elapsed : Nat)
  | getCache (key : String) (elapsed : Nat)
  | pruneExpiredCache
  /-- the clock goes on -/
  | advance (ms : Nat)

/-- A write that was made or thrown. -/
def MemoryHub.write (s : MemoryHub κ) (iv : Iv) (key : String) (value : Json) :
    Except String MemoryTable → MemoryHub κ
  | .error _ => s
  | .ok rows =>
    { s with
      rows
      calls := s.calls ++ cipher.calls iv (stableStringify value) (memoryAad (Js.trim key)) }

/-- One event. -/
def memoryStep (s : MemoryHub κ) : MemoryEvent → MemoryHub κ
  | .upsertMemory key value ttlMs iv =>
    s.write cipher iv key value (upsertMemory cipher sha256 s.now iv key value ttlMs s.rows)
  | .upsertCache key value ttlMs iv =>
    s.write cipher iv key value (upsertCache cipher sha256 s.now iv key value ttlMs s.rows)
  | .getMemory key elapsed =>
    { s with
      rows := (getMemory cipher s.calls s.now (s.now + elapsed) key s.rows).2
      now := s.now + elapsed }
  | .getCache key elapsed =>
    { s with
      rows := (getCache cipher s.calls s.now (s.now + elapsed) key s.rows).2
      now := s.now + elapsed }
  | .pruneExpiredCache => { s with rows := (pruneExpiredCache s.now s.rows).1 }
  | .advance ms => { s with now := s.now + ms }

/-- The runs on one table, from an empty one on. -/
def memoryRuns (start : Int) : Lts (MemoryHub κ) MemoryEvent where
  init := ⟨.empty, [], start⟩
  step s e := some (memoryStep cipher sha256 s e)

/-- What `getMemory(key)` or `getCache(key)` returns at a time. -/
def MemoryHub.returns (s : MemoryHub κ) (kind : AgentMemoryKind) (key : String) (now : Int) :
    Except String Json :=
  (getMemoryValue cipher s.calls now now key kind s.rows).1

end

/-! ## What the getters select -/

/-- The columns that `getMemoryValue` selects. -/
structure Selected where
  valueJson : String
  kind : AgentMemoryKind
  expiresAt : Option Number
  deriving DecidableEq, Repr

def MemoryRow.selected (row : MemoryRow) : Selected := ⟨row.valueJson, row.kind, row.expiresAt⟩

def selectRow (rows : MemoryTable) (key : String) : Option Selected :=
  (rows.get? key).map MemoryRow.selected

section

variable {κ : Type} [DecidableEq κ]

/-- What a getter returns of the row that it selects. -/
def readRow (cipher : FieldCipher κ) (calls : List (Call κ)) (now : Int) (key : String)
    (kind : AgentMemoryKind) : Option Selected → Except String Json
  | none => .ok .null
  | some row =>
    if row.kind ≠ kind then .ok .null
    else if unreadable row.expiresAt then .error unsafeInteger
    else if expired row.expiresAt now then .ok .null
    else cipher.readJson calls row.valueJson (memoryAad key)

variable {cipher : FieldCipher κ} {sha256 : String → String} {s s' : MemoryHub κ}

theorem getMemoryValue_fst (calls : List (Call κ)) (now later : Int) (key : String)
    (kind : AgentMemoryKind) (rows : MemoryTable) :
    (getMemoryValue cipher calls now later key kind rows).1 =
      readRow cipher calls now key kind (selectRow rows key) := by
  unfold getMemoryValue selectRow
  cases rows.get? key with
  | none => rfl
  | some row =>
    dsimp only
    show _ =
      if row.kind ≠ kind then .ok .null
      else if unreadable row.expiresAt then .error unsafeInteger
      else if expired row.expiresAt now then .ok .null
      else cipher.readJson calls row.valueJson (memoryAad key)
    split
    next => rfl
    next =>
      split
      next => rfl
      next => split <;> rfl

theorem returns_eq (s : MemoryHub κ) (kind : AgentMemoryKind) (key : String) (now : Int) :
    s.returns cipher kind key now = readRow cipher s.calls now key kind (selectRow s.rows key) :=
  getMemoryValue_fst ..

/-- A getter selects what it selected before. -/
theorem getMemoryValue_snd (calls : List (Call κ)) (now later : Int) (key : String)
    (kind : AgentMemoryKind) (rows : MemoryTable) (key' : String) :
    selectRow (getMemoryValue cipher calls now later key kind rows).2 key' =
      selectRow rows key' := by
  unfold getMemoryValue selectRow
  cases hrow : rows.get? key with
  | none => rfl
  | some row =>
    dsimp only
    split
    next => rfl
    next =>
      split
      next => rfl
      next =>
        split
        next => rfl
        next =>
          show ((rows.set key _).get? key').map _ = _
          rw [OrderedMap.get?_set]
          split
          next hkey =>
            rw [hkey, hrow]
            rfl
          next => rfl

theorem pruneExpiredCache_select (now : Int) (rows : MemoryTable) (key : String) :
    selectRow (pruneExpiredCache now rows).1 key =
      (selectRow rows key).filter fun row => !(row.kind = .cache && expired row.expiresAt now) := by
  unfold pruneExpiredCache selectRow
  dsimp only
  rw [OrderedMap.get?_filter, Option.filter_map]
  rfl

/-! ## Writes -/

/-- What `upsertMemory` or `upsertCache` is given. -/
structure MemoryWrite where
  kind : AgentMemoryKind
  key : String
  value : Json
  ttlMs : Option Number
  iv : Iv

/-- The write that an event is. -/
def MemoryEvent.write? : MemoryEvent → Option MemoryWrite
  | .upsertMemory key value ttlMs iv => some ⟨.memory, key, value, ttlMs, iv⟩
  | .upsertCache key value ttlMs iv => some ⟨.cache, key, value, some ttlMs, iv⟩
  | _ => none

/-- The write is not thrown. -/
def MemoryWrite.Accepted (w : MemoryWrite) : Prop :=
  Js.trim w.key ≠ "" ∧
    (w.kind = .cache → w.ttlMs.all fun ttlMs => ttlMs.isFinite && !ttlMs.le (.ofInt 0))

instance (w : MemoryWrite) : Decidable w.Accepted := inferInstanceAs (Decidable (_ ∧ _))

/-- The columns that are selected from the row of a write. -/
def MemoryWrite.row (cipher : FieldCipher κ) (w : MemoryWrite) (stamp : Int) : Selected where
  valueJson :=
    cipher.encodeSensitive w.iv (stableStringify w.value) (memoryAad (Js.trim w.key))
  kind := w.kind
  expiresAt := expiry stamp w.ttlMs

/-- What an accepted write does. -/
structure Wrote (cipher : FieldCipher κ) (s s' : MemoryHub κ) (w : MemoryWrite) : Prop where
  rows : ∀ key, selectRow s'.rows key =
    if key = Js.trim w.key then some (w.row cipher s.now) else selectRow s.rows key
  calls : s'.calls =
    s.calls ++ cipher.calls w.iv (stableStringify w.value) (memoryAad (Js.trim w.key))
  now : s'.now = s.now

/-- What an event does that is no write: pruning deletes rows that are cached and expired. -/
structure Passed (s s' : MemoryHub κ) (e : MemoryEvent) : Prop where
  rows : ∀ key, selectRow s'.rows key = selectRow s.rows key ∨
    e = .pruneExpiredCache ∧ selectRow s'.rows key = none ∧
      ∃ row, selectRow s.rows key = some row ∧ row.kind = .cache ∧
        expired row.expiresAt s.now = true
  calls : s'.calls = s.calls
  now : s.now ≤ s'.now

omit [DecidableEq κ] in
theorem upsertMemoryValue_wrote {w : MemoryWrite} (hkey : Js.trim w.key ≠ "") :
    Wrote cipher s (s.write cipher w.iv w.key w.value
      (upsertMemoryValue cipher sha256 s.now w.iv w.key w.value w.kind w.ttlMs s.rows)) w := by
  unfold upsertMemoryValue
  dsimp only
  rw [if_neg hkey]
  have hset : ∀ row : MemoryRow, row.selected = w.row cipher s.now → ∀ key,
      selectRow (s.rows.set (Js.trim w.key) row) key =
        if key = Js.trim w.key then some (w.row cipher s.now) else selectRow s.rows key := by
    intro row hrow key
    unfold selectRow
    rw [OrderedMap.get?_set]
    split
    next => rw [Option.map_some, hrow]
    next => rfl
  cases s.rows.get? (Js.trim w.key) with
  | none => exact ⟨hset _ rfl, rfl, rfl⟩
  | some old => exact ⟨hset _ rfl, rfl, rfl⟩

/-- A write is made, or it is thrown and nothing happens. -/
theorem memoryStep_write (cipher : FieldCipher κ) (sha256 : String → String) (s : MemoryHub κ)
    {e : MemoryEvent} {w : MemoryWrite} (h : e.write? = some w) :
    (w.Accepted ∧ Wrote cipher s (memoryStep cipher sha256 s e) w) ∨
      ¬ w.Accepted ∧ memoryStep cipher sha256 s e = s := by
  have hblank : ∀ kind ttlMs, Js.trim w.key = "" →
      upsertMemoryValue cipher sha256 s.now w.iv w.key w.value kind ttlMs s.rows =
        .error "memory key is required" := by
    intro kind ttlMs hkey
    exact if_pos hkey
  cases e with
  | upsertMemory key value ttlMs iv =>
    rw [MemoryEvent.write?, Option.some.injEq] at h
    subst h
    by_cases hkey : Js.trim key = ""
    · refine Or.inr ⟨fun haccepted => haccepted.1 hkey, ?_⟩
      rw [memoryStep, upsertMemory, hblank _ _ hkey]
      rfl
    · refine Or.inl ⟨⟨hkey, fun hcache => AgentMemoryKind.noConfusion hcache⟩, ?_⟩
      rw [memoryStep, upsertMemory]
      exact upsertMemoryValue_wrote (w := ⟨.memory, key, value, ttlMs, iv⟩) hkey
  | upsertCache key value ttlMs iv =>
    rw [MemoryEvent.write?, Option.some.injEq] at h
    subst h
    by_cases httl : ttlMs.isFinite && !ttlMs.le (.ofInt 0)
    · have hpositive : (!ttlMs.isFinite || ttlMs.le (.ofInt 0)) = false := by
        simpa using httl
      rw [memoryStep, upsertCache, hpositive, if_neg Bool.false_ne_true]
      by_cases hkey : Js.trim key = ""
      · refine Or.inr ⟨fun haccepted => haccepted.1 hkey, ?_⟩
        rw [hblank _ _ hkey]
        rfl
      · refine Or.inl ⟨⟨hkey, fun _ => httl⟩, ?_⟩
        exact upsertMemoryValue_wrote (w := ⟨.cache, key, value, some ttlMs, iv⟩) hkey
    · refine Or.inr ⟨fun haccepted => httl (haccepted.2 rfl), ?_⟩
      have hrefused : (!ttlMs.isFinite || ttlMs.le (.ofInt 0)) = true := by
        cases hfinite : ttlMs.isFinite <;> cases hle : ttlMs.le (.ofInt 0) <;> simp_all
      rw [memoryStep, upsertCache, hrefused]
      rfl
  | _ => exact absurd h (by simp [MemoryEvent.write?])

theorem memoryStep_passed (cipher : FieldCipher κ) (sha256 : String → String) (s : MemoryHub κ)
    {e : MemoryEvent} (h : e.write? = none) :
    Passed s (memoryStep cipher sha256 s e) e := by
  cases e with
  | upsertMemory key value ttlMs iv => exact absurd h (by simp [MemoryEvent.write?])
  | upsertCache key value ttlMs iv => exact absurd h (by simp [MemoryEvent.write?])
  | getMemory key elapsed =>
    exact ⟨fun key' => Or.inl (getMemoryValue_snd ..), rfl, Int.le_add_of_nonneg_right (by omega)⟩
  | getCache key elapsed =>
    exact ⟨fun key' => Or.inl (getMemoryValue_snd ..), rfl, Int.le_add_of_nonneg_right (by omega)⟩
  | pruneExpiredCache =>
    refine ⟨?_, rfl, Int.le_refl _⟩
    intro key
    have hprune : selectRow (memoryStep cipher sha256 s .pruneExpiredCache).rows key =
        (selectRow s.rows key).filter fun row =>
          !(row.kind = .cache && expired row.expiresAt s.now) :=
      pruneExpiredCache_select s.now s.rows key
    rw [hprune]
    cases hrow : selectRow s.rows key with
    | none => exact Or.inl rfl
    | some row =>
      cases hgone : (row.kind = .cache && expired row.expiresAt s.now : Bool) with
      | false => exact Or.inl (by simp [Option.filter, hgone])
      | true =>
        refine Or.inr ⟨rfl, by simp [Option.filter, hgone], row, rfl, ?_⟩
        simpa using hgone
  | advance ms => exact ⟨fun _ => Or.inl rfl, rfl, Int.le_add_of_nonneg_right (by omega)⟩

/-! ## What stays true -/

/-- The row holds the text of a value, sealed for its key. -/
def Holds (cipher : FieldCipher κ) (calls : List (Call κ)) (key : String) (v : Json)
    (row : Selected) : Prop :=
  Held cipher.number v ∧
    ∃ iv, row.valueJson = cipher.encodeSensitive iv (stableStringify v) (memoryAad key) ∧
      cipher.calls iv (stableStringify v) (memoryAad key) ⊆ calls

omit [DecidableEq κ] in
theorem Holds.mono {calls calls' : List (Call κ)} {key : String} {v : Json} {row : Selected}
    (h : Holds cipher calls key v row) (hcalls : calls ⊆ calls') :
    Holds cipher calls' key v row := by
  obtain ⟨hv, iv, htext, hmade⟩ := h
  exact ⟨hv, iv, htext, fun c hc => hcalls (hmade hc)⟩

theorem Holds.readJson (hnumber : Prints cipher.number) {calls : List (Call κ)} {key : String}
    {v : Json} {row : Selected} (h : Holds cipher calls key v row) :
    cipher.readJson calls row.valueJson (memoryAad key) =
      if cipher.Opens (stableStringify v) then .ok (stableValue v) else .error requiresSecret := by
  obtain ⟨hv, iv, htext, hmade⟩ := h
  rw [htext, FieldCipher.readJson_encodeSensitive hnumber hv hmade]

/-- Every row is under a key that was trimmed, and holds a value. -/
def Stored (cipher : FieldCipher κ) (s : MemoryHub κ) : Prop :=
  ∀ key row, selectRow s.rows key = some row →
    Js.trim key = key ∧ ∃ v, Holds cipher s.calls key v row

omit [DecidableEq κ] in
/-- The row of a write holds what was written. -/
theorem Wrote.holds {w : MemoryWrite} (h : Wrote cipher s s' w) (hw : Held cipher.number w.value) :
    Holds cipher s'.calls (Js.trim w.key) w.value (w.row cipher s.now) := by
  refine ⟨hw, w.iv, rfl, ?_⟩
  rw [h.calls]
  exact List.subset_append_right ..

/-- An event writes a value that can be held. -/
def MemoryEvent.Held (number : String → String) (e : MemoryEvent) : Prop :=
  ∀ w, e.write? = some w → Js.Json.Held number w.value

theorem stored_step (hs : Stored cipher s) {e : MemoryEvent} (he : e.Held cipher.number) :
    Stored cipher (memoryStep cipher sha256 s e) := by
  intro key row hrow
  cases hwrite : e.write? with
  | some w =>
    rcases memoryStep_write cipher sha256 s hwrite with ⟨-, hwrote⟩ | ⟨-, hsame⟩
    · have hholds := hwrote.holds (he w hwrite)
      rw [hwrote.rows] at hrow
      split at hrow
      next hkey =>
        rw [Option.some.injEq] at hrow
        rw [hkey, ← hrow]
        exact ⟨Js.trim_trim _, w.value, hholds⟩
      next =>
        obtain ⟨htrim, v, hv⟩ := hs key row hrow
        refine ⟨htrim, v, hv.mono ?_⟩
        rw [hwrote.calls]
        exact List.subset_append_left ..
    · rw [hsame] at hrow ⊢
      exact hs key row hrow
  | none =>
    have hpassed := memoryStep_passed cipher sha256 s hwrite
    rw [hpassed.calls]
    rcases hpassed.rows key with hsame | ⟨-, hgone, -⟩
    · exact hs key row (hsame ▸ hrow)
    · rw [hgone] at hrow
      exact absurd hrow (by simp)

theorem stored_init (cipher : FieldCipher κ) (sha256 : String → String) (start : Int) :
    Stored cipher (memoryRuns cipher sha256 start).init := by
  intro key row hrow
  exact absurd hrow (by simp [memoryRuns, selectRow])

end

end Kovael.Hub
