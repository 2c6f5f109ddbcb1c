import Kovael.Js.OrderedMap
import Kovael.Sql.Resume

/-!
# Tables, and changes of a schema

A table has its columns and its rows, each row under its primary key; a database has
tables and indexes. A `Change` is a statement that may be made again: it creates what is
not there, it asks for columns, or it rewrites one row.

`holds_iff` says when a change has nothing to do. Nothing that is created goes away
(`run_grows`) and a row changes only by what touches it (`run_row?`), so what was made
stays done under the changes after it (`Change.made`, `Change.stays`); and a value that
was set stays as it is under changes that only fill (`run_kept`).
-/

namespace Sql

open Js (OrderedMap)

/-- A value in a row. -/
inductive Cell where
  | null
  | integer (n : Int)
  | text (s : String)
  deriving DecidableEq, Repr

/-- `COALESCE(c, d)`. -/
def Cell.coalesce (c d : Cell) : Cell := if c = .null then d else c

structure Column where
  name : String
  definition : String
  /-- What the column is in the rows that are there when it is added. -/
  default : Cell
  deriving DecidableEq, Repr

/-- The values of a row by column. -/
abbrev Row := String → Cell

/-- `SET c = COALESCE(c, d), …`, where the new values are those of the old row. -/
def Row.coalesce (row : Row) (sets : List (String × Cell)) : Row := fun c =>
  match Js.getEntry c sets with
  | some d => (row c).coalesce d
  | none => row c

structure Table where
  columns : List Column
  constraints : List String
  /-- Each under its primary key. -/
  rows : OrderedMap String Row

structure Index where
  table : String
  columns : List String
  deriving DecidableEq, Repr

structure Tables where
  tables : OrderedMap String Table
  indexes : OrderedMap String Index

def Table.names (t : Table) : List String := t.columns.map Column.name

/-- The primary keys, in the order of the rows. -/
def Table.keys (t : Table) : List String := t.rows.entries.map Prod.fst

@[simp] theorem Cell.coalesce_coalesce (c d : Cell) : (c.coalesce d).coalesce d = c.coalesce d := by
  rw [coalesce, coalesce]
  by_cases hc : c = .null
  · rw [if_pos hc, ite_self]
  · rw [if_neg hc, if_neg hc]

@[simp] theorem Cell.coalesce_left (c d : Cell) : c.coalesce (c.coalesce d) = c.coalesce d := by
  rw [coalesce, coalesce]
  by_cases hc : c = .null
  · rw [if_pos hc, if_pos hc]
  · rw [if_neg hc, if_neg hc]

theorem Cell.coalesce_of_ne {c : Cell} (h : c ≠ .null) (d : Cell) : c.coalesce d = c := if_neg h

theorem Row.coalesce_of_none {row : Row} {sets : List (String × Cell)} {c : String}
    (h : Js.getEntry c sets = none) : row.coalesce sets c = row c := by
  rw [Row.coalesce, h]

/-- What was filled is not filled again. -/
theorem Row.coalesce_again (row : Row) (sets : List (String × Cell)) :
    Row.coalesce (row.coalesce sets) sets = row.coalesce sets := by
  funext c
  rw [Row.coalesce, Row.coalesce]
  cases Js.getEntry c sets with
  | none => rfl
  | some d => exact Cell.coalesce_coalesce ..

/-- A value that was set stays. -/
theorem Row.coalesce_eq {row : Row} {sets : List (String × Cell)} {c : String}
    (h : row c ≠ .null ∨ Js.getEntry c sets = none) : row.coalesce sets c = row c := by
  rw [Row.coalesce]
  cases hc : Js.getEntry c sets with
  | none => rfl
  | some d =>
    rcases h with h | h
    · exact Cell.coalesce_of_ne h d
    · cases hc.symm.trans h

namespace Tables

def empty : Tables := ⟨.empty, .empty⟩

/-- `PRAGMA table_info(name)`. -/
def tableInfo (name : String) (s : Tables) : List String :=
  ((s.tables.get? name).map Table.names).getD []

/-- The primary keys of a table. -/
def keys (name : String) (s : Tables) : List String :=
  ((s.tables.get? name).map Table.keys).getD []

/-- The row under a primary key. -/
def row? (name id : String) (s : Tables) : Option Row :=
  (s.tables.get? name).bind fun t => t.rows.get? id

/-- The table of a statement that names these columns. -/
def resolve (name : String) (columns : List String) (s : Tables) : Except String Table :=
  match s.tables.get? name with
  | none => .error ("no such table: " ++ name)
  | some t =>
    match columns.find? fun c => c ∉ t.names with
    | some c => .error ("no such column: " ++ c)
    | none => .ok t

/-- `CREATE TABLE IF NOT EXISTS`. -/
def createTable (name : String) (columns : List Column) (constraints : List String)
    (s : Tables) : Tables :=
  if s.tables.has name then s
  else { s with tables := s.tables.set name ⟨columns, constraints, .empty⟩ }

/-- `ALTER TABLE name ADD COLUMN`. -/
def addColumn (name : String) (column : Column) (s : Tables) : Except String Tables :=
  match s.tables.get? name with
  | none => .error ("no such table: " ++ name)
  | some t =>
    if column.name ∈ t.names then .error ("duplicate column name: " ++ column.name)
    else .ok { s with
      tables := s.tables.set name { t with
        columns := t.columns ++ [column]
        rows := t.rows.adjust fun _ row => Function.update row column.name column.default } }

/-- The row under the key is rewritten, if there is one. -/
def rewrite (name id : String) (f : Row → Except String Row) (s : Tables) :
    Except String Tables :=
  match s.tables.get? name with
  | none => .error ("no such table: " ++ name)
  | some t =>
    match t.rows.get? id with
    | none => .ok s
    | some row => (f row).map fun row =>
        { s with tables := s.tables.set name { t with rows := t.rows.set id row } }

/-- `CREATE INDEX IF NOT EXISTS`. -/
def createIndex (name : String) (index : Index) (s : Tables) : Except String Tables :=
  if s.indexes.has name then .ok s
  else (s.resolve index.table index.columns).map fun _ =>
    { s with indexes := s.indexes.set name index }

end Tables

/-! ## Changes -/

inductive Change where
  | createTable (name : String) (columns : List Column) (constraints : List String)
  /-- A statement on the columns is prepared. -/
  | resolve (name : String) (columns : List String)
  /-- The column is added, if it is not there. -/
  | ensureColumn (name : String) (column : Column)
  | rewrite (name id : String) (f : Row → Except String Row)
  | createIndex (name : String) (index : Index)

namespace Change

def run : Change → Tables → Except String Tables
  | createTable name columns constraints, s => .ok (s.createTable name columns constraints)
  | resolve name columns, s => (s.resolve name columns).map fun _ => s
  | ensureColumn name column, s =>
    if column.name ∈ s.tableInfo name then .ok s else s.addColumn name column
  | rewrite name id f, s => s.rewrite name id f
  | createIndex name index, s => s.createIndex name index

/-- The change writes the row. -/
def Touches : Change → String → String → Prop
  | ensureColumn name _, name', _ => name = name'
  | rewrite name id _, name', id' => name = name' ∧ id = id'
  | _, _, _ => False

/-- There is nothing to do. -/
def Holds : Change → Tables → Prop
  | createTable name _ _, s => s.tables.has name = true
  | resolve name columns, s => ∃ t, s.tables.get? name = some t ∧ ∀ c ∈ columns, c ∈ t.names
  | ensureColumn name column, s => column.name ∈ s.tableInfo name
  | rewrite name id f, s =>
    s.tables.has name = true ∧ ∀ row, s.row? name id = some row → f row = .ok row
  | createIndex name _, s => s.indexes.has name = true

/-- What was rewritten is rewritten to itself. -/
def Idempotent : Change → Prop
  | rewrite _ _ f => ∀ row row', f row = .ok row' → f row' = .ok row'
  | _ => True

end Change

/-! ## What a change leaves -/

/-- Nothing goes away, and no row comes or goes. -/
structure Grows (s s' : Tables) : Prop where
  tables : ∀ name t, s.tables.get? name = some t →
    ∃ t', s'.tables.get? name = some t' ∧ t.names <+: t'.names ∧ t'.keys = t.keys
  keys : ∀ name, s'.keys name = s.keys name
  indexes : ∀ name, s.indexes.has name = true → s'.indexes.has name = true

theorem Grows.refl (s : Tables) : Grows s s where
  tables := fun _ t h => ⟨t, h, List.prefix_refl _, rfl⟩
  keys := fun _ => rfl
  indexes := fun _ h => h

theorem Grows.trans {s₁ s₂ s₃ : Tables} (h : Grows s₁ s₂) (h' : Grows s₂ s₃) : Grows s₁ s₃ where
  tables := by
    intro name t ht
    obtain ⟨t₂, ht₂, hnames, hkeys⟩ := h.tables name t ht
    obtain ⟨t₃, ht₃, hnames', hkeys'⟩ := h'.tables name t₂ ht₂
    exact ⟨t₃, ht₃, hnames.trans hnames', hkeys'.trans hkeys⟩
  keys := fun name => (h'.keys name).trans (h.keys name)
  indexes := fun name hname => h'.indexes name (h.indexes name hname)

theorem Grows.has {s s' : Tables} (h : Grows s s') {name : String}
    (hname : s.tables.has name = true) : s'.tables.has name = true := by
  obtain ⟨t, ht⟩ := (s.tables.has_iff name).mp hname
  obtain ⟨t', ht', -⟩ := h.tables name t ht
  exact (s'.tables.has_iff name).mpr ⟨t', ht'⟩

/-- One table is replaced by one with its rows and more columns. -/
theorem grows_set {s : Tables} {name : String} {t t' : Table} (ht : s.tables.get? name = some t)
    (hnames : t.names <+: t'.names) (hkeys : t'.keys = t.keys) :
    Grows s { s with tables := s.tables.set name t' } where
  tables := by
    intro name' u hu
    show ∃ u', (s.tables.set name t').get? name' = some u' ∧ _
    rw [OrderedMap.get?_set]
    by_cases hname : name' = name
    · subst hname
      obtain rfl := Option.some.inj (ht.symm.trans hu)
      exact ⟨t', if_pos rfl, hnames, hkeys⟩
    · rw [if_neg hname]
      exact ⟨u, hu, List.prefix_refl _, rfl⟩
  keys := by
    intro name'
    show (((s.tables.set name t').get? name').map Table.keys).getD [] = _
    rw [OrderedMap.get?_set, Tables.keys]
    by_cases hname : name' = name
    · subst hname
      rw [if_pos rfl, ht, Option.map_some, Option.map_some, hkeys]
    · rw [if_neg hname]
  indexes := fun _ h => h

/-! ## Statements -/

namespace Tables

theorem resolve_eq_ok_iff {name : String} {columns : List String} {s : Tables} {t : Table} :
    s.resolve name columns = .ok t ↔ s.tables.get? name = some t ∧ ∀ c ∈ columns, c ∈ t.names := by
  rw [resolve]
  cases s.tables.get? name with
  | none =>
    constructor
    · intro h
      cases h
    · intro hgiven
      obtain ⟨h, -⟩ := hgiven
      cases h
  | some u =>
    dsimp only
    cases hfind : columns.find? fun c => c ∉ u.names with
    | some c =>
      constructor
      · intro h
        cases h
      · intro hgiven
        obtain ⟨hu, hall⟩ := hgiven
        obtain rfl := Option.some.inj hu
        have hc : c ∉ u.names := by simpa using List.find?_some hfind
        exact absurd (hall c (List.mem_of_find?_eq_some hfind)) hc
    | none =>
      have hall : ∀ c ∈ columns, c ∈ u.names := by
        intro c hc
        simpa using List.find?_eq_none.mp hfind c hc
      constructor
      · intro h
        obtain rfl := Except.ok.inj h
        exact ⟨rfl, hall⟩
      · intro hgiven
        obtain ⟨hu, -⟩ := hgiven
        obtain rfl := Option.some.inj hu
        rfl

/-- The table with the column. -/
theorem addColumn_ok {name : String} {column : Column} {s s' : Tables}
    (h : s.addColumn name column = .ok s') : ∃ t, s.tables.get? name = some t ∧
      s' = { s with tables := s.tables.set name { t with
        columns := t.columns ++ [column]
        rows := t.rows.adjust fun _ row => Function.update row column.name column.default } } := by
  rw [addColumn] at h
  cases ht : s.tables.get? name with
  | none =>
    rw [ht] at h
    cases h
  | some t =>
    rw [ht] at h
    dsimp only at h
    split at h
    next => cases h
    next =>
      obtain rfl := Except.ok.inj h
      exact ⟨t, rfl, rfl⟩

/-- Nothing was there to rewrite, or the row is rewritten. -/
theorem rewrite_ok {name id : String} {f : Row → Except String Row} {s s' : Tables}
    (h : s.rewrite name id f = .ok s') : ∃ t, s.tables.get? name = some t ∧
      ((t.rows.get? id = none ∧ s' = s) ∨ ∃ row row', t.rows.get? id = some row ∧
        f row = .ok row' ∧
          s' = { s with tables := s.tables.set name { t with rows := t.rows.set id row' } }) := by
  rw [rewrite] at h
  cases ht : s.tables.get? name with
  | none =>
    rw [ht] at h
    cases h
  | some t =>
    rw [ht] at h
    dsimp only at h
    refine ⟨t, rfl, ?_⟩
    cases hrow : t.rows.get? id with
    | none =>
      rw [hrow] at h
      exact Or.inl ⟨rfl, (Except.ok.inj h).symm⟩
    | some row =>
      rw [hrow] at h
      dsimp only at h
      cases hf : f row with
      | error err =>
        rw [hf] at h
        cases h
      | ok row' =>
        rw [hf] at h
        exact Or.inr ⟨row, row', rfl, hf, (Except.ok.inj h).symm⟩

/-- Only what is made of the row matters. -/
theorem rewrite_congr {name id : String} {f g : Row → Except String Row} {s : Tables} {row : Row}
    (hrow : s.row? name id = some row) (h : f row = g row) :
    s.rewrite name id f = s.rewrite name id g := by
  rw [rewrite, rewrite]
  cases ht : s.tables.get? name with
  | none => rfl
  | some t =>
    rw [row?, ht, Option.bind_some] at hrow
    dsimp only
    rw [hrow]
    dsimp only
    rw [h]

/-- A row that cannot be rewritten. -/
theorem rewrite_error {name id : String} {f : Row → Except String Row} {s : Tables} {row : Row}
    {err : String} (hrow : s.row? name id = some row) (h : f row = .error err) :
    s.rewrite name id f = .error err := by
  rw [rewrite]
  cases ht : s.tables.get? name with
  | none =>
    rw [row?, ht] at hrow
    cases hrow
  | some t =>
    rw [row?, ht, Option.bind_some] at hrow
    dsimp only
    rw [hrow]
    dsimp only
    rw [h]
    rfl

theorem createIndex_ok {name : String} {index : Index} {s s' : Tables}
    (h : s.createIndex name index = .ok s') :
    s' = s ∨ s' = { s with indexes := s.indexes.set name index } := by
  rw [createIndex] at h
  split at h
  next => exact Or.inl (Except.ok.inj h).symm
  next =>
    cases hres : s.resolve index.table index.columns with
    | error err =>
      rw [hres] at h
      cases h
    | ok t =>
      rw [hres] at h
      exact Or.inr (Except.ok.inj h).symm

theorem tableInfo_of_get? {s : Tables} {name : String} {t : Table}
    (h : s.tables.get? name = some t) : s.tableInfo name = t.names := by
  rw [tableInfo, h]
  rfl

theorem mem_tableInfo {s : Tables} {name c : String} (h : c ∈ s.tableInfo name) :
    ∃ t, s.tables.get? name = some t ∧ c ∈ t.names := by
  rw [tableInfo] at h
  cases ht : s.tables.get? name with
  | none =>
    rw [ht] at h
    exact absurd h List.not_mem_nil
  | some t =>
    rw [ht] at h
    exact ⟨t, rfl, h⟩

theorem row?_of_get? {s : Tables} {name : String} {t : Table} (h : s.tables.get? name = some t)
    (id : String) : s.row? name id = t.rows.get? id := by
  rw [row?, h]
  rfl

/-- The rows of a table that was replaced. -/
theorem row?_set (s : Tables) (name : String) (t : Table) (name' id : String) :
    row? name' id { s with tables := s.tables.set name t } =
      if name' = name then t.rows.get? id else s.row? name' id := by
  show ((s.tables.set name t).get? name').bind _ = _
  rw [OrderedMap.get?_set]
  by_cases hname : name' = name
  · rw [if_pos hname, if_pos hname]
    rfl
  · rw [if_neg hname, if_neg hname]
    rfl

end Tables

namespace Change

/-- A change has nothing to do just if it holds. -/
theorem done_iff (c : Change) (s : Tables) : Done c.run s ↔ c.Holds s := by
  cases c with
  | createTable name columns constraints =>
    show Except.ok (s.createTable name columns constraints) = .ok s ↔ s.tables.has name = true
    rw [Except.ok.injEq, Tables.createTable]
    by_cases hname : s.tables.has name = true
    · rw [if_pos hname]
      exact iff_of_true rfl hname
    · rw [if_neg hname]
      refine iff_of_false ?_ hname
      intro h
      refine hname ?_
      rw [← h]
      exact (OrderedMap.has_iff ..).mpr ⟨_, OrderedMap.get?_set_self ..⟩
  | resolve name columns =>
    show (s.resolve name columns).map (fun _ => s) = .ok s ↔ _
    constructor
    · intro h
      cases hres : s.resolve name columns with
      | error err =>
        rw [hres] at h
        cases h
      | ok t => exact ⟨t, Tables.resolve_eq_ok_iff.mp hres⟩
    · intro hgiven
      obtain ⟨t, ht⟩ := hgiven
      rw [Tables.resolve_eq_ok_iff.mpr ht]
      rfl
  | ensureColumn name column =>
    show (if _ then _ else _) = Except.ok s ↔ column.name ∈ s.tableInfo name
    by_cases hcolumn : column.name ∈ s.tableInfo name
    · rw [if_pos hcolumn]
      exact iff_of_true rfl hcolumn
    · rw [if_neg hcolumn]
      refine iff_of_false ?_ hcolumn
      intro h
      obtain ⟨t, ht, hs⟩ := Tables.addColumn_ok h
      refine hcolumn ?_
      rw [hs, Tables.tableInfo_of_get? (OrderedMap.get?_set_self ..)]
      show column.name ∈ (t.columns ++ [column]).map Column.name
      rw [List.map_append]
      exact List.mem_append_right _ (List.mem_singleton.mpr rfl)
  | rewrite name id f =>
    show s.rewrite name id f = .ok s ↔ _
    constructor
    · intro h
      obtain ⟨t, ht, hcase⟩ := Tables.rewrite_ok h
      refine ⟨(OrderedMap.has_iff ..).mpr ⟨t, ht⟩, ?_⟩
      intro row hrow
      rw [Tables.row?_of_get? ht] at hrow
      rcases hcase with ⟨hnone, -⟩ | ⟨row₁, row', hrow₁, hf, hs⟩
      · cases hnone.symm.trans hrow
      · obtain rfl := Option.some.inj (hrow.symm.trans hrow₁)
        have hrow' : s.row? name id = some row' := by
          rw [hs, Tables.row?_set, if_pos rfl]
          exact OrderedMap.get?_set_self ..
        rw [Tables.row?_of_get? ht, hrow] at hrow'
        rw [hf, ← Option.some.inj hrow']
    · intro hgiven
      obtain ⟨hname, hrows⟩ := hgiven
      obtain ⟨t, ht⟩ := (OrderedMap.has_iff ..).mp hname
      rw [Tables.rewrite, ht]
      dsimp only
      cases hrow : t.rows.get? id with
      | none => rfl
      | some row =>
        dsimp only
        rw [hrows row ((Tables.row?_of_get? ht id).trans hrow), Except.map,
          OrderedMap.set_self hrow, OrderedMap.set_self ht]
  | createIndex name index =>
    show s.createIndex name index = .ok s ↔ s.indexes.has name = true
    by_cases hname : s.indexes.has name = true
    · rw [Tables.createIndex, if_pos hname]
      exact iff_of_true rfl hname
    · refine iff_of_false ?_ hname
      intro h
      refine hname ?_
      rw [Tables.createIndex, if_neg hname] at h
      cases hres : s.resolve index.table index.columns with
      | error err =>
        rw [hres] at h
        cases h
      | ok t =>
        rw [hres] at h
        rw [← Except.ok.inj h]
        exact (OrderedMap.has_iff ..).mpr ⟨_, OrderedMap.get?_set_self ..⟩

theorem run_grows {c : Change} {s s' : Tables} (h : c.run s = .ok s') : Grows s s' := by
  cases c with
  | createTable name columns constraints =>
    obtain rfl := Except.ok.inj h
    rw [Tables.createTable]
    split
    next => exact .refl s
    next hname =>
      have hnone : s.tables.get? name = none := by
        rw [OrderedMap.has, Bool.not_eq_true, Option.isSome_eq_false_iff,
          Option.isNone_iff_eq_none] at hname
        exact hname
      refine ⟨?_, ?_, fun _ h => h⟩
      · intro name' t ht
        refine ⟨t, ?_, List.prefix_refl _, rfl⟩
        show (s.tables.set name _).get? name' = _
        rw [OrderedMap.get?_set_ne]
        · exact ht
        · intro heq
          obtain rfl := heq
          cases hnone.symm.trans ht
      · intro name'
        show (((s.tables.set name _).get? name').map Table.keys).getD [] = _
        rw [OrderedMap.get?_set, Tables.keys]
        by_cases hsame : name' = name
        · subst hsame
          rw [if_pos rfl, hnone]
          rfl
        · rw [if_neg hsame]
  | resolve name columns =>
    rw [run] at h
    cases hres : s.resolve name columns with
    | error err =>
      rw [hres] at h
      cases h
    | ok t =>
      rw [hres] at h
      obtain rfl := Except.ok.inj h
      exact .refl s
  | ensureColumn name column =>
    rw [run] at h
    split at h
    next =>
      obtain rfl := Except.ok.inj h
      exact .refl s
    next =>
      obtain ⟨t, ht, rfl⟩ := Tables.addColumn_ok h
      refine grows_set ht ?_ ?_
      · show t.names <+: (t.columns ++ [column]).map Column.name
        rw [List.map_append]
        exact List.prefix_append _ _
      · show (t.rows.entries.map _).map Prod.fst = _
        rw [List.map_map]
        rfl
  | rewrite name id f =>
    obtain ⟨t, ht, ⟨-, rfl⟩ | ⟨row, row', hrow, -, rfl⟩⟩ := Tables.rewrite_ok h
    · exact .refl _
    · refine grows_set ht (List.prefix_refl _) ?_
      show (Js.setEntry id row' t.rows.entries).map Prod.fst = _
      rw [Js.setEntry_keys, if_pos]
      · rfl
      · exact List.mem_map.mpr ⟨(id, row), (t.rows.mem_entries_iff id row).mpr hrow, rfl⟩
  | createIndex name index =>
    rcases Tables.createIndex_ok h with rfl | rfl
    · exact .refl _
    · refine ⟨fun _ t ht => ⟨t, ht, List.prefix_refl _, rfl⟩, fun _ => rfl, ?_⟩
      intro name' hname
      obtain ⟨index', hindex⟩ := (OrderedMap.has_iff ..).mp hname
      show (s.indexes.set name index).has name' = true
      rw [OrderedMap.has_iff, OrderedMap.get?_set]
      split
      next => exact ⟨index, rfl⟩
      next => exact ⟨index', hindex⟩

/-- A row that the change does not touch. -/
theorem run_row? {c : Change} {s s' : Tables} (h : c.run s = .ok s') {name id : String}
    (hfree : ¬ c.Touches name id) : s'.row? name id = s.row? name id := by
  cases c with
  | createTable name' columns constraints =>
    obtain rfl := Except.ok.inj h
    rw [Tables.createTable]
    split
    next => rfl
    next hname =>
      rw [Tables.row?_set]
      split
      next hsame =>
        rw [OrderedMap.has, Bool.not_eq_true, Option.isSome_eq_false_iff,
          Option.isNone_iff_eq_none] at hname
        rw [hsame, Tables.row?, hname]
        rfl
      next => rfl
  | resolve name' columns =>
    rw [run] at h
    cases hres : s.resolve name' columns with
    | error err =>
      rw [hres] at h
      cases h
    | ok t =>
      rw [hres] at h
      obtain rfl := Except.ok.inj h
      rfl
  | ensureColumn name' column =>
    rw [run] at h
    split at h
    next =>
      obtain rfl := Except.ok.inj h
      rfl
    next =>
      obtain ⟨t, ht, rfl⟩ := Tables.addColumn_ok h
      rw [Tables.row?_set, if_neg]
      intro heq
      obtain rfl := heq
      exact hfree rfl
  | rewrite name' id' f =>
    obtain ⟨t, ht, ⟨-, rfl⟩ | ⟨row, row', hrow, -, rfl⟩⟩ := Tables.rewrite_ok h
    · rfl
    · rw [Tables.row?_set]
      split
      next hname =>
        subst hname
        rw [Tables.row?_of_get? ht]
        refine OrderedMap.get?_set_ne _ _ ?_
        intro heq
        obtain rfl := heq
        exact hfree ⟨rfl, rfl⟩
      next => rfl
  | createIndex name' index =>
    rcases Tables.createIndex_ok h with rfl | rfl
    · rfl
    · rfl

/-- What was made is done. -/
theorem made {c : Change} (hc : c.Idempotent) {s s' : Tables} (h : c.run s = .ok s') :
    Done c.run s' := by
  rw [done_iff]
  cases c with
  | createTable name columns constraints =>
    obtain rfl := Except.ok.inj h
    show (s.createTable name columns constraints).tables.has name = true
    rw [Tables.createTable]
    split
    next hname => exact hname
    next => exact (OrderedMap.has_iff ..).mpr ⟨_, OrderedMap.get?_set_self ..⟩
  | resolve name columns =>
    rw [run] at h
    cases hres : s.resolve name columns with
    | error err =>
      rw [hres] at h
      cases h
    | ok t =>
      rw [hres] at h
      obtain rfl := Except.ok.inj h
      exact ⟨t, Tables.resolve_eq_ok_iff.mp hres⟩
  | ensureColumn name column =>
    rw [run] at h
    split at h
    next hcolumn =>
      obtain rfl := Except.ok.inj h
      exact hcolumn
    next =>
      obtain ⟨t, ht, rfl⟩ := Tables.addColumn_ok h
      show column.name ∈ Tables.tableInfo name _
      rw [Tables.tableInfo_of_get? (OrderedMap.get?_set_self ..)]
      show column.name ∈ (t.columns ++ [column]).map Column.name
      rw [List.map_append]
      exact List.mem_append_right _ (List.mem_singleton.mpr rfl)
  | rewrite name id f =>
    refine ⟨?_, ?_⟩
    · obtain ⟨t, ht, -⟩ := Tables.rewrite_ok h
      exact (@run_grows (.rewrite name id f) _ _ h).has ((OrderedMap.has_iff ..).mpr ⟨t, ht⟩)
    · intro r hr
      obtain ⟨t, ht, ⟨hnone, rfl⟩ | ⟨row, row', hrow, hf, rfl⟩⟩ := Tables.rewrite_ok h
      · rw [Tables.row?_of_get? ht, hnone] at hr
        cases hr
      · rw [Tables.row?_set, if_pos rfl, OrderedMap.get?_set_self] at hr
        obtain rfl := Option.some.inj hr
        exact hc row row' hf
  | createIndex name index =>
    show s'.indexes.has name = true
    rw [run, Tables.createIndex] at h
    split at h
    next hname =>
      obtain rfl := Except.ok.inj h
      exact hname
    next =>
      cases hres : s.resolve index.table index.columns with
      | error err =>
        rw [hres] at h
        cases h
      | ok t =>
        rw [hres] at h
        obtain rfl := Except.ok.inj h
        exact (OrderedMap.has_iff ..).mpr ⟨_, OrderedMap.get?_set_self ..⟩

/-- The second change does not touch the row that the first rewrites. -/
def Leaves (d : Change) : Change → Prop
  | rewrite name id _ => ¬ d.Touches name id
  | _ => True

/-- What is done stays done. -/
theorem stays {c d : Change} (hd : d.Leaves c) : StaysDone c.run d.run := by
  intro s s' hdone h
  have hgrows := run_grows h
  rw [done_iff] at hdone ⊢
  cases c with
  | createTable name columns constraints => exact hgrows.has hdone
  | resolve name columns =>
    obtain ⟨t, ht, hcolumns⟩ := hdone
    obtain ⟨t', ht', hnames, -⟩ := hgrows.tables name t ht
    exact ⟨t', ht', fun c hc => hnames.subset (hcolumns c hc)⟩
  | ensureColumn name column =>
    obtain ⟨t, ht, hcolumn⟩ := Tables.mem_tableInfo hdone
    obtain ⟨t', ht', hnames, -⟩ := hgrows.tables name t ht
    show column.name ∈ s'.tableInfo name
    rw [Tables.tableInfo_of_get? ht']
    exact hnames.subset hcolumn
  | rewrite name id f =>
    refine ⟨hgrows.has hdone.1, ?_⟩
    intro row hrow
    rw [run_row? h hd] at hrow
    exact hdone.2 row hrow
  | createIndex name index => exact hgrows.indexes name hdone

end Change

/-! ## Values that stay -/

/-- Values that were set stay, and values of columns that are not filled stay as they
are. -/
structure Kept (filled : String → List String) (s s' : Tables) : Prop where
  grows : Grows s s'
  rows : ∀ name id row, s.row? name id = some row → ∃ row', s'.row? name id = some row' ∧
    ∀ c ∈ s.tableInfo name, row c ≠ .null ∨ c ∉ filled name → row' c = row c

variable {filled : String → List String}

theorem Kept.refl (s : Tables) : Kept filled s s :=
  ⟨.refl s, fun _ _ row hrow => ⟨row, hrow, fun _ _ _ => rfl⟩⟩

theorem Grows.tableInfo {s s' : Tables} (h : Grows s s') {name c : String}
    (hc : c ∈ s.tableInfo name) : c ∈ s'.tableInfo name := by
  obtain ⟨t, ht, hcolumn⟩ := Tables.mem_tableInfo hc
  obtain ⟨t', ht', hnames, -⟩ := h.tables name t ht
  rw [Tables.tableInfo_of_get? ht']
  exact hnames.subset hcolumn

theorem Kept.trans {s₁ s₂ s₃ : Tables} (h : Kept filled s₁ s₂) (h' : Kept filled s₂ s₃) :
    Kept filled s₁ s₃ := by
  refine ⟨h.grows.trans h'.grows, ?_⟩
  intro name id row hrow
  obtain ⟨row₂, hrow₂, hcells⟩ := h.rows name id row hrow
  obtain ⟨row₃, hrow₃, hcells'⟩ := h'.rows name id row₂ hrow₂
  refine ⟨row₃, hrow₃, ?_⟩
  intro c hc hset
  have hsame := hcells c hc hset
  rw [← hsame] at hset ⊢
  exact hcells' c (h.grows.tableInfo hc) hset

namespace Change

/-- The change only fills. -/
def Fills (filled : String → List String) : Change → Prop
  | rewrite name _ f => ∀ row row', f row = .ok row' →
    ∀ c, row c ≠ .null ∨ c ∉ filled name → row' c = row c
  | _ => True

theorem run_kept {c : Change} (hc : c.Fills filled) {s s' : Tables} (h : c.run s = .ok s') :
    Kept filled s s' := by
  refine ⟨run_grows h, ?_⟩
  intro name id row hrow
  by_cases htouches : c.Touches name id
  · cases c with
    | ensureColumn name' column =>
      obtain rfl : name' = name := htouches
      rw [run] at h
      split at h
      next =>
        obtain rfl := Except.ok.inj h
        exact ⟨row, hrow, fun _ _ _ => rfl⟩
      next hcolumn =>
        obtain ⟨t, ht, rfl⟩ := Tables.addColumn_ok h
        rw [Tables.row?_of_get? ht] at hrow
        refine ⟨Function.update row column.name column.default, ?_, ?_⟩
        · rw [Tables.row?_set, if_pos rfl, OrderedMap.get?_adjust, hrow, Option.map_some]
        · intro c hc _
          refine Function.update_of_ne ?_ ..
          intro heq
          obtain rfl := heq
          exact hcolumn hc
    | rewrite name' id' f =>
      obtain ⟨rfl, rfl⟩ : name' = name ∧ id' = id := htouches
      obtain ⟨t, ht, ⟨hnone, rfl⟩ | ⟨row₁, row', hrow₁, hf, rfl⟩⟩ := Tables.rewrite_ok h
      · exact ⟨row, hrow, fun _ _ _ => rfl⟩
      · rw [Tables.row?_of_get? ht] at hrow
        obtain rfl := Option.some.inj (hrow.symm.trans hrow₁)
        refine ⟨row', ?_, fun c _ => hc row row' hf c⟩
        rw [Tables.row?_set, if_pos rfl]
        exact OrderedMap.get?_set_self ..
    | createTable name' columns constraints => exact htouches.elim
    | resolve name' columns => exact htouches.elim
    | createIndex name' index => exact htouches.elim
  · exact ⟨row, (run_row? h htouches).trans hrow, fun _ _ _ => rfl⟩

end Change

end Sql
