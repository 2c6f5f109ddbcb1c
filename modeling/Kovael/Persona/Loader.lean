import Kovael.Lts
import Kovael.Workflow.Loader

/-!
# `PersonaLoader`

`src/services/PersonaLoader.ts` reads the persona files of a directory at start, and a
file again when `fs.watch` reports it and 150 ms have passed without another report.

The cache is by agent id, while a reload goes by file name. A file that is loaded under a
new agent id leaves its entry under the old one, where the branch for a deleted file
removes every entry of the file; and a deleted file that had taken over the agent id of
another takes that entry with it. In a run without these two (`Harmless`) the cache is
what a new loader would read, as soon as no report is outstanding
(`hot_reload_eq_fresh`).

Mirroring notes vs the TS:
- The step relation has the directory, the reports that `fs.watch` has not made yet and
  the timers. A report can come at any time; it restarts the timer of its file.
- `existsSync` and `readFileSync` of one reload are one step, and so is `loadAll`. The
  order of `readdirSync` is a parameter.
- A path is the name of the file. `loadedAt` is left out.
- The contents of the directory are valid: `loadFile` keeps its error paths, but no step
  of the runs takes them. An error is its data or its message.
-/

namespace Kovael.Persona

open Js (OrderedMap)
open Workflow (Value ParseError matchFrontMatter trimmed)

/-! ## The front matter of a file -/

inductive LoadError where
  /-- `readFileSync` throws. -/
  | unreadable
  /-- `No front matter delimited by --- found in ..`. -/
  | noFrontMatter
  | parse (e : ParseError)
  | frontMatter (message : String)
  deriving DecidableEq, Repr

/-- `typeof v === 'string'`. -/
def isString : Option Value → Bool
  | some (.string _) => true
  | _ => false

/-- `Array.isArray(v)`. -/
def isArray : Option Value → Bool
  | some (.list _) => true
  | _ => false

/-- `typeof v === 'object' && v !== null`. -/
def isMapping : Option Value → Bool
  | none | some .null => false
  | some v => v.isObject

/-- `f.group.key`, for a group that is there. -/
def field? (f : Value) (group key : String) : Option Value := (f.get? group).bind (Value.get? key)

/-- The checks of `assertFrontMatter` in their order, with their messages. -/
def checks (f : Value) : List (Bool × String) := [
  (isMapping (some f), "Front matter must be a mapping"),
  (isString (f.get? "agent_id"), "Front matter requires string `agent_id`"),
  (isString (f.get? "display_name"), "Front matter requires string `display_name`"),
  (isString (f.get? "provider"), "Front matter requires string `provider`"),
  (isMapping (f.get? "voice"), "Front matter requires `voice` mapping"),
  (isString (field? f "voice" "pronouns"), "`voice.pronouns` must be a string"),
  (isString (field? f "voice" "register"), "`voice.register` must be a string"),
  (isArray (field? f "voice" "catchphrases"), "`voice.catchphrases` must be an array"),
  (isArray (field? f "voice" "forbidden"), "`voice.forbidden` must be an array"),
  (isMapping (f.get? "expertise"), "Front matter requires `expertise` mapping"),
  (isArray (field? f "expertise" "primary"), "`expertise.primary` must be an array"),
  (isArray (field? f "expertise" "secondary"), "`expertise.secondary` must be an array"),
  (isMapping (f.get? "disposition"), "Front matter requires `disposition` mapping"),
  (isArray (field? f "disposition" "ally_with"), "`disposition.ally_with` must be an array"),
  (isArray (field? f "disposition" "spar_with"), "`disposition.spar_with` must be an array"),
  (isArray (field? f "disposition" "defer_to"), "`disposition.defer_to` must be an array")]

/-- `assertFrontMatter(f)`. -/
def assertFrontMatter (f : Value) : Except LoadError Unit :=
  match (checks f).find? fun c => !c.1 with
  | some c => .error (.frontMatter c.2)
  | none => .ok ()

/-- The front matter and the lore of a text, or why there are none. -/
def readText (raw : List Char) : Except LoadError (Value × String) :=
  match matchFrontMatter raw with
  | none => .error .noFrontMatter
  | some (front, body) =>
    match parseYamlSubset front with
    | .error e => .error (.parse e)
    | .ok f =>
      match assertFrontMatter f with
      | .error e => .error e
      | .ok () => .ok (f, String.ofList (trimmed body))

/-- What `loadFile` reads of a file. -/
def readPersona (file : Option String) : Except LoadError (Value × String) :=
  match file with
  | none => .error .unreadable
  | some raw => readText raw.toList

/-- `front.agent_id`, which was checked. -/
def agentIdOf (f : Value) : String :=
  match f.get? "agent_id" with
  | some (.string s) => s
  | _ => ""

structure PersonaDocument where
  frontMatter : Value
  lore : String
  sourcePath : String

/-! ## The loader -/

abbrev Cache := OrderedMap String PersonaDocument

/-- `loadFile(filePath)`. -/
def loadFile (filePath : String) (file : Option String) (cache : Cache) : Cache :=
  match readPersona file with
  | .error _ => cache
  | .ok (front, lore) => cache.set (agentIdOf front) ⟨front, lore, filePath⟩

/-- `filename.endsWith('.md')`. -/
def isMarkdown (name : String) : Bool := ".md".toList.isSuffixOf name.toList

/-- A file that loads. -/
structure PersonaFile where
  raw : String
  valid : (readPersona (some raw)).toOption.isSome = true

namespace PersonaFile

def content (file : PersonaFile) : Value × String :=
  (readPersona (some file.raw)).toOption.get file.valid

def agentId (file : PersonaFile) : String := agentIdOf file.content.1

def document (file : PersonaFile) (name : String) : PersonaDocument :=
  ⟨file.content.1, file.content.2, name⟩

end PersonaFile

abbrev Directory := OrderedMap String PersonaFile

/-- The content that is read under a name. -/
def Directory.read (directory : Directory) (name : String) : Option String :=
  (OrderedMap.get? directory name).map PersonaFile.raw

/-- `loadAll()`, where `readdirSync` returns the names. -/
def loadAll (directory : Directory) : List String → Cache → Cache
  | [], cache => cache
  | name :: names, cache =>
    loadAll directory names
      (if isMarkdown name then loadFile name (directory.read name) cache else cache)

/-- The loader, its directory, the reports to come and the timers that run. -/
structure Watched where
  directory : Directory
  cache : Cache
  unreported : List String
  timers : List String

inductive Event where
  /-- A file is created or edited. -/
  | write (name : String) (file : PersonaFile)
  | delete (name : String)
  | rename (old new : String)
  /-- The callback of `fs.watch`. -/
  | report (name : String)
  /-- The debounce of a file has elapsed. -/
  | reload (name : String)

/-- What the timer of a file does. -/
def reloadFile (directory : Directory) (name : String) (cache : Cache) : Cache :=
  match OrderedMap.get? directory name with
  | some file => loadFile name (some file.raw) cache
  | none => cache.filter fun _ doc => doc.sourcePath ≠ name

def Watched.step (s : Watched) : Event → Option Watched
  | .write name file =>
    some { s with
      directory := s.directory.set name file
      unreported := name :: s.unreported }
  | .delete name =>
    if s.directory.has name then
      some { s with
        directory := s.directory.delete name
        unreported := name :: s.unreported }
    else none
  | .rename old new =>
    (s.directory.get? old).map fun file =>
      { s with
        directory := (s.directory.delete old).set new file
        unreported := old :: new :: s.unreported }
  | .report name =>
    some { s with
      unreported := s.unreported.filter fun n => n ≠ name
      timers := if isMarkdown name then name :: s.timers else s.timers }
  | .reload name =>
    if name ∈ s.timers then
      some { s with
        cache := reloadFile s.directory name s.cache
        timers := s.timers.filter fun n => n ≠ name }
    else none

/-- After `start()` on a directory whose names are listed in an order. -/
def started (directory : Directory) (names : List String) : Watched :=
  ⟨directory, loadAll directory names .empty, [], []⟩

def loaderRuns (directory : Directory) (names : List String) : Lts Watched Event :=
  ⟨started directory names, Watched.step⟩

/-! ## Fresh loads -/

/-- The names of the directory, in the order of some listing. -/
def Lists (names : List String) (directory : Directory) : Prop :=
  names.Perm (directory.entries.map Prod.fst)

/-- No two persona files have the same agent id. -/
def Distinct (directory : Directory) : Prop :=
  ∀ name name' file file', directory.get? name = some file → directory.get? name' = some file' →
    isMarkdown name = true → isMarkdown name' = true → file.agentId = file'.agentId → name = name'

/-- Every report was made, and every debounce has elapsed. -/
def Watched.Quiet (s : Watched) : Prop := s.unreported = [] ∧ s.timers = []

/-- Nothing about the file is outstanding. -/
def Watched.Settled (s : Watched) (name : String) : Prop := name ∉ s.unreported ∧ name ∉ s.timers

/-- The cache has what a new loader would have, and no agent id that no file declares. -/
def Watched.Fresh (s : Watched) : Prop :=
  (Distinct s.directory → ∀ names, Lists names s.directory →
    ∀ id, s.cache.get? id = (loadAll s.directory names .empty).get? id) ∧
  ∀ id, s.cache.has id = true → ∃ name file, s.directory.get? name = some file ∧
    isMarkdown name = true ∧ file.agentId = id

/-- A file that is loaded has the agent id under which it is in the cache, if it is there.
A file that is gone is not in the cache under an agent id that another file declares,
unless that one is to be loaded still. -/
def Harmless (s : Watched) : Event → Prop
  | .reload name =>
    match s.directory.get? name with
    | some file => ∀ e ∈ s.cache.entries, e.2.sourcePath = name → e.1 = file.agentId
    | none => ∀ e ∈ s.cache.entries, e.2.sourcePath = name →
        ∀ f ∈ s.directory.entries, isMarkdown f.1 = true → f.2.agentId = e.1 →
          f.1 ∈ s.unreported ∨ f.1 ∈ s.timers
  | _ => True

/-! ## Loading -/

/-- The entry of a persona file. -/
def Entry (directory : Directory) (id : String) (doc : PersonaDocument) : Prop :=
  ∃ name file, directory.get? name = some file ∧ isMarkdown name = true ∧ file.agentId = id ∧
    doc = file.document name

theorem PersonaFile.read_eq (file : PersonaFile) :
    readPersona (some file.raw) = .ok file.content := by
  obtain ⟨p, hp⟩ := Option.isSome_iff_exists.mp file.valid
  have hcontent : file.content = p := Option.get_of_eq_some file.valid hp
  rw [hcontent]
  cases hread : readPersona (some file.raw) with
  | error e =>
    rw [hread] at hp
    cases hp
  | ok p' =>
    rw [hread] at hp
    rw [Option.some.inj hp]

/-- A valid file is set under its agent id. -/
theorem loadFile_valid (name : String) (file : PersonaFile) (cache : Cache) :
    loadFile name (some file.raw) cache = cache.set file.agentId (file.document name) := by
  rw [loadFile, file.read_eq]
  rfl

/-- The step of `loadAll` for a name: nothing, or the entry of its file. -/
theorem loadAll_cons (directory : Directory) (name : String) (names : List String) (cache : Cache) :
    (loadAll directory (name :: names) cache = loadAll directory names cache ∧
      ∀ file, directory.get? name = some file → isMarkdown name = false) ∨
    ∃ file, directory.get? name = some file ∧ isMarkdown name = true ∧
      loadAll directory (name :: names) cache =
        loadAll directory names (cache.set file.agentId (file.document name)) := by
  rw [loadAll]
  cases hmd : isMarkdown name with
  | false => exact Or.inl ⟨rfl, fun _ _ => rfl⟩
  | true =>
    rw [if_pos rfl, Directory.read]
    cases hfile : OrderedMap.get? directory name with
    | none => exact Or.inl ⟨rfl, fun file h => by cases h⟩
    | some file =>
      refine Or.inr ⟨file, rfl, rfl, ?_⟩
      rw [← loadFile_valid]
      rfl

/-- Every entry of a load is that of a file. -/
theorem loadAll_entries (directory : Directory) (names : List String) :
    ∀ {cache : Cache}, (∀ id doc, cache.get? id = some doc → Entry directory id doc) →
      ∀ id doc, (loadAll directory names cache).get? id = some doc → Entry directory id doc := by
  induction names with
  | nil =>
    intro cache h
    exact h
  | cons name names ih =>
    intro cache h
    rcases loadAll_cons directory name names cache with ⟨hsame, -⟩ | ⟨file, hfile, hmd, hset⟩
    · rw [hsame]
      exact ih h
    · rw [hset]
      refine ih ?_
      intro id doc hdoc
      rcases OrderedMap.get?_set_some hdoc with ⟨rfl, rfl⟩ | ⟨-, hold⟩
      · exact ⟨name, file, hfile, hmd, rfl, rfl⟩
      · exact h id doc hold

/-- A load loses no agent id. -/
theorem loadAll_has (directory : Directory) (names : List String) :
    ∀ {cache : Cache} {id : String}, cache.has id = true →
      (loadAll directory names cache).has id = true := by
  induction names with
  | nil =>
    intro cache id h
    exact h
  | cons name names ih =>
    intro cache id h
    rcases loadAll_cons directory name names cache with ⟨hsame, -⟩ | ⟨file, -, -, hset⟩
    · rw [hsame]
      exact ih h
    · rw [hset]
      refine ih ?_
      obtain ⟨doc, hdoc⟩ := (OrderedMap.has_iff ..).mp h
      rw [OrderedMap.has_iff, OrderedMap.get?_set]
      split
      next => exact ⟨_, rfl⟩
      next => exact ⟨doc, hdoc⟩

/-- Every file that is listed has its agent id in the cache. -/
theorem loadAll_files (directory : Directory) (names : List String) :
    ∀ {cache : Cache} {name : String} {file : PersonaFile}, name ∈ names →
      directory.get? name = some file → isMarkdown name = true →
        (loadAll directory names cache).has file.agentId = true := by
  induction names with
  | nil =>
    intro cache name file hname
    exact absurd hname List.not_mem_nil
  | cons first names ih =>
    intro cache name file hname hfile hmd
    rcases loadAll_cons directory first names cache with ⟨hsame, hskip⟩ | ⟨file', hfile', -, hset⟩
    · rw [hsame]
      rcases List.mem_cons.mp hname with rfl | hname
      · rw [hskip file hfile] at hmd
        cases hmd
      · exact ih hname hfile hmd
    · rw [hset]
      rcases List.mem_cons.mp hname with rfl | hname
      · obtain rfl := Option.some.inj (hfile.symm.trans hfile')
        exact loadAll_has _ _ ((OrderedMap.has_iff ..).mpr ⟨_, OrderedMap.get?_set_self ..⟩)
      · exact ih hname hfile hmd

/-! ## Runs -/

/-- What is settled is in the cache as it is in the directory. -/
structure Tracked (s : Watched) : Prop where
  markdown : ∀ id doc, s.cache.get? id = some doc → isMarkdown doc.sourcePath = true
  entries : ∀ id doc, s.cache.get? id = some doc → s.Settled doc.sourcePath →
    ∃ file, s.directory.get? doc.sourcePath = some file ∧ file.agentId = id ∧
      doc = file.document doc.sourcePath
  files : ∀ name file, s.directory.get? name = some file → isMarkdown name = true →
    s.Settled name → s.cache.has file.agentId = true
  timers : ∀ name ∈ s.timers, isMarkdown name = true

theorem tracked_started {directory : Directory} {names : List String}
    (hnames : Lists names directory) : Tracked (started directory names) where
  markdown := by
    intro id doc hdoc
    obtain ⟨name, file, -, hmd, -, rfl⟩ := loadAll_entries directory names
      (fun _ _ h => by cases h) id doc hdoc
    exact hmd
  entries := by
    intro id doc hdoc _
    obtain ⟨name, file, hfile, -, hid, rfl⟩ := loadAll_entries directory names
      (fun _ _ h => by cases h) id doc hdoc
    exact ⟨file, hfile, hid, rfl⟩
  files := by
    intro name file hfile hmd _
    refine loadAll_files directory names (hnames.mem_iff.mpr ?_) hfile hmd
    exact List.mem_map.mpr ⟨(name, file), (directory.mem_entries_iff name file).mpr hfile, rfl⟩
  timers := fun _ h => absurd h List.not_mem_nil

/-- A change of the directory unsettles the files that it changes. -/
theorem tracked_change {s s' : Watched} (h : Tracked s) (hcache : s'.cache = s.cache)
    (htimers : s'.timers = s.timers)
    (hsettled : ∀ name, s'.Settled name →
      s.Settled name ∧ s'.directory.get? name = s.directory.get? name) : Tracked s' where
  markdown := by
    rw [hcache]
    exact h.markdown
  entries := by
    intro id doc hdoc hs
    rw [hcache] at hdoc
    obtain ⟨hold, hsame⟩ := hsettled _ hs
    rw [hsame]
    exact h.entries id doc hdoc hold
  files := by
    intro name file hfile hmd hs
    obtain ⟨hold, hsame⟩ := hsettled _ hs
    rw [hsame] at hfile
    rw [hcache]
    exact h.files name file hfile hmd hold
  timers := by
    rw [htimers]
    exact h.timers

/-- A file other than the one whose timer elapsed was settled before. -/
theorem settled_of_reload {timers unreported : List String} {name name' : String}
    (hne : name' ≠ name)
    (h : name' ∉ unreported ∧ name' ∉ timers.filter fun n => n ≠ name) :
    name' ∉ unreported ∧ name' ∉ timers := by
  refine ⟨h.1, ?_⟩
  intro hmem
  exact h.2 (List.mem_filter.mpr ⟨hmem, decide_eq_true hne⟩)

/-- A reload of a file that is there. -/
theorem tracked_load {s : Watched} (h : Tracked s) {name : String} (hname : name ∈ s.timers)
    {file : PersonaFile} (hfile : s.directory.get? name = some file)
    (hharmless : ∀ e ∈ s.cache.entries, e.2.sourcePath = name → e.1 = file.agentId) :
    Tracked { s with
      cache := s.cache.set file.agentId (file.document name)
      timers := s.timers.filter fun n => n ≠ name } where
  markdown := by
    intro id doc hdoc
    rcases OrderedMap.get?_set_some hdoc with ⟨-, rfl⟩ | ⟨-, hold⟩
    · exact h.timers name hname
    · exact h.markdown id doc hold
  entries := by
    intro id doc hdoc hs
    rcases OrderedMap.get?_set_some hdoc with ⟨rfl, rfl⟩ | ⟨hid, hold⟩
    · exact ⟨file, hfile, rfl, rfl⟩
    · refine h.entries id doc hold (settled_of_reload ?_ hs)
      intro hsource
      exact hid (hharmless (id, doc) ((s.cache.mem_entries_iff id doc).mpr hold) hsource)
  files := by
    intro name' file' hfile' hmd hs
    rw [OrderedMap.has_iff, OrderedMap.get?_set]
    split
    next => exact ⟨_, rfl⟩
    next hid =>
      refine (OrderedMap.has_iff ..).mp (h.files name' file' hfile' hmd (settled_of_reload ?_ hs))
      intro heq
      obtain rfl := heq
      obtain rfl := Option.some.inj (hfile.symm.trans hfile')
      exact hid rfl
  timers := fun n hn => h.timers n (List.mem_of_mem_filter hn)

/-- A reload of a file that is gone. -/
theorem tracked_forget {s : Watched} (h : Tracked s) {name : String}
    (hfile : s.directory.get? name = none)
    (hharmless : ∀ e ∈ s.cache.entries, e.2.sourcePath = name →
      ∀ f ∈ s.directory.entries, isMarkdown f.1 = true → f.2.agentId = e.1 →
        f.1 ∈ s.unreported ∨ f.1 ∈ s.timers) :
    Tracked { s with
      cache := s.cache.filter fun _ doc => doc.sourcePath ≠ name
      timers := s.timers.filter fun n => n ≠ name } := by
  have hkept : ∀ id doc, (s.cache.filter fun _ doc => doc.sourcePath ≠ name).get? id = some doc ↔
      s.cache.get? id = some doc ∧ doc.sourcePath ≠ name := by
    intro id doc
    rw [OrderedMap.get?_filter, Option.filter_eq_some_iff, decide_eq_true_eq]
  refine ⟨?_, ?_, ?_, ?_⟩
  · intro id doc hdoc
    exact h.markdown id doc ((hkept id doc).mp hdoc).1
  · intro id doc hdoc hs
    obtain ⟨hold, hsource⟩ := (hkept id doc).mp hdoc
    exact h.entries id doc hold (settled_of_reload hsource hs)
  · intro name' file' hfile' hmd hs
    have hne : name' ≠ name := by
      intro heq
      obtain rfl := heq
      cases hfile.symm.trans hfile'
    have hold := settled_of_reload hne hs
    obtain ⟨doc, hdoc⟩ := (OrderedMap.has_iff ..).mp (h.files name' file' hfile' hmd hold)
    refine (OrderedMap.has_iff ..).mpr ⟨doc, (hkept _ doc).mpr ⟨hdoc, ?_⟩⟩
    intro hsource
    rcases hharmless (file'.agentId, doc) ((s.cache.mem_entries_iff _ doc).mpr hdoc) hsource
      (name', file') ((s.directory.mem_entries_iff name' file').mpr hfile') hmd rfl with hn | hn
    · exact hold.1 hn
    · exact hold.2 hn
  · intro n hn
    exact h.timers n (List.mem_of_mem_filter hn)

/-- A harmless step keeps what is settled as it is in the directory. -/
theorem tracked_step {s s' : Watched} {e : Event} (h : Tracked s) (hharmless : Harmless s e)
    (hstep : s.step e = some s') : Tracked s' := by
  cases e with
  | write name file =>
    obtain rfl := Option.some.inj hstep
    refine tracked_change h rfl rfl ?_
    intro name' hs
    have hne : name' ≠ name := fun heq => hs.1 (List.mem_cons.mpr (Or.inl heq))
    exact ⟨⟨fun hn => hs.1 (List.mem_cons_of_mem _ hn), hs.2⟩, OrderedMap.get?_set_ne _ _ hne⟩
  | delete name =>
    rw [Watched.step] at hstep
    split at hstep
    next =>
      obtain rfl := Option.some.inj hstep
      refine tracked_change h rfl rfl ?_
      intro name' hs
      have hne : name' ≠ name := fun heq => hs.1 (List.mem_cons.mpr (Or.inl heq))
      exact ⟨⟨fun hn => hs.1 (List.mem_cons_of_mem _ hn), hs.2⟩, OrderedMap.get?_delete_ne _ hne⟩
    next => cases hstep
  | rename old new =>
    rw [Watched.step, Option.map_eq_some_iff] at hstep
    obtain ⟨file, -, rfl⟩ := hstep
    refine tracked_change h rfl rfl ?_
    intro name' hs
    have hold : name' ≠ old := fun heq => hs.1 (List.mem_cons.mpr (Or.inl heq))
    have hnew : name' ≠ new :=
      fun heq => hs.1 (List.mem_cons_of_mem _ (List.mem_cons.mpr (Or.inl heq)))
    refine ⟨⟨fun hn => hs.1 (List.mem_cons_of_mem _ (List.mem_cons_of_mem _ hn)), hs.2⟩, ?_⟩
    show ((s.directory.delete old).set new file).get? name' = _
    rw [OrderedMap.get?_set_ne _ _ hnew, OrderedMap.get?_delete_ne _ hold]
  | report name =>
    obtain rfl := Option.some.inj hstep
    -- a file without a timer is none that is loaded
    have hsettled : ∀ name', isMarkdown name' = true →
        Watched.Settled { s with
          unreported := s.unreported.filter fun n => n ≠ name
          timers := if isMarkdown name then name :: s.timers else s.timers } name' →
        s.Settled name' := by
      intro name' hmd hs
      have hne : name' ≠ name := by
        intro heq
        obtain rfl := heq
        refine hs.2 ?_
        rw [if_pos hmd]
        exact List.mem_cons_self ..
      refine ⟨fun hn => hs.1 (List.mem_filter.mpr ⟨hn, decide_eq_true hne⟩), fun hn => hs.2 ?_⟩
      dsimp only
      split
      next => exact List.mem_cons_of_mem _ hn
      next => exact hn
    refine ⟨h.markdown, ?_, ?_, ?_⟩
    · intro id doc hdoc hs
      exact h.entries id doc hdoc (hsettled _ (h.markdown id doc hdoc) hs)
    · intro name' file' hfile' hmd hs
      exact h.files name' file' hfile' hmd (hsettled _ hmd hs)
    · intro n hn
      dsimp only at hn
      split at hn
      next hmd =>
        rcases List.mem_cons.mp hn with rfl | hn
        · exact hmd
        · exact h.timers n hn
      next => exact h.timers n hn
  | reload name =>
    rw [Watched.step] at hstep
    rw [Harmless] at hharmless
    split at hstep
    next hname =>
      obtain rfl := Option.some.inj hstep
      rw [reloadFile]
      cases hfile : s.directory.get? name with
      | some file =>
        rw [hfile] at hharmless
        dsimp only
        rw [loadFile_valid]
        exact tracked_load h hname hfile hharmless
      | none =>
        rw [hfile] at hharmless
        exact tracked_forget h hfile hharmless
    next => cases hstep

/-- Once nothing is outstanding the cache is fresh. -/
theorem fresh_of_tracked {s : Watched} (h : Tracked s) (hquiet : s.Quiet) : s.Fresh := by
  have hsettled : ∀ name, s.Settled name := by
    intro name
    refine ⟨?_, ?_⟩
    · rw [hquiet.1]
      exact List.not_mem_nil
    · rw [hquiet.2]
      exact List.not_mem_nil
  have hentry : ∀ id doc, s.cache.get? id = some doc → Entry s.directory id doc := by
    intro id doc hdoc
    obtain ⟨file, hfile, hid, hdocument⟩ := h.entries id doc hdoc (hsettled _)
    exact ⟨_, file, hfile, h.markdown id doc hdoc, hid, hdocument⟩
  constructor
  · intro hdistinct names hnames id
    have hfresh := @loadAll_entries s.directory names .empty (fun _ _ h => by cases h)
    have hunique : ∀ {doc doc'}, Entry s.directory id doc → Entry s.directory id doc' → doc = doc' := by
      intro doc doc' hgiven
      obtain ⟨name, file, hfile, hmd, hid, rfl⟩ := hgiven
      intro hgiven'
      obtain ⟨name', file', hfile', hmd', hid', rfl⟩ := hgiven'
      obtain rfl := hdistinct name name' file file' hfile hfile' hmd hmd' (hid.trans hid'.symm)
      obtain rfl := Option.some.inj (hfile.symm.trans hfile')
      rfl
    have hhas : ∀ {doc}, Entry s.directory id doc →
        s.cache.has id = true ∧ (loadAll s.directory names .empty).has id = true := by
      intro doc hgiven
      obtain ⟨name, file, hfile, hmd, rfl, -⟩ := hgiven
      refine ⟨h.files name file hfile hmd (hsettled name), ?_⟩
      refine loadAll_files s.directory names (hnames.mem_iff.mpr ?_) hfile hmd
      exact List.mem_map.mpr ⟨(name, file), (s.directory.mem_entries_iff name file).mpr hfile, rfl⟩
    cases hcache : s.cache.get? id with
    | some doc =>
      have hdoc := hentry id doc hcache
      obtain ⟨doc', hdoc'⟩ := (OrderedMap.has_iff ..).mp (hhas hdoc).2
      rw [hdoc', hunique hdoc (hfresh id doc' hdoc')]
    | none =>
      cases hload : (loadAll s.directory names .empty).get? id with
      | none => rfl
      | some doc =>
        obtain ⟨doc', hdoc'⟩ := (OrderedMap.has_iff ..).mp (hhas (hfresh id doc hload)).1
        cases hcache.symm.trans hdoc'
  · intro id hid
    obtain ⟨doc, hdoc⟩ := (OrderedMap.has_iff ..).mp hid
    obtain ⟨name, file, hfile, hmd, hagent, -⟩ := hentry id doc hdoc
    exact ⟨name, file, hfile, hmd, hagent⟩

/-- In a run whose steps are all harmless the cache is that of a new loader whenever
nothing is outstanding. -/
theorem hot_reload_eq_fresh {directory : Directory} {names : List String}
    (hnames : Lists names directory) {es : List Event} {s : Watched}
    (hrun : (loaderRuns directory names).exec (started directory names) es = some s)
    (hharmless : (loaderRuns directory names).Along Harmless (started directory names) es)
    (hquiet : s.Quiet) : s.Fresh := by
  refine fresh_of_tracked ?_ hquiet
  exact @Lts.exec_invariant _ _ (loaderRuns directory names) Tracked Harmless
    (fun s e t hI hC hstep => tracked_step hI hC hstep) es _ _ (tracked_started hnames) hrun hharmless

/-! ## One file -/

/-- The text of a persona file. -/
def personaText (agentId lore : String) : List Char :=
  ["---", agentId, "display_name: D", "provider: p", "voice:", "  pronouns: they",
    "  register: dry", "  catchphrases: [c]", "  forbidden: [f]", "expertise:", "  primary: [e]",
    "  secondary: [e]", "disposition:", "  ally_with: [a]", "  spar_with: [a]", "  defer_to: [a]",
    "---", lore].flatMap fun line => line.toList ++ ['\n']

theorem readPersona_ofList (raw : List Char) :
    readPersona (some (String.ofList raw)) = readText raw := by
  rw [readPersona, String.toList_ofList]

/-- A file of a text that is valid. -/
def PersonaFile.ofText (raw : List Char) (h : (readText raw).toOption.isSome = true) :
    PersonaFile :=
  ⟨String.ofList raw, by rw [readPersona_ofList, h]⟩

theorem PersonaFile.agentId_ofText {raw : List Char} {id : String}
    (h : (readText raw).toOption.isSome = true)
    (hid : (readText raw).toOption.map (fun p => agentIdOf p.1) = some id) :
    (PersonaFile.ofText raw h).agentId = id := by
  obtain ⟨p, hp, rfl⟩ := Option.map_eq_some_iff.mp hid
  have hread : (readPersona (some (PersonaFile.ofText raw h).raw)).toOption = some p := by
    rw [← hp, ← readPersona_ofList raw]
    rfl
  rw [PersonaFile.agentId, PersonaFile.content, Option.get_of_eq_some _ hread]

def nyxFile : PersonaFile :=
  .ofText (personaText "agent_id: nyx" "first") (by decide +kernel)

def editedFile : PersonaFile :=
  .ofText (personaText "agent_id: nyx" "second") (by decide +kernel)

def shaevFile : PersonaFile :=
  .ofText (personaText "agent_id: shaev" "first") (by decide +kernel)

theorem agentId_nyxFile : nyxFile.agentId = "nyx" :=
  PersonaFile.agentId_ofText _ (by decide +kernel)

theorem agentId_editedFile : editedFile.agentId = "nyx" :=
  PersonaFile.agentId_ofText _ (by decide +kernel)

theorem agentId_shaevFile : shaevFile.agentId = "shaev" :=
  PersonaFile.agentId_ofText _ (by decide +kernel)

def oneFile (file : PersonaFile) : Directory := OrderedMap.empty.set "a.md" file

/-- What is loaded at start. -/
theorem started_oneFile (file : PersonaFile) : (started (oneFile file) ["a.md"]).cache =
    OrderedMap.empty.set file.agentId (file.document "a.md") := by
  rw [← loadFile_valid]
  rfl

/-- A file is edited, reported and loaded again. -/
def edits (file : PersonaFile) : List Event :=
  [.write "a.md" file, .report "a.md", .reload "a.md"]

theorem exec_edits (file file' : PersonaFile) :
    (loaderRuns (oneFile file) ["a.md"]).exec (started (oneFile file) ["a.md"]) (edits file') =
      some ⟨(oneFile file).set "a.md" file',
        (OrderedMap.empty.set file.agentId (file.document "a.md")).set file'.agentId
          (file'.document "a.md"), [], []⟩ := by
  rw [← started_oneFile, ← loadFile_valid]
  rfl

/-- The agent id stays: the cache is fresh. -/
theorem lore_edit_fresh : ∃ s, (loaderRuns (oneFile nyxFile) ["a.md"]).exec
    (started (oneFile nyxFile) ["a.md"]) (edits editedFile) = some s ∧ s.Fresh := by
  refine ⟨_, exec_edits .., @hot_reload_eq_fresh (oneFile nyxFile) ["a.md"] (List.Perm.refl _)
    (edits editedFile) _ (exec_edits ..) ?_ ⟨rfl, rfl⟩⟩
  refine ⟨trivial, trivial, ?_, trivial⟩
  show ∀ e ∈ (started (oneFile nyxFile) ["a.md"]).cache.entries, e.2.sourcePath = "a.md" →
    e.1 = editedFile.agentId
  rw [started_oneFile, agentId_nyxFile, agentId_editedFile]
  intro e he _
  rw [List.mem_singleton.mp he]

/-- The agent id changes: the old one stays in the cache. -/
theorem renamed_agent_survives : ¬ ∀ (directory : Directory) (names : List String) (es : List Event)
    (s : Watched), Lists names directory →
      (loaderRuns directory names).exec (started directory names) es = some s →
        s.Quiet → s.Fresh := by
  intro h
  have hfresh := h (oneFile nyxFile) ["a.md"] (edits shaevFile) _ (List.Perm.refl _)
    (exec_edits ..) ⟨rfl, rfl⟩
  have hstale : ((OrderedMap.empty.set nyxFile.agentId (nyxFile.document "a.md")).set
      shaevFile.agentId (shaevFile.document "a.md")).has "nyx" = true := by
    rw [agentId_nyxFile, agentId_shaevFile]
    rfl
  obtain ⟨name, file, hfile, -, hid⟩ := hfresh.2 "nyx" hstale
  rcases OrderedMap.get?_set_some hfile with ⟨-, rfl⟩ | ⟨hne, hold⟩
  · rw [agentId_shaevFile] at hid
    exact absurd hid (by decide)
  · rw [oneFile, OrderedMap.get?_set_ne _ _ hne] at hold
    cases hold

end Kovael.Persona
