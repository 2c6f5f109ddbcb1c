import Kovael.Claims.RetryQueue
import Kovael.Workflow.FrontMatter

/-!
# `WorkflowLoader` and what the orchestrator makes of a document

`src/services/WorkflowLoader.ts` reads WORKFLOW.md at boot and again whenever the
file changes; `src/services/WorkflowConfig.ts` decodes the front matter, and the
`workflow_loaded` listener of `MeshOrchestrator` applies what it finds to
`MevBridge` and `RetryQueue`.

Mirroring notes vs the TS:
- The content of the file is the argument of a reload, `none` where it cannot be
  read. Watching and debouncing decide when a reload happens, not what it does.
- Of a document the front matter is kept: nobody reads the prompt template, and
  `loadedAt` and `sourcePath` are shown only.
- An error is its data; the messages are in the docstrings.
- The listener's broadcast does not throw.
-/

namespace Kovael.Workflow

open Js (Number isWhitespace)
open Claims (RetryConfig RetryConfigPatch)

/-! ## The front matter of a file -/

/-- The ends of `\s*\n` at the start of the text, the longest first. -/
def newlineEnds : List Char → List (List Char)
  | [] => []
  | c :: cs =>
    if isWhitespace c then newlineEnds cs ++ (if c = '\n' then [cs] else []) else []

/-- `\n---\s*\n([\s\S]*)$` here: the body. -/
def closing? (cs : List Char) : Option (List Char) :=
  if ['\n', '-', '-', '-'].isPrefixOf cs then (newlineEnds (cs.drop 4)).head? else none

/-- `([\s\S]*?)\n---\s*\n([\s\S]*)$`: the text up to the first closing, and the body. -/
def untilClosing : List Char → Option (List Char × List Char)
  | [] => none
  | c :: cs =>
    match closing? (c :: cs) with
    | some body => some ([], body)
    | none => (untilClosing cs).map fun m => (c :: m.1, m.2)

/-- `FRONT_MATTER_RE.exec(raw)`: the two groups. -/
def matchFrontMatter (raw : List Char) : Option (List Char × List Char) :=
  if ['-', '-', '-'].isPrefixOf raw then (newlineEnds (raw.drop 3)).findSome? untilClosing else none

inductive LoadError where
  /-- `readFileSync` throws. -/
  | unreadable
  /-- `No front matter delimited by --- found`. -/
  | noFrontMatter
  | parse (e : ParseError)
  /-- ``Front matter requires numeric `version` ``. -/
  | versionMissing
  /-- `Unsupported front-matter version ..`. -/
  | versionUnsupported (version : Number)
  deriving DecidableEq, Repr

/-- `assertFrontMatter(f)`. What the parser returns is an object. -/
def assertFrontMatter (f : Value) : Except LoadError Unit :=
  match f.get? "version" with
  | some (.number version) =>
    if version.lt (.ofNat 1) then .error (.versionUnsupported version) else .ok ()
  | _ => .error .versionMissing

/-- The front matter of a file, or why there is none. -/
def loadFrontMatter (file : Option String) : Except LoadError Value :=
  match file with
  | none => .error .unreadable
  | some raw =>
    match matchFrontMatter raw.toList with
    | none => .error .noFrontMatter
    | some (front, _) =>
      match parseYamlSubset front with
      | .error e => .error (.parse e)
      | .ok f =>
        match assertFrontMatter f with
        | .error e => .error e
        | .ok () => .ok f

/-! ## `decodeWorkflowConfig` -/

structure DecodedWorkflowConfig where
  vramFloor : Option Number
  primaryArchitect : Option String
  fallbackAgent : Option String
  keepRecentTurns : Option Number
  retry : RetryConfigPatch
  deriving DecidableEq, Repr

/-- `fm.section?.key`, where it is a number. -/
def numberField (fm : Value) (group key : String) : Option Number :=
  match (fm.get? group).bind (Value.get? key) with
  | some (.number n) => some n
  | _ => none

/-- `fm.section?.key`, where it is a string. -/
def stringField (fm : Value) (group key : String) : Option String :=
  match (fm.get? group).bind (Value.get? key) with
  | some (.string s) => some s
  | _ => none

/-- `decodeWorkflowConfig(fm)`. -/
def decodeWorkflowConfig (fm : Value) : DecodedWorkflowConfig where
  vramFloor := numberField fm "routing" "vram_floor_mb"
  primaryArchitect := stringField fm "routing" "primary_architect"
  fallbackAgent := stringField fm "routing" "fallback_agent"
  keepRecentTurns := numberField fm "sharding" "keep_recent_turns"
  retry :=
    { maxAttempts := numberField fm "retry" "max_attempts"
      baseMs := numberField fm "retry" "backoff_base_ms"
      factor := numberField fm "retry" "backoff_factor"
      sweepIntervalMs := none }

/-! ## The orchestrator -/

/-- What `MevBridge` and `RetryQueue` go by. -/
structure Settings where
  vramFloorMb : Number
  primaryArchitect : String
  fallbackAgent : String
  keepRecentTurns : Number
  retry : RetryConfig
  deriving DecidableEq, Repr

/-- The fields of a new `MevBridge`, and the configuration the `RetryQueue` was built
with. -/
def Settings.boot (retry : RetryConfig) : Settings where
  vramFloorMb := .ofNat 8192
  primaryArchitect := "shaev"
  fallbackAgent := "nyx-cli"
  keepRecentTurns := .ofNat 3
  retry := retry

/-- The `workflow_loaded` listener: each setter is called where the document has the
field. -/
def Settings.apply (s : Settings) (cfg : DecodedWorkflowConfig) : Settings where
  vramFloorMb := cfg.vramFloor.getD s.vramFloorMb
  primaryArchitect := cfg.primaryArchitect.getD s.primaryArchitect
  fallbackAgent := cfg.fallbackAgent.getD s.fallbackAgent
  keepRecentTurns := cfg.keepRecentTurns.getD s.keepRecentTurns
  retry := s.retry.patch cfg.retry

structure Orchestrator where
  /-- `workflowLoader.document()`: its front matter. -/
  current : Option Value
  lastError : Option LoadError
  settings : Settings

/-- Before the loader starts. -/
def Orchestrator.new (retry : RetryConfig) : Orchestrator := ⟨none, none, .boot retry⟩

/-- `reload()` with its listeners. -/
def Orchestrator.reload (o : Orchestrator) (file : Option String) : Orchestrator :=
  match loadFrontMatter file with
  | .error e => { o with lastError := some e }
  | .ok f =>
    { current := some f, lastError := none, settings := o.settings.apply (decodeWorkflowConfig f) }

/-- One reload after another, the first at boot. -/
def Orchestrator.reloads (o : Orchestrator) (files : List (Option String)) : Orchestrator :=
  files.foldl Orchestrator.reload o

/-- A fresh orchestrator that finds the document. -/
def bootWith (retry : RetryConfig) (document : String) : Orchestrator :=
  (Orchestrator.new retry).reload (some document)

end Kovael.Workflow
