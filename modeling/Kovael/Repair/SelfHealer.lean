import Kovael.Js.Number
import Kovael.Mesh.InjectTask
import Kovael.Repair.RepairPatch

/-!
# The self-healer

`src/services/SelfHealer.ts`, the class, and `redactReason` below it.

Mirroring notes:
- The repository is its commits, the newest first, its index and its worktree. A tree
  gives each path the file that stands there, its mode included.
- git is a parameter: what `git apply` and `git apply --reverse` make of a worktree
  where they exit with 0, and which paths the ignore rules of a worktree cover. A
  `git apply` that fails writes nothing, a `git add` that fails leaves the index, and a
  `git commit` that fails leaves HEAD and the index.
- How the commands of an attempt end comes from outside. One that fails gives the
  message of the error that is thrown.
- The test command changes nothing in the repository, and no listener of
  `self_heal_event` throws. The timestamps of the events are left out.
-/

namespace Kovael.Repair

open Js (Number trim isWhitespace)
open Kovael.Mesh (ReceiptStatus)

/-! ## Redaction -/

/-- `cs.replace(find, text)` with the flag `g`: `find` gives the length of the match
that begins here, and the number counts what is left of the last match. -/
def replaceAll (find : List Char → Option Nat) (text : String) : Nat → List Char → List Char
  | _, [] => []
  | n + 1, _ :: cs => replaceAll find text n cs
  | 0, c :: cs =>
    match find (c :: cs) with
    | some n => text.toList ++ replaceAll find text (n - 1) cs
    | none => c :: replaceAll find text 0 cs

/-- A greedy run of characters, of at least `least`. -/
def runLength (least : Nat) (ok : Char → Bool) (cs : List Char) : Option Nat :=
  let n := (cs.takeWhile ok).length
  if least ≤ n then some n else none

/-- What follows `lead`, with the flag `i`; `lead` is in lower case. -/
def restFolded? (lead : String) (cs : List Char) : Option (List Char) :=
  if lead.toList.isPrefixOf (cs.map Char.toLower) then some (cs.drop lead.toList.length) else none

/-- `[^\r\n\t ]`. -/
def isPathChar (c : Char) : Bool := c ≠ '\r' && c ≠ '\n' && c ≠ '\t' && c ≠ ' '

/-- `/sk-[A-Za-z0-9_-]{8,}/`. -/
def keyMatch (cs : List Char) : Option Nat :=
  (rest? "sk-" cs).bind fun rest =>
    (runLength 8 (fun c => c.isAlphanum || c = '_' || c = '-') rest).map (3 + ·)

/-- `/Bearer\s+[A-Za-z0-9._~+/=-]+/i`. -/
def bearerMatch (cs : List Char) : Option Nat :=
  (restFolded? "bearer" cs).bind fun rest =>
    (runLength 1 isWhitespace rest).bind fun spaces =>
      (runLength 1 (fun c => c.isAlphanum || c ∈ "._~+/=-".toList) (rest.drop spaces)).map
        (6 + spaces + ·)

/-- `/token=([^&\s]+)/i`. -/
def tokenMatch (cs : List Char) : Option Nat :=
  (restFolded? "token=" cs).bind fun rest =>
    (runLength 1 (fun c => c ≠ '&' && !isWhitespace c) rest).map (6 + ·)

/-- `/[A-Za-z]:\\[^\r\n\t ]+/`. -/
def driveMatch : List Char → Option Nat
  | c :: ':' :: '\\' :: rest =>
    if c.isAlpha then (runLength 1 isPathChar rest).map (3 + ·) else none
  | _ => none

/-- `/\/(?:Users|home)\/[^\r\n\t ]+/`. -/
def homeMatch (cs : List Char) : Option Nat :=
  ["/Users/", "/home/"].findSome? fun lead =>
    (rest? lead cs).bind fun rest => (runLength 1 isPathChar rest).map (lead.toList.length + ·)

/-- `redactReason(reason)`. -/
def redactReason (reason : String) : String :=
  let cs := replaceAll keyMatch "[redacted-token]" 0 reason.toList
  let cs := replaceAll bearerMatch "Bearer [redacted]" 0 cs
  let cs := replaceAll tokenMatch "token=[redacted]" 0 cs
  let cs := replaceAll driveMatch "[redacted-path]" 0 cs
  let cs := replaceAll homeMatch "[redacted-path]" 0 cs
  Js.sliceStart 240 (String.ofList cs)

/-! ## The repository -/

/-- The file at each path. -/
abbrev Tree (Path Content : Type) := Path → Option Content

structure Commit (Path Content : Type) where
  message : String
  tree : Tree Path Content

structure Repo (Path Content : Type) where
  commits : List (Commit Path Content)
  index : Tree Path Content
  worktree : Tree Path Content

/-- What the commands read from a patch and from the ignore rules of a worktree. -/
structure Git (Path Content : Type) where
  /-- The worktree after a `git apply` that exits with 0. -/
  apply : String → Tree Path Content → Tree Path Content
  /-- The worktree after a `git apply --reverse` that exits with 0. -/
  reverse : String → Tree Path Content → Tree Path Content
  ignored : Tree Path Content → Path → Bool

variable {Path Content : Type}

/-- The tree of HEAD; a branch without a commit has none. -/
def Repo.head (repo : Repo Path Content) : Tree Path Content :=
  match repo.commits with
  | [] => fun _ => none
  | commit :: _ => commit.tree

/-- What `git add -A` makes of an index: an ignored path enters it only where it is
tracked already. -/
def Git.stage (git : Git Path Content) (index worktree : Tree Path Content) :
    Tree Path Content := fun path =>
  if (index path).isNone && git.ignored worktree path then none else worktree path

/-- `git add -A`. -/
def Git.add (git : Git Path Content) (repo : Repo Path Content) : Repo Path Content :=
  { repo with index := git.stage repo.index repo.worktree }

/-- `git commit -m message`. -/
def Repo.commit (message : String) (repo : Repo Path Content) : Repo Path Content :=
  { repo with commits := ⟨message, repo.index⟩ :: repo.commits }

/-! ## Events and results -/

/-- The parts of a `VerificationReceipt` that the healer reads. -/
structure Receipt where
  status : ReceiptStatus
  cycleId : String
  taskHash : String
  evidence : String
  deriving DecidableEq, Repr

inductive EventType where
  | skipped
  | patchApplied
  | patchReverted
  | failed
  deriving DecidableEq, Repr

structure SelfHealEvent where
  type : EventType
  cycleId : String
  taskHash : String
  attempt : Nat
  reason : Option String
  deriving DecidableEq, Repr

inductive Status where
  | skipped
  | applied
  | reverted
  | failed
  deriving DecidableEq, Repr

structure SelfHealResult where
  status : Status
  attempts : Number
  reason : Option String
  deriving DecidableEq, Repr

/-- The repository and the events that were emitted. -/
structure World (Path Content : Type) where
  repo : Repo Path Content
  events : List SelfHealEvent

/-- `emitEvent(type, receipt, attempt, reason)`. -/
def World.emitEvent (type : EventType) (receipt : Receipt) (attempt : Nat)
    (reason : Option String) (world : World Path Content) : World Path Content :=
  { world with
    events := world.events ++
      [{ type, cycleId := receipt.cycleId, taskHash := receipt.taskHash, attempt
         reason := (reason.filter fun text => text ≠ "").map redactReason }] }

/-- How a call ended: what its promise resolves to, or the message of its rejection. -/
structure Ran (Path Content : Type) where
  result : Except String SelfHealResult
  world : World Path Content

/-! ## The healer -/

/-- `SelfHealerOptions` with the constructor's defaults. -/
structure SelfHealer where
  maxAttempts : Number := .ofNat 2
  testCommand : List String := ["npm", "run", "build"]
  branchName : Option String := none
  autoApply : Bool := false
  commitOnGreen : Bool := true
  allowedBranchPrefixes : List String := ["stage4/", "self-heal/"]

/-- What the two commands before the loop print, or the message of their error. -/
structure Before where
  /-- `git branch --show-current`. -/
  branch : Except String String
  /-- `git status --porcelain`. -/
  status : Except String String

/-- How the commands of one attempt end: `some` is the message of the error. -/
structure Outcomes where
  check : Option String := none
  apply : Option String := none
  test : Option String := none
  add : Option String := none
  commit : Option String := none
  reverse : Option String := none

/-- Why a call ends before its loop. -/
inductive Stop where
  | skip (reason : String)
  | throws (message : String)

namespace SelfHealer

variable (healer : SelfHealer) (git : Git Path Content)

/-- `this.branchName ?? await this.currentBranch()`. -/
def branch (before : Before) : Except String String :=
  match healer.branchName with
  | some name => .ok name
  | none => before.branch.map trim

/-- `isBranchAllowed(branch)`. -/
def isBranchAllowed (branch : String) : Bool :=
  branch ≠ "" && healer.allowedBranchPrefixes.any fun lead => lead.toList.isPrefixOf branch.toList

/-- `skip(receipt, reason)`. -/
def skip (receipt : Receipt) (reason : String) (world : World Path Content) : Ran Path Content :=
  let redacted := redactReason reason
  { result := .ok { status := .skipped, attempts := .ofNat 0, reason := some redacted }
    world := world.emitEvent .skipped receipt 0 (some redacted) }

/-- The checks of `repairFromReceipt` before its loop, and the patch that passed them. -/
def guards (before : Before) (receipt : Receipt) : Except Stop String :=
  if receipt.status ≠ .failed then .error (.skip "receipt_not_failed")
  else if !healer.autoApply then .error (.skip "auto_apply_disabled")
  else if healer.testCommand.length = 0 then .error (.skip "missing_test_command")
  else
    match healer.branch before with
    | .error message => .error (.throws message)
    | .ok branch =>
      if !healer.isBranchAllowed branch then
        .error (.skip ("unsafe_branch:" ++ if branch = "" then "detached" else branch))
      else
        match extractRepairPatch receipt.evidence with
        | none => .error (.skip "no_repair_patch_available")
        | some patch =>
          match validateRepairPatch patch with
          | .error reason => .error (.skip reason)
          | .ok () =>
            match before.status with
            | .error message => .error (.throws message)
            | .ok stdout =>
              if 0 < Js.length (trim stdout) then .error (.skip "dirty_worktree")
              else .ok patch

def commitMessage (receipt : Receipt) : String :=
  "chore(self-heal): apply verifier repair " ++ Js.sliceStart 12 receipt.taskHash

/-- `commitRepair(receipt)`, and the message that it throws. -/
def commitRepair (receipt : Receipt) (outcomes : Outcomes) (repo : Repo Path Content) :
    Repo Path Content × Option String :=
  match outcomes.add with
  | some message => (repo, some message)
  | none =>
    let repo := git.add repo
    match outcomes.commit with
    | some message => (repo, some message)
    | none =>
      (repo.commit (commitMessage receipt), none)

/-- What the `try` block of an attempt leaves behind, and the message that it throws. -/
structure Tried (Path Content : Type) where
  world : World Path Content
  applied : Bool
  thrown : Option String

/-- The `try` block of an attempt. -/
def tryRepair (receipt : Receipt) (patch : String) (attempt : Nat) (outcomes : Outcomes)
    (world : World Path Content) : Tried Path Content :=
  match outcomes.check with
  | some message => { world, applied := false, thrown := some message }
  | none =>
    match outcomes.apply with
    | some message => { world, applied := false, thrown := some message }
    | none =>
      let repo := { world.repo with worktree := git.apply patch world.repo.worktree }
      let world := { world with repo }.emitEvent .patchApplied receipt attempt none
      match outcomes.test with
      | some message => { world, applied := true, thrown := some message }
      | none =>
        if healer.commitOnGreen then
          let (repo, thrown) := commitRepair git receipt outcomes world.repo
          { world := { world with repo }, applied := true, thrown }
        else { world, applied := true, thrown := none }

/-- A `git apply --reverse` that exits with 0, and its event. -/
def rollback (receipt : Receipt) (patch : String) (attempt : Nat) (reason : String)
    (world : World Path Content) : World Path Content :=
  let repo := { world.repo with worktree := git.reverse patch world.repo.worktree }
  { world with repo }.emitEvent .patchReverted receipt attempt (some reason)

/-- The loop of `repairFromReceipt` from an attempt on; `none` where the outcomes end
before the loop does. -/
def attemptLoop (receipt : Receipt) (patch : String) (attempt : Nat)
    (world : World Path Content) (runs : List Outcomes) : Option (Ran Path Content) :=
  if (Number.ofNat attempt).le healer.maxAttempts then
    match runs with
    | [] => none
    | outcomes :: runs =>
      let tried := healer.tryRepair git receipt patch attempt outcomes world
      let world := tried.world
      let ended (status : Status) (reason : Option String) (world : World Path Content) :=
        some { result := .ok { status, attempts := .ofNat attempt, reason }, world }
      match tried.thrown with
      | none => ended .applied none world
      | some message =>
        let reason := redactReason message
        if !tried.applied then
          ended .failed (some reason) (world.emitEvent .failed receipt attempt (some reason))
        else
          match outcomes.reverse with
          | some _ =>
            ended .failed (some "rollback_failed")
              (world.emitEvent .failed receipt attempt (some "rollback_failed"))
          | none =>
            let world := rollback git receipt patch attempt reason world
            if Number.ofNat attempt = healer.maxAttempts then
              ended .reverted (some reason) (world.emitEvent .failed receipt attempt (some reason))
            else attemptLoop receipt patch (attempt + 1) world runs
  else
    some { result := .ok { status := .failed, attempts := healer.maxAttempts
                           reason := some "unreachable" }
           world }

/-- `repairFromReceipt(receipt)`. -/
def repairFromReceipt (before : Before) (receipt : Receipt) (runs : List Outcomes)
    (world : World Path Content) : Option (Ran Path Content) :=
  match healer.guards before receipt with
  | .error (.skip reason) => some (skip receipt reason world)
  | .error (.throws message) => some { result := .error message, world }
  | .ok patch => healer.attemptLoop git receipt patch 1 world runs

end SelfHealer

end Kovael.Repair
