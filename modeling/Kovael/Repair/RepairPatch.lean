import Kovael.Js.JsonText
import Kovael.Js.Text

/-!
# Repair patches: how they are extracted and which are refused

`src/services/SelfHealer.ts`, below the class: the patch in a receipt's evidence, the
paths that its lines name, and the paths that no repair may touch.

Mirroring notes:
- The regular expressions are readers of characters. None has the flag `m`, so `$` is
  the end of the text; `.` is any character but a line terminator.
- `toLowerCase` is exact where it yields ASCII. Other letters are left as they are: the
  tests look for ASCII only.
- A value that `stripPatchPath` is given comes from `(.+)`, so its first tab begins the
  match of `/\t.*$/`.
-/

namespace Kovael.Repair

open Js (Json trim includes occursIn after?)

/-! ## Characters -/

/-- What `.` does not match. -/
def isLineTerminator (c : Char) : Bool :=
  c = '\n' || c = '\r' || c.toNat = 0x2028 || c.toNat = 0x2029

/-- `(.+)$`. -/
def dots? (cs : List Char) : Option (List Char) :=
  if cs ≠ [] ∧ cs.all (fun c => !isLineTerminator c) then some cs else none

/-- What follows `lead`. -/
def rest? (lead : String) (cs : List Char) : Option (List Char) :=
  if lead.toList.isPrefixOf cs then some (cs.drop lead.toList.length) else none

/-- `toLowerCase()` of one character. -/
def lowerChar (c : Char) : List Char :=
  if c.toNat = 0x212A then ['k']
  else if c.toNat = 0x130 then ['i', Char.ofNat 0x307]
  else [c.toLower]

/-- `s.toLowerCase()`. -/
def lowerCase (cs : List Char) : List Char := cs.flatMap lowerChar

/-! ## Paths -/

/-- The carriage return before a line feed. -/
def dropReturn (cs : List Char) : List Char :=
  if cs.getLast? = some '\r' then cs.dropLast else cs

/-- `patch.split(/\r?\n/)`. -/
def splitLines (patch : String) : List (List Char) :=
  let pieces := patch.toList.splitOn '\n'
  pieces.dropLast.map dropReturn ++ pieces.getLast?.toList

/-- `(.+?)` up to a `sep` that something follows. -/
def cutAt (sep : List Char) : List Char → Option (List Char × List Char)
  | [] => none
  | c :: cs =>
    if sep.isPrefixOf cs ∧ sep.length < cs.length then some ([c], cs.drop sep.length)
    else (cutAt sep cs).map fun cut => (c :: cut.1, cut.2)

/-- `stripPatchPath(value)`. -/
def stripPatchPath (value : List Char) : String :=
  trim (String.ofList (value.takeWhile fun c => c ≠ '\t'))

/-- `/^diff --git a\/(.+?) b\/(.+)$/`. -/
def gitLine (line : List Char) : Option (List Char × List Char) :=
  ((rest? "diff --git a/" line).bind dots?).bind (cutAt " b/".toList)

/-- `(?:a\/|b\/)?(.+)$`. -/
def withoutSide (cs : List Char) : Option (List Char) :=
  (((rest? "a/" cs).orElse fun _ => rest? "b/" cs).bind dots?).orElse fun _ => dots? cs

/-- `/^(?:---|\+\+\+) (?:a\/|b\/)?(.+)$/`. -/
def markerLine (line : List Char) : Option (List Char) :=
  ((rest? "--- " line).orElse fun _ => rest? "+++ " line).bind withoutSide

/-- `/^rename (?:from|to) (.+)$/`. -/
def renameLine (line : List Char) : Option (List Char) :=
  ((rest? "rename from " line).orElse fun _ => rest? "rename to " line).bind dots?

/-- The paths that one line adds. -/
def linePaths (line : List Char) : List String :=
  match gitLine line with
  | some (a, b) => [stripPatchPath a, stripPatchPath b]
  | none =>
    match markerLine line with
    | some marker => [stripPatchPath marker]
    | none => (renameLine line).toList.map stripPatchPath

/-- `extractPatchPaths(patch)`. -/
def extractPatchPaths (patch : String) : List String :=
  ((splitLines patch).flatMap linePaths).foldl
    (fun paths path => if path ∈ paths then paths else paths ++ [path]) []

/-! ## Protected paths -/

/-- `/(^|\/)name$/`. -/
def isNamed (name : String) (lower : List Char) : Bool :=
  lower = name.toList || ('/' :: name.toList).isSuffixOf lower

/-- `/^\.env($|[.\/])/`. -/
def isEnvHere (cs : List Char) : Bool :=
  match rest? ".env" cs with
  | none => false
  | some [] => true
  | some (c :: _) => c = '.' || c = '/'

/-- `/\/\.env($|[.\/])/`. -/
def isEnvBelow : List Char → Bool
  | [] => false
  | c :: cs => (c = '/' && isEnvHere cs) || isEnvBelow cs

/-- The names of `/(^|\/)(package-lock\.json|...)$/`. -/
def lockFiles : List String :=
  ["package-lock.json", "npm-shrinkwrap.json", "pnpm-lock.yaml", "yarn.lock", "bun.lockb"]

/-- The endings of `/\.(pem|key|pfx|p12|crt)$/i`. -/
def keyEndings : List String := [".pem", ".key", ".pfx", ".p12", ".crt"]

/-- `isProtectedPath(filePath)`. -/
def isProtectedPath (filePath : List Char) : Bool :=
  let lower := lowerCase filePath
  let root := lower.takeWhile fun c => c ≠ '/'
  isNamed "package.json" lower ||
    lockFiles.any (fun name => isNamed name lower) ||
    ["scripts/", ".github/", ".git/"].any (fun lead => lead.toList.isPrefixOf lower) ||
    (root.head? = some '.' || occursIn "/.".toList lower) ||
    (isEnvHere lower || isEnvBelow lower) ||
    keyEndings.any fun ending => ending.toList.isSuffixOf lower

/-- `filePath.replace(/\\/g, '/').replace(/^\.?\//, '')`. -/
def normalize (filePath : String) : List Char :=
  match filePath.toList.map fun c => if c = '\\' then '/' else c with
  | '.' :: '/' :: cs => cs
  | '/' :: cs => cs
  | cs => cs

/-- The first of the paths that is protected, as it is normalized. -/
def firstProtected : List String → Option (List Char)
  | [] => none
  | filePath :: paths =>
    let normalized := normalize filePath
    if normalized = [] ∨ normalized = "/dev/null".toList then firstProtected paths
    else if isProtectedPath normalized then some normalized
    else firstProtected paths

/-- `validateRepairPatch(patch)`; an error is a refusal with its reason. -/
def validateRepairPatch (patch : String) : Except String Unit :=
  let paths := extractPatchPaths patch
  if paths.length = 0 then .error "no_patch_paths"
  else
    match firstProtected paths with
    | some normalized => .error ("protected_path:" ++ String.ofList normalized)
    | none => .ok ()

/-! ## Evidence -/

/-- `extractRepairPatch(receipt)`, of the receipt's evidence. -/
def extractRepairPatch (evidence : String) : Option String :=
  (Json.parse id evidence).bind fun evidence =>
    let patch := (Json.stringField? "repairPatch" evidence).orElse fun _ =>
      Json.stringField? "patch" evidence
    patch.bind fun patch =>
      if patch = "" || 512000 < Js.length patch then none
      else if (after? "--- " patch).isNone && !includes "\n--- " patch then none
      else if !includes "\n+++ " patch then none
      else some patch

end Kovael.Repair
