import Mathlib.Data.List.Infix
import Kovael.Js.Json
import Kovael.Js.OrderedMap

/-!
# `WorkspaceManager`

`src/services/WorkspaceManager.ts` gives every cycle a directory under the workspace
root. An id is of safe characters, and its path must not lead out of the root. The check
is that the path relative to the root does not start with `..`, which is neither
necessary nor enough: the id `.` has the root itself as its path, and with it those of
all other cycles, while a child whose name begins with two dots is refused
(`workspaces_isolated_iff`).

Mirroring notes vs the TS:
- Paths are those of POSIX. An absolute path is the list of its segments, without the
  empty ones and the dots; the root is kept so, after `path.resolve`.
- The disk is the list of the files and directories on it. `mkdirSync` may throw, and
  then changes nothing that matters here; `rmSync` may throw after it removed a part of
  what is below its path, and the throw is caught.
-/

namespace Kovael.Triad

open Js (OrderedMap)

/-! ## Paths -/

/-- The segments of an absolute path. -/
abbrev Path := List String

/-- The next segment of a path that is normalized. -/
def pushSegment (path : Path) (segment : String) : Path :=
  if segment = "" ∨ segment = "." then path
  else if segment = ".." then path.dropLast
  else path ++ [segment]

/-- `path.join(root, name)`. -/
def joinPath (root : Path) (name : String) : Path :=
  ((name.toList.splitOn '/').map String.ofList).foldl pushSegment root

/-- The segments of `path.relative(source, target)`. -/
def relativeSegments : Path → Path → List String
  | a :: source, b :: target =>
    if a = b then relativeSegments source target
    else List.replicate (a :: source).length ".." ++ b :: target
  | source, target => List.replicate source.length ".." ++ target

/-- `path.relative(source, target)`. -/
def relativePath (source target : Path) : String := "/".intercalate (relativeSegments source target)

/-- An absolute path as text. -/
def pathText (path : Path) : String := "/" ++ "/".intercalate path

/-- `path.isAbsolute(p)`. -/
def isAbsolute (p : String) : Bool := ['/'].isPrefixOf p.toList

/-- `name.startsWith('..')`. -/
def startsWithDots (name : String) : Bool := ['.', '.'].isPrefixOf name.toList

/-! ## Workspaces -/

structure WorkspaceError where
  message : String
  code : String
  deriving DecidableEq, Repr

/-- A character of `SAFE_ID`. -/
def isSafeChar (c : Char) : Bool := c.isAlphanum || c = '.' || c = '_' || c = '-'

/-- `SAFE_ID.test(cycleId)`. -/
def isSafeId (cycleId : String) : Bool := !cycleId.toList.isEmpty && cycleId.toList.all isSafeChar

/-- `assertInsideRoot(candidate)`. -/
def assertInsideRoot (root candidate : Path) : Except WorkspaceError Unit :=
  let rel := relativePath root candidate
  if startsWithDots rel || isAbsolute rel then
    .error {
      message := "Resolved path " ++ pathText candidate ++ " escapes workspace root " ++ pathText root
      code := "root_escape" }
  else .ok ()

/-- The path of a cycle, unless it is refused. -/
def workspacePath (root : Path) (cycleId : String) : Except WorkspaceError Path :=
  if !isSafeId cycleId then
    .error {
      message := "Unsafe cycle id: " ++ Js.Json.quote cycleId ++
        " — must match /^[a-zA-Z0-9._-]+$/"
      code := "unsafe_id" }
  else
    let wsPath := joinPath root cycleId
    match assertInsideRoot root wsPath with
    | .error e => .error e
    | .ok () => .ok wsPath

structure WorkspaceConfig where
  root : Path
  cleanupOnRelease : Bool

/-- The manager's map of active cycles, and the disk. -/
structure Workspaces where
  active : OrderedMap String Path
  disk : List Path

/-- A call. -/
inductive WorkspaceCall where
  /-- `made`: `mkdirSync` does not throw. -/
  | acquire (cycleId : String) (made : Bool)
  /-- `left`: what `rmSync` leaves of the workspace. -/
  | release (cycleId : String) (left : List Path)

/-- `acquire(cycleId)`; where it throws nothing changes. -/
def Workspaces.acquire (root : Path) (w : Workspaces) (cycleId : String) (made : Bool) : Workspaces :=
  match workspacePath root cycleId with
  | .error _ => w
  | .ok wsPath =>
    if made then { active := w.active.set cycleId wsPath, disk := w.disk ++ wsPath.inits } else w

/-- `release(cycleId)`. -/
def Workspaces.release (cleanup : Bool) (w : Workspaces) (cycleId : String) (left : List Path) :
    Workspaces :=
  match w.active.get? cycleId with
  | none => w
  | some wsPath => {
      active := w.active.delete cycleId
      disk := if cleanup then w.disk.filter fun p => !wsPath.isPrefixOf p || left.contains p
        else w.disk }

def Workspaces.perform (cfg : WorkspaceConfig) (w : Workspaces) : WorkspaceCall → Workspaces
  | .acquire cycleId made => w.acquire cfg.root cycleId made
  | .release cycleId left => w.release cfg.cleanupOnRelease cycleId left

/-- After the calls, on a disk with some files. -/
def workspacesAfter (cfg : WorkspaceConfig) (disk : List Path) (calls : List WorkspaceCall) :
    Workspaces :=
  calls.foldl (Workspaces.perform cfg) ⟨.empty, disk⟩

/-! ## Isolation -/

/-- A name that a child of a directory can have. -/
def IsChildName (name : String) : Prop :=
  name ≠ "" ∧ name ≠ "." ∧ name ≠ ".." ∧ '/' ∉ name.toList

/-- Neither path lies in the subtree of the other. -/
def Apart (p q : Path) : Prop := ¬ p <+: q ∧ ¬ q <+: p

/-- What workspaces promise of a sequence of calls. -/
structure Isolated (cfg : WorkspaceConfig) (disk : List Path) (calls : List WorkspaceCall) : Prop where
  /-- An accepted id has a path below the root. -/
  inside : ∀ cycleId made path, .acquire cycleId made ∈ calls →
    workspacePath cfg.root cycleId = .ok path → cfg.root <+: path ∧ path ≠ cfg.root
  /-- Active cycles have nothing in common. -/
  disjoint : ∀ calls', calls' <+: calls → ∀ cycleId cycleId' path path', cycleId ≠ cycleId' →
    (workspacesAfter cfg disk calls').active.get? cycleId = some path →
      (workspacesAfter cfg disk calls').active.get? cycleId' = some path' → Apart path path'
  /-- A release removes at most what is below the path of its cycle. -/
  release : ∀ calls' cycleId left, calls' ++ [.release cycleId left] <+: calls →
    ∀ p ∈ (workspacesAfter cfg disk calls').disk,
      p ∈ (workspacesAfter cfg disk (calls' ++ [.release cycleId left])).disk ∨
        ∃ path, (workspacesAfter cfg disk calls').active.get? cycleId = some path ∧ path <+: p
  /-- A safe id that is a child's name is accepted. -/
  accepted : ∀ cycleId made, .acquire cycleId made ∈ calls → isSafeId cycleId = true →
    IsChildName cycleId → ∃ path, workspacePath cfg.root cycleId = .ok path

/-- A single dot, or a safe id that begins with two; two dots alone only where the root is
the root of the disk, which has no parent. -/
def IsDotted (root : Path) (cycleId : String) : Prop :=
  cycleId = "." ∨ isSafeId cycleId = true ∧ startsWithDots cycleId = true ∧
    (cycleId = ".." → root = [])

instance (root : Path) (cycleId : String) : Decidable (IsDotted root cycleId) :=
  inferInstanceAs (Decidable (_ ∨ _ ∧ _ ∧ (_ → _)))

/-! ## The path of an id -/

theorem relativeSegments_append (root target : Path) :
    relativeSegments root (root ++ target) = target := by
  induction root with
  | nil => rfl
  | cons a root ih =>
    rw [List.cons_append, relativeSegments, if_pos rfl]
    exact ih

theorem relativeSegments_dropLast {root : Path} (h : root ≠ []) :
    relativeSegments root root.dropLast = [".."] := by
  induction root with
  | nil => exact absurd rfl h
  | cons a root ih =>
    cases root with
    | nil => rfl
    | cons b root =>
      rw [List.dropLast_cons_of_ne_nil (List.cons_ne_nil b root), relativeSegments, if_pos rfl]
      exact ih (List.cons_ne_nil b root)

/-- A safe id is one segment. -/
theorem joinPath_safe {cycleId : String} (h : isSafeId cycleId = true) (root : Path) :
    joinPath root cycleId = pushSegment root cycleId := by
  have hslash : '/' ∉ cycleId.toList := by
    intro hmem
    rw [isSafeId, Bool.and_eq_true, List.all_eq_true] at h
    exact absurd (h.2 '/' hmem) (by decide)
  rw [joinPath, List.splitOn_eq_singleton hslash, List.map_singleton, List.foldl_cons,
    List.foldl_nil, String.ofList_toList]

theorem isSafeId_ne_empty {cycleId : String} (h : isSafeId cycleId = true) : cycleId ≠ "" := by
  intro heq
  obtain rfl := heq
  exact absurd h (by decide)

/-- The three kinds of paths that a safe id can have. -/
theorem joinPath_cases {cycleId : String} (h : isSafeId cycleId = true) (root : Path) :
    cycleId = "." ∧ joinPath root cycleId = root ∨
      cycleId = ".." ∧ joinPath root cycleId = root.dropLast ∨
      cycleId ≠ "." ∧ cycleId ≠ ".." ∧ joinPath root cycleId = root ++ [cycleId] := by
  rw [joinPath_safe h, pushSegment]
  by_cases hdot : cycleId = "."
  · rw [if_pos (Or.inr hdot)]
    exact Or.inl ⟨hdot, rfl⟩
  · rw [if_neg (not_or.mpr ⟨isSafeId_ne_empty h, hdot⟩)]
    by_cases hdots : cycleId = ".."
    · rw [if_pos hdots]
      exact Or.inr (Or.inl ⟨hdots, rfl⟩)
    · rw [if_neg hdots]
      exact Or.inr (Or.inr ⟨hdot, hdots, rfl⟩)

/-- A safe id is not absolute. -/
theorem isAbsolute_safe {cycleId : String} (h : isSafeId cycleId = true) :
    isAbsolute cycleId = false := by
  rw [isSafeId, Bool.and_eq_true, List.all_eq_true] at h
  rw [isAbsolute]
  cases hlist : cycleId.toList with
  | nil => rfl
  | cons c cs =>
    rw [hlist] at h
    have hc : c ≠ '/' := by
      intro heq
      obtain rfl := heq
      exact absurd (h.2 '/' (List.mem_cons_self ..)) (by decide)
    rw [List.isPrefixOf_cons_cons, beq_eq_false_iff_ne.mpr hc.symm, Bool.false_and]

/-- The path of an id that is accepted. -/
theorem workspacePath_eq_ok_iff (root : Path) (cycleId : String) (path : Path) :
    workspacePath root cycleId = .ok path ↔
      isSafeId cycleId = true ∧ (cycleId = "." ∧ path = root ∨
        cycleId = ".." ∧ root = [] ∧ path = root ∨
        startsWithDots cycleId = false ∧ cycleId ≠ "." ∧ path = root ++ [cycleId]) := by
  rw [workspacePath]
  cases hsafe : isSafeId cycleId with
  | false =>
    refine iff_of_false ?_ (fun h => absurd h.1 Bool.false_ne_true)
    intro h
    cases h
  | true =>
    rw [Bool.not_true, if_neg Bool.false_ne_true, and_iff_right rfl]
    dsimp only
    rcases joinPath_cases hsafe root with ⟨rfl, hjoin⟩ | ⟨rfl, hjoin⟩ | ⟨hdot, hdots, hjoin⟩
    · have hrel : relativePath root root = "" := by
        have hsegments := relativeSegments_append root []
        rw [List.append_nil] at hsegments
        rw [relativePath, hsegments]
        rfl
      rw [hjoin, assertInsideRoot, hrel]
      have hends : (startsWithDots "" || isAbsolute "") = false := by decide
      rw [hends, if_neg Bool.false_ne_true]
      dsimp only
      rw [Except.ok.injEq]
      constructor
      · intro h
        exact Or.inl ⟨rfl, h.symm⟩
      · intro hcases
        rcases hcases with ⟨-, h⟩ | ⟨h, -⟩ | ⟨-, h, -⟩
        · exact h.symm
        · exact absurd h (by decide)
        · exact absurd rfl h
    · rw [hjoin, assertInsideRoot]
      by_cases hroot : root = []
      · subst hroot
        have hends : (startsWithDots (relativePath [] []) || isAbsolute (relativePath [] []))
            = false := by decide
        rw [List.dropLast_nil, hends, if_neg Bool.false_ne_true]
        dsimp only
        rw [Except.ok.injEq]
        constructor
        · intro h
          exact Or.inr (Or.inl ⟨rfl, rfl, h.symm⟩)
        · intro hcases
          rcases hcases with ⟨h, -⟩ | ⟨-, -, h⟩ | ⟨h, -⟩
          · exact absurd h (by decide)
          · exact h.symm
          · exact absurd h (by decide)
      · have hends : (startsWithDots (relativePath root root.dropLast) ||
            isAbsolute (relativePath root root.dropLast)) = true := by
          rw [relativePath, relativeSegments_dropLast hroot]
          decide
        rw [hends, if_pos rfl]
        refine iff_of_false (fun h => by cases h) ?_
        intro hcases
        rcases hcases with ⟨h, -⟩ | ⟨-, h, -⟩ | ⟨h, -⟩
        · exact absurd h (by decide)
        · exact hroot h
        · exact absurd h (by decide)
    · have hrel : relativePath root (root ++ [cycleId]) = cycleId := by
        rw [relativePath, relativeSegments_append]
        exact String.intercalate_singleton
      rw [hjoin, assertInsideRoot, hrel, isAbsolute_safe hsafe, Bool.or_false]
      cases hbegins : startsWithDots cycleId with
      | true =>
        rw [if_pos rfl]
        refine iff_of_false (fun h => by cases h) ?_
        intro hcases
        rcases hcases with ⟨h, -⟩ | ⟨h, -⟩ | ⟨h, -⟩
        · exact hdot h
        · exact hdots h
        · cases h
      | false =>
        rw [if_neg Bool.false_ne_true]
        dsimp only
        rw [Except.ok.injEq]
        constructor
        · intro h
          exact Or.inr (Or.inr ⟨rfl, hdot, h.symm⟩)
        · intro hcases
          rcases hcases with ⟨h, -⟩ | ⟨h, -⟩ | ⟨-, -, h⟩
          · exact absurd h hdot
          · exact absurd h hdots
          · exact h.symm

/-- Without a dotted id, a path is that of a child. -/
theorem workspacePath_child {root : Path} {cycleId : String} (hdotted : ¬ IsDotted root cycleId)
    {path : Path} (h : workspacePath root cycleId = .ok path) : path = root ++ [cycleId] := by
  obtain ⟨hsafe, ⟨rfl, -⟩ | ⟨rfl, hroot, -⟩ | ⟨-, -, hpath⟩⟩ := (workspacePath_eq_ok_iff ..).mp h
  · exact absurd (Or.inl rfl) hdotted
  · exact absurd (Or.inr ⟨hsafe, by decide, fun _ => hroot⟩) hdotted
  · exact hpath

/-! ## Runs -/

/-- Every active cycle has a child of the root. -/
def Children (root : Path) (w : Workspaces) : Prop :=
  ∀ cycleId path, w.active.get? cycleId = some path → path = root ++ [cycleId]

theorem children_perform {cfg : WorkspaceConfig} {w : Workspaces} (h : Children cfg.root w)
    {call : WorkspaceCall}
    (hcall : ∀ cycleId made, call = .acquire cycleId made → ¬ IsDotted cfg.root cycleId) :
    Children cfg.root (w.perform cfg call) := by
  intro cycleId path hpath
  cases call with
  | acquire cycleId' made =>
    rw [Workspaces.perform, Workspaces.acquire] at hpath
    split at hpath
    next => exact h cycleId path hpath
    next wsPath hok =>
      split at hpath
      next =>
        rcases OrderedMap.get?_set_some hpath with ⟨rfl, rfl⟩ | ⟨-, hold⟩
        · exact workspacePath_child (hcall _ _ rfl) hok
        · exact h cycleId path hold
      next => exact h cycleId path hpath
  | release cycleId' left =>
    rw [Workspaces.perform, Workspaces.release] at hpath
    split at hpath
    next => exact h cycleId path hpath
    next => exact h cycleId path (OrderedMap.get?_delete_some hpath).2

theorem children_after (cfg : WorkspaceConfig) (disk : List Path) (calls : List WorkspaceCall)
    (hcalls : ∀ cycleId made, .acquire cycleId made ∈ calls → ¬ IsDotted cfg.root cycleId) :
    Children cfg.root (workspacesAfter cfg disk calls) := by
  have hfold : ∀ (calls : List WorkspaceCall) {w : Workspaces}, Children cfg.root w →
      (∀ cycleId made, .acquire cycleId made ∈ calls → ¬ IsDotted cfg.root cycleId) →
        Children cfg.root (calls.foldl (Workspaces.perform cfg) w) := by
    intro calls
    induction calls with
    | nil =>
      intro w h _
      exact h
    | cons call calls ih =>
      intro w h hcalls
      refine ih (children_perform h ?_) ?_
      · intro cycleId made heq
        obtain rfl := heq
        exact hcalls cycleId made (List.mem_cons_self ..)
      · intro cycleId made hmem
        exact hcalls cycleId made (List.mem_cons_of_mem _ hmem)
  refine hfold calls ?_ hcalls
  intro cycleId path hpath
  cases hpath

/-- Whatever is released, only what is below its path can go. -/
theorem release_keeps (cfg : WorkspaceConfig) (disk : List Path) (calls : List WorkspaceCall)
    (cycleId : String) (left : List Path) :
    ∀ p ∈ (workspacesAfter cfg disk calls).disk,
      p ∈ (workspacesAfter cfg disk (calls ++ [.release cycleId left])).disk ∨
        ∃ path, (workspacesAfter cfg disk calls).active.get? cycleId = some path ∧ path <+: p := by
  intro p hp
  have hstep : workspacesAfter cfg disk (calls ++ [.release cycleId left])
      = (workspacesAfter cfg disk calls).release cfg.cleanupOnRelease cycleId left := by
    rw [workspacesAfter, List.foldl_append]
    rfl
  rw [hstep, Workspaces.release]
  cases hactive : (workspacesAfter cfg disk calls).active.get? cycleId with
  | none => exact Or.inl hp
  | some wsPath =>
    dsimp only
    by_cases hbelow : wsPath <+: p
    · exact Or.inr ⟨wsPath, rfl, hbelow⟩
    · refine Or.inl ?_
      split
      next =>
        refine List.mem_filter.mpr ⟨hp, ?_⟩
        have hnot : wsPath.isPrefixOf p = false := by
          rw [← Bool.not_eq_true, List.isPrefixOf_iff_prefix]
          exact hbelow
        rw [hnot]
        rfl
      next => exact hp

/-- Workspaces are isolated exactly if no dotted id is asked for. -/
theorem workspaces_isolated_iff (cfg : WorkspaceConfig) (disk : List Path) (calls : List WorkspaceCall) :
    Isolated cfg disk calls ↔
      ∀ cycleId made, .acquire cycleId made ∈ calls → ¬ IsDotted cfg.root cycleId := by
  constructor
  · intro h cycleId made hmem hdotted
    have hroot : ¬ workspacePath cfg.root cycleId = .ok cfg.root :=
      fun hok => (h.inside cycleId made cfg.root hmem hok).2 rfl
    rcases hdotted with rfl | ⟨hsafe, hdots, hparent⟩
    · exact hroot ((workspacePath_eq_ok_iff ..).mpr ⟨by decide, Or.inl ⟨rfl, rfl⟩⟩)
    · by_cases htwo : cycleId = ".."
      · exact hroot ((workspacePath_eq_ok_iff ..).mpr
          ⟨hsafe, Or.inr (Or.inl ⟨htwo, hparent htwo, rfl⟩)⟩)
      · have hone : cycleId ≠ "." := by
          intro heq
          obtain rfl := heq
          exact absurd hdots (by decide)
        have hslash : '/' ∉ cycleId.toList := by
          intro hmem
          rw [isSafeId, Bool.and_eq_true, List.all_eq_true] at hsafe
          exact absurd (hsafe.2 '/' hmem) (by decide)
        obtain ⟨path, hpath⟩ := h.accepted cycleId made hmem hsafe
          ⟨isSafeId_ne_empty hsafe, hone, htwo, hslash⟩
        obtain ⟨-, ⟨h, -⟩ | ⟨h, -⟩ | ⟨h, -⟩⟩ := (workspacePath_eq_ok_iff ..).mp hpath
        · exact hone h
        · exact htwo h
        · rw [hdots] at h
          cases h
  · intro h
    refine ⟨?_, ?_, ?_, ?_⟩
    · intro cycleId made path hmem hpath
      rw [workspacePath_child (h cycleId made hmem) hpath]
      refine ⟨List.prefix_append .., ?_⟩
      intro heq
      have hlength := congrArg List.length heq
      rw [List.length_append, List.length_singleton] at hlength
      omega
    · intro calls' hbegins cycleId cycleId' path path' hne hpath hpath'
      have hchildren := children_after cfg disk calls'
        (fun cycleId made hmem => h cycleId made (hbegins.subset hmem))
      rw [hchildren cycleId path hpath, hchildren cycleId' path' hpath']
      -- two children of one length, with different names
      have hapart : ∀ {a b : String}, a ≠ b → ¬ cfg.root ++ [a] <+: cfg.root ++ [b] := by
        intro a b hab hway
        have hsame := hway.eq_of_length (by rw [List.length_append, List.length_append]; rfl)
        exact hab (List.singleton_inj.mp (List.append_cancel_left hsame))
      exact ⟨hapart hne, hapart hne.symm⟩
    · intro calls' cycleId left _
      exact release_keeps cfg disk calls' cycleId left
    · intro cycleId made hmem hsafe hname
      refine ⟨cfg.root ++ [cycleId], (workspacePath_eq_ok_iff ..).mpr ⟨hsafe, Or.inr (Or.inr ?_)⟩⟩
      refine ⟨?_, hname.2.1, rfl⟩
      by_contra hdots
      exact h cycleId made hmem (Or.inr ⟨hsafe, Bool.not_eq_false _ |>.mp hdots,
        fun htwo => absurd htwo hname.2.2.1⟩)

/-- The workspace of the id `.` is the root, with the workspace of another cycle in it. -/
theorem dot_not_isolated :
    ¬ Isolated ⟨["srv", "workspaces"], true⟩ [] [.acquire "." true, .acquire "cycle-1" true] := by
  intro h
  have hdisjoint := h.disjoint [.acquire "." true, .acquire "cycle-1" true] (List.prefix_refl _)
    "." "cycle-1" ["srv", "workspaces"] ["srv", "workspaces", "cycle-1"] (by decide) (by decide)
    (by decide)
  exact hdisjoint.1 ⟨["cycle-1"], rfl⟩

end Kovael.Triad
