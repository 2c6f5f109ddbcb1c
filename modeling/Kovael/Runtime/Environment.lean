import Kovael.Js.Json
import Kovael.Js.OrderedMap

/-!
# The environment of a runtime

What the supervisor hands to an adapter and the adapter to the runtime that it runs:
`buildAgentAdapterEnv` and `buildAgentRuntimeEnv` of `src/services/RuntimeSecurity.ts`, `childEnv`
of `src/services/AgentRuntimeSupervisor.ts` and `buildCommandEnv` of
`scripts/kovael-agent-inbox.mjs`, with the two processes that are spawned in between.
`runtimeVars_confined` says of every operator's environment and of every `allowEnv` that no name on
the denylist, in whatever case, is set in a runtime, and that what is set there the operator set
to the same value.

Mirroring notes:
- How names are compared is the platform's: exactly, or up to case on Windows, where `spawn` sorts
  the variables and keeps the first of those whose names are one in upper case.
- `toUpperCase` is a field of the platform, with what the denylist needs to know of it.
- A platform may set variables of its own in a process; they are left out.
-/

namespace Kovael.Runtime

open Js (OrderedMap units)

/-! ## The platform -/

/-- `name.toUpperCase()` of a name in ASCII. -/
def asciiUpper (name : String) : String := String.ofList (name.toList.map Char.toUpper)

/-- How a platform treats the names of variables. -/
structure Platform where
  win32 : Bool
  toUpperCase : String → String
  /-- Two names are those of one variable. -/
  sameName : String → String → Bool
  upper_ascii : ∀ name, (name.toList.all fun c => c.toNat < 128) = true →
    toUpperCase name = asciiUpper name
  same_refl : ∀ a, sameName a a = true
  same_symm : ∀ {a b}, sameName a b = true → sameName b a = true
  same_trans : ∀ {a b c}, sameName a b = true → sameName b c = true → sameName a c = true
  same_upper : ∀ {a b}, sameName a b = true → toUpperCase a = toUpperCase b
  same_posix : win32 = false → ∀ {a b}, sameName a b = true → a = b

/-- A platform that compares names exactly, for names in ASCII. -/
def posix : Platform where
  win32 := false
  toUpperCase := asciiUpper
  sameName a b := a = b
  upper_ascii := fun _ _ => rfl
  same_refl := fun _ => decide_eq_true rfl
  same_symm := fun h => decide_eq_true (of_decide_eq_true h).symm
  same_trans := fun h h' => decide_eq_true ((of_decide_eq_true h).trans (of_decide_eq_true h'))
  same_upper := fun h => congrArg asciiUpper (of_decide_eq_true h)
  same_posix := fun _ _ _ h => of_decide_eq_true h

/-- A platform that does not tell apart the cases of a name, for names in ASCII. -/
def caseless : Platform where
  win32 := true
  toUpperCase := asciiUpper
  sameName a b := asciiUpper a = asciiUpper b
  upper_ascii := fun _ _ => rfl
  same_refl := fun _ => decide_eq_true rfl
  same_symm := fun h => decide_eq_true (of_decide_eq_true h).symm
  same_trans := fun h h' => decide_eq_true ((of_decide_eq_true h).trans (of_decide_eq_true h'))
  same_upper := fun h => of_decide_eq_true h
  same_posix := fun h => (absurd h (by simp))

/-- An object of variables, as `spawn` takes it. -/
abbrev Vars := OrderedMap String String

/-- What a process sees as `process.env`. -/
structure ProcessEnv (p : Platform) where
  get : String → Option String
  respects : ∀ {a b}, p.sameName a b = true → get a = get b

namespace Platform

variable (p : Platform)

/-- The first of the variables whose names are one in upper case. -/
def firstOfEach (saw : List String) : List (String × String) → List (String × String)
  | [] => []
  | e :: es =>
    if p.toUpperCase e.1 ∈ saw then firstOfEach saw es
    else e :: firstOfEach (p.toUpperCase e.1 :: saw) es

/-- The variables with which `spawn` starts a process. -/
def spawnBlock (vars : Vars) : List (String × String) :=
  if p.win32 then
    p.firstOfEach [] (vars.entries.mergeSort fun e e' => decide (units e.1 ≤ units e'.1))
  else vars.entries

/-- `process.env` of the process that is started. -/
def spawned (vars : Vars) : ProcessEnv p where
  get name := ((p.spawnBlock vars).find? fun e => p.sameName e.1 name).map Prod.snd
  respects := by
    intro a b hab
    have hsame : ∀ e : String × String, p.sameName e.1 a = p.sameName e.1 b := fun e =>
      Bool.eq_iff_iff.mpr
        ⟨fun h => p.same_trans h hab, fun h => p.same_trans h (p.same_symm hab)⟩
    rw [funext hsame]

theorem mem_firstOfEach {e : String × String} : ∀ (es : List (String × String)) (saw : List String),
    e ∈ p.firstOfEach saw es → e ∈ es := by
  intro es
  induction es with
  | nil => exact fun _ h => h
  | cons e' es ih =>
    intro saw h
    rw [firstOfEach] at h
    split at h
    · exact List.mem_cons_of_mem _ (ih _ h)
    · rcases List.mem_cons.mp h with rfl | h
      · exact List.mem_cons_self ..
      · exact List.mem_cons_of_mem _ (ih _ h)

theorem mem_spawnBlock {vars : Vars} {e : String × String} (h : e ∈ p.spawnBlock vars) :
    e ∈ vars.entries := by
  rw [spawnBlock] at h
  split at h
  · exact List.mem_mergeSort.mp (p.mem_firstOfEach _ _ h)
  · exact h

/-- A variable of the process is one of the object, under a name that is the same. -/
theorem spawned_some {vars : Vars} {name v : String} (h : (p.spawned vars).get name = some v) :
    ∃ key, vars.get? key = some v ∧ p.sameName key name = true := by
  obtain ⟨e, hfind, rfl⟩ := Option.map_eq_some_iff.mp h
  have hmem := p.mem_spawnBlock (List.mem_of_find?_eq_some hfind)
  have hsame : p.sameName e.1 name = true :=
    @List.find?_some _ (fun e : String × String => p.sameName e.1 name) _ _ hfind
  exact ⟨e.1, (vars.mem_entries_iff e.1 e.2).mp hmem, hsame⟩

theorem mem_firstOfEach_alone {e : String × String} : ∀ (es : List (String × String))
    (saw : List String), e ∈ es → p.toUpperCase e.1 ∉ saw →
    (∀ e' ∈ es, p.toUpperCase e'.1 = p.toUpperCase e.1 → e' = e) → e ∈ p.firstOfEach saw es := by
  intro es
  induction es with
  | nil => exact fun _ h => absurd h (by simp)
  | cons e' es ih =>
    intro saw hmem hsaw halone
    have hrest : ∀ e'' ∈ es, p.toUpperCase e''.1 = p.toUpperCase e.1 → e'' = e := fun e'' he'' =>
      halone e'' (List.mem_cons_of_mem _ he'')
    rw [firstOfEach]
    by_cases hupper : p.toUpperCase e'.1 = p.toUpperCase e.1
    · obtain rfl := halone e' (List.mem_cons_self ..) hupper
      rw [if_neg hsaw]
      exact List.mem_cons_self ..
    · have hin : e ∈ es := (List.mem_cons.mp hmem).resolve_left fun heq => hupper (by rw [heq])
      split
      next => exact ih saw hin hsaw hrest
      next =>
        refine List.mem_cons_of_mem _ (ih _ hin ?_ hrest)
        exact fun hsaw' => (List.mem_cons.mp hsaw').elim (fun heq => hupper heq.symm) hsaw

/-- A variable that `spawn` keeps is seen as it was set. -/
theorem spawned_kept {vars : Vars} {name : String}
    (hkept : ∀ v, vars.get? name = some v → (name, v) ∈ p.spawnBlock vars)
    (honly : ∀ key v, vars.get? key = some v → p.sameName key name = true → key = name) :
    (p.spawned vars).get name = vars.get? name := by
  apply Option.ext
  intro v
  constructor
  · intro h
    obtain ⟨key, hkey, hsame⟩ := p.spawned_some h
    rwa [honly key v hkey hsame] at hkey
  · intro h
    cases hget : (p.spawned vars).get name with
    | none =>
      rw [spawned, Option.map_eq_none_iff, List.find?_eq_none] at hget
      exact absurd (p.same_refl name) (hget _ (hkept v h))
    | some w =>
      obtain ⟨key, hkey, hsame⟩ := p.spawned_some hget
      rw [honly key w hkey hsame, h] at hkey
      exact hkey.symm

/-- A variable that no other shares its name with, up to case. -/
theorem spawned_alone {vars : Vars} {name : String}
    (halone : ∀ key v, vars.get? key = some v → p.toUpperCase key = p.toUpperCase name →
      key = name) : (p.spawned vars).get name = vars.get? name := by
  refine p.spawned_kept ?_ fun key v hkey hsame => halone key v hkey (p.same_upper hsame)
  intro v h
  have hentry : (name, v) ∈ vars.entries := (vars.mem_entries_iff name v).mpr h
  have honly : ∀ e ∈ vars.entries, p.toUpperCase e.1 = p.toUpperCase name → e = (name, v) := by
    intro e he hupper
    have hget := (vars.mem_entries_iff e.1 e.2).mp he
    obtain rfl := halone e.1 e.2 hget hupper
    rw [h, Option.some.injEq] at hget
    rw [hget]
  rw [spawnBlock]
  split
  next =>
    exact p.mem_firstOfEach_alone _ _ (List.mem_mergeSort.mpr hentry) List.not_mem_nil
      fun e he => honly e (List.mem_mergeSort.mp he)
  next => exact hentry

/-- Where names are compared exactly, a process sees the object. -/
theorem spawned_posix (hposix : p.win32 = false) (vars : Vars) (name : String) :
    (p.spawned vars).get name = vars.get? name := by
  refine p.spawned_kept (fun v h => ?_) fun key v _ hsame => p.same_posix hposix hsame
  rw [spawnBlock, hposix, if_neg Bool.false_ne_true]
  exact (vars.mem_entries_iff name v).mpr h

end Platform

/-! ## The lists -/

def agentHubSecretEnv : String := "KOVAEL_AGENT_HUB_SECRET"
def agentHubEncryptionEnv : String := "KOVAEL_AGENT_HUB_ENCRYPTION"
def requiredHubEncryption : String := "required"
def commandAdapterAllowEnv : String := "KOVAEL_COMMAND_ADAPTER_ALLOW"

def platformEnvAllowlist : List String :=
  ["PATH", "Path", "PATHEXT", "SystemRoot", "WINDIR", "TEMP", "TMP", "HOME", "USERPROFILE",
    "APPDATA", "LOCALAPPDATA", "XDG_CONFIG_HOME", "XDG_DATA_HOME", "XDG_CACHE_HOME", "SHELL",
    "COMSPEC"]

def proxyEnvAllowlist : List String :=
  ["HTTP_PROXY", "HTTPS_PROXY", "ALL_PROXY", "NO_PROXY", "http_proxy", "https_proxy", "all_proxy",
    "no_proxy"]

def runtimeLocatorEnvAllowlist : List String := ["KOVAEL_CODEX_BIN", "KOVAEL_CLAUDE_BIN"]

/-- `COMMAND_ENV_DENYLIST`, of the supervisor and of the adapter. -/
def commandEnvDenylist : List String :=
  ["KOVAEL_AGENT_HUB_SECRET", "KOVAEL_CHAIR_DISPATCH_SECRET", "KOVAEL_API_TOKEN", "KOVAEL_TOKEN",
    "KOVAEL_AGENT_HUB_ENCRYPTION"]

/-- `isDeniedCommandEnvName(name)`. -/
def isDeniedCommandEnvName (p : Platform) (name : String) : Bool :=
  commandEnvDenylist.any fun denied => p.toUpperCase name = denied

/-! ## The environments -/

/-- `copyAllowlisted(source, target, names)`. -/
def copyAllowlisted (source : String → Option String) (target : Vars) (names : List String) :
    Vars :=
  names.foldl
    (fun env name =>
      match source name with
      | some v => env.set name v
      | none => env)
    target

/-- A value that is not empty. -/
def truthy? (value : Option String) : Option String := value.filter fun v => v ≠ ""

/-- `if (value) env[name] = value`. -/
def setTruthy (env : Vars) (name : String) (value : Option String) : Vars :=
  match truthy? value with
  | some v => env.set name v
  | none => env

/-- `buildAgentAdapterEnv(source, { requireHubEncryption })`. -/
def buildAgentAdapterEnv (source : String → Option String) (requireHubEncryption : Bool) : Vars :=
  let env := copyAllowlisted source .empty platformEnvAllowlist
  let env := copyAllowlisted source env proxyEnvAllowlist
  let env := copyAllowlisted source env runtimeLocatorEnvAllowlist
  -- an empty `KOVAEL_TOKEN` hides `KOVAEL_API_TOKEN`
  let env := setTruthy env "KOVAEL_TOKEN" ((source "KOVAEL_TOKEN").or (source "KOVAEL_API_TOKEN"))
  let env := setTruthy env "KOVAEL_CHAIR_DISPATCH_SECRET" (source "KOVAEL_CHAIR_DISPATCH_SECRET")
  let env := setTruthy env agentHubSecretEnv (source agentHubSecretEnv)
  if requireHubEncryption then env.set agentHubEncryptionEnv requiredHubEncryption else env

/-- `buildAgentRuntimeEnv(source)`. -/
def buildAgentRuntimeEnv (source : String → Option String) : Vars :=
  copyAllowlisted source (copyAllowlisted source .empty platformEnvAllowlist) proxyEnvAllowlist

/-- The loop over `allowEnv`, of the supervisor and of the adapter. -/
def addAllowed (p : Platform) (source : String → Option String) (env : Vars)
    (allowEnv : List String) : Vars :=
  copyAllowlisted source env (allowEnv.filter fun name => !isDeniedCommandEnvName p name)

/-- `childEnv(spec)` of the supervisor. -/
def childEnv (p : Platform) (source : String → Option String) (requireHubEncryption : Bool)
    (runtime : String) (allowEnv : List String) : Vars :=
  let env := buildAgentAdapterEnv source requireHubEncryption
  if runtime = "command" then
    addAllowed p source
      (setTruthy env commandAdapterAllowEnv (source commandAdapterAllowEnv)) allowEnv
  else env

/-- `buildCommandEnv(cfg)` of the adapter. -/
def buildCommandEnv (p : Platform) (source : String → Option String) (allowEnv : List String) :
    Vars :=
  addAllowed p source (buildAgentRuntimeEnv source) allowEnv

/-- The variables that the adapter gives to the runtime that it runs. -/
def runtimeVars (p : Platform) (source : String → Option String) (runtime : String)
    (allowEnv : List String) : Vars :=
  if runtime = "command" then buildCommandEnv p source allowEnv else buildAgentRuntimeEnv source

/-! ## What they hold -/

section

variable {source : String → Option String} {target : Vars}

theorem get?_copyAllowlisted (source : String → Option String) (key : String) :
    ∀ (names : List String) (target : Vars), (copyAllowlisted source target names).get? key
      = if key ∈ names then (source key).or (target.get? key) else target.get? key := by
  intro names
  induction names with
  | nil =>
    intro target
    rw [if_neg List.not_mem_nil]
    rfl
  | cons name names ih =>
    intro target
    rw [copyAllowlisted, List.foldl_cons]
    show (copyAllowlisted source _ names).get? key = _
    rw [ih]
    by_cases hname : key = name
    · subst hname
      rw [if_pos (List.mem_cons_self ..)]
      cases source key with
      | none => simp
      | some v => simp
    · have hkept : (match source name with
          | some v => target.set name v
          | none => target).get? key = target.get? key := by
        cases source name with
        | none => rfl
        | some v => exact target.get?_set_ne v hname
      simp only [hkept, List.mem_cons, hname, false_or]

/-- What is set after copying was copied, or was there. -/
theorem copyAllowlisted_some {names : List String} {key v : String}
    (h : (copyAllowlisted source target names).get? key = some v) :
    (key ∈ names ∧ source key = some v) ∨ target.get? key = some v := by
  rw [get?_copyAllowlisted] at h
  split at h
  next hkey =>
    rcases Option.or_eq_some_iff.mp h with h | ⟨-, h⟩
    · exact Or.inl ⟨hkey, h⟩
    · exact Or.inr h
  next => exact Or.inr h

theorem get?_setTruthy (env : Vars) (name : String) (value : Option String) (key : String) :
    (setTruthy env name value).get? key
      = if key = name then (truthy? value).or (env.get? key) else env.get? key := by
  rw [setTruthy]
  cases truthy? value with
  | none => simp
  | some v => exact OrderedMap.get?_set ..

theorem truthy?_some {value : Option String} {v : String} (h : truthy? value = some v) :
    value = some v :=
  (Option.filter_eq_some_iff.mp h).1

theorem setTruthy_some {name : String} {value : Option String} {key v : String}
    (h : (setTruthy target name value).get? key = some v) :
    (key = name ∧ value = some v) ∨ target.get? key = some v := by
  rw [get?_setTruthy] at h
  split at h
  next hkey =>
    rcases Option.or_eq_some_iff.mp h with h | ⟨-, h⟩
    · exact Or.inl ⟨hkey, truthy?_some h⟩
    · exact Or.inr h
  next => exact Or.inr h

theorem addAllowed_some {p : Platform} {allowEnv : List String} {key v : String}
    (h : (addAllowed p source target allowEnv).get? key = some v) :
    (key ∈ allowEnv ∧ isDeniedCommandEnvName p key = false ∧ source key = some v) ∨
      target.get? key = some v := by
  rcases copyAllowlisted_some h with ⟨hkey, hv⟩ | hold
  · obtain ⟨hkey, hallowed⟩ := List.mem_filter.mp hkey
    exact Or.inl ⟨hkey, by simpa using hallowed, hv⟩
  · exact Or.inr hold

/-- Where the variables of an adapter come from. -/
inductive Handed (p : Platform) (source : String → Option String) (runtime : String)
    (allowEnv : List String) (key v : String) : Prop
  | listed (hkey : key ∈ platformEnvAllowlist ++ proxyEnvAllowlist ++ runtimeLocatorEnvAllowlist)
      (hv : source key = some v)
  | token (hkey : key = "KOVAEL_TOKEN")
  | dispatch (hkey : key = "KOVAEL_CHAIR_DISPATCH_SECRET")
  | hub (hkey : key = agentHubSecretEnv)
  | encryption (hkey : key = agentHubEncryptionEnv)
  | allow (hcommand : runtime = "command") (hkey : key = commandAdapterAllowEnv)
      (hv : source key = some v)
  | named (hcommand : runtime = "command") (hkey : key ∈ allowEnv)
      (hallowed : isDeniedCommandEnvName p key = false) (hv : source key = some v)

theorem buildAgentAdapterEnv_some {p : Platform} {requireHubEncryption : Bool} {runtime : String}
    {allowEnv : List String} {key v : String}
    (h : (buildAgentAdapterEnv source requireHubEncryption).get? key = some v) :
    Handed p source runtime allowEnv key v := by
  have hbelow : ∀ env, env = buildAgentAdapterEnv source false → env.get? key = some v →
      Handed p source runtime allowEnv key v := by
    intro env henv hget
    subst henv
    rcases setTruthy_some hget with ⟨hkey, -⟩ | hget
    · exact .hub hkey
    rcases setTruthy_some hget with ⟨hkey, -⟩ | hget
    · exact .dispatch hkey
    rcases setTruthy_some hget with ⟨hkey, -⟩ | hget
    · exact .token hkey
    rcases copyAllowlisted_some hget with ⟨hkey, hv⟩ | hget
    · exact .listed (List.mem_append_right _ hkey) hv
    rcases copyAllowlisted_some hget with ⟨hkey, hv⟩ | hget
    · exact .listed (List.mem_append_left _ (List.mem_append_right _ hkey)) hv
    rcases copyAllowlisted_some hget with ⟨hkey, hv⟩ | hget
    · exact .listed (List.mem_append_left _ (List.mem_append_left _ hkey)) hv
    · exact absurd hget (by simp)
  cases requireHubEncryption with
  | false => exact hbelow _ rfl h
  | true =>
    rcases OrderedMap.get?_set_some h with ⟨hkey, -⟩ | ⟨-, h⟩
    · exact .encryption hkey
    · exact hbelow _ rfl h

theorem childEnv_some {p : Platform} {requireHubEncryption : Bool} {runtime : String}
    {allowEnv : List String} {key v : String}
    (h : (childEnv p source requireHubEncryption runtime allowEnv).get? key = some v) :
    Handed p source runtime allowEnv key v := by
  rw [childEnv] at h
  split at h
  next hcommand =>
    rcases addAllowed_some h with ⟨hkey, hallowed, hv⟩ | h
    · exact .named hcommand hkey hallowed hv
    rcases setTruthy_some h with ⟨hkey, hv⟩ | h
    · exact .allow hcommand hkey (hkey ▸ hv)
    · exact buildAgentAdapterEnv_some h
  next => exact buildAgentAdapterEnv_some h

/-- A variable of a runtime is one of the adapter, on the lists, or named for a command. -/
theorem runtimeVars_some {p : Platform} {runtime : String} {allowEnv : List String}
    {key v : String} (h : (runtimeVars p source runtime allowEnv).get? key = some v) :
    source key = some v ∧ (key ∈ platformEnvAllowlist ++ proxyEnvAllowlist ∨
      runtime = "command" ∧ key ∈ allowEnv ∧ isDeniedCommandEnvName p key = false) := by
  have hbelow : (buildAgentRuntimeEnv source).get? key = some v →
      source key = some v ∧ key ∈ platformEnvAllowlist ++ proxyEnvAllowlist := by
    intro hget
    rcases copyAllowlisted_some hget with ⟨hkey, hv⟩ | hget
    · exact ⟨hv, List.mem_append_right _ hkey⟩
    rcases copyAllowlisted_some hget with ⟨hkey, hv⟩ | hget
    · exact ⟨hv, List.mem_append_left _ hkey⟩
    · exact absurd hget (by simp)
  rw [runtimeVars] at h
  split at h
  next hcommand =>
    rcases addAllowed_some h with ⟨hkey, hallowed, hv⟩ | h
    · exact ⟨hv, Or.inr ⟨hcommand, hkey, hallowed⟩⟩
    · exact (hbelow h).imp_right Or.inl
  next => exact (hbelow h).imp_right Or.inl

end

/-! ## What a runtime sees -/

/-- The names on the lists are not denied. -/
theorem located_allowed (p : Platform) {key : String}
    (h : key ∈ platformEnvAllowlist ++ proxyEnvAllowlist ++ runtimeLocatorEnvAllowlist ++
      [commandAdapterAllowEnv]) : isDeniedCommandEnvName p key = false := by
  have hall : ∀ name ∈ platformEnvAllowlist ++ proxyEnvAllowlist ++ runtimeLocatorEnvAllowlist ++
      [commandAdapterAllowEnv],
      (name.toList.all fun c => c.toNat < 128) = true ∧ asciiUpper name ∉ commandEnvDenylist := by
    decide
  obtain ⟨hascii, hfree⟩ := hall key h
  rw [isDeniedCommandEnvName, p.upper_ascii key hascii, List.any_eq_false]
  intro denied hdenied heq
  exact hfree (of_decide_eq_true heq ▸ hdenied)

theorem listed_allowed (p : Platform) {key : String}
    (h : key ∈ platformEnvAllowlist ++ proxyEnvAllowlist) :
    isDeniedCommandEnvName p key = false :=
  located_allowed p (List.mem_append_left _ (List.mem_append_left _ h))

/-- A name on the denylist is denied, however it is written. -/
theorem denied_of_same (p : Platform) {key denied : String} (hdenied : denied ∈ commandEnvDenylist)
    (h : p.sameName key denied = true) : isDeniedCommandEnvName p key = true := by
  have hall : ∀ name ∈ commandEnvDenylist,
      (name.toList.all fun c => c.toNat < 128) = true ∧ asciiUpper name = name := by
    decide
  obtain ⟨hascii, hupper⟩ := hall denied hdenied
  have hkey : p.toUpperCase key = denied := by
    rw [p.same_upper h, p.upper_ascii denied hascii, hupper]
  exact List.any_eq_true.mpr ⟨denied, hdenied, decide_eq_true hkey⟩

theorem denied_same (p : Platform) {a b : String} (h : p.sameName a b = true) :
    isDeniedCommandEnvName p a = isDeniedCommandEnvName p b := by
  rw [isDeniedCommandEnvName, isDeniedCommandEnvName, p.same_upper h]

section

variable {source : String → Option String} {target : Vars} {key v : String}

theorem copyAllowlisted_keeps {names : List String} (hv : source key = some v)
    (h : key ∈ names ∨ target.get? key = some v) :
    (copyAllowlisted source target names).get? key = some v := by
  rw [get?_copyAllowlisted, hv, Option.some_or]
  split
  next => rfl
  next hkey => exact h.resolve_left hkey

theorem setTruthy_keeps {name : String} {value : Option String}
    (hsame : key = name → value = some v)
    (h : target.get? key = some v) : (setTruthy target name value).get? key = some v := by
  rw [get?_setTruthy]
  split
  next hkey =>
    cases htruthy : truthy? value with
    | none => exact h
    | some w => rw [Option.some_or, ← truthy?_some htruthy, hsame hkey]
  next => exact h

theorem ne_of_allowed (p : Platform) {denied : String} (hdenied : denied ∈ commandEnvDenylist)
    (hallowed : isDeniedCommandEnvName p key = false) : key ≠ denied := by
  intro heq
  rw [heq, denied_of_same p hdenied (p.same_refl denied)] at hallowed
  exact Bool.noConfusion hallowed

/-- A variable that an adapter passes on. -/
def PassedOn (p : Platform) (runtime : String) (allowEnv : List String) (key : String) : Prop :=
  key ∈ platformEnvAllowlist ++ proxyEnvAllowlist ∨
    runtime = "command" ∧ key ∈ allowEnv ∧ isDeniedCommandEnvName p key = false

theorem PassedOn.allowed {p : Platform} {runtime : String} {allowEnv : List String}
    (h : PassedOn p runtime allowEnv key) : isDeniedCommandEnvName p key = false :=
  h.elim (listed_allowed p) fun hnamed => hnamed.2.2

theorem buildAgentAdapterEnv_keeps (p : Platform) (requireHubEncryption : Bool)
    (hv : source key = some v)
    (hkey : key ∈ platformEnvAllowlist ++ proxyEnvAllowlist ++ runtimeLocatorEnvAllowlist) :
    (buildAgentAdapterEnv source requireHubEncryption).get? key = some v := by
  have hne : ∀ denied ∈ commandEnvDenylist, key ≠ denied := fun denied hdenied =>
    ne_of_allowed p hdenied (located_allowed p (List.mem_append_left _ hkey))
  have hcopied : (copyAllowlisted source (copyAllowlisted source (copyAllowlisted source .empty
      platformEnvAllowlist) proxyEnvAllowlist) runtimeLocatorEnvAllowlist).get? key = some v := by
    rcases List.mem_append.mp hkey with hkey | hkey
    · refine copyAllowlisted_keeps hv (Or.inr ?_)
      rcases List.mem_append.mp hkey with hkey | hkey
      · exact copyAllowlisted_keeps hv (Or.inr (copyAllowlisted_keeps hv (Or.inl hkey)))
      · exact copyAllowlisted_keeps hv (Or.inl hkey)
    · exact copyAllowlisted_keeps hv (Or.inl hkey)
  have htold : (buildAgentAdapterEnv source false).get? key = some v :=
    setTruthy_keeps (fun h => absurd h (hne _ (by decide)))
      (setTruthy_keeps (fun h => absurd h (hne _ (by decide)))
        (setTruthy_keeps (fun h => absurd h (hne _ (by decide))) hcopied))
  cases requireHubEncryption with
  | false => exact htold
  | true => exact (OrderedMap.get?_set_ne _ _ (hne _ (by decide))).trans htold

/-- But for what is denied, an adapter has its variables from the operator. -/
theorem handed_source {p : Platform} {runtime : String} {allowEnv : List String}
    (h : Handed p source runtime allowEnv key v)
    (hne : ∀ denied ∈ commandEnvDenylist, key ≠ denied) :
    source key = some v := by
  cases h with
  | listed _ hv => exact hv
  | token hkey => exact absurd hkey (hne _ (by decide))
  | dispatch hkey => exact absurd hkey (hne _ (by decide))
  | hub hkey => exact absurd hkey (hne _ (by decide))
  | encryption hkey => exact absurd hkey (hne _ (by decide))
  | allow _ _ hv => exact hv
  | named _ _ _ hv => exact hv

/-- What the adapter passes on, it has from the operator. -/
theorem childEnv_passed (p : Platform) {requireHubEncryption : Bool} {runtime : String}
    {allowEnv : List String} (h : PassedOn p runtime allowEnv key) :
    (childEnv p source requireHubEncryption runtime allowEnv).get? key = source key := by
  apply Option.ext
  intro v
  constructor
  · intro hget
    exact handed_source (childEnv_some hget) fun denied hdenied =>
      ne_of_allowed p hdenied h.allowed
  · intro hv
    rw [childEnv]
    rcases h with hkey | ⟨hcommand, hkey, hallowed⟩
    · have hbelow := buildAgentAdapterEnv_keeps p requireHubEncryption hv
        (List.mem_append_left _ hkey)
      split
      next => exact copyAllowlisted_keeps hv (Or.inr (setTruthy_keeps (fun heq => heq ▸ hv) hbelow))
      next => exact hbelow
    · rw [if_pos hcommand]
      exact copyAllowlisted_keeps hv (Or.inl (List.mem_filter.mpr ⟨hkey, by simp [hallowed]⟩))

theorem get?_runtimeVars (p : Platform) (runtime : String) (allowEnv : List String)
    (h : PassedOn p runtime allowEnv key) :
    (runtimeVars p source runtime allowEnv).get? key = source key := by
  apply Option.ext
  intro v
  refine ⟨fun hget => (runtimeVars_some hget).1, fun hv => ?_⟩
  rw [runtimeVars]
  rcases h with hkey | ⟨hcommand, hkey, hallowed⟩
  · have hbelow : (buildAgentRuntimeEnv source).get? key = some v := by
      rcases List.mem_append.mp hkey with hkey | hkey
      · exact copyAllowlisted_keeps hv (Or.inr (copyAllowlisted_keeps hv (Or.inl hkey)))
      · exact copyAllowlisted_keeps hv (Or.inl hkey)
    split
    next => exact copyAllowlisted_keeps hv (Or.inr hbelow)
    next => exact hbelow
  · rw [if_pos hcommand]
    exact copyAllowlisted_keeps hv (Or.inl (List.mem_filter.mpr ⟨hkey, by simp [hallowed]⟩))

end

/-- What a runtime sees of the environment of the operator, where the manifest has `runtime` and
names `named`, and the adapter was told `runtime'` and `allowEnv`. -/
structure Confined (p : Platform) (source child : ProcessEnv p) (runtime : String)
    (named : List String) (runtime' : String) (allowEnv : List String) : Prop where
  /-- Nothing that is denied is set. -/
  secretless : ∀ denied ∈ commandEnvDenylist, child.get denied = none
  /-- What is set, the operator set to the same value. -/
  faithful : ∀ name v, child.get name = some v → source.get name = some v
  /-- What is set is on the lists, or was named for a command. -/
  listed : ∀ name v, child.get name = some v → ∃ key, p.sameName key name = true ∧
    PassedOn p runtime' allowEnv key
  /-- Where names are compared exactly, what is passed on is set whenever the operator set it. -/
  complete : p.win32 = false → ∀ name, PassedOn p runtime named name →
    PassedOn p runtime' allowEnv name → child.get name = source.get name

section

variable {p : Platform} {source : ProcessEnv p} {requireHubEncryption : Bool}
  {runtime runtime' : String} {named allowEnv : List String}

theorem runtimeVars_from {name v : String}
    (h : (p.spawned (runtimeVars p
      (p.spawned (childEnv p source.get requireHubEncryption runtime named)).get
      runtime' allowEnv)).get name = some v) :
    source.get name = some v ∧
      ∃ key, p.sameName key name = true ∧ PassedOn p runtime' allowEnv key := by
  obtain ⟨key, hkey, hsame⟩ := p.spawned_some h
  obtain ⟨hadapter, hpassed⟩ := runtimeVars_some hkey
  have hallowed : isDeniedCommandEnvName p key = false := PassedOn.allowed hpassed
  -- the adapter may know the variable by another case of its name
  obtain ⟨key', hkey', hsame'⟩ := p.spawned_some hadapter
  have hne : ∀ denied ∈ commandEnvDenylist, key' ≠ denied := fun denied hdenied =>
    ne_of_allowed p hdenied ((denied_same p hsame').trans hallowed)
  have hsource : source.get key' = some v := handed_source (childEnv_some hkey') hne
  have hname : source.get name = some v := by
    rw [← source.respects (p.same_trans hsame' hsame), hsource]
  exact ⟨hname, key, hsame, hpassed⟩

/-- Whatever the manifest names and the adapter is told. -/
theorem runtimeVars_confined :
    Confined p source (p.spawned (runtimeVars p
      (p.spawned (childEnv p source.get requireHubEncryption runtime named)).get
      runtime' allowEnv)) runtime named runtime' allowEnv := by
  refine ⟨?_, fun name v hget => (runtimeVars_from hget).1,
    fun name v hget => (runtimeVars_from hget).2, ?_⟩
  · intro denied hdenied
    rw [Option.eq_none_iff_forall_ne_some]
    intro v hget
    obtain ⟨key, hsame, hpassed⟩ := (runtimeVars_from hget).2
    exact absurd (denied_of_same p hdenied hsame) (by simp [hpassed.allowed])
  · intro hposix name hnamed hpassed
    rw [p.spawned_posix hposix, get?_runtimeVars p runtime' allowEnv hpassed,
      p.spawned_posix hposix, childEnv_passed p hnamed]

end

end Kovael.Runtime
