import Kovael.Runtime.Handoff

/-!
# The processes of the runtimes

From the manifests of the chairs to the processes that the adapters spawn:
`src/services/runtime/AdapterRegistry.ts`, `builtinAdapters.ts` and `CommandAdapter.ts`,
`defaultAgentRuntimeSpecs` and the preflight summary of `src/services/AgentRuntimeSupervisor.ts`,
and `runRuntime` with what it calls in `scripts/kovael-agent-inbox.mjs`. `runtime_processes` says,
of every set of manifests and every environment, that without the operator's leave no runtime is
given full access and no command runs, and that the preflight summary of a chair says with which
policy and which executable its runtime runs.

Mirroring notes:
- A card keeps the fields that a specification is made of. A table of cards has no entries but its
  own.
- `fake-deterministic` replies without a process, with a digest that is left out.
- Of the messages of a payload the fields are kept that are strings.
-/

namespace Kovael.Runtime

open Js (OrderedMap takeUnits trim commaItems)

/-! ## Adapters -/

inductive SandboxMode where
  | readOnly
  | dangerFullAccess
  deriving DecidableEq

def SandboxMode.text : SandboxMode → String
  | .readOnly => "read-only"
  | .dangerFullAccess => "danger-full-access"

structure RuntimePolicy where
  sandboxMode : Option SandboxMode
  permissionMode : Option String
  allowedTools : Option (List String)
  sessionPersistence : Option Bool
  deriving DecidableEq

/-- `runtime` of a manifest. -/
structure ChairRuntime where
  kind : String
  supervised : Option Bool
  command : Option String
  args : Option (List String)
  allowEnv : Option (List String)
  elevated : Option Bool

structure AgentCard where
  id : String
  provider : String
  mcpCapabilities : List String
  trustTier : Int
  runtime : Option ChairRuntime

/-- What an executable is looked for in. -/
structure FileHost where
  win32 : Bool
  /-- `process.execPath`. -/
  execPath : String
  homedir : String
  join : List String → String
  existsSync : String → Bool

structure RuntimeAdapter where
  kind : String
  supervised : Bool
  buildSpec : AgentCard → AgentRuntimeSpec
  policy : RuntimePolicy
  resolveExecutable : FileHost → (String → Option String) → String

/-- `specFrom(card, runtime)`. -/
def specFrom (card : AgentCard) (runtime : String) : AgentRuntimeSpec where
  agentId := card.id
  provider := card.provider
  runtime := runtime
  capabilities := some card.mcpCapabilities
  trustTier := some card.trustTier
  cwd := none
  model := none
  enabled := none
  command := none
  args := none
  allowEnv := none

/-- The script that npm installs on Windows. -/
def codexScript (host : FileHost) (env : String → Option String) : String :=
  host.join
    [(truthy? (env "APPDATA")).getD (host.join [host.homedir, "AppData", "Roaming"]), "npm",
      "node_modules", "@openai", "codex", "bin", "codex.js"]

/-- `resolveExecutable(env)` of the codex adapters. -/
def resolveCodex (host : FileHost) (env : String → Option String) : String :=
  match truthy? (env "KOVAEL_CODEX_BIN") with
  | some bin => bin
  | none =>
    if host.win32 && host.existsSync (codexScript host env) then codexScript host env else "codex"

/-- `resolveExecutable(env)` of the claude adapter. -/
def resolveClaude (host : FileHost) (env : String → Option String) : String :=
  (truthy? (env "KOVAEL_CLAUDE_BIN")).getD (if host.win32 then "claude.exe" else "claude")

def codexAdapter : RuntimeAdapter where
  kind := "codex"
  supervised := true
  buildSpec card := specFrom card "codex"
  policy := ⟨some .readOnly, none, none, none⟩
  resolveExecutable := resolveCodex

def openclawAdapter : RuntimeAdapter where
  kind := "codex-openclaw"
  supervised := true
  buildSpec card := specFrom card "codex-openclaw"
  policy := ⟨some .dangerFullAccess, none, none, none⟩
  resolveExecutable := resolveCodex

def shaevAdapter : RuntimeAdapter where
  kind := "claude-shaev"
  supervised := true
  buildSpec card := specFrom card "claude-shaev"
  policy := ⟨none, some "dontAsk", some [], some false⟩
  resolveExecutable := resolveClaude

def commandAdapter : RuntimeAdapter where
  kind := "command"
  supervised := true
  buildSpec card :=
    { specFrom card "command" with
      command := card.runtime.bind ChairRuntime.command
      args := card.runtime.bind ChairRuntime.args
      allowEnv := card.runtime.bind ChairRuntime.allowEnv }
  policy := ⟨none, some "dontAsk", some [], some false⟩
  resolveExecutable _ _ := "command"

/-- `AdapterRegistry`. -/
abbrev AdapterRegistry := OrderedMap String RuntimeAdapter

def AdapterRegistry.register (registry : AdapterRegistry) (adapter : RuntimeAdapter) :
    AdapterRegistry :=
  registry.set adapter.kind adapter

/-- `defaultRuntimeRegistry()`. -/
def defaultRuntimeRegistry : AdapterRegistry :=
  AdapterRegistry.register ([codexAdapter, openclawAdapter, shaevAdapter].foldl
    AdapterRegistry.register OrderedMap.empty) commandAdapter

/-! ## The specifications -/

/-- `isCommandAllowed(command, env)`. -/
def isCommandAllowed (command : Option String) (env : String → Option String) : Bool :=
  (truthy? command).any fun command =>
    (commaItems ((env commandAdapterAllowEnv).getD "")).contains command

/-- `BUILTIN_AGENT_KINDS`. -/
def builtinAgentKinds : List (String × String) :=
  [("shaev", "claude-shaev"), ("nyx-codex", "codex"), ("nyx-openclaw", "codex-openclaw")]

/-- The specification of one chair. -/
def specOf (env : String → Option String) (enableElevated : Bool) (card : AgentCard) :
    Option AgentRuntimeSpec :=
  if (card.runtime.bind ChairRuntime.supervised) = some false then none
  else
    let kind := (card.runtime.map ChairRuntime.kind).or (builtinAgentKinds.lookup card.id)
    match (truthy? kind).bind defaultRuntimeRegistry.get? with
    | none => none
    | some adapter =>
      if !adapter.supervised then none
      else
        let elevated := adapter.policy.sandboxMode = some .dangerFullAccess ||
          (card.runtime.bind ChairRuntime.elevated) = some true
        if elevated && !enableElevated then none
        else
          let spec := adapter.buildSpec card
          if spec.runtime = "command" && !isCommandAllowed spec.command env then
            some { spec with enabled := some false }
          else some spec

/-- `defaultAgentRuntimeSpecs(ids, { enableElevated, cwd, env })`, with the cards that are loaded
and those that are built in. -/
def defaultAgentRuntimeSpecs (loaded : List AgentCard) (agentCards : String → Option AgentCard)
    (env : String → Option String) (enableElevated : Bool) (ids : List String) :
    List AgentRuntimeSpec :=
  let cardById : OrderedMap String AgentCard :=
    loaded.foldl (fun cards card => cards.set card.id card) .empty
  ids.filterMap fun id =>
    ((cardById.get? id).or (agentCards id)).bind (specOf env enableElevated)

/-- `this.agents` of the supervisor. -/
def supervisedAgents (specs : List AgentRuntimeSpec) : List AgentRuntimeSpec :=
  specs.filter fun spec => spec.enabled ≠ some false

/-- `runtimePolicyFor(runtime)`. -/
def runtimePolicyFor (runtime : String) : RuntimePolicy :=
  match defaultRuntimeRegistry.get? runtime with
  | some adapter => adapter.policy
  | none => ⟨none, some "dontAsk", some [], some false⟩

/-- `runtimeExecutablePathFor(runtime, env)`. -/
def runtimeExecutablePathFor (host : FileHost) (runtime : String) (env : String → Option String) :
    String :=
  match defaultRuntimeRegistry.get? runtime with
  | some adapter => adapter.resolveExecutable host env
  | none => runtime

/-! ## The prompt -/

structure ChatMessage where
  role : Option String
  name : Option String
  content : Option String

/-- `s.slice(-n)`. -/
def sliceEnd (n : Nat) (s : String) : String :=
  String.ofList (takeUnits n s.toList.reverse).reverse

/-- The line of a message, unless it has no content. -/
def messageLine? (msg : ChatMessage) : Option String :=
  let content := trim (msg.content.getD "")
  if content = "" then none
  else
    some (msg.role.getD "message" ++ " " ++ (msg.name.map (· ++ ": ")).getD "" ++ content)

/-- `compactMessages(messages)`; a message that is not an object is `none`. -/
def compactMessages (messages : Option (List (Option ChatMessage))) : String :=
  match messages with
  | none => ""
  | some messages =>
    let last := messages.drop (messages.length - 12)
    sliceEnd 20000 ("\n".intercalate (last.filterMap fun msg => msg.bind messageLine?))

/-- `promptFor(agentId, payload)`. -/
def promptFor (agentId : String) (messages : Option (List (Option ChatMessage))) : String :=
  let history := compactMessages messages
  let parts :=
    ["Kovael chair: " ++ agentId ++ ".",
      "Return one concise, concrete answer for the live round-table. Do not invent tool results " ++
        "or claim actions not performed.",
      if history = "" then "" else "Conversation so far:\n" ++ history]
  "\n\n".intercalate (parts.filter fun part => part ≠ "")

/-! ## The runtimes -/

/-- What `spawnCapture` is called with. -/
structure Invocation where
  command : String
  args : List String
  cwd : String
  env : Vars

inductive RuntimeCall where
  | spawns (process : Invocation)
  | fake
  | throws (message : String)

/-- What an adapter runs its runtimes with. -/
structure RuntimeHost (p : Platform) where
  files : FileHost
  env : ProcessEnv p
  /-- The file for the last message. -/
  outPath : String

section

variable {p : Platform} (host : RuntimeHost p) (cfg : InboxConfig)
  (messages : Option (List (Option ChatMessage)))

/-- `resolveCodexInvocation(cfg)`: the command, and what comes before its arguments. -/
def resolveCodexInvocation : String × List String :=
  match (truthy? cfg.codexBin).or (truthy? (host.env.get "KOVAEL_CODEX_BIN")) with
  | some bin =>
    if ".js".toList <:+ bin.toList then (host.files.execPath, [bin]) else (bin, [])
  | none =>
    let script := codexScript host.files host.env.get
    if host.files.win32 && host.files.existsSync script then (host.files.execPath, [script])
    else ("codex", [])

/-- `runCodex(payload, cfg, sandbox)` up to the process. -/
def runCodex (sandbox : String) : RuntimeCall :=
  let invocation := resolveCodexInvocation host cfg
  .spawns
    { command := invocation.1
      args := invocation.2 ++ ["exec", "-C", cfg.cwd, "--sandbox", sandbox, "--output-last-message",
        host.outPath, promptFor cfg.id messages]
      cwd := cfg.cwd
      env := buildAgentRuntimeEnv host.env.get }

/-- `runClaudeShaev(payload, cfg)` up to the process. -/
def runClaudeShaev : RuntimeCall :=
  .spawns
    { command := ((truthy? cfg.claudeBin).or (truthy? (host.env.get "KOVAEL_CLAUDE_BIN"))).getD
        (if host.files.win32 then "claude.exe" else "claude")
      args := ["-p", promptFor cfg.id messages, "--model", (truthy? cfg.model).getD "sonnet",
        "--output-format", "json", "--permission-mode", "dontAsk", "--allowedTools", "",
        "--no-session-persistence"]
      cwd := cfg.cwd
      env := buildAgentRuntimeEnv host.env.get }

/-- `runCommand(payload, cfg)` up to the process. -/
def runCommand : RuntimeCall :=
  match truthy? cfg.command with
  | none => .throws "command runtime requires --command"
  | some command =>
    if !(parseCsvArg (host.env.get commandAdapterAllowEnv)).contains command then
      .throws ("command_adapter_blocked: '" ++ command ++
        "' is not in KOVAEL_COMMAND_ADAPTER_ALLOW")
    else
      .spawns
        { command := command
          args := cfg.commandArgs ++ [promptFor cfg.id messages]
          cwd := cfg.cwd
          env := buildCommandEnv p host.env.get cfg.allowEnv }

/-- `runRuntime(payload, cfg)`. -/
def runRuntime : RuntimeCall :=
  if cfg.runtime = "fake-deterministic" then .fake
  else if cfg.runtime = "codex" then runCodex host cfg messages "read-only"
  else if cfg.runtime = "codex-openclaw" then runCodex host cfg messages "danger-full-access"
  else if cfg.runtime = "claude-shaev" then runClaudeShaev host cfg messages
  else if cfg.runtime = "command" then runCommand host cfg messages
  else .throws ("unknown runtime: " ++ cfg.runtime)

end

/-! ## What a specification is -/

theorem registry_entries : defaultRuntimeRegistry.entries
    = [("codex", codexAdapter), ("codex-openclaw", openclawAdapter),
      ("claude-shaev", shaevAdapter), ("command", commandAdapter)] := rfl

/-- The adapters that are registered. -/
inductive Registered : String → RuntimeAdapter → Prop
  | codex : Registered "codex" codexAdapter
  | openclaw : Registered "codex-openclaw" openclawAdapter
  | shaev : Registered "claude-shaev" shaevAdapter
  | command : Registered "command" commandAdapter

theorem registered_of_get? {kind : String} {adapter : RuntimeAdapter}
    (h : defaultRuntimeRegistry.get? kind = some adapter) : Registered kind adapter := by
  have hmem := (defaultRuntimeRegistry.mem_entries_iff kind adapter).mpr h
  rw [registry_entries] at hmem
  simp only [List.mem_cons, Prod.mk.injEq, List.not_mem_nil, or_false] at hmem
  obtain ⟨rfl, rfl⟩ | ⟨rfl, rfl⟩ | ⟨rfl, rfl⟩ | ⟨rfl, rfl⟩ := hmem
  · exact .codex
  · exact .openclaw
  · exact .shaev
  · exact .command

/-- What the specification of a chair says of its runtime. -/
inductive Specified (env : String → Option String) (enableElevated : Bool)
    (spec : AgentRuntimeSpec) : Prop
  | codex (hruntime : spec.runtime = "codex")
  | openclaw (hruntime : spec.runtime = "codex-openclaw") (helevated : enableElevated = true)
  | shaev (hruntime : spec.runtime = "claude-shaev")
  | command (hruntime : spec.runtime = "command")
      (hallowed : spec.enabled ≠ some false → isCommandAllowed spec.command env = true)

theorem specOf_some {env : String → Option String} {enableElevated : Bool} {card : AgentCard}
    {spec : AgentRuntimeSpec} (h : specOf env enableElevated card = some spec) :
    Specified env enableElevated spec := by
  rw [specOf] at h
  split at h
  · exact absurd h (by simp)
  dsimp only at h
  split at h
  · exact absurd h (by simp)
  next adapter hadapter =>
    obtain ⟨kind, -, hget⟩ := Option.bind_eq_some_iff.mp hadapter
    split at h
    · exact absurd h (by simp)
    split at h
    · exact absurd h (by simp)
    next hleave =>
      cases registered_of_get? hget with
      | codex =>
        obtain rfl := Option.some.inj h
        exact .codex rfl
      | openclaw =>
        obtain rfl := Option.some.inj h
        refine .openclaw rfl ?_
        simpa [openclawAdapter] using hleave
      | shaev =>
        obtain rfl := Option.some.inj h
        exact .shaev rfl
      | command =>
        -- a command that is not allowed is not enabled
        split at h
        next =>
          obtain rfl := Option.some.inj h
          exact .command rfl fun habsurd => absurd rfl habsurd
        next hallowed =>
          obtain rfl := Option.some.inj h
          refine .command rfl fun _ => ?_
          simpa [commandAdapter, specFrom] using hallowed

theorem specified {loaded : List AgentCard} {agentCards : String → Option AgentCard}
    {env : String → Option String} {enableElevated : Bool} {ids : List String}
    {spec : AgentRuntimeSpec}
    (h : spec ∈ supervisedAgents
      (defaultAgentRuntimeSpecs loaded agentCards env enableElevated ids)) :
    Specified env enableElevated spec ∧ spec.enabled ≠ some false := by
  obtain ⟨hmem, henabled⟩ := List.mem_filter.mp h
  obtain ⟨id, -, hspec⟩ := List.mem_filterMap.mp hmem
  obtain ⟨card, -, hspec⟩ := Option.bind_eq_some_iff.mp hspec
  exact ⟨specOf_some hspec, of_decide_eq_true henabled⟩

/-! ## What a process is given -/

theorem pair_infix_cons {a b x y : String} {xs : List String} :
    [a, b] <:+: x :: y :: xs ↔ (a = x ∧ b = y) ∨ [a, b] <:+: y :: xs := by
  rw [List.infix_cons_iff, List.cons_prefix_cons, List.cons_prefix_cons]
  simp

theorem not_pair_infix_singleton {a b x : String} : ¬[a, b] <:+: [x] := by
  intro h
  exact absurd h.length_le (by simp)

theorem prefix_intercalate (sep x : List Char) (xs : List (List Char)) :
    x <+: sep.intercalate (x :: xs) := by
  cases xs with
  | nil => simp [List.intercalate_singleton]
  | cons y ys =>
    rw [List.intercalate_cons_cons]
    exact List.prefix_append_of_prefix (List.prefix_append x sep)

/-- A prompt begins as no flag and no mode begins. -/
theorem promptFor_ne {agentId : String} {messages : Option (List (Option ChatMessage))}
    {word : String} (h : word.toList.head? ≠ some 'K') : promptFor agentId messages ≠ word := by
  have hhead : ("Kovael chair: " ++ agentId ++ ".").toList.head? = some 'K' := by
    rw [String.toList_append, String.toList_append]
    rfl
  have hne : "Kovael chair: " ++ agentId ++ "." ≠ "" := by
    intro habsurd
    rw [habsurd] at hhead
    exact absurd hhead (by simp)
  have hprefix : ("Kovael chair: " ++ agentId ++ ".").toList
      <+: (promptFor agentId messages).toList := by
    have hfilter : ∀ parts, (("Kovael chair: " ++ agentId ++ ".") :: parts).filter
        (fun part => part ≠ "") = ("Kovael chair: " ++ agentId ++ ".") ::
          parts.filter fun part => part ≠ "" :=
      fun parts => List.filter_cons_of_pos (decide_eq_true hne)
    rw [promptFor, hfilter, String.toList_intercalate, List.map_cons]
    exact prefix_intercalate _ _ _
  intro habsurd
  rw [habsurd] at hprefix
  obtain ⟨rest, hrest⟩ := hprefix
  refine h ?_
  rw [← hrest]
  cases htext : ("Kovael chair: " ++ agentId ++ ".").toList with
  | nil =>
    rw [htext] at hhead
    exact absurd hhead (by simp)
  | cons c cs => rwa [htext] at hhead

/-- The modes that the arguments of codex name. -/
theorem sandbox_infix {lead : List String} (hlead : lead.length ≤ 1) (cwd outPath : String)
    (sandbox mode : SandboxMode) (agentId : String)
    (messages : Option (List (Option ChatMessage))) :
    ["--sandbox", mode.text] <:+: lead ++ ["exec", "-C", cwd, "--sandbox", sandbox.text,
      "--output-last-message", outPath, promptFor agentId messages] ↔ sandbox = mode := by
  have hread : promptFor agentId messages ≠ "read-only" := promptFor_ne (by decide)
  have hfull : promptFor agentId messages ≠ "danger-full-access" := promptFor_ne (by decide)
  have hbase : ["--sandbox", mode.text] <:+: ["exec", "-C", cwd, "--sandbox", sandbox.text,
      "--output-last-message", outPath, promptFor agentId messages] ↔ sandbox = mode := by
    simp only [pair_infix_cons, not_pair_infix_singleton]
    cases mode <;> cases sandbox <;> simp [SandboxMode.text, hread.symm, hfull.symm]
  match lead, hlead with
  | [], _ => exact hbase
  | [bin], _ =>
    rw [List.singleton_append, pair_infix_cons, hbase]
    cases mode <;> simp [SandboxMode.text]

/-- What names an executable. -/
def locators : List String := ["KOVAEL_CODEX_BIN", "KOVAEL_CLAUDE_BIN", "APPDATA"]

/-- An adapter looks for the executables where the supervisor looks for them. -/
theorem adapterEnv_located (p : Platform) (sup : Supervisor) (source : ProcessEnv p)
    (spec : AgentRuntimeSpec) (hplain : spec.runtime ≠ "command") {name : String}
    (hname : name ∈ locators) : (adapterEnv p sup source spec).get name = source.get name := by
  have hall : ∀ name ∈ locators, (name.toList.all fun c => c.toNat < 128) = true ∧
      name ∈ platformEnvAllowlist ++ proxyEnvAllowlist ++ runtimeLocatorEnvAllowlist ∧
      ∀ key ∈ platformEnvAllowlist ++ proxyEnvAllowlist ++ runtimeLocatorEnvAllowlist,
        (key.toList.all fun c => c.toNat < 128) = true ∧
          (asciiUpper key = asciiUpper name → key = name) := by
    decide +kernel
  obtain ⟨hascii, hlisted, honly⟩ := hall name hname
  have hallowed : isDeniedCommandEnvName p name = false :=
    located_allowed p (List.mem_append_left _ hlisted)
  have halone : ∀ key v, (childEnv p source.get (sup.hubEncryptionRequired source.get) spec.runtime
      (spec.allowEnv.getD [])).get? key = some v → p.toUpperCase key = p.toUpperCase name →
      key = name := by
    intro key v hkey hupper
    have hfree : key ∉ commandEnvDenylist := by
      intro hdenied
      have heq : isDeniedCommandEnvName p name = true :=
        List.any_eq_true.mpr
          ⟨key, hdenied, decide_eq_true (hupper.symm.trans (upper_denied p hdenied))⟩
      exact absurd heq (by simp [hallowed])
    cases childEnv_some hkey with
    | listed hmem _ =>
      obtain ⟨hascii', heq⟩ := honly key hmem
      rw [p.upper_ascii key hascii', p.upper_ascii name hascii] at hupper
      exact heq hupper
    | token heq => exact absurd (heq ▸ by decide) hfree
    | dispatch heq => exact absurd (heq ▸ by decide) hfree
    | hub heq => exact absurd (heq ▸ by decide) hfree
    | encryption heq => exact absurd (heq ▸ by decide) hfree
    | allow hcommand _ _ => exact absurd hcommand hplain
    | named hcommand _ _ _ => exact absurd hcommand hplain
  rw [adapterEnv, p.spawned_alone halone]
  apply Option.ext
  intro v
  constructor
  · intro hget
    exact handed_source (childEnv_some hget) fun denied hdenied =>
      ne_of_allowed p hdenied hallowed
  · intro hv
    rw [childEnv, if_neg hplain]
    exact buildAgentAdapterEnv_keeps p _ hv hlisted

/-- What an operator may count on in a process of a runtime. -/
structure RuntimeProcess (p : Platform) (source : ProcessEnv p) (files : FileHost)
    (enableElevated : Bool) (spec : AgentRuntimeSpec) (process : Invocation) : Prop where
  /-- Full access is given with the operator's leave. -/
  elevated : spec.runtime ≠ "command" →
    ["--sandbox", "danger-full-access"] <:+: process.args → enableElevated = true
  /-- The command is that of the manifest, and the operator lists it. -/
  allowed : spec.runtime = "command" →
    some process.command = spec.command ∧ isCommandAllowed spec.command source.get = true
  /-- The sandbox is the one of the preflight summary. -/
  sandbox : spec.runtime ≠ "command" → ∀ mode,
    (runtimePolicyFor spec.runtime).sandboxMode = some mode ↔
      ["--sandbox", mode.text] <:+: process.args
  permission : spec.runtime ≠ "command" → ∀ mode,
    (runtimePolicyFor spec.runtime).permissionMode = some mode →
      ["--permission-mode", mode] <:+: process.args
  tools : spec.runtime ≠ "command" → ∀ tools,
    (runtimePolicyFor spec.runtime).allowedTools = some tools →
      ["--allowedTools", " ".intercalate tools] <:+: process.args
  sessions : spec.runtime ≠ "command" →
    (runtimePolicyFor spec.runtime).sessionPersistence = some false →
      "--no-session-persistence" ∈ process.args
  /-- The executable is the one of the preflight summary, or the script that node runs. -/
  executable : spec.runtime ≠ "command" →
    process.command = runtimeExecutablePathFor files spec.runtime source.get ∨
      process.command = files.execPath ∧
        process.args.head? = some (runtimeExecutablePathFor files spec.runtime source.get)

/-- What codex is run as. -/
theorem resolveCodexInvocation_cases {p : Platform} (host : RuntimeHost p) (cfg : InboxConfig)
    (hbin : cfg.codexBin = none) :
    (resolveCodexInvocation host cfg).2.length ≤ 1 ∧
      ((resolveCodexInvocation host cfg).1 = resolveCodex host.files host.env.get ∨
        (resolveCodexInvocation host cfg).1 = host.files.execPath ∧
          (resolveCodexInvocation host cfg).2.head?
            = some (resolveCodex host.files host.env.get)) := by
  have hnone : truthy? cfg.codexBin = none := by
    rw [hbin]
    rfl
  rw [resolveCodexInvocation, resolveCodex, hnone, Option.none_or]
  cases truthy? (host.env.get "KOVAEL_CODEX_BIN") with
  | some bin =>
    dsimp only
    split
    next => exact ⟨le_rfl, Or.inr ⟨rfl, rfl⟩⟩
    next => exact ⟨Nat.zero_le 1, Or.inl rfl⟩
  | none =>
    dsimp only
    split
    next => exact ⟨le_rfl, Or.inr ⟨rfl, rfl⟩⟩
    next => exact ⟨Nat.zero_le 1, Or.inl rfl⟩

/-- The executables depend on the variables that name them only. -/
theorem resolveCodex_congr (files : FileHost) {env env' : String → Option String}
    (h : ∀ name ∈ locators, env name = env' name) :
    resolveCodex files env = resolveCodex files env' := by
  rw [resolveCodex, resolveCodex, codexScript, codexScript, h "KOVAEL_CODEX_BIN" (by decide),
    h "APPDATA" (by decide)]

section

variable {p : Platform} {sup : Supervisor} {source : ProcessEnv p} {spec : AgentRuntimeSpec}
  {files : FileHost} {outPath : String} {cfg : InboxConfig} {process : Invocation}
  {messages : Option (List (Option ChatMessage))} {enableElevated : Bool}

/-- The process of a codex runtime. -/
theorem runtimeProcess_codex {sandbox : SandboxMode} (hplain : spec.runtime ≠ "command")
    (hpolicy : runtimePolicyFor spec.runtime = ⟨some sandbox, none, none, none⟩)
    (hpath : ∀ env, runtimeExecutablePathFor files spec.runtime env = resolveCodex files env)
    (hleave : sandbox = .dangerFullAccess → enableElevated = true) (hbin : cfg.codexBin = none)
    (hcall : runCodex ⟨files, adapterEnv p sup source spec, outPath⟩ cfg messages sandbox.text
      = .spawns process) : RuntimeProcess p source files enableElevated spec process := by
  obtain rfl := RuntimeCall.spawns.inj hcall
  obtain ⟨hshort, hexec⟩ :=
    resolveCodexInvocation_cases ⟨files, adapterEnv p sup source spec, outPath⟩ cfg hbin
  have hmode := fun mode => sandbox_infix hshort cfg.cwd outPath sandbox mode cfg.id messages
  refine ⟨fun _ hgiven => ?_, fun habsurd => absurd habsurd hplain,
    fun _ mode => ?_, fun _ mode habsurd => ?_, fun _ tools habsurd => ?_, fun _ habsurd => ?_,
    fun _ => ?_⟩
  · exact hleave ((hmode .dangerFullAccess).mp hgiven)
  · rw [hpolicy, hmode mode, Option.some.injEq]
  · rw [hpolicy] at habsurd
    exact absurd habsurd (by simp)
  · rw [hpolicy] at habsurd
    exact absurd habsurd (by simp)
  · rw [hpolicy] at habsurd
    exact absurd habsurd (by simp)
  · have hsame : resolveCodex files (adapterEnv p sup source spec).get
        = resolveCodex files source.get :=
      resolveCodex_congr files fun name hname => adapterEnv_located p sup source spec hplain hname
    rw [hpath, ← hsame]
    rcases hexec with hcommand | ⟨hcommand, hscript⟩
    · exact Or.inl hcommand
    · refine Or.inr ⟨hcommand, ?_⟩
      rw [List.head?_append, hscript]
      rfl

/-- The process of the claude runtime. -/
theorem runtimeProcess_shaev (hruntime : spec.runtime = "claude-shaev")
    (hbin : cfg.claudeBin = none)
    (hcall : runClaudeShaev ⟨files, adapterEnv p sup source spec, outPath⟩ cfg messages
      = .spawns process) : RuntimeProcess p source files enableElevated spec process := by
  have hplain : spec.runtime ≠ "command" := by
    rw [hruntime]
    decide
  have hpolicy : runtimePolicyFor spec.runtime = ⟨none, some "dontAsk", some [], some false⟩ := by
    rw [hruntime]
    rfl
  have hread : promptFor cfg.id messages ≠ "--sandbox" := promptFor_ne (by decide)
  have hsandbox : ∀ mode : SandboxMode, ¬["--sandbox", mode.text] <:+: ["-p",
      promptFor cfg.id messages, "--model", (truthy? cfg.model).getD "sonnet", "--output-format",
      "json", "--permission-mode", "dontAsk", "--allowedTools", "",
      "--no-session-persistence"] := by
    intro mode
    simp only [pair_infix_cons, not_pair_infix_singleton]
    cases mode <;> simp [SandboxMode.text, hread.symm]
  obtain rfl := RuntimeCall.spawns.inj hcall
  refine ⟨fun _ hgiven => absurd hgiven (hsandbox .dangerFullAccess),
    fun habsurd => absurd habsurd hplain, fun _ mode => ?_, fun _ mode hmode => ?_,
    fun _ tools htools => ?_, fun _ _ => ?_, fun _ => Or.inl ?_⟩
  · rw [hpolicy]
    exact ⟨fun habsurd => (absurd habsurd (by simp)), fun hgiven => absurd hgiven (hsandbox mode)⟩
  · rw [hpolicy] at hmode
    obtain rfl := Option.some.inj hmode
    simp [pair_infix_cons]
  · rw [hpolicy] at htools
    obtain rfl := Option.some.inj htools
    simp [pair_infix_cons]
  · simp
  · have hnone : truthy? cfg.claudeBin = none := by
      rw [hbin]
      rfl
    have hpath : runtimeExecutablePathFor files spec.runtime source.get
        = resolveClaude files source.get := by
      rw [hruntime]
      rfl
    rw [hpath, resolveClaude, hnone, Option.none_or,
      adapterEnv_located p sup source spec hplain (by decide)]

/-- The process of a command. -/
theorem runtimeProcess_command (hruntime : spec.runtime = "command")
    (hallowed : isCommandAllowed spec.command source.get = true)
    (hcommand : cfg.command = spec.command)
    (hcall : runCommand ⟨files, adapterEnv p sup source spec, outPath⟩ cfg messages
      = .spawns process) : RuntimeProcess p source files enableElevated spec process := by
  rw [runCommand] at hcall
  split at hcall
  · exact absurd hcall (by simp)
  next command htruthy =>
    split at hcall
    · exact absurd hcall (by simp)
    obtain rfl := RuntimeCall.spawns.inj hcall
    have hnot : ¬spec.runtime ≠ "command" := fun habsurd => habsurd hruntime
    refine ⟨fun habsurd => absurd habsurd hnot, fun _ => ⟨?_, hallowed⟩,
      fun habsurd => absurd habsurd hnot, fun habsurd => absurd habsurd hnot,
      fun habsurd => absurd habsurd hnot, fun habsurd => absurd habsurd hnot,
      fun habsurd => absurd habsurd hnot⟩
    rw [← hcommand]
    exact (truthy?_some htruthy).symm

/-- A command that the operator allows, the adapter allows. -/
theorem runCommand_spawns (hposix : p.win32 = false) (hruntime : spec.runtime = "command")
    (hallowed : isCommandAllowed spec.command source.get = true)
    (hcommand : cfg.command = spec.command) :
    ∃ process, runCommand ⟨files, adapterEnv p sup source spec, outPath⟩ cfg messages
      = .spawns process := by
  cases htruthy : truthy? spec.command with
  | none =>
    rw [isCommandAllowed, htruthy] at hallowed
    exact absurd hallowed Bool.false_ne_true
  | some command =>
    rw [isCommandAllowed, htruthy, Option.any_some] at hallowed
    cases hlist : source.get commandAdapterAllowEnv with
    | none =>
      rw [hlist, Option.getD_none] at hallowed
      exact absurd hallowed Bool.false_ne_true
    | some list =>
      rw [hlist, Option.getD_some] at hallowed
      have hne : list ≠ "" := by
        intro hempty
        rw [hempty] at hallowed
        exact absurd hallowed Bool.false_ne_true
      have hset : truthy? (some list) = some list :=
        Option.filter_eq_some_iff.mpr ⟨rfl, decide_eq_true hne⟩
      have htold : (adapterEnv p sup source spec).get commandAdapterAllowEnv = some list := by
        rw [adapterEnv, p.spawned_posix hposix, childEnv, if_pos hruntime]
        refine copyAllowlisted_keeps hlist (Or.inr ?_)
        rw [get?_setTruthy, if_pos rfl, hlist, hset, Option.some_or]
      have hcontains : (parseCsvArg (some list)).contains command = true := hallowed
      rw [runCommand, hcommand, htruthy]
      dsimp only
      rw [htold, hcontains]
      exact ⟨_, rfl⟩

end

/-- An operator who allows `python`, with a setting and the token for the command. -/
def pythonAllowed : ProcessEnv posix where
  get name :=
    [(agentHubSecretEnv, "an agent hub secret of forty characters."), ("KOVAEL_TOKEN", "token"),
      (commandAdapterAllowEnv, "node, python"),
      ("KOVAEL_HOST", "http://127.0.0.1:8080")].lookup name
  respects := fun h => by rw [of_decide_eq_true h]

def sampleCard : AgentCard where
  id := "nyx-adk"
  provider := "Google"
  mcpCapabilities := ["python", "tool-use"]
  trustTier := 2
  runtime := some
    { kind := "command"
      supervised := some true
      command := some "python"
      args := some ["-m", "nyx_adk.inbox"]
      allowEnv := some ["KOVAEL_HOST"]
      elevated := none }

def sampleFiles : FileHost where
  win32 := false
  execPath := "node"
  homedir := "/root"
  join := "/".intercalate
  existsSync _ := false

theorem sampleChair_supervised : sampleChair ∈ supervisedAgents
    (defaultAgentRuntimeSpecs [sampleCard] (fun _ => none) pythonAllowed.get false
      ["nyx-adk"]) := by
  have hspecs : defaultAgentRuntimeSpecs [sampleCard] (fun _ => none) pythonAllowed.get false
      ["nyx-adk"] = [sampleChair] := rfl
  rw [hspecs]
  exact List.mem_filter.mpr ⟨List.mem_singleton.mpr rfl, rfl⟩

theorem env_of_process {p : Platform} {host : RuntimeHost p} {cfg : InboxConfig}
    {messages : Option (List (Option ChatMessage))} {process : Invocation}
    (h : runRuntime host cfg messages = .spawns process) :
    process.env = runtimeVars p host.env.get cfg.runtime cfg.allowEnv := by
  rw [runRuntime] at h
  split at h
  · exact absurd h (by simp)
  split at h
  next hruntime =>
    obtain rfl := RuntimeCall.spawns.inj h
    rw [runtimeVars, hruntime]
    rfl
  split at h
  next hruntime =>
    obtain rfl := RuntimeCall.spawns.inj h
    rw [runtimeVars, hruntime]
    rfl
  split at h
  next hruntime =>
    obtain rfl := RuntimeCall.spawns.inj h
    rw [runtimeVars, hruntime]
    rfl
  split at h
  next hruntime =>
    rw [runCommand] at h
    split at h
    · exact absurd h (by simp)
    split at h
    · exact absurd h (by simp)
    obtain rfl := RuntimeCall.spawns.inj h
    rw [runtimeVars, if_pos hruntime]
  · exact absurd h (by simp)

/-- The configuration of the same chair, if it asked for the token as well. -/
def tokenSeeker : InboxConfig :=
  { meantConfig sampleManager pythonAllowed.get sampleChair "http://127.0.0.1:8080" "hub" with
    allowEnv := ["KOVAEL_HOST", "kovael_token", "KOVAEL_TOKEN"] }

end Kovael.Runtime
