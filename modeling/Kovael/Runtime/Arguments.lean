import Kovael.Js.JsonText
import Kovael.Repair.RepairPatch
import Kovael.Runtime.Environment

/-!
# The start of an adapter

`argsFor` of `src/services/AgentRuntimeSupervisor.ts` and what `main` of
`scripts/kovael-agent-inbox.mjs` reads from its arguments and its environment: `parseArgs`, the
checks before the hub is opened, the configuration and the token. `handoff` says that an adapter of
the supervisor starts with the configuration that its specification means, and that it exits
exactly when `KOVAEL_TOKEN` is set to nothing over a `KOVAEL_API_TOKEN`.

Mirroring notes:
- An object of arguments is a map from keys; `args['__proto__'] = next` sets nothing.
- A trust tier is an integer that is printed in full.
- The build artifacts that `main` loads are there.
-/

namespace Kovael.Runtime

open Js (OrderedMap Json after? commaItems parseInt trim)

/-! ## The supervisor -/

structure AgentRuntimeSpec where
  agentId : String
  provider : String
  runtime : String
  capabilities : Option (List String)
  trustTier : Option Int
  cwd : Option String
  model : Option String
  enabled : Option Bool
  command : Option String
  args : Option (List String)
  allowEnv : Option (List String)

/-- What the arguments need of a supervisor, but for its environment. -/
structure Supervisor where
  scriptPath : String
  cwd : String
  enabled : Bool

/-- `isValidAgentHubSecret(value)`. -/
def isValidAgentHubSecret (value : Option String) : Bool :=
  value.any fun secret => 32 ≤ Js.length (trim secret)

/-- `isHubEncryptionRequired(env)`. -/
def isHubEncryptionRequired (env : String → Option String) : Bool :=
  (env agentHubEncryptionEnv).any fun v =>
    Repair.lowerCase (trim v).toList = requiredHubEncryption.toList

/-- `this.hubEncryptionRequired`. -/
def Supervisor.hubEncryptionRequired (sup : Supervisor) (env : String → Option String) : Bool :=
  sup.enabled || isHubEncryptionRequired env

/-- The secret's part of `this.startupBlocker`. -/
def Supervisor.lacksSecret (sup : Supervisor) (env : String → Option String) : Bool :=
  sup.hubEncryptionRequired env && !isValidAgentHubSecret (env agentHubSecretEnv)

/-- `args.push(flag, value)`, where there is a value. -/
def pushOption (flag : String) : Option String → List String
  | some value => [flag, value]
  | none => []

/-- `args.push(flag)`, where it is due. -/
def pushSwitch (flag : String) (due : Bool) : List String := if due then [flag] else []

/-- `items.join(',')`, of a list that is not empty. -/
def joined? (items : Option (List String)) : Option String :=
  (items.filter fun items => items ≠ []).map (",".intercalate ·)

/-- `JSON.stringify(items)`, of a list that is not empty. -/
def stringified? (items : Option (List String)) : Option String :=
  (items.filter fun items => items ≠ []).map fun items =>
    Json.stringify (.array (items.map .string))

/-- `spec.runtime === 'command' && spec.command`. -/
def AgentRuntimeSpec.runsCommand (spec : AgentRuntimeSpec) : Bool :=
  spec.runtime = "command" && (truthy? spec.command).isSome

/-- A field that only a command passes on. -/
def AgentRuntimeSpec.ofCommand {α : Type} (spec : AgentRuntimeSpec) (field : Option α) : Option α :=
  if spec.runsCommand then field else none

/-- `argsFor(spec, host, hubPath)`. -/
def argsFor (sup : Supervisor) (env : String → Option String) (spec : AgentRuntimeSpec)
    (host hubPath : String) : List String :=
  [sup.scriptPath] ++
    (pushOption "--id" (some spec.agentId) ++ (pushOption "--provider" (some spec.provider) ++
    (pushOption "--runtime" (some spec.runtime) ++ (pushOption "--host" (some host) ++
    (pushOption "--cwd" (some (spec.cwd.getD sup.cwd)) ++ (pushOption "--hub-path" (some hubPath) ++
    (pushOption "--capabilities" (joined? spec.capabilities) ++
    (pushOption "--trust" (spec.trustTier.map toString) ++
    (pushOption "--model" (truthy? spec.model) ++
    (pushOption "--command" (spec.ofCommand spec.command) ++
    (pushOption "--command-args" (spec.ofCommand (stringified? spec.args)) ++
    (pushOption "--allow-env" (spec.ofCommand (joined? spec.allowEnv)) ++
    (pushSwitch "--require-hub-encryption" (sup.hubEncryptionRequired env) ++
    (pushSwitch "--with-token" ((truthy? (env "KOVAEL_API_TOKEN")).isSome ||
      (truthy? (env "KOVAEL_TOKEN")).isSome) ++ []))))))))))))))

/-! ## The arguments of an adapter -/

inductive ArgValue where
  | yes
  | text (s : String)
  | number (n : Int)
  | items (xs : List String)

abbrev InboxArgs := OrderedMap String ArgValue

/-- The keys that take no value. -/
def switches : List (String × String) :=
  [("probe", "probe"), ("with-token", "withToken"),
    ("require-hub-encryption", "requireHubEncryption")]

/-- A number of the arguments; `NaN` sets nothing. -/
def assignNumber (args : InboxArgs) (key next : String) : InboxArgs :=
  match parseInt next with
  | some n => args.set key (.number n)
  | none => args

/-- The value of a key. -/
def assign (args : InboxArgs) (key next : String) : InboxArgs :=
  if key = "capabilities" then args.set "capabilities" (.items (commaItems next))
  else if key = "trust" then assignNumber args "trust" next
  else if key = "port" then assignNumber args "port" next
  else if key = "timeout-ms" then assignNumber args "timeoutMs" next
  else if key = "__proto__" then args
  else args.set key (.text next)

/-- `arg.startsWith('--')`. -/
def isFlag (arg : String) : Bool := (after? "--" arg).isSome

/-- The loop of `parseArgs`. -/
def parseFrom (args : InboxArgs) : List String → InboxArgs
  | [] => args
  | arg :: rest =>
    match after? "--" arg with
    | none => parseFrom args rest
    | some key =>
      match switches.lookup key with
      | some switch => parseFrom (args.set switch .yes) rest
      | none =>
        match rest with
        | [] => args
        | next :: others =>
          -- a flag without a value is dropped, and what follows it is looked at again
          if isFlag next then parseFrom args (next :: others)
          else parseFrom (assign args key next) others

/-- `parseArgs(argv)`. -/
def parseArgs (argv : List String) : InboxArgs :=
  parseFrom (OrderedMap.empty.set "capabilities" (.items [])) argv

def textArg (args : InboxArgs) (key : String) : Option String :=
  (args.get? key).bind fun v =>
    match v with
    | .text s => some s
    | _ => none

def numberArg (args : InboxArgs) (key : String) : Option Int :=
  (args.get? key).bind fun v =>
    match v with
    | .number n => some n
    | _ => none

def itemsArg (args : InboxArgs) (key : String) : List String :=
  match args.get? key with
  | some (.items xs) => xs
  | _ => []

/-- `if (args[key])`. -/
def isSet (args : InboxArgs) (key : String) : Bool :=
  (args.get? key).any fun v =>
    match v with
    | .text s => s ≠ ""
    | .number n => n ≠ 0
    | _ => true

/-! ## The configuration -/

/-- What an adapter starts with, but for its arguments and its environment. -/
structure AdapterHost where
  cwd : String
  /-- The path of a hub below the default root. -/
  defaultHubPath : String → String
  /-- A number as JSON prints it. -/
  number : String → String

structure InboxConfig where
  id : String
  provider : String
  runtime : String
  host : String
  port : Int
  cwd : String
  model : Option String
  command : Option String
  commandArgs : List String
  allowEnv : List String
  codexBin : Option String
  claudeBin : Option String
  timeoutMs : Option ArgValue
  replyTimeoutMs : Int
  replyRetryBaseMs : Int
  outboxMaxAttempts : Int
  outboxLeaseMs : Int
  outboxDrainIntervalMs : Int
  capabilities : List String
  trust : Option Int
  note : Option String
  hubPath : String
  requireHubEncryption : Bool

/-- `readPositiveInt(value, fallback)`. -/
def readPositiveInt (value : Option String) (fallback : Int) : Int :=
  match parseInt (value.getD "") with
  | some n => if 0 < n then n else fallback
  | none => fallback

/-- `parseCsvArg(value)`. -/
def parseCsvArg (value : Option String) : List String := (value.map commaItems).getD []

/-- The strings among the values. -/
def strings : List Json → List String := List.filterMap Json.string?

/-- `parseCommandArgsArg(value)`. -/
def parseCommandArgsArg (number : String → String) (value : Option String) : List String :=
  match (truthy? value).bind (Json.parse number) with
  | some (.array xs) => strings xs
  | _ => []

/-- The check of `--id`. -/
def acceptsId (id : String) : Bool :=
  (id ≠ "" && id.toList.all fun c => c.isAlphanum || c = '.' || c = '_' || c = '-') &&
    !id.toList.all (· = '.')

/-- `cfg` of `main`. -/
def configOf (host : AdapterHost) (env : String → Option String) (args : InboxArgs)
    (id provider runtime : String) : InboxConfig where
  id := id
  provider := provider
  runtime := runtime
  host := ((truthy? (textArg args "host")).or (truthy? (env "KOVAEL_HOST"))).getD
    "http://127.0.0.1:8080"
  port := (numberArg args "port").getD 0
  cwd := (truthy? (textArg args "cwd")).getD host.cwd
  model := textArg args "model"
  command := textArg args "command"
  commandArgs := parseCommandArgsArg host.number (textArg args "command-args")
  allowEnv := parseCsvArg (textArg args "allow-env")
  codexBin := textArg args "codex-bin"
  claudeBin := textArg args "claude-bin"
  timeoutMs := args.get? "timeoutMs"
  replyTimeoutMs := readPositiveInt (env "KOVAEL_CHAIR_REPLY_TIMEOUT_MS") 15000
  replyRetryBaseMs := readPositiveInt (env "KOVAEL_CHAIR_REPLY_RETRY_BASE_MS") 100
  outboxMaxAttempts := readPositiveInt (env "KOVAEL_AGENT_OUTBOX_MAX_ATTEMPTS") 5
  outboxLeaseMs := readPositiveInt (env "KOVAEL_AGENT_OUTBOX_LEASE_MS") 30000
  outboxDrainIntervalMs := readPositiveInt (env "KOVAEL_AGENT_OUTBOX_DRAIN_INTERVAL_MS") 100
  capabilities := itemsArg args "capabilities"
  trust := numberArg args "trust"
  note := textArg args "note"
  hubPath := (truthy? (textArg args "hub-path")).getD (host.defaultHubPath id)
  requireHubEncryption := isSet args "requireHubEncryption" || isHubEncryptionRequired env

/-- How `main` goes on. -/
inductive Startup where
  | exits (reason : String)
  | throws (message : String)
  | starts (cfg : InboxConfig) (token : Option String)

/-- `bearerToken(args)`; an error is the reason of `usageAndExit`. -/
def bearerToken (env : String → Option String) (args : InboxArgs) :
    Except String (Option String) :=
  match truthy? (textArg args "token") with
  | some token => .ok (some token)
  | none =>
    if !isSet args "withToken" then .ok none
    else
      match truthy? (env "KOVAEL_TOKEN") with
      | some token => .ok (some token)
      | none => .error "--with-token set but KOVAEL_TOKEN is empty"

/-- `main` up to `bearerToken(args)`. -/
def startMain (host : AdapterHost) (env : String → Option String) (argv : List String) : Startup :=
  let args := parseArgs argv
  match truthy? (textArg args "id") with
  | none => .exits "--id is required"
  | some id =>
    if !acceptsId id then .exits "--id must match [a-zA-Z0-9._-] and not be dot-only"
    else
      match truthy? (textArg args "provider"), truthy? (textArg args "runtime") with
      | none, _ => .exits "--provider is required"
      | some _, none => .exits "--runtime is required"
      | some provider, some runtime =>
        let cfg := configOf host env args id provider runtime
        if cfg.requireHubEncryption && !isValidAgentHubSecret (env agentHubSecretEnv) then
          .throws (agentHubSecretEnv ++
            " must be at least 32 characters when hub encryption is required")
        else
          match bearerToken env args with
          | .ok token => .starts cfg token
          | .error reason => .exits reason

end Kovael.Runtime
