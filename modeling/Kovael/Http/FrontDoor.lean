import Kovael.Http.Gating
import Kovael.Http.TokenBucket
import Kovael.Js.Net
import Kovael.Repair.RepairPatch

/-!
# The front door

The request listener of `src/services/HttpApiRouter.ts`, `verify` of
`src/services/ApiTokenGate.ts`, `src/services/BindHostSecurity.ts` and the
constructor of `src/MeshOrchestrator.ts` that puts them together, beside the
`upgrade` listener. Requests and upgrades of all clients go through one limiter.
`front_door` says what holds over every run: what is behind the gate is reached
only with the token, or on a loopback bind without one; how many sockets are
served; and how often a client gets past the limiter.

Mirroring notes:
- What an endpoint answers once it is called is not part of this; `Answer` says
  which one is called.
- A socket that was refused stays in `clients` until it closes, as one that is
  served does.
-/

namespace Kovael.Http

open Js
open Js.Net (isIP)

/-! ## `BindHostSecurity.ts` -/

inductive RemoteAccessMode where
  | loopback
  | tokenGatedBind
  deriving DecidableEq

structure BindHostResolution where
  bindHost : String
  remoteAccessMode : RemoteAccessMode

/-- `LOOPBACK_HOSTS` of the bind. -/
def bindLoopbackHosts : List String := ["127.0.0.1", "localhost", "::1", "[::1]"]

/-- `isLoopbackBindHost(host)`. -/
def isLoopbackBindHost (host : String) : Bool :=
  bindLoopbackHosts.contains (String.ofList (Repair.lowerCase (trim host).toList))

/-- `resolveBindHost(requestedHost, env)`; `apiToken` is the variable. -/
def resolveBindHost (requestedHost apiToken : Option String) : Except String BindHostResolution :=
  let bindHost := ((requestedHost.map trim).filter fun host => host ≠ "").getD "127.0.0.1"
  if isLoopbackBindHost bindHost then .ok ⟨bindHost, .loopback⟩
  else if ((apiToken.map trim).filter fun token => token ≠ "").isNone then
    .error ("KOVAEL_BIND_HOST=" ++ bindHost ++ " requires KOVAEL_API_TOKEN. " ++
      "Use the default loopback bind with SSH local forwarding for remote access.")
  else .ok ⟨bindHost, .tokenGatedBind⟩

/-! ## The server -/

/-- What the constructor reads of the environment. -/
structure ServerEnv where
  sha256 : String → BitVec 256
  /-- `cfg.bindHost ?? process.env.KOVAEL_BIND_HOST` -/
  requestedHost : Option String
  /-- `KOVAEL_API_TOKEN` -/
  apiToken : Option String
  /-- `KOVAEL_TRUST_PROXY` -/
  trustProxyVar : Option String
  allowedOriginsVar : String
  maxClientsVar : String

structure Server where
  bind : BindHostResolution
  cfg : BusConfig

/-- The part of the constructor that decides who may come in. -/
def newServer (render : ℚ → String) (env : ServerEnv) (rateLimit : RateLimiterOptions) :
    Except String Server := do
  let bind ← resolveBindHost env.requestedHost env.apiToken
  let limiter ← newRateLimiter render rateLimit
  .ok {
    bind
    cfg :=
      { allowedOriginsVar := env.allowedOriginsVar
        maxClientsVar := env.maxClientsVar
        limiter
        trustProxy := env.trustProxyVar = some "true"
        gate := .new env.sha256 env.apiToken } }

/-! ## `HttpApiRouter.ts` -/

/-- A request, as far as the listener reads it. -/
structure HttpRequest where
  method : String
  url : String
  authorization : Option String
  xForwardedFor : Option String
  remoteAddress : Option String

/-- `verify(req)`. -/
def ApiTokenGate.verify (gate : ApiTokenGate) (req : HttpRequest) : Bool :=
  if gate.expectedHash = none then true
  else (req.authorization.bind (after? "Bearer ")).any gate.accepts

inductive Route where
  | state
  | chairs
  | agentRuntimes
  | conversations
  | traces
  | comfy
  deriving DecidableEq

/-- What is done with a request. -/
inductive Answer where
  | noContent
  | livez
  | readyz
  | metrics
  | unauthorized (reason : String)
  | rateLimited (retryAfterS : Int)
  | handled (route : Route)
  | handshake
  | notFound
  deriving DecidableEq

/-- `url.startsWith(lead)`. -/
def startsWith (lead url : String) : Bool := (after? lead url).isSome

/-- The prefixes that are looked at one after the other. -/
def apiRoutes : List (String × Route) :=
  [("/api/v1/state", .state),
    ("/api/v1/chairs", .chairs),
    ("/api/v1/agent-runtimes", .agentRuntimes),
    ("/api/v1/conversations", .conversations),
    ("/api/v1/traces", .traces),
    ("/api/v1/comfy", .comfy)]

/-- From the prefixes to `handshake.handleRequest`. -/
def dispatch (url : String) : Answer :=
  match apiRoutes.find? fun route => startsWith route.1 url with
  | some route => .handled route.2
  | none => if url = "/mev/handshake" then .handshake else .notFound

/-- `respond401` with the reason. -/
def unauthorized (req : HttpRequest) : Answer :=
  .unauthorized (if (req.authorization.filter fun header => header ≠ "").isSome then "invalid"
    else "missing")

/-- `noteInteractiveActivity(req, rawUrl)`: what is noted. -/
def noteInteractiveActivity (req : HttpRequest) : Option String :=
  let path := String.ofList (req.url.toList.takeWhile (· ≠ '?'))
  let pathname := if path = "" then "/" else path
  if startsWith "/api/v1/chairs" pathname || startsWith "/api/v1/agent-runtimes" pathname then none
  else some ("http:" ++ req.method ++ ":" ++ pathname)

/-- How the listener ends: the buckets, what was done, and the activity that was noted. -/
structure Served where
  buckets : OrderedMap String Bucket
  answer : Answer
  activity : Option String

/-- The listener of `createServer`. -/
def onRequest (cfg : BusConfig) (buckets : OrderedMap String Bucket) (req : HttpRequest)
    (now : Int) : Served :=
  if req.method = "OPTIONS" then ⟨buckets, .noContent, none⟩
  else if req.url = "/livez" then ⟨buckets, .livez, none⟩
  else if req.url = "/readyz" then ⟨buckets, .readyz, none⟩
  else if req.url = "/metrics" then
    ⟨buckets, if cfg.gate.verify req then .metrics else unauthorized req, none⟩
  else if startsWith "/api/v1/" req.url then
    -- the limiter comes before the gate
    let consumed :=
      consume cfg.limiter buckets
        (clientKey isIP cfg.trustProxy req.xForwardedFor req.remoteAddress) now
    if !consumed.2.allowed then ⟨consumed.1, .rateLimited consumed.2.retryAfterS, none⟩
    else if !cfg.gate.verify req then ⟨consumed.1, unauthorized req, none⟩
    else ⟨consumed.1, dispatch req.url, noteInteractiveActivity req⟩
  else ⟨buckets, dispatch req.url, none⟩

/-! ## Runs -/

/-- The bus, and how many of its sockets are served. -/
structure Door where
  bus : Bus
  served : Nat

inductive DoorEvent where
  | request (req : HttpRequest) (now : Int)
  | upgrade (req : UpgradeRequest) (now : Int) (completes : Bool) (offered : List String)
  /-- A socket closes, one that was served or one that was refused. -/
  | closed (served : Bool)
  | changed (context : Presence.BusContext)

section

variable (toAscii : String → Option String) (cfg : BusConfig)

/-- What an upgrade meets. -/
def upgradeHost (now : Int) (completes : Bool) (offered : List String) : UpgradeHost :=
  ⟨toAscii, isIP, now, completes, offered⟩

/-- Some socket of the upgrade is served. -/
def Upgraded.serves (u : Upgraded) : Bool := u.endings.any Ending.isAccepted

def Door.step (door : Door) : DoorEvent → Option Door
  | .request req now =>
    some { door with
      bus := { door.bus with buckets := (onRequest cfg door.bus.buckets req now).buckets } }
  | .upgrade req now completes offered =>
    let u := onUpgrade cfg (upgradeHost toAscii now completes offered) door.bus req
    some ⟨u.bus, if u.serves then door.served + 1 else door.served⟩
  | .closed served =>
    if served then
      if door.served = 0 then none
      else some ⟨{ door.bus with clients := door.bus.clients - 1 }, door.served - 1⟩
    else if door.bus.clients ≤ door.served then none
    else some { door with bus := { door.bus with clients := door.bus.clients - 1 } }
  | .changed context => some { door with bus := { door.bus with context } }

/-- The runs of a server that has just been started. -/
def doorRuns (context : Presence.BusContext) : Lts Door DoorEvent where
  init := ⟨⟨.empty, 0, context⟩, 0⟩
  step := Door.step toAscii cfg

/-- The call of the limiter that an event makes. -/
def limiterCall? : DoorEvent → Option Call
  | .request req now =>
    if req.method ≠ "OPTIONS" ∧ startsWith "/api/v1/" req.url = true then
      some ⟨clientKey isIP cfg.trustProxy req.xForwardedFor req.remoteAddress, now⟩
    else none
  | .upgrade req now _ _ =>
    some ⟨clientKey isIP cfg.trustProxy req.xForwardedFor req.remoteAddress, now⟩
  | .closed _ | .changed _ => none

/-- The event is one that the limiter admits. -/
def Admits (buckets : OrderedMap String Bucket) (e : DoorEvent) : Prop :=
  ∃ call, limiterCall? cfg e = some call ∧
    (consume cfg.limiter buckets call.key call.nowMs).2.allowed = true

/-- The event gets to what is behind the gate. -/
def Reaches (bus : Bus) : DoorEvent → Prop
  | .request req now =>
    (onRequest cfg bus.buckets req now).answer = .metrics ∨
      ∃ route, (onRequest cfg bus.buckets req now).answer = .handled route
  | .upgrade req now completes offered =>
    (onUpgrade cfg (upgradeHost toAscii now completes offered) bus req).serves = true
  | .closed _ | .changed _ => False

/-- The gate looks at the event: it reaches what is behind it, or is turned away there. -/
def Judged (bus : Bus) (e : DoorEvent) : Prop :=
  Reaches toAscii cfg bus e ∨
    match e with
    | .request req now =>
      ∃ reason, (onRequest cfg bus.buckets req now).answer = .unauthorized reason
    | .upgrade req now completes offered =>
      ∃ reason subprotocol, .closed 4401 reason subprotocol ∈
        (onUpgrade cfg (upgradeHost toAscii now completes offered) bus req).endings
    | .closed _ | .changed _ => False

/-- The event shows a token. -/
def Presents (token : String) : DoorEvent → Prop
  | .request req _ => req.authorization = some ("Bearer " ++ token)
  | .upgrade req now completes offered =>
    InHeaders req token ∨ InQuery (upgradeHost toAscii now completes offered) req token
  | .closed _ | .changed _ => False

/-- The event is a request for the metrics, which the limiter does not see. -/
def AsksMetrics : DoorEvent → Prop
  | .request req _ => req.url = "/metrics"
  | .upgrade .. | .closed _ | .changed _ => False

/-- How many events of a client within `[s, t]` the limiter admits. -/
def doorAdmits (key : String) (s t : ℚ) : Door → List DoorEvent → Nat
  | _, [] => 0
  | door, e :: es =>
    let counted :=
      match limiterCall? cfg e with
      | none => 0
      | some call =>
        if call.key = key ∧ s ≤ call.nowMs ∧ call.nowMs ≤ t ∧
            (consume cfg.limiter door.bus.buckets call.key call.nowMs).2.allowed = true then 1
        else 0
    match door.step toAscii cfg e with
    | none => counted
    | some door => counted + doorAdmits key s t door es

end

/-! ## Requests -/

section

variable {cfg : BusConfig} {buckets : OrderedMap String Bucket} {req : HttpRequest} {now : Int}

theorem verify_iff (gate : ApiTokenGate) (req : HttpRequest) :
    gate.verify req = true ↔ gate.expectedHash = none ∨
      ∃ token, req.authorization = some ("Bearer " ++ token) ∧ gate.accepts token = true := by
  unfold ApiTokenGate.verify
  split
  next hdisabled => exact ⟨fun _ => Or.inl hdisabled, fun _ => rfl⟩
  next henabled =>
    rw [or_iff_right henabled, any_eq_true_iff]
    refine exists_congr fun token => and_congr_left fun _ => ?_
    rw [Option.bind_eq_some_iff]
    constructor
    · intro hgiven
      obtain ⟨header, hheader, htoken⟩ := hgiven
      rw [hheader, (after?_eq_some_iff _ _ _).mp htoken]
    · exact fun h => ⟨_, h, (after?_eq_some_iff _ _ _).mpr rfl⟩

theorem startsWith_iff (lead url : String) :
    startsWith lead url = true ↔ ∃ rest, url = lead ++ rest := by
  rw [startsWith, Option.isSome_iff_exists]
  exact exists_congr fun rest => after?_eq_some_iff _ _ _

theorem unauthorized_ne (req : HttpRequest) : unauthorized req ≠ .metrics ∧
    ∀ route, unauthorized req ≠ .handled route :=
  ⟨fun h => Answer.noConfusion h, fun _ h => Answer.noConfusion h⟩

/-- Who is limited is not answered by a route, nor by the gate. -/
theorem limited_ne {answer : Answer} {retryAfterS : Int} (h : answer = .rateLimited retryAfterS) :
    (∀ route, answer ≠ .handled route) ∧ ∀ reason, answer ≠ .unauthorized reason := by
  rw [h]
  exact ⟨fun _ habsurd => Answer.noConfusion habsurd, fun _ habsurd => Answer.noConfusion habsurd⟩

/-- A route is one of the API. -/
theorem api_of_dispatch {url : String} {route : Route} (h : dispatch url = .handled route) :
    startsWith "/api/v1/" url = true := by
  unfold dispatch at h
  split at h
  next found hfound =>
    have hmem := List.mem_of_find?_eq_some hfound
    have hfits : startsWith found.1 url = true := by simpa using List.find?_some hfound
    obtain ⟨rest, hurl⟩ := (startsWith_iff _ _).mp hfits
    have hlead : ∀ entry ∈ apiRoutes, ∃ name, entry.1 = "/api/v1/" ++ name := by
      unfold apiRoutes
      simp only [List.forall_mem_cons]
      exact ⟨⟨"state", rfl⟩, ⟨"chairs", rfl⟩, ⟨"agent-runtimes", rfl⟩, ⟨"conversations", rfl⟩,
        ⟨"traces", rfl⟩, ⟨"comfy", rfl⟩, fun entry hmem => absurd hmem List.not_mem_nil⟩
    obtain ⟨name, hname⟩ := hlead found hmem
    refine (startsWith_iff _ _).mpr ⟨name ++ rest, ?_⟩
    rw [hurl, hname, String.append_assoc]
  next => split at h <;> exact absurd h (by simp)

theorem dispatch_ne_metrics (url : String) : dispatch url ≠ .metrics := by
  unfold dispatch
  split
  next => exact fun h => Answer.noConfusion h
  next => split <;> exact fun h => Answer.noConfusion h

theorem dispatch_ne_unauthorized (url reason : String) : dispatch url ≠ .unauthorized reason := by
  unfold dispatch
  split
  next => exact fun h => Answer.noConfusion h
  next => split <;> exact fun h => Answer.noConfusion h

/-- The call of the limiter that a request of the API makes. -/
theorem limiterCall?_request (hmethod : req.method ≠ "OPTIONS")
    (hapi : startsWith "/api/v1/" req.url = true) :
    limiterCall? cfg (.request req now) =
      some ⟨clientKey isIP cfg.trustProxy req.xForwardedFor req.remoteAddress, now⟩ := by
  rw [limiterCall?, if_pos ⟨hmethod, hapi⟩]

/-- What a request meets: nothing, the gate of the metrics, or the limiter and then the gate. -/
theorem onRequest_cases (cfg : BusConfig) (buckets : OrderedMap String Bucket) (req : HttpRequest)
    (now : Int) :
    (limiterCall? cfg (.request req now) = none ∧
        (onRequest cfg buckets req now).buckets = buckets ∧
        (∀ route, (onRequest cfg buckets req now).answer ≠ .handled route) ∧
        ((onRequest cfg buckets req now).answer = .metrics → cfg.gate.verify req = true) ∧
        ((onRequest cfg buckets req now).answer = .metrics ∨
          (∃ reason, (onRequest cfg buckets req now).answer = .unauthorized reason) →
          req.url = "/metrics")) ∨
      ∃ call, limiterCall? cfg (.request req now) = some call ∧
        (onRequest cfg buckets req now).buckets =
          (consume cfg.limiter buckets call.key call.nowMs).1 ∧
        (onRequest cfg buckets req now).answer ≠ .metrics ∧
        ((consume cfg.limiter buckets call.key call.nowMs).2.allowed = false →
          (onRequest cfg buckets req now).answer = .rateLimited
            (consume cfg.limiter buckets call.key call.nowMs).2.retryAfterS) ∧
        ∀ route, (onRequest cfg buckets req now).answer = .handled route →
          (consume cfg.limiter buckets call.key call.nowMs).2.allowed = true ∧
            cfg.gate.verify req = true := by
  have hnone : ¬(req.method ≠ "OPTIONS" ∧ startsWith "/api/v1/" req.url = true) →
      limiterCall? cfg (.request req now) = none := fun h => if_neg h
  have hprobe : ∀ url, startsWith "/api/v1/" url = false → req.url = url →
      limiterCall? cfg (.request req now) = none := by
    intro url hurl heq
    refine hnone fun hboth => ?_
    rw [heq, hurl] at hboth
    exact absurd hboth.2 (by simp)
  have hother : ∀ {answer : Answer}, answer ≠ .metrics → (∀ reason, answer ≠ .unauthorized reason) →
      (answer = .metrics ∨ ∃ reason, answer = .unauthorized reason) → req.url = "/metrics" := by
    intro answer hnot hunauthorized hcases
    rcases hcases with h | ⟨reason, h⟩
    · exact absurd h hnot
    · exact absurd h (hunauthorized reason)
  unfold onRequest
  by_cases hoptions : req.method = "OPTIONS"
  · rw [if_pos hoptions]
    exact Or.inl ⟨hnone fun hboth => hboth.1 hoptions, rfl, fun _ h => Answer.noConfusion h,
      fun h => Answer.noConfusion h,
      hother (fun h => Answer.noConfusion h) fun _ h => Answer.noConfusion h⟩
  rw [if_neg hoptions]
  by_cases hlivez : req.url = "/livez"
  · rw [if_pos hlivez]
    exact Or.inl ⟨hprobe _ rfl hlivez, rfl, fun _ h => Answer.noConfusion h,
      fun h => Answer.noConfusion h,
      hother (fun h => Answer.noConfusion h) fun _ h => Answer.noConfusion h⟩
  rw [if_neg hlivez]
  by_cases hreadyz : req.url = "/readyz"
  · rw [if_pos hreadyz]
    exact Or.inl ⟨hprobe _ rfl hreadyz, rfl, fun _ h => Answer.noConfusion h,
      fun h => Answer.noConfusion h,
      hother (fun h => Answer.noConfusion h) fun _ h => Answer.noConfusion h⟩
  rw [if_neg hreadyz]
  by_cases hmetrics : req.url = "/metrics"
  · rw [if_pos hmetrics]
    refine Or.inl ⟨hprobe _ rfl hmetrics, rfl, ?_⟩
    dsimp only
    split
    next hverify => exact ⟨fun _ h => Answer.noConfusion h, fun _ => hverify, fun _ => hmetrics⟩
    next =>
      exact ⟨(unauthorized_ne req).2, fun h => absurd h (unauthorized_ne req).1, fun _ => hmetrics⟩
  rw [if_neg hmetrics]
  by_cases hapi : startsWith "/api/v1/" req.url = true
  · rw [if_pos hapi]
    refine Or.inr ⟨_, limiterCall?_request hoptions hapi, ?_⟩
    dsimp only
    -- the limiter, and then the gate
    cases hallowed : (consume cfg.limiter buckets
      (clientKey isIP cfg.trustProxy req.xForwardedFor req.remoteAddress) now).2.allowed with
    | false =>
      rw [if_pos (by rfl)]
      exact ⟨rfl, fun h => Answer.noConfusion h, fun _ => rfl, fun _ h => Answer.noConfusion h⟩
    | true =>
      rw [if_neg (by decide)]
      cases hverify : cfg.gate.verify req with
      | false =>
        rw [if_pos (by rfl)]
        exact ⟨rfl, (unauthorized_ne req).1, fun h => Bool.noConfusion h,
          fun route h => absurd h ((unauthorized_ne req).2 route)⟩
      | true =>
        rw [if_neg (by decide)]
        exact ⟨rfl, dispatch_ne_metrics req.url, fun h => Bool.noConfusion h, fun _ _ => ⟨rfl, rfl⟩⟩
  · rw [if_neg hapi]
    exact Or.inl ⟨hnone fun hboth => hapi hboth.2, rfl, fun route h => hapi (api_of_dispatch h),
      fun h => absurd h (dispatch_ne_metrics req.url),
      hother (dispatch_ne_metrics req.url) (dispatch_ne_unauthorized req.url)⟩

end

/-! ## Upgrades -/

section

variable {cfg : BusConfig} {host : UpgradeHost} {bus : Bus} {req : UpgradeRequest}

/-- The limiter is asked whatever becomes of the upgrade, and a socket is counted or not. -/
theorem onUpgrade_bus (cfg : BusConfig) (host : UpgradeHost) (bus : Bus) (req : UpgradeRequest) :
    (onUpgrade cfg host bus req).bus.buckets = (consumedBus cfg host bus req).buckets ∧
      bus.clients ≤ (onUpgrade cfg host bus req).bus.clients := by
  have hreject : ∀ code reason,
      (rejectUpgrade host (consumedBus cfg host bus req) req.url code reason).bus.buckets =
          (consumedBus cfg host bus req).buckets ∧
        bus.clients ≤
          (rejectUpgrade host (consumedBus cfg host bus req) req.url code reason).bus.clients := by
    intro code reason
    refine ⟨rfl, ?_⟩
    show bus.clients ≤ if host.completes then bus.clients + 1 else bus.clients
    split <;> omega
  have hconnect : ∀ url selected,
      (connectUpgrade host (consumedBus cfg host bus req) req url selected).bus.buckets =
          (consumedBus cfg host bus req).buckets ∧
        bus.clients ≤
          (connectUpgrade host (consumedBus cfg host bus req) req url selected).bus.clients := by
    intro url selected
    have hclients : bus.clients ≤ ((consumedBus cfg host bus req).handled host).clients := by
      show bus.clients ≤ if host.completes then bus.clients + 1 else bus.clients
      split <;> omega
    unfold connectUpgrade
    split
    · split <;> exact ⟨rfl, hclients⟩
    · exact ⟨rfl, hclients⟩
  by_cases hreaches : ReachesGate cfg host bus req
  · rw [onUpgrade_reached hreaches]
    split
    · exact ⟨rfl, le_refl _⟩
    · split
      · exact hreject _ _
      · split
        · exact ⟨rfl, le_refl _⟩
        · exact hconnect _ _
  · unfold onUpgrade
    dsimp only
    split
    · exact hreject _ _
    · next hadmitted =>
      split
      · exact hreject _ _
      · next horigin =>
        split
        · exact hreject _ _
        · next hroom =>
          refine absurd ⟨?_, ?_, not_le.mp hroom⟩ hreaches
          · simpa [LimiterAdmits] using hadmitted
          · simpa using horigin

/-- An upgrade that is served passed the limiter, the cap and the gate, and is counted. -/
theorem onUpgrade_serves (h : (onUpgrade cfg host bus req).serves = true) :
    LimiterAdmits cfg host bus req ∧ (bus.clients : Int) < cfg.maxWsClients ∧
      TokenFits cfg host req ∧ (onUpgrade cfg host bus req).bus.clients = bus.clients + 1 := by
  obtain ⟨ending, hmem, haccepted⟩ := List.any_eq_true.mp h
  by_cases hreaches : ReachesGate cfg host bus req
  · have hu := onUpgrade_reached hreaches
    rcases verify_cases cfg host req with ⟨hverify, -, -⟩ | ⟨outcome, hverify, hallowed, -⟩
    · rw [hverify] at hu
      rw [hu] at hmem
      exact absurd hmem List.not_mem_nil
    · rw [hverify] at hu
      dsimp only at hu
      by_cases hfits : TokenFits cfg host req
      · rw [if_neg (by simpa using hallowed.mpr hfits)] at hu
        refine ⟨hreaches.1, hreaches.2.2, hfits, ?_⟩
        cases hscrub : scrub host.toAscii req.url with
        | none =>
          rw [hscrub] at hu
          rw [hu] at hmem
          exact absurd hmem List.not_mem_nil
        | some url =>
          rw [hscrub] at hu
          dsimp only at hu
          rw [hu] at hmem ⊢
          unfold connectUpgrade at hmem ⊢
          by_cases hcompletes : host.completes = true
          · rw [if_pos hcompletes] at hmem ⊢
            split at hmem
            · exact absurd hmem List.not_mem_nil
            · show (if host.completes then bus.clients + 1 else bus.clients) = _
              rw [if_pos hcompletes]
          · rw [if_neg hcompletes] at hmem
            rw [List.mem_singleton.mp hmem] at haccepted
            exact Bool.noConfusion haccepted
      · rw [if_pos (by simpa using mt hallowed.mp hfits)] at hu
        have hunserved := (rejectUpgrade_rejects host (consumedBus cfg host bus req) req.url 4401
          "unauthorized").unserved ending (hu ▸ hmem)
        exact Bool.noConfusion (hunserved.symm.trans haccepted)
  · have hunserved := (onUpgrade_refused hreaches).unserved ending hmem
    exact Bool.noConfusion (hunserved.symm.trans haccepted)

/-- An upgrade that the gate turns away passed the limiter. -/
theorem onUpgrade_unauthorized {reason : String} {subprotocol : Option String}
    (h : .closed 4401 reason subprotocol ∈ (onUpgrade cfg host bus req).endings) :
    LimiterAdmits cfg host bus req := by
  by_contra hrefused
  have hlimited : onUpgrade cfg host bus req =
      rejectUpgrade host (consumedBus cfg host bus req) req.url 4429 "rate_limited" := by
    unfold onUpgrade
    dsimp only
    rw [if_pos (by simpa [LimiterAdmits] using hrefused)]
    rfl
  rw [hlimited] at h
  have hending := List.mem_singleton.mp h
  split at hending
  · exact absurd (Ending.closed.inj hending).1 (by decide)
  · exact Ending.noConfusion hending

end

/-! ## The start -/

theorem trim_empty : trim "" = "" := rfl

theorem expectedHash_new (sha256 : String → BitVec 256) (raw : Option String) :
    (ApiTokenGate.new sha256 raw).expectedHash = none ↔
      raw.filter (fun token => token ≠ "") = none := by
  rw [ApiTokenGate.new, Option.map_eq_none_iff]

/-- What a gate accepts has the digest of its token. -/
theorem accepts_new {sha256 : String → BitVec 256} {raw : Option String} {presented : String}
    (h : (ApiTokenGate.new sha256 raw).accepts presented = true) :
    ∃ secret, raw = some secret ∧ secret ≠ "" ∧ sha256 presented = sha256 secret := by
  have hsome : (raw.filter fun token => token ≠ "").map sha256 = some (sha256 presented) :=
    of_decide_eq_true h
  obtain ⟨secret, hsecret, hdigest⟩ := Option.map_eq_some_iff.mp hsome
  obtain ⟨hraw, hne⟩ := Option.filter_eq_some_iff.mp hsecret
  exact ⟨secret, hraw, of_decide_eq_true hne, hdigest.symm⟩

/-- A server that starts has the gate of its token; without one it is bound to loopback. -/
theorem newServer_ok {render : ℚ → String} {env : ServerEnv} {rateLimit : RateLimiterOptions}
    {srv : Server} (h : newServer render env rateLimit = .ok srv) :
    srv.cfg.gate = .new env.sha256 env.apiToken ∧
      (env.apiToken.filter (fun token => token ≠ "") = none →
        isLoopbackBindHost srv.bind.bindHost = true) := by
  unfold newServer at h
  obtain ⟨bind, hbind, h⟩ := Js.bind_ok h
  obtain ⟨limiter, -, h⟩ := Js.bind_ok h
  rw [Except.ok.injEq] at h
  rw [← h]
  refine ⟨rfl, fun hnone => ?_⟩
  unfold resolveBindHost at hbind
  dsimp only at hbind
  split at hbind
  next hloopback =>
    rw [← Except.ok.inj hbind]
    exact hloopback
  next =>
    -- a token that is empty is empty when it is trimmed
    have htrimmed : ((env.apiToken.map trim).filter fun token => token ≠ "") = none := by
      cases htoken : env.apiToken with
      | none => rfl
      | some token =>
        rw [htoken] at hnone
        have hempty : token = "" := by simpa using hnone
        rw [hempty, Option.map_some, trim_empty]
        rfl
    rw [htrimmed] at hbind
    exact absurd hbind (by simp)

/-! ## Every run -/

section

variable {toAscii : String → Option String} {cfg : BusConfig} {context : Presence.BusContext}

theorem maxWsClients_pos (cfg : BusConfig) : 0 < cfg.maxWsClients := by
  unfold BusConfig.maxWsClients
  split
  · split
    next h => exact h.1
    next => decide
  · decide

/-- The buckets after an event are those of its call. -/
theorem step_buckets {door door' : Door} {e : DoorEvent}
    (h : door.step toAscii cfg e = some door') :
    (limiterCall? cfg e = none ∧ door'.bus.buckets = door.bus.buckets) ∨
      ∃ call, limiterCall? cfg e = some call ∧
        door'.bus.buckets = (consume cfg.limiter door.bus.buckets call.key call.nowMs).1 := by
  cases e with
  | request req now =>
    rw [Door.step, Option.some.injEq] at h
    rw [← h]
    rcases onRequest_cases cfg door.bus.buckets req now with
      ⟨hnone, hsame, -⟩ | ⟨call, hcall, hb, -⟩
    · exact Or.inl ⟨hnone, hsame⟩
    · exact Or.inr ⟨call, hcall, hb⟩
  | upgrade req now completes offered =>
    rw [Door.step, Option.some.injEq] at h
    rw [← h]
    exact Or.inr ⟨_, rfl, (onUpgrade_bus cfg _ door.bus req).1⟩
  | closed served =>
    rw [Door.step] at h
    split at h <;> split at h
    · exact absurd h (by simp)
    · exact Or.inl ⟨rfl, by rw [← Option.some.inj h]⟩
    · exact absurd h (by simp)
    · exact Or.inl ⟨rfl, by rw [← Option.some.inj h]⟩
  | changed context =>
    rw [Door.step, Option.some.injEq] at h
    exact Or.inl ⟨rfl, by rw [← h]⟩

/-- The sockets that are served are some of those that are counted, and not too many. -/
structure Capped (cfg : BusConfig) (door : Door) : Prop where
  counted : door.served ≤ door.bus.clients
  capped : (door.served : Int) ≤ cfg.maxWsClients

theorem capped_step {door door' : Door} {e : DoorEvent} (h : Capped cfg door)
    (hst : door.step toAscii cfg e = some door') : Capped cfg door' := by
  have hcounted := h.counted
  have hcapped := h.capped
  cases e with
  | request req now =>
    rw [Door.step, Option.some.injEq] at hst
    rw [← hst]
    exact ⟨hcounted, hcapped⟩
  | upgrade req now completes offered =>
    rw [Door.step, Option.some.injEq] at hst
    rw [← hst]
    have hgrows := (onUpgrade_bus cfg (upgradeHost toAscii now completes offered) door.bus req).2
    split
    next hserves =>
      obtain ⟨-, hroom, -, hclients⟩ := onUpgrade_serves hserves
      exact ⟨by dsimp only; omega, by dsimp only; omega⟩
    next => exact ⟨le_trans hcounted hgrows, hcapped⟩
  | closed served =>
    rw [Door.step] at hst
    split at hst <;> split at hst
    · exact absurd hst (by simp)
    · rw [← Option.some.inj hst]
      exact ⟨by dsimp only; omega, by dsimp only; omega⟩
    · exact absurd hst (by simp)
    · rw [← Option.some.inj hst]
      exact ⟨by dsimp only; omega, hcapped⟩
  | changed context =>
    rw [Door.step, Option.some.injEq] at hst
    rw [← hst]
    exact ⟨hcounted, hcapped⟩

/-- What the limiter admits in a run of the server is what it admits in the run of its calls. -/
theorem doorAdmits_eq (key : String) (s t : ℚ) : ∀ (es : List DoorEvent) {door door' : Door},
    (doorRuns toAscii cfg context).exec door es = some door' →
      doorAdmits toAscii cfg key s t door es =
        admitted cfg.limiter key s t door.bus.buckets (es.filterMap (limiterCall? cfg))
  | [], _, _, _ => rfl
  | e :: es, door, door', hrun => by
    obtain ⟨next, hst, hrest⟩ := Lts.exec_cons.mp hrun
    have hstep : door.step toAscii cfg e = some next := hst
    have ih := doorAdmits_eq key s t es hrest
    rw [doorAdmits, hstep, List.filterMap_cons]
    rcases step_buckets hstep with ⟨hnone, hsame⟩ | ⟨call, hcall, hbuckets⟩
    · rw [hnone]
      dsimp only
      rw [ih, hsame, Nat.zero_add]
    · rw [hcall]
      dsimp only
      rw [ih, hbuckets, admitted_cons]

/-- An event that reaches what is behind the gate shows the token, if there is one. -/
theorem reaches_mediated {bus : Bus} {e : DoorEvent} (h : Reaches toAscii cfg bus e) :
    cfg.gate.expectedHash = none ∨
      ∃ token, Presents toAscii token e ∧ cfg.gate.accepts token = true := by
  cases e with
  | request req now =>
    refine (verify_iff cfg.gate req).mp ?_
    rcases onRequest_cases cfg bus.buckets req now with ⟨-, -, hunrouted, hmetrics, -⟩ |
      ⟨call, -, -, hnot, -, hrouted⟩
    · rcases h with h | ⟨route, h⟩
      · exact hmetrics h
      · exact absurd h (hunrouted route)
    · rcases h with h | ⟨route, h⟩
      · exact absurd h hnot
      · exact (hrouted route h).2
  | upgrade req now completes offered => exact (onUpgrade_serves h).2.2.1
  | closed served => exact h.elim
  | changed context => exact h.elim

/-- The gate looks at no event that the limiter refuses, but for the metrics. -/
theorem judged_limited {bus : Bus} {e : DoorEvent} (h : Judged toAscii cfg bus e) :
    AsksMetrics e ∨ Admits cfg bus.buckets e := by
  cases e with
  | request req now =>
    rcases onRequest_cases cfg bus.buckets req now with ⟨-, -, hunrouted, -, hmetrics⟩ |
      ⟨call, hcall, -, hnot, hlimited, hrouted⟩
    · rcases h with (h | ⟨route, h⟩) | ⟨reason, h⟩
      · exact Or.inl (hmetrics (Or.inl h))
      · exact absurd h (hunrouted route)
      · exact Or.inl (hmetrics (Or.inr ⟨reason, h⟩))
    · refine Or.inr ⟨call, hcall, ?_⟩
      cases hallowed : (consume cfg.limiter bus.buckets call.key call.nowMs).2.allowed with
      | true => rfl
      | false =>
        obtain ⟨hunrouted, hunjudged⟩ := limited_ne (hlimited hallowed)
        rcases h with (h | ⟨route, h⟩) | ⟨reason, h⟩
        · exact absurd h hnot
        · exact absurd h (hunrouted route)
        · exact absurd h (hunjudged reason)
  | upgrade req now completes offered =>
    have hadmits : LimiterAdmits cfg (upgradeHost toAscii now completes offered) bus req := by
      rcases h with h | ⟨reason, subprotocol, h⟩
      · exact (onUpgrade_serves h).1
      · exact onUpgrade_unauthorized h
    exact Or.inr ⟨_, rfl, hadmits⟩
  | closed served => exact (or_self_iff.mp h).elim
  | changed context => exact (or_self_iff.mp h).elim

end

/-- What a server promises of a run. -/
structure FrontDoor (toAscii : String → Option String) (env : ServerEnv) (srv : Server)
    (context : Presence.BusContext) (es : List DoorEvent) (door : Door) : Prop where
  /-- Who reaches what is behind the gate showed the token, or there is none, and the server is
  bound to loopback. -/
  mediated : ∀ pre e post before, es = pre ++ e :: post →
    (doorRuns toAscii srv.cfg context).exec (doorRuns toAscii srv.cfg context).init pre
      = some before → Reaches toAscii srv.cfg before.bus e →
    (∃ token secret, Presents toAscii token e ∧ env.apiToken = some secret ∧ secret ≠ "" ∧
        env.sha256 token = env.sha256 secret) ∨
      env.apiToken.filter (fun token => token ≠ "") = none ∧
        isLoopbackBindHost srv.bind.bindHost = true
  /-- The gate looks at what the limiter admits, and at who asks for the metrics. -/
  limited : ∀ pre e post before, es = pre ++ e :: post →
    (doorRuns toAscii srv.cfg context).exec (doorRuns toAscii srv.cfg context).init pre
      = some before → Judged toAscii srv.cfg before.bus e →
    AsksMetrics e ∨ Admits srv.cfg before.bus.buckets e
  served : (door.served : Int) ≤ srv.cfg.maxWsClients
  /-- How often a client gets past the limiter, with its requests and upgrades together. -/
  window : ∀ key, OwnTimesOrdered key (es.filterMap (limiterCall? srv.cfg)) →
    (limiter srv.cfg.limiter).Along (fun b c => ¬Evicts srv.cfg.limiter key b c)
      (limiter srv.cfg.limiter).init (es.filterMap (limiterCall? srv.cfg)) →
    ∀ s t, s ≤ t → (doorAdmits toAscii srv.cfg key s t
        (doorRuns toAscii srv.cfg context).init es : ℚ)
      ≤ srv.cfg.limiter.capacity + srv.cfg.limiter.refillPerSec * (t - s) / 1000

/-- A server for everybody, whose gate tells tokens apart by their length. -/
def sampleServerEnv : ServerEnv where
  sha256 token := BitVec.ofNat 256 token.length
  requestedHost := some "0.0.0.0"
  apiToken := some "secret"
  trustProxyVar := none
  allowedOriginsVar := ""
  maxClientsVar := ""

def stateRequest (token : String) : DoorEvent :=
  .request ⟨"GET", "/api/v1/state", some ("Bearer " ++ token), none, some "192.0.2.1"⟩ 0

end Kovael.Http
