import Kovael.Http.RateLimiter
import Kovael.Js.Url
import Kovael.Presence.Reconnect

/-!
# WebSocket upgrades

The `upgrade` listener of `src/services/WebSocketBus.ts`, the `connection`
listener that it triggers, and `verifyWebSocketUpgrade` of
`src/services/ApiTokenGate.ts`. An upgrade passes the limiter, the origin, the
cap and the gate, in this order; on the way its URL is parsed up to three times,
and none of the three calls of `new URL` is guarded.

Mirroring notes:
- `ws` is outside: `completes` says whether `handleUpgrade` makes a socket of the
  request or aborts it with an HTTP error, and `offered` is what it reads of the
  subprotocols. Its callback runs before `handleUpgrade` returns.
- What the governor does on `noteActivity` is left out: it neither throws nor
  ends a connection.
-/

namespace Kovael.Http

open Js

/-- An upgrade request, as `node:http` hands it over. -/
structure UpgradeRequest where
  url : String
  host : Option String
  origin : Option String
  authorization : Option String
  secWebSocketProtocol : Option String
  xForwardedFor : Option String
  remoteAddress : Option String
  deriving DecidableEq, Repr

/-! ## `ApiTokenGate.ts` -/

inductive WebSocketAuthSource where
  | header
  | query
  | subprotocol
  deriving DecidableEq, Repr

structure WebSocketAuthOutcome where
  allowed : Bool
  source : Option WebSocketAuthSource
  selectedSubprotocol : Option String
  deriving DecidableEq, Repr

/-- The gate. It has the digest of its token, and none where it is disabled. -/
structure ApiTokenGate where
  sha256 : String → BitVec 256
  expectedHash : Option (BitVec 256)

namespace ApiTokenGate

/-- `new ApiTokenGate(...)`; `raw` is the variable. -/
def new (sha256 : String → BitVec 256) (raw : Option String) : ApiTokenGate :=
  ⟨sha256, (raw.filter fun token => token ≠ "").map sha256⟩

/-- `matches(presented)`. -/
def accepts (gate : ApiTokenGate) (presented : String) : Bool :=
  gate.expectedHash = some (gate.sha256 presented)

end ApiTokenGate

/-- `parseSubprotocols(header)`. -/
def parseSubprotocols (header : Option String) : List String :=
  match header with
  | none => []
  | some raw => commaItems raw

section

variable (toAscii : String → Option String)

/-- `new URL(rawUrl, 'http://localhost')`. -/
def localUrl (rawUrl : String) : Option Url := Url.parseOn toAscii rawUrl "http://localhost"

/-- `extractQueryToken(rawUrl)`; the outer `none` if it throws. -/
def extractQueryToken (rawUrl : String) : Option (Option String) :=
  if rawUrl = "" then some none
  else (localUrl toAscii rawUrl).map fun url => url.getParam "token"

/-- The token of the header, if it is the right one. -/
def headerToken (gate : ApiTokenGate) (req : UpgradeRequest) : Option String :=
  (req.authorization.bind (after? "Bearer ")).filter gate.accepts

/-- The first subprotocol that has the right token. -/
def tokenSubprotocol (gate : ApiTokenGate) (req : UpgradeRequest) : Option String :=
  (parseSubprotocols req.secWebSocketProtocol).find? fun proto =>
    (after? "bearer." proto).any gate.accepts

/-- `verifyWebSocketUpgrade(req)`; `none` if it throws. -/
def verifyWebSocketUpgrade (gate : ApiTokenGate) (req : UpgradeRequest) :
    Option WebSocketAuthOutcome :=
  if gate.expectedHash = none then some ⟨true, none, none⟩
  else if (headerToken gate req).isSome then some ⟨true, some .header, none⟩
  else
    match tokenSubprotocol gate req with
    | some proto => some ⟨true, some .subprotocol, some proto⟩
    | none => (extractQueryToken toAscii req.url).map fun queryToken =>
        if queryToken.any gate.accepts then ⟨true, some .query, none⟩ else ⟨false, none, none⟩

/-! ## `WebSocketBus.ts` -/

/-- `LOOPBACK_HOSTS`. -/
def loopbackHosts : List String := ["localhost", "127.0.0.1", "::1", "[::1]"]

/-- `isAllowedWsOrigin(origin, allowedOrigins)`. -/
def isAllowedWsOrigin (origin : Option String) (allowedOrigins : List String) : Bool :=
  match origin with
  | none => true
  | some origin =>
    if origin = "" then true
    else
      match Url.parse toAscii origin with
      | none => false
      | some url => loopbackHosts.contains url.hostname || allowedOrigins.contains origin

/-- The URL of the request, without the token; `none` if `new URL` throws. -/
def scrub (rawUrl : String) : Option String :=
  if rawUrl ≠ "" ∧ includes "token=" rawUrl = true then
    (localUrl toAscii rawUrl).map fun url =>
      if url.searchParams.any fun p => p.1 = "token" then
        (url.deleteParam "token").pathname ++ (url.deleteParam "token").search
      else rawUrl
  else some rawUrl

/-- `extractNodeId(request)`; `none` if it throws. -/
def extractNodeId (url : String) (host : Option String) : Option String :=
  (Url.parseOn toAscii url ("http://" ++ host.getD "undefined")).map fun url =>
    let raw := ((url.getParam "nodeId").filter fun id => id ≠ "").getD "unknown"
    sliceStart 128 (String.ofList (raw.toList.filter fun c => 0x1F < c.toNat))

end

/-- The environment of the process, and the limiter's configuration. -/
structure BusConfig where
  /-- `KOVAEL_WS_ALLOWED_ORIGINS ?? ''` -/
  allowedOriginsVar : String
  /-- `KOVAEL_WS_MAX_CLIENTS ?? ''` -/
  maxClientsVar : String
  limiter : RateLimiterConfig
  trustProxy : Bool
  gate : ApiTokenGate

namespace BusConfig

/-- `allowedWsOrigins`. -/
def allowedWsOrigins (cfg : BusConfig) : List String := commaItems cfg.allowedOriginsVar

/-- `maxWsClients`. A number that rounds to `Infinity` is not finite. -/
def maxWsClients (cfg : BusConfig) : Int :=
  match parseInt cfg.maxClientsVar with
  | some n => if 0 < n ∧ n < 2 ^ 1024 - 2 ^ 970 then n else 64
  | none => 64

end BusConfig

/-- What the listener reads and changes. -/
structure Bus where
  buckets : OrderedMap String Bucket
  /-- `wss.clients.size` -/
  clients : Nat
  context : Presence.BusContext

/-- What a request meets outside the listener. -/
structure UpgradeHost where
  toAscii : String → Option String
  isIP : String → Nat
  now : Int
  completes : Bool
  offered : List String

/-- How a request ends: an HTTP error, a socket that is closed, or one that is served. -/
inductive Ending where
  | aborted
  | closed (code : Nat) (reason : String) (subprotocol : Option String)
  | accepted (subprotocol : Option String) (nodeId : String) (frames : List Presence.Frame)

/-- The socket is served. -/
def Ending.isAccepted : Ending → Bool
  | .accepted .. => true
  | _ => false

/-- How the listener ends: the bus, the URL that later listeners see, and how the request
ended; `threw` if an exception escaped. -/
structure Upgraded where
  bus : Bus
  url : String
  endings : List Ending
  threw : Bool

/-- `handleProtocols`: the subprotocol that is echoed, where some are offered. -/
def handleProtocols (offered : List String) (selected : Option String) (rejected : Bool) :
    Option String :=
  match offered, selected with
  | [], _ => none
  | _, some picked => some picked
  | first :: _, none => if rejected then some first else none

section

variable (cfg : BusConfig) (host : UpgradeHost)

/-- The bus, once `ws` has a socket or has none. -/
def Bus.handled (bus : Bus) : Bus :=
  { bus with clients := if host.completes then bus.clients + 1 else bus.clients }

/-- `handleUpgrade(req, socket, head, (ws) => ws.close(code, reason))`. -/
def rejectUpgrade (bus : Bus) (url : String) (code : Nat) (reason : String) : Upgraded where
  bus := bus.handled host
  url := url
  endings :=
    [if host.completes then .closed code reason (handleProtocols host.offered none true)
     else .aborted]
  threw := false

/-- `handleUpgrade` with the callback that emits `connection`, and the listener of that. -/
def connectUpgrade (bus : Bus) (req : UpgradeRequest) (url : String) (selected : Option String) :
    Upgraded :=
  if host.completes then
    match extractNodeId host.toAscii url req.host with
    | none => ⟨bus.handled host, url, [], true⟩
    | some nodeId =>
      ⟨bus.handled host, url,
        [.accepted (handleProtocols host.offered selected false) nodeId
          (Presence.connectionFrames bus.context)], false⟩
  else ⟨bus.handled host, url, [.aborted], false⟩

/-- `server.on('upgrade', …)`. -/
def onUpgrade (bus : Bus) (req : UpgradeRequest) : Upgraded :=
  let key := clientKey host.isIP cfg.trustProxy req.xForwardedFor req.remoteAddress
  let consumed := consume cfg.limiter bus.buckets key host.now
  let bus := { bus with buckets := consumed.1 }
  if !consumed.2.allowed then rejectUpgrade host bus req.url 4429 "rate_limited"
  else if !isAllowedWsOrigin host.toAscii req.origin cfg.allowedWsOrigins then
    rejectUpgrade host bus req.url 4403 "forbidden_origin"
  else if cfg.maxWsClients ≤ bus.clients then
    rejectUpgrade host bus req.url 1013 "try_again_later"
  else
    match verifyWebSocketUpgrade host.toAscii cfg.gate req with
    | none => ⟨bus, req.url, [], true⟩
    | some outcome =>
      if !outcome.allowed then rejectUpgrade host bus req.url 4401 "unauthorized"
      else
        match scrub host.toAscii req.url with
        | none => ⟨bus, req.url, [], true⟩
        | some url => connectUpgrade host bus req url outcome.selectedSubprotocol

end

end Kovael.Http
