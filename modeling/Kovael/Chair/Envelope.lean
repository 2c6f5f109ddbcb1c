import Kovael.Crypto.Gcm
import Kovael.Js.JsonNumber
import Kovael.Js.Utf8

/-!
# The encrypted dispatch envelope

`secureChairDispatchBody` and `openChairDispatchBody` of
`src/services/ChairDispatchSecurity.ts`, and their counterparts
`encryptPayload` and `decryptPayload` of `scripts/kovael-agent-inbox.mjs`.

Mirroring notes:
- `secret` is `process.env.KOVAEL_CHAIR_DISPATCH_SECRET`, `now` and `timestamp` are
  readings of `Date.now()`, and `iv` is what `crypto.randomBytes(12)` returned.
- HKDF is ideal: a derived key is the inputs it was derived from.
- AES-GCM is ideal: `calls` are the encryptions that were made with it.
- A body is what `JSON.parse` made of the request; `Json.parse` takes the printing
  of numbers as a parameter.
-/

namespace Kovael

open Js Crypto
open Js.Base64 (Bytes)

/-- What `hkdfSync(digest, ikm, salt, info, keylen)` derives. -/
structure DerivedKey where
  digest : String
  ikm : String
  salt : String
  info : String
  keylen : Nat
  deriving DecidableEq, Repr

/-- A body and its headers. -/
structure Secured where
  body : String
  headers : List (String × String)
  deriving DecidableEq, Repr

/-- `value === true`. -/
def isTrue : Option Json → Bool
  | some (.bool true) => true
  | _ => false

/-! ## `ChairDispatchSecurity.ts` -/

namespace Chair

/-- `SECURITY_VERSION`. -/
def securityVersion : String := "kovael-chair-v1"

/-- `ENCRYPTION_ALG`. -/
def encryptionAlg : String := "A256GCM"

/-- `MAX_CLOCK_SKEW_MS`. -/
def maxClockSkewMs : Int := 5 * 60000

/-- `CHAIR_DISPATCH_SECURITY_HEADER`. -/
def chairDispatchSecurityHeader : String := "x-kovael-chair-security"

/-- `DISPATCH_KDF_SALT`. -/
def dispatchKdfSalt : String := "kovael-chair-dispatch-kdf"

/-- What `openChairDispatchBody` throws: a `ChairDispatchSecurityError`, or a `TypeError`. -/
inductive OpenError where
  | security (status : Nat) (code message : String)
  | typeError
  deriving DecidableEq, Repr

/-- `currentSecret()`. -/
def currentSecret (secret : Option String) : Option String :=
  (secret.map trim).filter fun value => 32 ≤ Js.length value

/-- `keyFor(secret)`. -/
def keyFor (secret : String) : DerivedKey where
  digest := "sha256"
  ikm := secret
  salt := dispatchKdfSalt
  info := securityVersion ++ ":payload"
  keylen := 32

/-- `aadFor(requestId, timestamp)`, with the text of the timestamp. -/
def aadFor (requestId timestamp : String) : Bytes :=
  Utf8.encode (securityVersion ++ "\n" ++ requestId ++ "\n" ++ timestamp)

/-- `b64(value)`. -/
def b64 (value : Bytes) : String := Base64.encode value

/-- `fromB64(value, field)`. `Buffer.from` takes every text. -/
def fromB64 (value field : String) : Except OpenError Bytes :=
  if value = "" then
    .error (.security 400 "invalid_chair_dispatch_envelope" (field ++ " is required"))
  else .ok (Base64.decode value)

/-- The fields of a `ChairDispatchEnvelope` that are not constant; `timestamp` as it prints. -/
structure ChairDispatchEnvelope where
  requestId : String
  timestamp : String
  iv : String
  ciphertext : String
  tag : String
  deriving DecidableEq, Repr

/-- `String(body[key] ?? '')`. -/
def textField (body : Json) (key : String) : Except OpenError String :=
  match Json.textOr? (body.field? key) with
  | some text => .ok text
  | none => .error .typeError

/-- `asEnvelope(body)`. -/
def asEnvelope (now : Int) (body : Json) : Except OpenError ChairDispatchEnvelope :=
  match body.field? "requestId", body.field? "timestamp" with
  | some (.string requestId), some (.number timestamp) =>
    if body.stringField? "version" = some securityVersion ∧ isTrue (body.field? "encrypted") ∧
        body.stringField? "alg" = some encryptionAlg ∧ requestId ≠ "" ∧
        (Json.numberValue timestamp).isFinite then
      if (Number.ofInt maxClockSkewMs).lt ((Number.ofInt now).sub (Json.numberValue timestamp)).abs
      then .error (.security 401 "stale_chair_dispatch_envelope"
        "encrypted chair payload timestamp is outside the allowed window")
      else do
        let iv ← textField body "iv"
        let ciphertext ← textField body "ciphertext"
        let tag ← textField body "tag"
        .ok { requestId, timestamp, iv, ciphertext, tag }
    else .error malformed
  | _, _ => .error malformed
where
  malformed : OpenError :=
    .security 400 "invalid_chair_dispatch_envelope" "encrypted chair payload is malformed"

/-- The encryption of a payload. -/
def sealCall (secret requestId : String) (timestamp : Int) (iv : Bytes) (payload : Json) :
    Call DerivedKey where
  key := keyFor secret
  iv := iv
  aad := aadFor requestId (toString timestamp)
  plaintext := Utf8.encode payload.stringify

/-- The envelope around an encryption. -/
def envelopeOf (gcm : Gcm DerivedKey) (call : Call DerivedKey) (requestId : String)
    (timestamp : Int) : Json :=
  .object [
    ("version", .string securityVersion),
    ("encrypted", .bool true),
    ("alg", .string encryptionAlg),
    ("requestId", .string requestId),
    ("timestamp", .ofInt timestamp),
    ("iv", .string (b64 call.iv)),
    ("ciphertext", .string (b64 (gcm.sealed call))),
    ("tag", .string (b64 (gcm.authTag call)))]

/-- `secureChairDispatchBody(payload, requestId)`. -/
def secureChairDispatchBody (gcm : Gcm DerivedKey) (secret : Option String) (timestamp : Int)
    (iv : Bytes) (payload : Json) (requestId : String) : Secured :=
  match currentSecret secret with
  | none => {
      body := payload.stringify
      headers := [("content-type", "application/json")] }
  | some secret => {
      body := (envelopeOf gcm (sealCall secret requestId timestamp iv payload) requestId
        timestamp).stringify
      headers := [
        ("content-type", "application/json"),
        (chairDispatchSecurityHeader, securityVersion),
        ("x-kovael-request-id", requestId)] }

/-- The `try` of `openChairDispatchBody`. An IV of no bytes is refused by
`createDecipheriv`, and a tag of another length by `setAuthTag`. -/
def openEnvelope (gcm : Gcm DerivedKey) (number : String → String) (calls : List (Call DerivedKey))
    (secret : String) (envelope : ChairDispatchEnvelope) : Except OpenError Json := do
  let iv ← fromB64 envelope.iv "iv"
  if iv = [] then throw failed
  let tag ← fromB64 envelope.tag "tag"
  if tag.length ∉ tagLengths then throw failed
  let ciphertext ← fromB64 envelope.ciphertext "ciphertext"
  match gcm.decipher calls (keyFor secret) iv (aadFor envelope.requestId envelope.timestamp) tag
      ciphertext with
  | none => throw failed
  | some plaintext =>
    match Json.parse number (Utf8.decode plaintext) with
    | none => throw failed
    | some (.object fields) => pure (.object fields)
    | some _ => throw (.security 400 "invalid_chair_dispatch_payload"
        "decrypted chair payload is not an object")
where
  failed : OpenError :=
    .security 401 "invalid_chair_dispatch_ciphertext" "encrypted chair payload authentication failed"

/-- `openChairDispatchBody(body)`. -/
def openChairDispatchBody (gcm : Gcm DerivedKey) (number : String → String)
    (calls : List (Call DerivedKey)) (secret : Option String) (now : Int) (body : Json) :
    Except OpenError Json :=
  match currentSecret secret with
  | none => .ok body
  | some secret =>
    match body with
    | .null => .error .typeError
    | body =>
      if isTrue (body.field? "encrypted") then do
        openEnvelope gcm number calls secret (← asEnvelope now body)
      else .error (.security 401 "chair_dispatch_security_required"
        "encrypted chair payload is required")

end Chair

/-! ## `kovael-agent-inbox.mjs` -/

namespace Inbox

/-- `SECURITY_VERSION`. -/
def securityVersion : String := "kovael-chair-v1"

/-- `ENCRYPTION_ALG`. -/
def encryptionAlg : String := "A256GCM"

/-- `MAX_CLOCK_SKEW_MS`. -/
def maxClockSkewMs : Int := 5 * 60000

/-- `DISPATCH_KDF_SALT`. -/
def dispatchKdfSalt : String := "kovael-chair-dispatch-kdf"

/-- What `decryptPayload` throws: an error of its own, or one of `crypto` or `JSON.parse`. -/
inductive DecryptError where
  | error (message : String)
  | crypto
  | notJson
  deriving DecidableEq, Repr

/-- `dispatchSecret()`. -/
def dispatchSecret (secret : Option String) : Option String :=
  (secret.map trim).filter fun value => 32 ≤ Js.length value

/-- `keyFor(secret)`. -/
def keyFor (secret : String) : DerivedKey where
  digest := "sha256"
  ikm := secret
  salt := dispatchKdfSalt
  info := securityVersion ++ ":payload"
  keylen := 32

/-- `aadFor(requestId, timestamp)`, with the text of the timestamp. -/
def aadFor (requestId timestamp : String) : Bytes :=
  Utf8.encode (securityVersion ++ "\n" ++ requestId ++ "\n" ++ timestamp)

/-- `b64(value)`. -/
def b64 (value : Bytes) : String := Base64.encode value

/-- `fromB64(value, field)`. -/
def fromB64 (value : Option Json) (field : String) : Except DecryptError Bytes :=
  match value with
  | some (.string text) =>
    if text = "" then .error (.error ("invalid encrypted envelope: " ++ field ++ " is required"))
    else .ok (Base64.decode text)
  | _ => .error (.error ("invalid encrypted envelope: " ++ field ++ " is required"))

/-- The encryption of a payload. -/
def sealCall (secret requestId : String) (timestamp : Int) (iv : Bytes) (payload : Json) :
    Call DerivedKey where
  key := keyFor secret
  iv := iv
  aad := aadFor requestId (toString timestamp)
  plaintext := Utf8.encode payload.stringify

/-- The envelope around an encryption. -/
def envelopeOf (gcm : Gcm DerivedKey) (call : Call DerivedKey) (requestId : String)
    (timestamp : Int) : Json :=
  .object [
    ("version", .string securityVersion),
    ("encrypted", .bool true),
    ("alg", .string encryptionAlg),
    ("requestId", .string requestId),
    ("timestamp", .ofInt timestamp),
    ("iv", .string (b64 call.iv)),
    ("ciphertext", .string (b64 (gcm.sealed call))),
    ("tag", .string (b64 (gcm.authTag call)))]

/-- `encryptPayload(payload, requestId)`. -/
def encryptPayload (gcm : Gcm DerivedKey) (secret : Option String) (timestamp : Int) (iv : Bytes)
    (payload : Json) (requestId : String) : Secured :=
  match dispatchSecret secret with
  | none => {
      body := payload.stringify
      headers := [("content-type", "application/json")] }
  | some secret => {
      body := (envelopeOf gcm (sealCall secret requestId timestamp iv payload) requestId
        timestamp).stringify
      headers := [
        ("content-type", "application/json"),
        ("x-kovael-chair-security", securityVersion),
        ("x-kovael-request-id", requestId)] }

mutual

/-- What is left of a value without the keys `__proto__`, as the reviver of `decryptPayload`
leaves it. -/
def dropProto : Json → Json
  | .array xs => .array (dropProtoItems xs)
  | .object fields => .object (dropProtoFields fields)
  | value => value

def dropProtoItems : List Json → List Json
  | [] => []
  | x :: xs => dropProto x :: dropProtoItems xs

def dropProtoFields : List (String × Json) → List (String × Json)
  | [] => []
  | (key, v) :: fields =>
    if key = "__proto__" then dropProtoFields fields
    else (key, dropProto v) :: dropProtoFields fields

end

/-- The marks, the `requestId` and the timestamp of an envelope that `decryptPayload` opens. -/
def readMarks (now : Int) (body : Json) : Except DecryptError (String × String) :=
  if isTrue (body.field? "encrypted") then
    match body.field? "requestId", body.field? "timestamp" with
    | some (.string requestId), some (.number timestamp) =>
      if body.stringField? "version" = some securityVersion ∧
          body.stringField? "alg" = some encryptionAlg then
        if (Number.ofInt maxClockSkewMs).lt
            ((Number.ofInt now).sub (Json.numberValue timestamp)).abs
        then .error (.error "encrypted chair dispatch envelope is stale")
        else .ok (requestId, timestamp)
      else .error (.error "encrypted chair dispatch envelope is malformed")
    | _, _ => .error (.error "encrypted chair dispatch envelope is malformed")
  else .error (.error "encrypted chair dispatch payload is required")

/-- `decryptPayload(body)`. -/
def decryptPayload (gcm : Gcm DerivedKey) (number : String → String)
    (calls : List (Call DerivedKey)) (secret : Option String) (now : Int) (body : Json) :
    Except DecryptError Json :=
  match dispatchSecret secret with
  | none => .ok body
  | some secret => do
    let (requestId, timestamp) ← readMarks now body
    let iv ← fromB64 (body.field? "iv") "iv"
    if iv = [] then throw .crypto
    let tag ← fromB64 (body.field? "tag") "tag"
    if tag.length ∉ tagLengths then throw .crypto
    let ciphertext ← fromB64 (body.field? "ciphertext") "ciphertext"
    match gcm.decipher calls (keyFor secret) iv (aadFor requestId timestamp) tag ciphertext with
    | none => throw .crypto
    | some plaintext =>
      match (Json.parse number (Utf8.decode plaintext)).map dropProto with
      | none => throw .notJson
      | some (.object fields) => pure (.object fields)
      | some _ => throw (.error "decrypted chair dispatch payload is not an object")

end Inbox

end Kovael
