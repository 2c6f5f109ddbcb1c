import Kovael.Crypto.Gcm
import Kovael.Hub.Canonical
import Kovael.Js.JsonNumber
import Kovael.Js.Utf8

/-!
# Sealed hub fields

`src/services/AgentHubCrypto.ts`: a hub with a key keeps its sensitive columns as JSON
envelopes around an encryption, a hub without one as they are. Opening tells the two apart by
the text that it finds, so a hub without a key refuses a text of its own that parses as an
envelope; `openSensitive_sealSensitive` says that it refuses no other.

Mirroring notes:
- AES-GCM is ideal: `calls` are the encryptions that were made with it. A key is what
  `deriveEncryptionKey` returned, of a type `κ`.
- `iv` is what `crypto.randomBytes(12)` returned.
- `createDecipheriv` refuses an empty IV, and `setAuthTag` a tag of another length.
-/

namespace Kovael.Hub

open Js Crypto
open Js.Base64 (Bytes)
open Js.Json (Held Prints Same)

/-! ## `AgentHubCrypto.ts` -/

/-- `ENCRYPTED_VALUE_MARKER`. -/
def encryptedValueMarker : String := "__kovaelEncrypted"

/-- `ENCRYPTED_VALUE_VERSION`. -/
def encryptedValueVersion : Int := 1

/-- `ENCRYPTION_AAD_VERSION`. -/
def encryptionAadVersion : String := "kovael-agent-hub-field-v1"

/-- `ENCRYPTION_ALG`. -/
def encryptionAlg : String := "A256GCM"

/-- `AGENT_HUB_SECRET_ENV`. -/
def agentHubSecretEnv : String := "KOVAEL_AGENT_HUB_SECRET"

/-- `aadFor(table, id, column)`. -/
def aadFor (table id column : String) : String :=
  encryptionAadVersion ++ "\n" ++ table ++ "\n" ++ id ++ "\n" ++ column

/-- Twelve random bytes. -/
structure Iv where
  bytes : Bytes
  length_bytes : bytes.length = 12

/-- The fields of an envelope that are not constant. -/
structure EncryptedEnvelope where
  iv : String
  ciphertext : String
  tag : String
  deriving DecidableEq, Repr

/-- The envelope as an object. -/
def EncryptedEnvelope.toJson (envelope : EncryptedEnvelope) : Json :=
  .object [
    (encryptedValueMarker, .bool true),
    ("v", .ofInt encryptedValueVersion),
    ("alg", .string encryptionAlg),
    ("iv", .string envelope.iv),
    ("ciphertext", .string envelope.ciphertext),
    ("tag", .string envelope.tag)]

/-- `value === true`. -/
def marked : Option Json → Bool
  | some (.bool b) => b
  | _ => false

/-- `value === ENCRYPTED_VALUE_VERSION`. -/
def versioned : Option Json → Bool
  | some (.number text) => Json.numberValue text = .ofInt encryptedValueVersion
  | _ => false

/-- What `parseEncryptedEnvelope` reads in a value that was parsed. -/
def asEncryptedEnvelope (parsed : Json) : Option EncryptedEnvelope :=
  if marked (parsed.field? encryptedValueMarker) ∧ versioned (parsed.field? "v") ∧
      parsed.stringField? "alg" = some encryptionAlg then
    match parsed.stringField? "iv", parsed.stringField? "ciphertext",
      parsed.stringField? "tag" with
    | some iv, some ciphertext, some tag => some { iv, ciphertext, tag }
    | _, _, _ => none
  else none

/-- `parseEncryptedEnvelope(value)`. -/
def parseEncryptedEnvelope (number : String → String) (value : String) :
    Option EncryptedEnvelope :=
  (Json.parse number value).bind asEncryptedEnvelope

section

variable {κ : Type}

/-- The encryption of a field. -/
def fieldCall (key : κ) (iv : Iv) (value aad : String) : Call κ where
  key := key
  iv := iv.bytes
  aad := Utf8.encode aad
  plaintext := Utf8.encode value

/-- The envelope around an encryption. -/
def envelopeAround (gcm : Gcm κ) (call : Call κ) : EncryptedEnvelope where
  iv := Base64.encode call.iv
  ciphertext := Base64.encode (gcm.sealed call)
  tag := Base64.encode (gcm.authTag call)

/-- `sealSensitive(key, value, aad)`. -/
def sealSensitive (gcm : Gcm κ) (key : Option κ) (iv : Iv) (value aad : String) : String :=
  match key with
  | none => value
  | some key => (envelopeAround gcm (fieldCall key iv value aad)).toJson.stringify

/-- What `openSensitive` throws without a key. -/
def requiresSecret : String := "encrypted agent hub value requires " ++ agentHubSecretEnv

/-- What `decipher.final()` throws. -/
def unauthentic : String := "Unsupported state or unable to authenticate data"

/-- `openSensitive(key, value, aad)`. -/
def openSensitive [DecidableEq κ] (gcm : Gcm κ) (number : String → String) (calls : List (Call κ))
    (key : Option κ) (value aad : String) : Except String String :=
  match parseEncryptedEnvelope number value with
  | none => .ok value
  | some envelope =>
    match key with
    | none => .error requiresSecret
    | some key =>
      let iv := Base64.decode envelope.iv
      if iv = [] then .error "Invalid initialization vector"
      else match gcm.decipher calls key iv (Utf8.encode aad) (Base64.decode envelope.tag)
          (Base64.decode envelope.ciphertext) with
        | none => .error unauthentic
        | some plaintext => .ok (Utf8.decode plaintext)

/-! ## Envelopes among the values -/

end

variable {number : String → String}

theorem field?_eq_some_iff {fields : List (String × Json)} (h : (fields.map Prod.fst).Nodup)
    {key : String} {v : Json} : (Json.object fields).field? key = some v ↔ (key, v) ∈ fields := by
  rw [Json.field?, Option.map_eq_some_iff]
  constructor
  · intro hgiven
    obtain ⟨⟨key', v'⟩, hfind, rfl⟩ := hgiven
    have hkey : key' = key := by simpa using List.find?_some hfind
    rw [← hkey]
    exact List.mem_of_find?_eq_some hfind
  · intro hmem
    cases hfind : fields.find? fun f => f.1 = key with
    | none =>
      have hother := List.find?_eq_none.mp hfind (key, v) hmem
      exact absurd (decide_eq_true rfl) hother
    | some f =>
      have hkey : f.1 = key := by simpa using List.find?_some hfind
      refine ⟨f, rfl, ?_⟩
      have heq := List.inj_on_of_nodup_map h (List.mem_of_find?_eq_some hfind) hmem hkey
      rw [heq]

/-- The copy has the copies of the members. -/
theorem field?_stableValue {v : Json} (hv : Held number v) {key : String}
    (hkey : key ≠ "__proto__") : (stableValue v).field? key = (v.field? key).map stableValue := by
  cases v with
  | object fields =>
    have hstable := held_stableValue _ hv
    rw [stableValue_object] at hstable ⊢
    ext w
    rw [field?_eq_some_iff hstable.1, mem_stable, Option.map_eq_some_iff]
    constructor
    · intro hgiven
      obtain ⟨v, hmem, -, rfl⟩ := hgiven
      exact ⟨v, (field?_eq_some_iff hv.1).mpr hmem, rfl⟩
    · intro hgiven
      obtain ⟨v, hfield, rfl⟩ := hgiven
      exact ⟨v, (field?_eq_some_iff hv.1).mp hfield, hkey, rfl⟩
  | array xs =>
    rw [stableValue_array]
    rfl
  | _ => rfl

theorem stringField?_stableValue {v : Json} (hv : Held number v) {key : String}
    (hkey : key ≠ "__proto__") : (stableValue v).stringField? key = v.stringField? key := by
  have hstring : ∀ w, (stableValue w).string? = w.string? := by
    intro w
    cases w <;> simp only [stableValue, Json.string?]
  rw [Json.stringField?, Json.stringField?, field?_stableValue hv hkey, Option.bind_map]
  exact congrArg _ (funext hstring)

/-- A value and its copy are the same envelope. -/
theorem asEncryptedEnvelope_stableValue {v : Json} (hv : Held number v) :
    asEncryptedEnvelope (stableValue v) = asEncryptedEnvelope v := by
  have hmarked : ∀ w : Option Json, marked (w.map stableValue) = marked w := by
    intro w
    rcases w with _ | w
    · rfl
    · cases w <;> simp only [Option.map_some, stableValue, marked]
  have hversioned : ∀ w : Option Json, versioned (w.map stableValue) = versioned w := by
    intro w
    rcases w with _ | w
    · rfl
    · cases w <;> simp only [Option.map_some, stableValue, versioned]
  unfold asEncryptedEnvelope
  rw [field?_stableValue hv (by decide), field?_stableValue hv (by decide), hmarked, hversioned,
    stringField?_stableValue hv (by decide), stringField?_stableValue hv (by decide),
    stringField?_stableValue hv (by decide), stringField?_stableValue hv (by decide)]

/-- The text of a value is an envelope just if the value is one. -/
theorem parseEncryptedEnvelope_stableStringify {v : Json} (hv : Held number v) :
    parseEncryptedEnvelope number (stableStringify v) = asEncryptedEnvelope v := by
  rw [parseEncryptedEnvelope, parse_stableStringify hv, Option.bind_some,
    asEncryptedEnvelope_stableValue hv]

section

variable {κ : Type}

/-! ## What opens -/

/-- The text is one that a hub with this key opens. -/
def Opens (number : String → String) (key : Option κ) (value : String) : Prop :=
  key.isSome ∨ parseEncryptedEnvelope number value = none

instance (number : String → String) (key : Option κ) (value : String) :
    Decidable (Opens number key value) := inferInstanceAs (Decidable (_ ∨ _))

theorem envelope_held (hnumber : Prints number) (envelope : EncryptedEnvelope) :
    Held number envelope.toJson := by
  refine ⟨?_, Json.enumerated_of_names ?_, trivial, ?_, trivial, trivial, trivial, trivial, trivial⟩
  · show [encryptedValueMarker, "v", "alg", "iv", "ciphertext", "tag"].Nodup
    decide
  · show ∀ key ∈ [encryptedValueMarker, "v", "alg", "iv", "ciphertext", "tag"],
      arrayIndex? key = none
    decide
  · exact Json.held_ofInt hnumber (by decide)

/-- An envelope is read as what it was made of. -/
theorem parseEncryptedEnvelope_stringify (hnumber : Prints number)
    (envelope : EncryptedEnvelope) :
    parseEncryptedEnvelope number envelope.toJson.stringify = some envelope := by
  rw [parseEncryptedEnvelope, Json.parse_stringify number (envelope_held hnumber envelope)]
  have hversion : Json.numberValue (toString encryptedValueVersion) =
      .ofInt encryptedValueVersion := Json.numberValue_toString encryptedValueVersion
  exact if_pos ⟨rfl, decide_eq_true hversion, rfl⟩

/-- A hub with a key opens what it sealed, whatever the text. -/
theorem openSensitive_keyed [DecidableEq κ] (gcm : Gcm κ) (hnumber : Prints number)
    {calls : List (Call κ)} {key : κ} {iv : Iv} {value aad : String}
    (hcall : fieldCall key iv value aad ∈ calls) :
    openSensitive gcm number calls (some key) (sealSensitive gcm (some key) iv value aad) aad =
      .ok value := by
  have hiv : Base64.decode (Base64.encode iv.bytes) ≠ [] := by
    rw [Base64.decode_encode]
    intro hnil
    have hlength := iv.length_bytes
    rw [hnil] at hlength
    exact absurd hlength (by decide)
  unfold openSensitive sealSensitive
  dsimp only
  rw [parseEncryptedEnvelope_stringify hnumber]
  dsimp only [envelopeAround, fieldCall]
  rw [if_neg hiv, Base64.decode_encode, Base64.decode_encode, Base64.decode_encode]
  have hopened : gcm.decipher calls key iv.bytes (Utf8.encode aad)
      (gcm.authTag (fieldCall key iv value aad)) (gcm.sealed (fieldCall key iv value aad)) =
        some (Utf8.encode value) := Gcm.decipher_sealed hcall
  dsimp only [fieldCall] at hopened
  rw [hopened]
  dsimp only
  rw [Utf8.decode_encode]

/-- What was sealed opens just if the hub has a key or the text is no envelope; else opening
throws. -/
theorem openSensitive_sealSensitive [DecidableEq κ] (gcm : Gcm κ) (hnumber : Prints number)
    {calls : List (Call κ)} {key : Option κ} {iv : Iv} {value aad : String}
    (hcall : ∀ k ∈ key, fieldCall k iv value aad ∈ calls) :
    openSensitive gcm number calls key (sealSensitive gcm key iv value aad) aad =
      if Opens number key value then .ok value else .error requiresSecret := by
  cases key with
  | some key =>
    have hopens : Opens number (some key) value := Or.inl rfl
    rw [openSensitive_keyed gcm hnumber (hcall key rfl), if_pos hopens]
  | none =>
    unfold openSensitive sealSensitive
    dsimp only
    cases henvelope : parseEncryptedEnvelope number value with
    | none =>
      have hopens : Opens number (none : Option κ) value := Or.inr henvelope
      rw [if_pos hopens]
    | some envelope =>
      have hrefused : ¬ Opens number (none : Option κ) value := by
        intro hcases
        rcases hcases with hkey | hnone
        · exact absurd hkey (by simp)
        · rw [henvelope] at hnone
          exact absurd hnone (by simp)
      rw [if_neg hrefused]

end

/-! ## `encodeSensitive` and `decodeSensitive` -/

/-- What a store seals its fields with and reads them with. -/
structure FieldCipher (κ : Type) where
  gcm : Gcm κ
  number : String → String
  key : Option κ

namespace FieldCipher

variable {κ : Type} [DecidableEq κ] (cipher : FieldCipher κ)

/-- `encodeSensitive(value, authenticatedData)`. -/
def encodeSensitive (iv : Iv) (value aad : String) : String :=
  sealSensitive cipher.gcm cipher.key iv value aad

/-- The encryption that `encodeSensitive` makes. -/
def calls (iv : Iv) (value aad : String) : List (Call κ) :=
  (cipher.key.map fun key => fieldCall key iv value aad).toList

/-- `decodeSensitive(value, authenticatedData)`. -/
def decodeSensitive (calls : List (Call κ)) (value aad : String) : Except String String :=
  openSensitive cipher.gcm cipher.number calls cipher.key value aad

/-- The store opens the text when it has sealed it. -/
def Opens (value : String) : Prop := Hub.Opens cipher.number cipher.key value

instance (value : String) : Decidable (cipher.Opens value) :=
  inferInstanceAs (Decidable (Hub.Opens _ _ _))

omit [DecidableEq κ] in
/-- `JSON.parse(text)`. -/
def parseJson (text : String) : Except String Json :=
  match Json.parse cipher.number text with
  | none => .error "SyntaxError"
  | some v => .ok v

/-- `JSON.parse(this.decodeSensitive(value, authenticatedData))`. -/
def readJson (calls : List (Call κ)) (value aad : String) : Except String Json :=
  cipher.decodeSensitive calls value aad >>= cipher.parseJson

variable {cipher} {calls : List (Call κ)} {iv : Iv}

theorem decodeSensitive_encodeSensitive (hnumber : Prints cipher.number) {value aad : String}
    (hcalls : cipher.calls iv value aad ⊆ calls) :
    cipher.decodeSensitive calls (cipher.encodeSensitive iv value aad) aad =
      if cipher.Opens value then .ok value else .error requiresSecret := by
  refine openSensitive_sealSensitive cipher.gcm hnumber ?_
  intro key hkey
  refine hcalls ?_
  rw [FieldCipher.calls, hkey]
  exact List.mem_singleton_self _

omit [DecidableEq κ] in
theorem parseJson_stableStringify {v : Json} (hv : Held cipher.number v) :
    cipher.parseJson (stableStringify v) = .ok (stableValue v) := by
  rw [parseJson, parse_stableStringify hv]

omit [DecidableEq κ] in
/-- The text of a value opens just if the hub has a key or the value is no envelope. -/
theorem opens_stableStringify_iff {v : Json} (hv : Held cipher.number v) :
    cipher.Opens (stableStringify v) ↔ cipher.key.isSome ∨ asEncryptedEnvelope v = none := by
  show (_ ∨ _) ↔ _
  rw [parseEncryptedEnvelope_stableStringify hv]

/-- A value that was written in its stable text is read as its copy. -/
theorem readJson_encodeSensitive (hnumber : Prints cipher.number) {v : Json} {aad : String}
    (hv : Held cipher.number v) (hcalls : cipher.calls iv (stableStringify v) aad ⊆ calls) :
    cipher.readJson calls (cipher.encodeSensitive iv (stableStringify v) aad) aad =
      if cipher.Opens (stableStringify v) then .ok (stableValue v) else .error requiresSecret := by
  rw [readJson, decodeSensitive_encodeSensitive hnumber hcalls]
  split
  next => exact parseJson_stableStringify hv
  next => rfl

end FieldCipher

end Kovael.Hub
