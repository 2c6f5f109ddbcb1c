import Kovael.Chair.Envelope

/-!
# The two implementations of the envelope

`secureChairDispatchBody` and `encryptPayload` write the same bodies, and each
side opens what the other wrote. What else the two sides open is exact here:
a body that spells the IV, the ciphertext or the tag of a sealed envelope in
another way, or cuts the tag short.
-/

namespace Kovael.Chair

open Js Crypto
open Js.Json (Held Prints)
open Js.Base64 (Bytes)

/-- A reading of `Date.now()`: a time value of ECMAScript. -/
def IsTime (ms : Int) : Prop := ms.natAbs ≤ 8640000000000000

instance (ms : Int) : Decidable (IsTime ms) := inferInstanceAs (Decidable (_ ≤ _))

mutual

/-- No object in the value has a key `__proto__`. -/
def NoProto : Json → Prop
  | .array xs => NoProtoItems xs
  | .object fields => NoProtoFields fields
  | _ => True

def NoProtoItems : List Json → Prop
  | [] => True
  | x :: xs => NoProto x ∧ NoProtoItems xs

def NoProtoFields : List (String × Json) → Prop
  | [] => True
  | f :: fields => f.1 ≠ "__proto__" ∧ NoProto f.2 ∧ NoProtoFields fields

end

/-- An envelope that was sealed: a payload, and what it was sealed with. -/
structure Sealing (number : String → String) where
  secret : String
  requestId : String
  timestamp : Int
  iv : Bytes
  fields : List (String × Json)
  requestId_ne : requestId ≠ ""
  isTime : IsTime timestamp
  iv_length : iv.length = 12
  held : Held number (.object fields)

namespace Sealing

variable {number : String → String}

/-- The encryption of the payload. -/
def call (s : Sealing number) : Call DerivedKey :=
  sealCall s.secret s.requestId s.timestamp s.iv (.object s.fields)

/-- The envelope. -/
def envelope (gcm : Gcm DerivedKey) (s : Sealing number) : Json :=
  envelopeOf gcm s.call s.requestId s.timestamp

end Sealing

/-! ## The encoders -/

/-- Both sides write the same envelopes. -/
theorem encryptPayload_eq : Inbox.encryptPayload = secureChairDispatchBody := rfl

theorem keyFor_injective : Function.Injective keyFor := fun _ _ h => congrArg DerivedKey.ikm h

/-- What follows the last line break is determined. -/
theorem lastLine_inj {x x' t t' : List Char} (ht : '\n' ∉ t) (ht' : '\n' ∉ t')
    (h : x ++ '\n' :: t = x' ++ '\n' :: t') : x = x' ∧ t = t' := by
  rcases List.append_eq_append_iff.mp h with ⟨c, hx, htail⟩ | ⟨c, hx, htail⟩
  · cases c with
    | nil =>
      rw [List.append_nil] at hx
      exact ⟨hx.symm, (List.cons.inj htail).2⟩
    | cons a c =>
      have hmem : '\n' ∈ t := by
        rw [(List.cons.inj htail).2]
        exact List.mem_append_right c List.mem_cons_self
      exact absurd hmem ht
  · cases c with
    | nil =>
      rw [List.append_nil] at hx
      exact ⟨hx, (List.cons.inj htail).2.symm⟩
    | cons a c =>
      have hmem : '\n' ∈ t' := by
        rw [(List.cons.inj htail).2]
        exact List.mem_append_right c List.mem_cons_self
      exact absurd hmem ht'

/-- The additional data determine the `requestId` and the timestamp. -/
theorem aadFor_inj {requestId requestId' timestamp timestamp' : String}
    (ht : '\n' ∉ timestamp.toList) (ht' : '\n' ∉ timestamp'.toList)
    (h : aadFor requestId timestamp = aadFor requestId' timestamp') :
    requestId = requestId' ∧ timestamp = timestamp' := by
  have htext := congrArg (fun bytes => (Utf8.decode bytes).toList) h
  simp only [aadFor, Utf8.decode_encode, String.toList_append, List.append_assoc] at htext
  have hlines : requestId.toList ++ '\n' :: timestamp.toList
      = requestId'.toList ++ '\n' :: timestamp'.toList :=
    List.append_cancel_left (List.append_cancel_left htext)
  obtain ⟨hid, hts⟩ := lastLine_inj ht ht' hlines
  exact ⟨String.toList_injective hid, String.toList_injective hts⟩

theorem line_toString (n : Int) : '\n' ∉ (toString n).toList := by
  intro h
  exact absurd (Json.all_of_isNumber (Json.isNumber_toString n) '\n' h) (by decide)

/-- An envelope can be held, whatever its texts are. -/
theorem held_envelope {number : String → String} (hnumber : Prints number) {timestamp : Int}
    (ht : IsTime timestamp) (requestId iv ciphertext tag : String) :
    Held number (.object [
      ("version", .string securityVersion),
      ("encrypted", .bool true),
      ("alg", .string encryptionAlg),
      ("requestId", .string requestId),
      ("timestamp", .ofInt timestamp),
      ("iv", .string iv),
      ("ciphertext", .string ciphertext),
      ("tag", .string tag)]) := by
  have hts : Held number (.ofInt timestamp) :=
    Json.held_ofInt hnumber (Nat.le_trans ht (by decide))
  have hnodup : (["version", "encrypted", "alg", "requestId", "timestamp", "iv", "ciphertext",
      "tag"] : List String).Nodup := by decide
  have hnames : ∀ key ∈ (["version", "encrypted", "alg", "requestId", "timestamp", "iv",
      "ciphertext", "tag"] : List String), arrayIndex? key = none := by decide +kernel
  exact ⟨hnodup, Json.enumerated_of_names hnames, trivial, trivial, trivial, trivial, hts,
    trivial, trivial, trivial, trivial⟩

/-! ## What is read -/

/-- What `asEnvelope` takes a body for. -/
structure Reads (now : Int) (body : Json) (e : ChairDispatchEnvelope) : Prop where
  encrypted : isTrue (body.field? "encrypted") = true
  version : body.stringField? "version" = some securityVersion
  alg : body.stringField? "alg" = some encryptionAlg
  requestId : body.field? "requestId" = some (.string e.requestId)
  requestId_ne : e.requestId ≠ ""
  timestamp : body.field? "timestamp" = some (.number e.timestamp)
  finite : (Json.numberValue e.timestamp).isFinite = true
  fresh : (Number.ofInt maxClockSkewMs).lt
    ((Number.ofInt now).sub (Json.numberValue e.timestamp)).abs = false
  iv : Json.textOr? (body.field? "iv") = some e.iv
  ciphertext : Json.textOr? (body.field? "ciphertext") = some e.ciphertext
  tag : Json.textOr? (body.field? "tag") = some e.tag

theorem textField_ok {body : Json} {key text : String} :
    textField body key = .ok text ↔ Json.textOr? (body.field? key) = some text := by
  unfold textField
  split
  next t ht => rw [ht, Except.ok.injEq, Option.some.injEq]
  next ht =>
    rw [ht]
    exact ⟨fun h => (nomatch h), fun h => (nomatch h)⟩

theorem asEnvelope_of {now : Int} {body : Json} {e : ChairDispatchEnvelope}
    (h : Reads now body e) : asEnvelope now body = .ok e := by
  unfold asEnvelope
  rw [h.requestId, h.timestamp]
  dsimp only
  rw [if_pos ⟨h.version, h.encrypted, h.alg, h.requestId_ne, h.finite⟩, h.fresh,
    if_neg Bool.false_ne_true, textField_ok.mpr h.iv, textField_ok.mpr h.ciphertext,
    textField_ok.mpr h.tag]
  rfl

theorem reads_of_ok {now : Int} {body : Json} {e : ChairDispatchEnvelope}
    (h : asEnvelope now body = .ok e) : Reads now body e := by
  unfold asEnvelope at h
  split at h
  next requestId timestamp hid hts =>
    split at h
    next hmarks =>
      obtain ⟨hversion, hencrypted, halg, hne, hfinite⟩ := hmarks
      split at h
      next => exact absurd h (fun h => nomatch h)
      next hfresh =>
        obtain ⟨iv, hiv, h⟩ := bind_ok h
        obtain ⟨ciphertext, hciphertext, h⟩ := bind_ok h
        obtain ⟨tag, htag, h⟩ := bind_ok h
        obtain rfl := Except.ok.inj h
        exact ⟨hencrypted, hversion, halg, hid, hne, hts, hfinite, Bool.eq_false_of_not_eq_true hfresh,
          textField_ok.mp hiv, textField_ok.mp hciphertext, textField_ok.mp htag⟩
    next => exact absurd h (fun h => nomatch h)
  next => exact absurd h (fun h => nomatch h)

theorem fromB64_of {value field : String} (h : Base64.decode value ≠ []) :
    fromB64 value field = .ok (Base64.decode value) := by
  rw [fromB64, if_neg]
  intro heq
  obtain rfl := heq
  exact h rfl

theorem decode_of_fromB64 {value field : String} {bytes : Bytes}
    (h : fromB64 value field = .ok bytes) : Base64.decode value = bytes := by
  unfold fromB64 at h
  split at h
  next => exact absurd h (fun h => nomatch h)
  next => exact Except.ok.inj h

theorem ne_nil_of_tagLength {tag : Bytes} (h : tag.length ∈ tagLengths) : tag ≠ [] := by
  intro heq
  obtain rfl := heq
  exact absurd h (by decide)

section

variable {gcm : Gcm DerivedKey} {number : String → String} {calls : List (Call DerivedKey)}

/-- An envelope that decodes to what was encrypted is opened. -/
theorem openEnvelope_of {secret : String} {e : ChairDispatchEnvelope} {plaintext : Bytes}
    {fields : List (String × Json)} (hiv : Base64.decode e.iv ≠ [])
    (htag : (Base64.decode e.tag).length ∈ tagLengths) (hciphertext : Base64.decode e.ciphertext ≠ [])
    (hdecipher : gcm.decipher calls (keyFor secret) (Base64.decode e.iv)
      (aadFor e.requestId e.timestamp) (Base64.decode e.tag) (Base64.decode e.ciphertext)
        = some plaintext)
    (hparse : Json.parse number (Utf8.decode plaintext) = some (.object fields)) :
    openEnvelope gcm number calls secret e = .ok (.object fields) := by
  rw [openEnvelope, fromB64_of hiv, fromB64_of (ne_nil_of_tagLength htag), fromB64_of hciphertext]
  show (if Base64.decode e.iv = [] then _ else _) = _
  rw [if_neg hiv]
  show (if (Base64.decode e.tag).length ∉ tagLengths then _ else _) = _
  rw [if_neg (not_not_intro htag)]
  simp only [Bind.bind, Except.bind, hdecipher]
  rw [hparse]
  rfl

/-- What is opened was encrypted. -/
theorem deciphers_of_ok {secret : String} {e : ChairDispatchEnvelope} {p : Json}
    (h : openEnvelope gcm number calls secret e = .ok p) :
    ∃ plaintext, gcm.decipher calls (keyFor secret) (Base64.decode e.iv)
      (aadFor e.requestId e.timestamp) (Base64.decode e.tag) (Base64.decode e.ciphertext)
        = some plaintext := by
  obtain ⟨iv, hiv, h⟩ := bind_ok h
  split at h
  next => exact absurd h (fun h => nomatch h)
  obtain ⟨-, -, h⟩ := bind_ok h
  obtain ⟨tag, htag, h⟩ := bind_ok h
  split at h
  next => exact absurd h (fun h => nomatch h)
  obtain ⟨-, -, h⟩ := bind_ok h
  obtain ⟨ciphertext, hciphertext, h⟩ := bind_ok h
  rw [decode_of_fromB64 hiv, decode_of_fromB64 htag, decode_of_fromB64 hciphertext]
  split at h
  next => exact absurd h (fun h => nomatch h)
  next plaintext hdecipher => exact ⟨plaintext, hdecipher⟩

/-! ## Bodies and sealed envelopes -/

/-- The body has the marks, the `requestId` and the timestamp of the envelope. -/
structure Marked (s : Sealing number) (body : Json) : Prop where
  encrypted : isTrue (body.field? "encrypted") = true
  version : body.stringField? "version" = some securityVersion
  alg : body.stringField? "alg" = some encryptionAlg
  requestId : body.field? "requestId" = some (.string s.requestId)
  timestamp : body.field? "timestamp" = some (.ofInt s.timestamp)

/-- The body has the IV, the ciphertext and the tag of the envelope. -/
structure Written (gcm : Gcm DerivedKey) (s : Sealing number) (body : Json) : Prop where
  iv : body.field? "iv" = some (.string (b64 s.iv))
  ciphertext : body.field? "ciphertext" = some (.string (b64 (gcm.sealed s.call)))
  tag : body.field? "tag" = some (.string (b64 (gcm.authTag s.call)))

/-- The texts of the IV, the ciphertext and the tag of the body decode to those of the
envelope, but for a tag that may be cut short. -/
def Spelled (gcm : Gcm DerivedKey) (s : Sealing number) (body : Json) : Prop :=
  ∃ iv ciphertext tag,
    Json.textOr? (body.field? "iv") = some iv ∧ Base64.decode iv = s.iv ∧
    Json.textOr? (body.field? "ciphertext") = some ciphertext ∧
      Base64.decode ciphertext = gcm.sealed s.call ∧
    Json.textOr? (body.field? "tag") = some tag ∧ (Base64.decode tag).length ∈ tagLengths ∧
      Base64.decode tag <+: gcm.authTag s.call

/-- The timestamp is at most the accepted skew away. -/
def InWindow (now timestamp : Int) : Prop := |now - timestamp| ≤ maxClockSkewMs

instance (now timestamp : Int) : Decidable (InWindow now timestamp) :=
  inferInstanceAs (Decidable (_ ≤ _))

theorem fresh_iff {now timestamp : Int} :
    (Number.ofInt maxClockSkewMs).lt
      ((Number.ofInt now).sub (Json.numberValue (toString timestamp))).abs = false
      ↔ InWindow now timestamp := by
  rw [Json.numberValue_toString, Number.abs_sub_ofInt, Number.lt_ofInt, decide_eq_false_iff_not,
    Int.not_lt]
  rfl

/-- The body as it was written spells the envelope. -/
theorem Written.spelled {s : Sealing number} {body : Json} (h : Written gcm s body) :
    Spelled gcm s body := by
  refine ⟨b64 s.iv, b64 (gcm.sealed s.call), b64 (gcm.authTag s.call), ?_, Base64.decode_encode _,
    ?_, Base64.decode_encode _, ?_, ?_, ?_⟩
  · rw [h.iv]; rfl
  · rw [h.ciphertext]; rfl
  · rw [h.tag]; rfl
  · rw [b64, Base64.decode_encode, Gcm.authTag, gcm.length_tag]
    decide
  · exact ⟨[], (List.append_nil _).trans (Base64.decode_encode _)⟩

theorem iv_ne (s : Sealing number) : s.iv ≠ [] := by
  intro h
  have hlen := s.iv_length
  rw [h] at hlen
  exact absurd hlen (by decide)

theorem sealed_ne (gcm : Gcm DerivedKey) (s : Sealing number) : gcm.sealed s.call ≠ [] := by
  intro h
  have hlen := gcm.length_ciphertext s.call.key s.call.iv s.call.plaintext
  have hplain : s.call.plaintext = [] := by
    apply List.length_eq_zero_iff.mp
    rw [← hlen]
    exact List.length_eq_zero_iff.mpr h
  have htext := congrArg Utf8.decode hplain
  rw [Sealing.call, sealCall, Utf8.decode_encode] at htext
  have hchars := congrArg String.toList htext
  rw [Json.toList_object] at hchars
  exact absurd hchars (List.cons_ne_nil _ _)

/-- The payload is read back. -/
theorem parse_plaintext (s : Sealing number) :
    Json.parse number (Utf8.decode s.call.plaintext) = some (.object s.fields) := by
  rw [Sealing.call, sealCall, Utf8.decode_encode]
  exact Json.parse_stringify number s.held

/-- `openChairDispatchBody` opens every body that spells a sealed envelope. -/
theorem open_of_spelled {s : Sealing number} {env : Option String} {now : Int} {body : Json}
    (hs : s.call ∈ calls) (henv : currentSecret env = some s.secret)
    (hwindow : InWindow now s.timestamp) (hmarked : Marked s body) (hspelled : Spelled gcm s body) :
    openChairDispatchBody gcm number calls env now body = .ok (.object s.fields) := by
  obtain ⟨iv, ciphertext, tag, hivText, hiv, hciphertextText, hciphertext, htagText, hlength,
    hprefix⟩ := hspelled
  have hreads : Reads now body ⟨s.requestId, toString s.timestamp, iv, ciphertext, tag⟩ := {
    encrypted := hmarked.encrypted
    version := hmarked.version
    alg := hmarked.alg
    requestId := hmarked.requestId
    requestId_ne := s.requestId_ne
    timestamp := hmarked.timestamp
    finite := by rw [Json.numberValue_toString]; rfl
    fresh := fresh_iff.mpr hwindow
    iv := hivText
    ciphertext := hciphertextText
    tag := htagText }
  have hdecipher : gcm.decipher calls (keyFor s.secret) (Base64.decode iv)
      (aadFor s.requestId (toString s.timestamp)) (Base64.decode tag) (Base64.decode ciphertext)
        = some s.call.plaintext :=
    Gcm.decipher_eq_some_iff.mpr
      ⟨s.call, hs, ⟨rfl, hiv.symm, rfl, hciphertext.symm, hlength, hprefix⟩, rfl⟩
  have hopen := openEnvelope_of (e := ⟨s.requestId, toString s.timestamp, iv, ciphertext, tag⟩)
    (by rw [hiv]; exact iv_ne s) hlength (by rw [hciphertext]; exact sealed_ne gcm s) hdecipher
    (parse_plaintext s)
  rw [openChairDispatchBody, henv]
  dsimp only
  split
  next => exact absurd hmarked.encrypted (by decide)
  next =>
    rw [if_pos hmarked.encrypted, asEnvelope_of hreads]
    exact hopen

/-- What is decrypted was sealed. -/
theorem sealing_of_decipher {sealings : List (Sealing number)} {secret requestId timestamp : String}
    {iv tag ciphertext plaintext : Bytes} (hline : '\n' ∉ timestamp.toList)
    (h : gcm.decipher (sealings.map Sealing.call) (keyFor secret) iv (aadFor requestId timestamp) tag
      ciphertext = some plaintext) :
    ∃ s ∈ sealings, s.secret = secret ∧ requestId = s.requestId ∧ timestamp = toString s.timestamp ∧
      iv = s.iv ∧ ciphertext = gcm.sealed s.call ∧ tag.length ∈ tagLengths ∧
      tag <+: gcm.authTag s.call := by
  obtain ⟨call, hcall, ⟨hkey, hiv, haad, hciphertext, hlength, hprefix⟩, -⟩ :=
    Gcm.decipher_eq_some_iff.mp h
  obtain ⟨s, hs, rfl⟩ := List.mem_map.mp hcall
  obtain ⟨hid, hts⟩ := aadFor_inj (line_toString s.timestamp) hline haad
  exact ⟨s, hs, keyFor_injective hkey, hid.symm, hts.symm, hiv.symm, hciphertext.symm, hlength,
    hprefix⟩

/-- `openChairDispatchBody` opens no other body. -/
theorem spelled_of_open {sealings : List (Sealing number)} {env : Option String} {secret : String}
    {now : Int} {body p : Json} (henv : currentSecret env = some secret)
    (hline : ∀ t, body.field? "timestamp" = some (.number t) → '\n' ∉ t.toList)
    (h : openChairDispatchBody gcm number (sealings.map Sealing.call) env now body = .ok p) :
    ∃ s ∈ sealings, s.secret = secret ∧ InWindow now s.timestamp ∧ Marked s body ∧
      Spelled gcm s body := by
  rw [openChairDispatchBody, henv] at h
  dsimp only at h
  split at h
  next => exact absurd h (fun h => nomatch h)
  split at h
  next =>
    obtain ⟨e, he, hopen⟩ := bind_ok h
    have hreads := reads_of_ok he
    obtain ⟨plaintext, hdecipher⟩ := deciphers_of_ok hopen
    obtain ⟨s, hs, hsecret, hid, hts, hiv, hciphertext, hlength, hprefix⟩ :=
      sealing_of_decipher (hline _ hreads.timestamp) hdecipher
    have hfresh := hreads.fresh
    have htimestamp := hreads.timestamp
    have hrequestId := hreads.requestId
    rw [hts] at hfresh htimestamp
    rw [hid] at hrequestId
    exact ⟨s, hs, hsecret, fresh_iff.mp hfresh,
      ⟨hreads.encrypted, hreads.version, hreads.alg, hrequestId, htimestamp⟩,
      e.iv, e.ciphertext, e.tag, hreads.iv, hiv, hreads.ciphertext, hciphertext, hreads.tag, hlength,
      hprefix⟩
  next => exact absurd h (fun h => nomatch h)

/-! ## The script -/

theorem inbox_fromB64 {value : Option Json} {field : String} {bytes : Bytes}
    (h : Inbox.fromB64 value field = .ok bytes) :
    ∃ text, value = some (.string text) ∧ Base64.decode text = bytes := by
  unfold Inbox.fromB64 at h
  split at h
  next text =>
    split at h
    next => exact absurd h (fun h => nomatch h)
    next => exact ⟨text, rfl, Except.ok.inj h⟩
  next => exact absurd h (fun h => nomatch h)

theorem inbox_fromB64_b64 {bytes : Bytes} (hbytes : bytes ≠ []) (field : String) :
    Inbox.fromB64 (some (.string (b64 bytes))) field = .ok bytes := by
  have hne : b64 bytes ≠ "" := Base64.encode_ne_empty hbytes
  have hdecode : Base64.decode (b64 bytes) = bytes := Base64.decode_encode bytes
  rw [Inbox.fromB64, if_neg hne, hdecode]

theorem readMarks_of {s : Sealing number} {now : Int} {body : Json}
    (hwindow : InWindow now s.timestamp) (h : Marked s body) :
    Inbox.readMarks now body = .ok (s.requestId, toString s.timestamp) := by
  have htimestamp : body.field? "timestamp" = some (.number (toString s.timestamp)) := h.timestamp
  have hfresh : (Number.ofInt Inbox.maxClockSkewMs).lt
      ((Number.ofInt now).sub (Json.numberValue (toString s.timestamp))).abs = false :=
    fresh_iff.mpr hwindow
  rw [Inbox.readMarks, if_pos h.encrypted, h.requestId, htimestamp]
  dsimp only
  rw [if_pos ⟨h.version, h.alg⟩, hfresh, if_neg Bool.false_ne_true]

theorem readMarks_ok {now : Int} {body : Json} {requestId timestamp : String}
    (h : Inbox.readMarks now body = .ok (requestId, timestamp)) :
    isTrue (body.field? "encrypted") = true ∧ body.stringField? "version" = some securityVersion ∧
      body.stringField? "alg" = some encryptionAlg ∧
      body.field? "requestId" = some (.string requestId) ∧
      body.field? "timestamp" = some (.number timestamp) ∧
      (Number.ofInt maxClockSkewMs).lt
        ((Number.ofInt now).sub (Json.numberValue timestamp)).abs = false := by
  unfold Inbox.readMarks at h
  split at h
  next hencrypted =>
    split at h
    next hid hts =>
      split at h
      next hmarks =>
        split at h
        next => exact absurd h (fun h => nomatch h)
        next hfresh =>
          obtain ⟨rfl, rfl⟩ := Prod.mk.inj (Except.ok.inj h)
          exact ⟨hencrypted, hmarks.1, hmarks.2, hid, hts, Bool.eq_false_of_not_eq_true hfresh⟩
      next => exact absurd h (fun h => nomatch h)
    next => exact absurd h (fun h => nomatch h)
  next => exact absurd h (fun h => nomatch h)

/-- `decryptPayload` opens a body as it was written. -/
theorem decrypt_of_written {s : Sealing number} {env : Option String} {now : Int} {body : Json}
    (hs : s.call ∈ calls) (henv : currentSecret env = some s.secret)
    (hwindow : InWindow now s.timestamp) (hmarked : Marked s body) (hwritten : Written gcm s body) :
    Inbox.decryptPayload gcm number calls env now body
      = .ok (Inbox.dropProto (.object s.fields)) := by
  have hdispatch : Inbox.dispatchSecret env = some s.secret := henv
  have htag : (gcm.authTag s.call).length ∈ tagLengths := by
    rw [Gcm.authTag, gcm.length_tag]
    decide
  have hdecipher : gcm.decipher calls (Inbox.keyFor s.secret) s.iv
      (Inbox.aadFor s.requestId (toString s.timestamp)) (gcm.authTag s.call) (gcm.sealed s.call)
        = some s.call.plaintext := Gcm.decipher_sealed hs
  rw [Inbox.decryptPayload, hdispatch]
  dsimp only
  rw [readMarks_of hwindow hmarked, hwritten.iv, hwritten.tag, hwritten.ciphertext,
    inbox_fromB64_b64 (iv_ne s), inbox_fromB64_b64 (ne_nil_of_tagLength htag),
    inbox_fromB64_b64 (sealed_ne gcm s)]
  show (if s.iv = [] then _ else _) = _
  rw [if_neg (iv_ne s)]
  show (if (gcm.authTag s.call).length ∉ tagLengths then _ else _) = _
  rw [if_neg (not_not_intro htag)]
  simp only [Bind.bind, Except.bind, hdecipher]
  rw [parse_plaintext]
  rfl

/-- What `decryptPayload` opens spells a sealed envelope. -/
theorem spelled_of_decrypt {sealings : List (Sealing number)} {env : Option String}
    {secret : String} {now : Int} {body p : Json} (henv : currentSecret env = some secret)
    (hline : ∀ t, body.field? "timestamp" = some (.number t) → '\n' ∉ t.toList)
    (h : Inbox.decryptPayload gcm number (sealings.map Sealing.call) env now body = .ok p) :
    ∃ s ∈ sealings, s.secret = secret ∧ InWindow now s.timestamp ∧ Marked s body ∧
      Spelled gcm s body := by
  have hdispatch : Inbox.dispatchSecret env = some secret := henv
  rw [Inbox.decryptPayload, hdispatch] at h
  dsimp only at h
  obtain ⟨⟨requestId, timestamp⟩, hmarks, h⟩ := bind_ok h
  obtain ⟨iv, hiv, h⟩ := bind_ok h
  split at h
  next => exact absurd h (fun h => nomatch h)
  obtain ⟨-, -, h⟩ := bind_ok h
  obtain ⟨tag, htag, h⟩ := bind_ok h
  split at h
  next => exact absurd h (fun h => nomatch h)
  obtain ⟨-, -, h⟩ := bind_ok h
  obtain ⟨ciphertext, hciphertext, h⟩ := bind_ok h
  split at h
  next => exact absurd h (fun h => nomatch h)
  next plaintext hdecipher =>
    obtain ⟨hencrypted, hversion, halg, hid, hts, hfresh⟩ := readMarks_ok hmarks
    obtain ⟨s, hs, hsecret, rfl, rfl, rfl, rfl, hlength, hprefix⟩ :=
      sealing_of_decipher (hline _ hts) hdecipher
    obtain ⟨ivText, hivText, hiv⟩ := inbox_fromB64 hiv
    obtain ⟨tagText, htagText, rfl⟩ := inbox_fromB64 htag
    obtain ⟨text, htext, hciphertext⟩ := inbox_fromB64 hciphertext
    refine ⟨s, hs, hsecret, fresh_iff.mp hfresh, ⟨hencrypted, hversion, halg, hid, hts⟩,
      ivText, text, tagText, ?_, hiv, ?_, hciphertext, ?_, hlength, hprefix⟩
    · rw [hivText]; rfl
    · rw [htext]; rfl
    · rw [htagText]; rfl

mutual

/-- A value without keys `__proto__` is left as it is. -/
theorem dropProto_eq : ∀ v : Json, NoProto v → Inbox.dropProto v = v
  | .null, _ => rfl
  | .bool _, _ => rfl
  | .number _, _ => rfl
  | .string _, _ => rfl
  | .array xs, h => by rw [Inbox.dropProto, dropProtoItems_eq xs h]
  | .object fields, h => by rw [Inbox.dropProto, dropProtoFields_eq fields h]

theorem dropProtoItems_eq : ∀ xs : List Json, NoProtoItems xs → Inbox.dropProtoItems xs = xs
  | [], _ => rfl
  | x :: xs, h => by rw [Inbox.dropProtoItems, dropProto_eq x h.1, dropProtoItems_eq xs h.2]

theorem dropProtoFields_eq : ∀ fields : List (String × Json), NoProtoFields fields →
    Inbox.dropProtoFields fields = fields
  | [], _ => rfl
  | (key, v) :: fields, h => by
    rw [Inbox.dropProtoFields, if_neg h.1, dropProto_eq v h.2.1, dropProtoFields_eq fields h.2.2]

end

/-! ## Agreement -/

/-- The body is a sealed envelope as it was written, under this secret and in the window. -/
def Genuine (gcm : Gcm DerivedKey) (sealings : List (Sealing number)) (secret : String) (now : Int)
    (body : Json) : Prop :=
  ∃ s ∈ sealings, s.secret = secret ∧ InWindow now s.timestamp ∧ Marked s body ∧
    Written gcm s body

/-- The body spells a sealed envelope, under this secret and in the window, but its IV,
ciphertext or tag is not as it was written. -/
def Respelled (gcm : Gcm DerivedKey) (sealings : List (Sealing number)) (secret : String)
    (now : Int) (body : Json) : Prop :=
  ∃ s ∈ sealings, s.secret = secret ∧ InWindow now s.timestamp ∧ Marked s body ∧
    Spelled gcm s body ∧ ¬Written gcm s body

/-- Both implementations throw. -/
def Rejected (gcm : Gcm DerivedKey) (number : String → String) (calls : List (Call DerivedKey))
    (env : Option String) (now : Int) (body : Json) : Prop :=
  (∀ p, openChairDispatchBody gcm number calls env now body ≠ .ok p) ∧
    ∀ p, Inbox.decryptPayload gcm number calls env now body ≠ .ok p

/-- A body that spells one envelope and is written as another is written as the first. -/
theorem Written.of_spelled {s s' : Sealing number} {body : Json} (h : Written gcm s' body)
    (hspelled : Spelled gcm s body) : Written gcm s body := by
  obtain ⟨iv, ciphertext, tag, hivText, hiv, hciphertextText, hciphertext, htagText, -, hprefix⟩ :=
    hspelled
  rw [h.iv] at hivText
  rw [h.ciphertext] at hciphertextText
  rw [h.tag] at htagText
  obtain rfl := Option.some.inj hivText
  obtain rfl := Option.some.inj hciphertextText
  obtain rfl := Option.some.inj htagText
  rw [b64, Base64.decode_encode] at hiv hciphertext hprefix
  have htag : gcm.authTag s'.call = gcm.authTag s.call :=
    hprefix.eq_of_length (by rw [Gcm.authTag, gcm.length_tag, Gcm.authTag, gcm.length_tag])
  exact ⟨by rw [h.iv, hiv], by rw [h.ciphertext, hciphertext], by rw [h.tag, htag]⟩

end

/-- The body of a sealed envelope is read as the envelope. -/
theorem parse_body (gcm : Gcm DerivedKey) {number : String → String} (hnumber : Prints number)
    (s : Sealing number) : Json.parse number (s.envelope gcm).stringify = some (s.envelope gcm) :=
  Json.parse_stringify number (held_envelope hnumber s.isTime _ _ _ _)

theorem marked_envelope (gcm : Gcm DerivedKey) {number : String → String} (s : Sealing number) :
    Marked s (s.envelope gcm) := ⟨rfl, rfl, rfl, rfl, rfl⟩

theorem written_envelope (gcm : Gcm DerivedKey) {number : String → String} (s : Sealing number) :
    Written gcm s (s.envelope gcm) := ⟨rfl, rfl, rfl⟩

/-- Each implementation opens what the other wrote, and while a secret is configured both
reject every body that is not a sealed envelope of the window as it was written, unless it
spells one in another way. -/
theorem envelopes_agree_iff (gcm : Gcm DerivedKey) {number : String → String}
    (hnumber : Prints number) :
    (∀ (env : Option String) (timestamp now : Int) (iv : Bytes) (fields : List (String × Json))
      (requestId : String) (calls : List (Call DerivedKey)),
      requestId ≠ "" → IsTime timestamp → iv.length = 12 → |now - timestamp| ≤ maxClockSkewMs →
      Held number (.object fields) → NoProto (.object fields) →
      (∀ secret, currentSecret env = some secret →
        sealCall secret requestId timestamp iv (.object fields) ∈ calls) →
      (Json.parse number (secureChairDispatchBody gcm env timestamp iv (.object fields)
          requestId).body).map (Inbox.decryptPayload gcm number calls env now)
        = some (.ok (.object fields)) ∧
      (Json.parse number (Inbox.encryptPayload gcm env timestamp iv (.object fields)
          requestId).body).map (openChairDispatchBody gcm number calls env now)
        = some (.ok (.object fields))) ∧
    ∀ (sealings : List (Sealing number)) (env : Option String) (secret : String) (now : Int)
      (text : String) (body : Json),
      currentSecret env = some secret → Json.parse number text = some body →
      ((¬Genuine gcm sealings secret now body →
          Rejected gcm number (sealings.map Sealing.call) env now body)
        ↔ ¬Respelled gcm sealings secret now body) := by
  constructor
  · intro env timestamp now iv fields requestId calls hid htime hiv hwindow hheld hproto hcalls
    rw [encryptPayload_eq, secureChairDispatchBody]
    cases henv : currentSecret env with
    | none =>
      have hdispatch : Inbox.dispatchSecret env = none := henv
      dsimp only
      rw [Json.parse_stringify number hheld, Option.map_some, Option.map_some,
        Inbox.decryptPayload, hdispatch, openChairDispatchBody, henv]
      exact ⟨rfl, rfl⟩
    | some secret =>
      let s : Sealing number := ⟨secret, requestId, timestamp, iv, fields, hid, htime, hiv, hheld⟩
      have hs : s.call ∈ calls := hcalls secret henv
      have hbody : (envelopeOf gcm (sealCall secret requestId timestamp iv (.object fields))
          requestId timestamp) = s.envelope gcm := rfl
      dsimp only
      rw [hbody, parse_body gcm hnumber s, Option.map_some, Option.map_some,
        decrypt_of_written hs henv hwindow (marked_envelope gcm s) (written_envelope gcm s),
        open_of_spelled hs henv hwindow (marked_envelope gcm s) (written_envelope gcm s).spelled,
        dropProto_eq _ hproto]
      exact ⟨rfl, rfl⟩
  · intro sealings env secret now text body henv hbody
    have hline : ∀ t, body.field? "timestamp" = some (.number t) → '\n' ∉ t.toList :=
      fun t ht => Json.line_of_parse hnumber hbody ht
    have hfound : (∃ s ∈ sealings, s.secret = secret ∧ InWindow now s.timestamp ∧ Marked s body ∧
        Spelled gcm s body) → ¬Genuine gcm sealings secret now body →
        Respelled gcm sealings secret now body := by
      intro hgiven
      obtain ⟨s, hs, hsecret, hwindow, hmarked, hspelled⟩ := hgiven
      intro hnot
      refine ⟨s, hs, hsecret, hwindow, hmarked, hspelled, ?_⟩
      intro hwritten
      exact hnot ⟨s, hs, hsecret, hwindow, hmarked, hwritten⟩
    constructor
    · intro hrejected hgiven
      obtain ⟨s, hs, rfl, hwindow, hmarked, hspelled, hnot⟩ := hgiven
      have hopen := open_of_spelled (List.mem_map_of_mem hs) henv hwindow hmarked hspelled
      refine (hrejected ?_).1 _ hopen
      intro hgiven
      obtain ⟨s', -, -, -, -, hwritten⟩ := hgiven
      exact hnot (hwritten.of_spelled hspelled)
    · intro hnot hgenuine
      refine ⟨fun p hp => hnot ?_, fun p hp => hnot ?_⟩
      · exact hfound (spelled_of_open henv hline hp) hgenuine
      · exact hfound (spelled_of_decrypt henv hline hp) hgenuine

/-! ## A tag cut short -/

/-- The plaintext of the sample. -/
def samplePlain : Bytes := [123, 34, 97, 34, 58, 49, 125]

/-- What AES-256-GCM makes of it. -/
def sampleSealed : Bytes := [173, 80, 34, 173, 135, 153, 101]

def sampleTag : Bytes := [205, 129, 175, 39, 196, 200, 8, 100, 16, 216, 12, 193, 142, 5, 207, 213]

/-- A cipher that seals the sample as AES-256-GCM does. -/
def sampleGcm : Gcm DerivedKey where
  ciphertext _ _ := Equiv.swap samplePlain sampleSealed
  tag _ _ _ _ := sampleTag
  length_ciphertext _ _ plaintext := by
    rw [Equiv.swap_apply_def]
    split
    next h => rw [h]; rfl
    split
    next h => rw [h]; rfl
    next => rfl
  ciphertext_injective _ _ := Equiv.injective _
  length_tag _ _ _ _ := rfl

/-- `{"a":1}`, sealed for the request `req-1`. -/
def sample : Sealing id where
  secret := "0123456789abcdef0123456789abcdef"
  requestId := "req-1"
  timestamp := 1700000000000
  iv := [0, 1, 2, 3, 4, 5, 6, 7, 8, 9, 10, 11]
  fields := [("a", .number "1")]
  requestId_ne := by decide
  isTime := by decide
  iv_length := rfl
  held := ⟨by decide, Json.enumerated_of_names (by decide +kernel), ⟨by decide, rfl⟩, trivial⟩

/-- The sample with the first 16 of the 22 characters of its tag. -/
def sampleCut : Json :=
  .object [
    ("version", .string "kovael-chair-v1"),
    ("encrypted", .bool true),
    ("alg", .string "A256GCM"),
    ("requestId", .string "req-1"),
    ("timestamp", .ofInt 1700000000000),
    ("iv", .string "AAECAwQFBgcICQoL"),
    ("ciphertext", .string "rVAirYeZZQ"),
    ("tag", .string "zYGvJ8TICGQQ2AzB")]

theorem sampleCut_marked : Marked sample sampleCut := ⟨rfl, rfl, rfl, rfl, rfl⟩

theorem sampleCut_spelled : Spelled sampleGcm sample sampleCut :=
  ⟨"AAECAwQFBgcICQoL", "rVAirYeZZQ", "zYGvJ8TICGQQ2AzB", rfl, by decide +kernel, rfl,
    by decide +kernel, rfl, by decide +kernel, by decide +kernel⟩

theorem sampleCut_not_written : ¬Written sampleGcm sample sampleCut := by
  intro h
  have htag := Json.string.inj (Option.some.inj h.tag)
  exact absurd htag (by decide +kernel)

/-- A sealed envelope with its tag cut to twelve bytes is opened by both implementations. -/
theorem cut_tag_accepted :
    ¬∀ (sealings : List (Sealing id)) (env : Option String) (secret : String) (now : Int)
      (text : String) (body : Json), currentSecret env = some secret →
      Json.parse id text = some body → ¬Genuine sampleGcm sealings secret now body →
      Rejected sampleGcm id (sealings.map Sealing.call) env now body := by
  intro h
  have henv : currentSecret (some sample.secret) = some sample.secret := by decide +kernel
  have hbody : Json.parse id sampleCut.stringify = some sampleCut :=
    Json.parse_stringify id (held_envelope Json.prints_id sample.isTime _ _ _ _)
  have hwindow : InWindow 1700000000000 sample.timestamp := by decide
  have hopen : openChairDispatchBody sampleGcm id [sample.call] (some sample.secret) 1700000000000
      sampleCut = .ok (.object sample.fields) :=
    open_of_spelled List.mem_cons_self henv hwindow sampleCut_marked sampleCut_spelled
  refine (h [sample] (some sample.secret) sample.secret 1700000000000 _ sampleCut henv hbody ?_).1 _
    hopen
  intro hgiven
  obtain ⟨s, hs, -, -, -, hwritten⟩ := hgiven
  rw [List.mem_singleton.mp hs] at hwritten
  exact sampleCut_not_written hwritten

/-- The sample, sealed by either side, is opened by the other a minute later. -/
theorem sample_opened :
    (Json.parse id (secureChairDispatchBody sampleGcm (some sample.secret) 1700000000000 sample.iv
        (.object sample.fields) "req-1").body).map
      (Inbox.decryptPayload sampleGcm id [sample.call] (some sample.secret) 1700000060000)
        = some (.ok (.object sample.fields)) := by
  have hcall : ∀ secret, currentSecret (some sample.secret) = some secret →
      sealCall secret "req-1" 1700000000000 sample.iv (.object sample.fields) ∈ [sample.call] := by
    intro secret hsecret
    have henv : currentSecret (some sample.secret) = some sample.secret := by decide +kernel
    obtain rfl := Option.some.inj (henv.symm.trans hsecret)
    exact List.mem_cons_self
  exact ((envelopes_agree_iff sampleGcm Json.prints_id).1 (some sample.secret) 1700000000000
    1700000060000 sample.iv sample.fields "req-1" [sample.call] (by decide) (by decide) rfl
    (by decide) sample.held ⟨by decide, trivial, trivial⟩ hcall).1

end Kovael.Chair
