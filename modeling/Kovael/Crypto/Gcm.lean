import Kovael.Js.Base64

/-!
# AES-GCM, ideally

An authenticated cipher with the interface of `node:crypto`. `Gcm` is what
encryption computes; decryption is ideal: it opens what was encrypted, and
nothing else. `setAuthTag` takes a tag of any length that GCM allows unless the
length was fixed when the decipher was made, and `final()` compares as many
bytes as the tag has.
-/

namespace Crypto

open Js.Base64 (Bytes)

/-- A cipher with keys in `κ`: the ciphertext of a plaintext under a key and an IV, and
the tag over it and the additional data. -/
structure Gcm (κ : Type) where
  ciphertext : κ → Bytes → Bytes → Bytes
  tag : κ → Bytes → Bytes → Bytes → Bytes
  length_ciphertext : ∀ key iv plaintext, (ciphertext key iv plaintext).length = plaintext.length
  ciphertext_injective : ∀ key iv, Function.Injective (ciphertext key iv)
  length_tag : ∀ key iv aad plaintext, (tag key iv aad plaintext).length = 16

/-- An encryption that was made. -/
structure Call (κ : Type) where
  key : κ
  iv : Bytes
  aad : Bytes
  plaintext : Bytes
  deriving DecidableEq

/-- The lengths of a tag that `setAuthTag` takes. -/
def tagLengths : List Nat := [4, 8, 12, 13, 14, 15, 16]

namespace Gcm

variable {κ : Type} (gcm : Gcm κ)

/-- What `cipher.update` and `cipher.final()` returned. -/
def sealed (call : Call κ) : Bytes := gcm.ciphertext call.key call.iv call.plaintext

/-- What `cipher.getAuthTag()` returned. -/
def authTag (call : Call κ) : Bytes := gcm.tag call.key call.iv call.aad call.plaintext

/-- The decipher was given what this encryption returned, the tag perhaps cut short. -/
def Opens (call : Call κ) (key : κ) (iv aad tag ciphertext : Bytes) : Prop :=
  call.key = key ∧ call.iv = iv ∧ call.aad = aad ∧ gcm.sealed call = ciphertext ∧
    tag.length ∈ tagLengths ∧ tag <+: gcm.authTag call

instance [DecidableEq κ] (call : Call κ) (key : κ) (iv aad tag ciphertext : Bytes) :
    Decidable (gcm.Opens call key iv aad tag ciphertext) :=
  inferInstanceAs (Decidable (_ ∧ _))

/-- `decipher.update` and `decipher.final()`, where these encryptions were made; `none` if
the tag is not authentic. -/
def decipher [DecidableEq κ] (calls : List (Call κ)) (key : κ) (iv aad tag ciphertext : Bytes) :
    Option Bytes :=
  (calls.find? fun call => gcm.Opens call key iv aad tag ciphertext).map Call.plaintext

variable {gcm}

/-- All encryptions that a decipher may have been given have one plaintext. -/
theorem Opens.plaintext_eq {call call' : Call κ} {key : κ} {iv aad tag ciphertext : Bytes}
    (h : gcm.Opens call key iv aad tag ciphertext)
    (h' : gcm.Opens call' key iv aad tag ciphertext) : call.plaintext = call'.plaintext := by
  obtain ⟨rfl, rfl, -, hsealed, -, -⟩ := h
  obtain ⟨hkey, hiv, -, hsealed', -, -⟩ := h'
  rw [sealed, ← hsealed, sealed, hkey, hiv] at hsealed'
  exact (gcm.ciphertext_injective _ _ hsealed').symm

/-- Ideal decryption opens what was encrypted, and nothing else. -/
theorem decipher_eq_some_iff [DecidableEq κ] {calls : List (Call κ)} {key : κ}
    {iv aad tag ciphertext plaintext : Bytes} :
    gcm.decipher calls key iv aad tag ciphertext = some plaintext ↔
      ∃ call ∈ calls, gcm.Opens call key iv aad tag ciphertext ∧ call.plaintext = plaintext := by
  rw [decipher, Option.map_eq_some_iff]
  constructor
  · intro hgiven
    obtain ⟨call, hfind, hplain⟩ := hgiven
    have hopens := List.find?_some hfind
    exact ⟨call, List.mem_of_find?_eq_some hfind, of_decide_eq_true hopens, hplain⟩
  · intro hgiven
    obtain ⟨call, hmem, hopens, hplain⟩ := hgiven
    have hsome :
        (calls.find? fun call => decide (gcm.Opens call key iv aad tag ciphertext)).isSome :=
      List.find?_isSome.mpr ⟨call, hmem, decide_eq_true hopens⟩
    obtain ⟨found, hfind⟩ := Option.isSome_iff_exists.mp hsome
    have hfound := List.find?_some hfind
    refine ⟨found, hfind, ?_⟩
    rw [← hplain]
    exact Opens.plaintext_eq (of_decide_eq_true hfound) hopens

/-- What was encrypted opens with its whole tag. -/
theorem opens_self (gcm : Gcm κ) (call : Call κ) :
    gcm.Opens call call.key call.iv call.aad (gcm.authTag call) (gcm.sealed call) := by
  refine ⟨rfl, rfl, rfl, rfl, ?_, List.prefix_rfl⟩
  rw [authTag, gcm.length_tag]
  decide

/-- What was encrypted is decrypted. -/
theorem decipher_sealed [DecidableEq κ] {calls : List (Call κ)} {call : Call κ}
    (h : call ∈ calls) :
    gcm.decipher calls call.key call.iv call.aad (gcm.authTag call) (gcm.sealed call)
      = some call.plaintext :=
  decipher_eq_some_iff.mpr ⟨call, h, gcm.opens_self call, rfl⟩

end Gcm

end Crypto
