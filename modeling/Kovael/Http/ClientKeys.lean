import Kovael.Http.RateLimiter
import Kovael.Js.Net

/-!
# Which addresses share a key

`clientKey` strips `::ffff:` from a dotted address and leaves every other text as
it is. So an address has one key as long as it is written in one way;
`client_keys_canonical_iff` says which other pairs of texts agree.
-/

namespace Kovael.Http

open Js
open Js.Net (isIP readV4 readAddress Address)
open Js.Url (ipv4Text)

/-- The text is the address of a request: of its socket, or of the first entry of a
trusted `X-Forwarded-For`. -/
inductive ArrivesAs (text : String) : Bool → Option String → Option String → Prop where
  | socket {trustProxy : Bool} {xForwardedFor : Option String}
      (h : trustProxy = false ∨ forwardedFor isIP xForwardedFor = none) :
      ArrivesAs text trustProxy xForwardedFor (some text)
  | forwarded {raw : String} {remoteAddress : Option String}
      (h : trim (String.ofList (raw.toList.takeWhile (· ≠ ','))) = text) :
      ArrivesAs text true (some raw) remoteAddress

/-- A dotted IPv4 address, bare or right after `::ffff:`. -/
def PlainV4 (text : String) : Prop :=
  isIP text = 4 ∨ ∃ v4, after? "::ffff:" text = some v4 ∧ isIP v4 = 4

theorem ne_empty_of_isIP {text : String} (h : isIP text ≠ 0) : text ≠ "" := by
  intro heq
  obtain rfl := heq
  exact h (by decide +kernel)

/-- The key of a request is its address, stripped. -/
theorem clientKey_of_arrivesAs {text : String} (hip : isIP text ≠ 0) {trustProxy : Bool}
    {xForwardedFor remoteAddress : Option String}
    (h : ArrivesAs text trustProxy xForwardedFor remoteAddress) :
    clientKey isIP trustProxy xForwardedFor remoteAddress = normalizeIp isIP text := by
  have hne := ne_empty_of_isIP hip
  unfold clientKey
  cases h with
  | socket hsocket =>
    have hnone : (if trustProxy then forwardedFor isIP xForwardedFor else none) = none := by
      rcases hsocket with rfl | hsocket
      · rfl
      · rw [hsocket, ite_self]
    rw [hnone]
    exact if_pos ⟨hne, hip⟩
  | @forwarded raw _ hfirst =>
    have hforwarded : forwardedFor isIP (some raw) = some text := by
      unfold forwardedFor
      rw [Option.map_some, hfirst, Option.filter_some, if_pos]
      exact Bool.and_eq_true_iff.mpr ⟨decide_eq_true hne, decide_eq_true hip⟩
    rw [if_pos rfl, hforwarded]

/-! ## What stripping does -/

/-- An IPv4 address has one dotted text. -/
theorem text_of_isIP_four {text : String} (h : isIP text = 4) :
    ∃ n, n < 4294967296 ∧ text = ipv4Text n := by
  obtain ⟨n, hn⟩ := Option.isSome_iff_exists.mp ((Net.isIP_eq_four_iff text).mp h)
  obtain ⟨hlt, htext⟩ := (Net.readV4_iff _ n).mp hn
  exact ⟨n, hlt, String.toList_injective htext⟩

theorem readAddress_ipv4Text {n : Nat} (h : n < 4294967296) :
    readAddress (ipv4Text n) = some (.v4 n, []) := by
  rw [readAddress, Net.readV4_ipv4Text h]

/-- A plain text is stripped to the dotted text of its address. -/
theorem normalizeIp_plain {text : String} (h : PlainV4 text) :
    ∃ n, n < 4294967296 ∧ normalizeIp isIP text = ipv4Text n ∧
      readAddress text = some (.v4 n, []) := by
  rcases h with h | ⟨v4, hafter, h⟩
  · obtain ⟨n, hn, rfl⟩ := text_of_isIP_four h
    refine ⟨n, hn, ?_, readAddress_ipv4Text hn⟩
    have hafter : after? "::ffff:" (ipv4Text n) = none := by
      cases hafter : after? "::ffff:" (ipv4Text n) with
      | none => rfl
      | some rest =>
        have hcolon : ':' ∉ (ipv4Text n).toList := Net.not_mem_ipv4Text (by decide) (by decide) n
        rw [(after?_eq_some_iff _ _ _).mp hafter] at hcolon
        exact absurd (by simp) hcolon
    rw [normalizeIp, hafter]
  · obtain ⟨n, hn, rfl⟩ := text_of_isIP_four h
    obtain rfl := (after?_eq_some_iff _ _ _).mp hafter
    refine ⟨n, hn, ?_, Net.readAddress_mapped hn⟩
    rw [normalizeIp, hafter]
    exact if_pos h

/-- Any other text is left as it is. -/
theorem normalizeIp_of_not_plain {text : String} (h : ¬PlainV4 text) :
    normalizeIp isIP text = text := by
  unfold normalizeIp
  split
  · next v4 hafter => exact if_neg fun hv4 => h (Or.inr ⟨v4, hafter, hv4⟩)
  · rfl

theorem plain_ipv4Text {n : Nat} (h : n < 4294967296) : PlainV4 (ipv4Text n) :=
  Or.inl ((Net.isIP_eq_four_iff _).mpr (by rw [Net.readV4_ipv4Text h]; rfl))

theorem readAddress_normalizeIp (text : String) :
    readAddress (normalizeIp isIP text) = readAddress text := by
  by_cases h : PlainV4 text
  · obtain ⟨n, hn, hkey, haddress⟩ := normalizeIp_plain h
    rw [hkey, haddress, readAddress_ipv4Text hn]
  · rw [normalizeIp_of_not_plain h]

/-- Two texts are stripped to the same one if they are the same, or plain texts of one
address, and only then. -/
theorem normalizeIp_eq_iff (a b : String) :
    normalizeIp isIP a = normalizeIp isIP b ↔
      a = b ∨ (PlainV4 a ∧ PlainV4 b ∧ readAddress a = readAddress b) := by
  constructor
  · intro h
    have haddress : readAddress a = readAddress b := by
      rw [← readAddress_normalizeIp a, h, readAddress_normalizeIp b]
    by_cases ha : PlainV4 a
    · obtain ⟨n, hn, hkey, -⟩ := normalizeIp_plain ha
      by_cases hb : PlainV4 b
      · exact Or.inr ⟨ha, hb, haddress⟩
      · rw [hkey, normalizeIp_of_not_plain hb] at h
        exact absurd (h ▸ plain_ipv4Text hn) hb
    · by_cases hb : PlainV4 b
      · obtain ⟨n, hn, hkey, -⟩ := normalizeIp_plain hb
        rw [hkey, normalizeIp_of_not_plain ha] at h
        exact absurd (h ▸ plain_ipv4Text hn) ha
      · rw [normalizeIp_of_not_plain ha, normalizeIp_of_not_plain hb] at h
        exact Or.inl h
  · intro hcases
    rcases hcases with rfl | ⟨ha, hb, haddress⟩
    · rfl
    · obtain ⟨n, hn, hkey, hn'⟩ := normalizeIp_plain ha
      obtain ⟨m, hm, hkey', hm'⟩ := normalizeIp_plain hb
      rw [hn', hm', Option.some.injEq, Prod.mk.injEq, Address.v4.injEq] at haddress
      rw [hkey, hkey', haddress.1]

/-! ## The condition -/

/-- Two requests have the same key exactly if they come from the same address, provided
that, if they do, it is written in the same way or in both as a plain IPv4 address. -/
theorem client_keys_canonical_iff {a b : String} (ha : isIP a ≠ 0) (hb : isIP b ≠ 0)
    {trustA trustB : Bool} {forwardedA remoteA forwardedB remoteB : Option String}
    (harriveA : ArrivesAs a trustA forwardedA remoteA)
    (harriveB : ArrivesAs b trustB forwardedB remoteB) :
    (clientKey isIP trustA forwardedA remoteA = clientKey isIP trustB forwardedB remoteB ↔
        readAddress a = readAddress b) ↔
      (readAddress a = readAddress b → a = b ∨ (PlainV4 a ∧ PlainV4 b)) := by
  rw [clientKey_of_arrivesAs ha harriveA, clientKey_of_arrivesAs hb harriveB, normalizeIp_eq_iff]
  constructor
  · intro h haddress
    rcases h.mpr haddress with hsame | ⟨hplainA, hplainB, -⟩
    · exact Or.inl hsame
    · exact Or.inr ⟨hplainA, hplainB⟩
  · intro h
    constructor
    · intro hcases
      rcases hcases with rfl | ⟨-, -, haddress⟩
      · rfl
      · exact haddress
    · intro haddress
      rcases h haddress with hsame | ⟨hplainA, hplainB⟩
      · exact Or.inl hsame
      · exact Or.inr ⟨hplainA, hplainB, haddress⟩

/-- A dual-stack client, over IPv6 and through a trusted proxy, has one key. -/
theorem dual_stack_one_key :
    clientKey isIP false none (some "::ffff:198.51.100.7")
        = clientKey isIP true (some "198.51.100.7, 10.0.0.1") (some "10.0.0.1") ↔
      readAddress "::ffff:198.51.100.7" = readAddress "198.51.100.7" :=
  (client_keys_canonical_iff (by decide +kernel) (by decide +kernel) (.socket (Or.inl rfl))
    (.forwarded (by decide +kernel))).mpr
    fun _ => Or.inr ⟨Or.inr ⟨"198.51.100.7", by decide +kernel, by decide +kernel⟩,
      Or.inl (by decide +kernel)⟩

/-- The same client has another key when its mapped address is written in hex. -/
theorem hex_mapped_other_key :
    isIP "::ffff:c633:6407" = 6 ∧ isIP "198.51.100.7" = 4 ∧
      readAddress "::ffff:c633:6407" = readAddress "198.51.100.7" ∧
      clientKey isIP false none (some "::ffff:c633:6407")
        ≠ clientKey isIP false none (some "198.51.100.7") := by
  decide +kernel

end Kovael.Http
