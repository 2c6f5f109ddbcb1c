import Kovael.Js.Net

/-!
# `UrlEgressGuard`: which addresses a chair URL may not name

`src/services/UrlEgressGuard.ts`, `isBlockedEgressIp`: link-local and unspecified
addresses, and with `blockPrivate` private ones. The decision is made on the text;
`egress_guard_iff` compares it with the address that the text denotes.

Mirroring notes:
- `toLowerCase` is that of the ASCII letters: `isIP` accepts no other.
- `Number` is applied to the pieces of a dotted address, which are digits.
- The pattern `::ffff:(.+)` and what follows from its match are `embeddedV4`.
-/

namespace Kovael.Chair

open Js
open Js.Net (isIP readV4 readV6 readGroup readAddress groupsValue unmapped lower Address)
open Js.Url (ipv4Text)

/-- `isBlockedV4(v4, { blockPrivate })`. -/
def isBlockedV4 (v4 : String) (blockPrivate : Bool) : Bool :=
  let o := (v4.toList.splitOn '.').map fun piece => Nat.ofDigitChars 10 piece 0
  (o[0]? = some 169 && o[1]? = some 254) || v4 = "0.0.0.0" ||
    (blockPrivate &&
      (o[0]? = some 10 || (o[0]? = some 172 && o[1]?.any fun n => 16 ≤ n && n ≤ 31) ||
        (o[0]? = some 192 && o[1]? = some 168)))

/-- `replace(/^\\[|\\]$/g, '')`. -/
def stripBrackets (cs : List Char) : List Char :=
  let cs := if cs.head? = some '[' then cs.tail else cs
  if cs.getLast? = some ']' then cs.dropLast else cs

/-- `[0-9a-f]{1,4}`, as a number. -/
def lowerHexGroup (cs : List Char) : Option Nat :=
  if cs.all fun c => c.isDigit || ('a' ≤ c && c ≤ 'f') then readGroup cs else none

/-- The two groups of `e`, if it is nothing else. -/
def hexPair (e : String) : Option (Nat × Nat) :=
  match e.toList.splitOn ':' with
  | [hi, lo] => (lowerHexGroup hi).bind fun hi => (lowerHexGroup lo).map fun lo => (hi, lo)
  | _ => none

/-- The IPv4 address that is checked for one that starts with `::ffff:`. -/
def embeddedV4 (addr : String) : Option String :=
  (after? "::ffff:" addr).bind fun e =>
    if isIP e = 4 then some e
    else
      (hexPair e).map fun pair =>
        ".".intercalate
          ([(pair.1 >>> 8) &&& 255, pair.1 &&& 255, (pair.2 >>> 8) &&& 255, pair.2 &&& 255].map
            toString)

/-- `s.startsWith(lead)`. -/
def startsWith (lead s : String) : Bool := (after? lead s).isSome

/-- What is compared: lower case, without brackets. -/
def comparedText (ip : String) : String := String.ofList (stripBrackets (lower ip.toList))

/-- `isBlockedEgressIp(ip, { blockPrivate })`. -/
def isBlockedEgressIp (ip : String) (blockPrivate : Bool) : Bool :=
  let addr := comparedText ip
  let fam := isIP addr
  if fam = 4 then isBlockedV4 addr blockPrivate
  else if fam = 6 then
    match embeddedV4 addr with
    | some v4 => isBlockedV4 v4 blockPrivate
    | none =>
      addr = "::" || addr = "::0" || startsWith "fe80:" addr ||
        (blockPrivate && (startsWith "fc" addr || startsWith "fd" addr))
  else false

/-! ## The blocked ranges -/

/-- The first `len` of `width` bits agree. -/
def InRange (width base len n : Nat) : Prop := n / 2 ^ (width - len) = base / 2 ^ (width - len)

/-- 169.254.0.0/16, fe80::/10 and the unspecified address, and with `blockPrivate`
10/8, 172.16/12, 192.168/16 and fc00::/7. -/
def BlockedAddress (blockPrivate : Bool) : Address → Prop
  | .v4 n =>
    InRange 32 0xA9FE0000 16 n ∨ n = 0 ∨
      (blockPrivate = true ∧
        (InRange 32 0x0A000000 8 n ∨ InRange 32 0xAC100000 12 n ∨ InRange 32 0xC0A80000 16 n))
  | .v6 n =>
    InRange 128 (0xFE80 * 2 ^ 112) 10 n ∨ n = 0 ∨
      (blockPrivate = true ∧ InRange 128 (0xFC00 * 2 ^ 112) 7 n)

/-- The IPv6 text is one of the spellings that the guard reads. -/
structure SpellingFits (text : String) (blockPrivate : Bool) (gs : List Nat) : Prop where
  /-- The unspecified address is `::` or `::0`. -/
  unspecified : groupsValue gs = 0 → comparedText text = "::" ∨ comparedText text = "::0"
  /-- A link-local address begins with `fe80:`. -/
  linkLocal : ∀ g, gs.head? = some g → 0xFE80 ≤ g → g ≤ 0xFEBF → g = 0xFE80
  /-- A first group that begins with `fc` or `fd` has four digits. -/
  uniqueLocal : blockPrivate = true →
    startsWith "fc" (comparedText text) = true ∨ startsWith "fd" (comparedText text) = true →
    ∀ g, gs.head? = some g → 0x1000 ≤ g
  /-- A blocked IPv4 address stands directly after `::ffff:` and ends the text. -/
  mapped : ∀ n, unmapped (groupsValue gs) = .v4 n → BlockedAddress blockPrivate (.v4 n) →
    ∃ rest, comparedText text = "::ffff:" ++ rest ∧ (isIP rest = 4 ∨ (hexPair rest).isSome = true)

/-! ## IPv4 -/

theorem pieces_ipv4Text (n : Nat) :
    ((ipv4Text n).toList.splitOn '.').map (fun piece => Nat.ofDigitChars 10 piece 0)
      = [n / 16777216 % 256, n / 65536 % 256, n / 256 % 256, n % 256] := by
  rw [Net.splitOn_ipv4Text]
  simp only [Net.byteTexts, List.map_cons, List.map_nil, Nat.ofDigitChars_ten_toDigits]
  norm_num

theorem ipv4Text_eq_zero_iff {n : Nat} (h : n < 4294967296) : ipv4Text n = "0.0.0.0" ↔ n = 0 := by
  constructor
  · intro htext
    have hread := Net.readV4_ipv4Text h
    have hzero : readV4 "0.0.0.0".toList = some 0 := by decide +kernel
    rw [htext, hzero] at hread
    exact (Option.some.inj hread).symm
  · intro heq
    obtain rfl := heq
    decide +kernel

/-- The dotted text of an address is blocked exactly if the address is. -/
theorem isBlockedV4_ipv4Text {n : Nat} (h : n < 4294967296) (blockPrivate : Bool) :
    isBlockedV4 (ipv4Text n) blockPrivate = true ↔ BlockedAddress blockPrivate (.v4 n) := by
  unfold isBlockedV4 BlockedAddress InRange
  dsimp only
  rw [pieces_ipv4Text]
  have hbytes : (n / 16777216 % 256 = 169 ∧ n / 65536 % 256 = 254 ↔ n / 65536 = 43518) ∧
      (n / 16777216 % 256 = 10 ↔ n / 16777216 = 10) ∧
      (n / 16777216 % 256 = 172 ∧ 16 ≤ n / 65536 % 256 ∧ n / 65536 % 256 ≤ 31
        ↔ n / 1048576 = 2753) ∧
      (n / 16777216 % 256 = 192 ∧ n / 65536 % 256 = 168 ↔ n / 65536 = 49320) := by
    omega
  obtain ⟨hlink, hten, htwelve, hsixteen⟩ := hbytes
  simp [ipv4Text_eq_zero_iff h, hlink, hten, htwelve, hsixteen, or_assoc]

/-! ## The text that is compared -/

theorem stripBrackets_of_not_mem {cs : List Char} (hopen : '[' ∉ cs) (hclose : ']' ∉ cs) :
    stripBrackets cs = cs := by
  have hhead : cs.head? ≠ some '[' := fun h => hopen (List.mem_of_head? h)
  have hlast : cs.getLast? ≠ some ']' := fun h => hclose (List.mem_of_getLast? h)
  unfold stripBrackets
  rw [if_neg hhead, if_neg hlast]

/-- An address has no brackets to lose. -/
theorem comparedText_toList {text : String} {address : Address} {zone : List Char}
    (h : readAddress text = some (address, zone)) :
    (comparedText text).toList = lower text.toList := by
  have hchars : ∀ c ∈ text.toList, Net.isZoneChar c = true ∨ c = '%' := by
    unfold readAddress at h
    split at h
    · next n hn => exact fun c hc => Or.inl (Net.isZoneChar_of_readV4 hn hc)
    · obtain ⟨⟨gs, zone'⟩, hread, -⟩ := Option.map_eq_some_iff.mp h
      exact fun c hc => Net.isZoneChar_of_readV6 hread hc
  have hbracket : ∀ b, (∀ n < 26, b ≠ Char.ofNat (65 + n) ∧ b ≠ Char.ofNat (97 + n)) →
      ¬(Net.isZoneChar b = true ∨ b = '%') → b ∉ lower text.toList := by
    intro b hletters hnot hmem
    obtain ⟨c, hc, hcb⟩ := List.mem_map.mp hmem
    exact hnot ((Net.toLower_eq_iff b hletters c).mp hcb ▸ hchars c hc)
  rw [comparedText, String.toList_ofList]
  exact stripBrackets_of_not_mem (hbracket '[' (by decide) (by decide))
    (hbracket ']' (by decide) (by decide))

/-! ## The embedded address -/

theorem readGroup_of_lowerHexGroup {cs : List Char} {g : Nat} (h : lowerHexGroup cs = some g) :
    readGroup cs = some g := by
  unfold lowerHexGroup at h
  split at h
  · exact h
  · exact nomatch h

/-- A group is not a dotted address. -/
theorem readV4_of_readGroup {cs : List Char} {g : Nat} (h : readGroup cs = some g) :
    readV4 cs = none := by
  cases hread : readV4 cs with
  | none => rfl
  | some n =>
    have hdot : '.' ∈ cs := by
      rw [((Net.readV4_iff cs n).mp hread).2, Net.toList_ipv4Text]
      simp [Net.byteTexts, List.intercalate]
    obtain ⟨v, hv⟩ := Net.hexVal_of_mem_readGroup h hdot
    have hnone : hexVal '.' = none := by decide
    exact absurd (hnone.symm.trans hv) (by simp)

theorem hexPair_some {e : String} {pair : Nat × Nat} (h : hexPair e = some pair) :
    Net.readGroups (e.toList.splitOn ':') = some [pair.1, pair.2] ∧ '%' ∉ e.toList ∧
      pair.1 < 65536 ∧ pair.2 < 65536 := by
  unfold hexPair at h
  split at h
  · next hi lo hsplit =>
    obtain ⟨x, hx, h⟩ := Option.bind_eq_some_iff.mp h
    obtain ⟨y, hy, rfl⟩ := Option.map_eq_some_iff.mp h
    have hx := readGroup_of_lowerHexGroup hx
    have hy := readGroup_of_lowerHexGroup hy
    refine ⟨?_, ?_, Net.readGroup_lt hx, Net.readGroup_lt hy⟩
    · rw [hsplit, Net.readGroups, Net.readGroups, hx, readV4_of_readGroup hy, hy]
      · rfl
      · exact List.cons_ne_nil _ _
    · intro hmem
      have hnot : ∀ {piece : List Char} {g : Nat}, readGroup piece = some g → '%' ∉ piece := by
        intro piece g hg hpiece
        obtain ⟨v, hv⟩ := Net.hexVal_of_mem_readGroup hg hpiece
        have hnone : hexVal '%' = none := by decide
        exact absurd (hnone.symm.trans hv) (by simp)
      rcases Net.mem_splitOn ':' hmem with hcolon | ⟨piece, hpiece, hmem⟩
      · exact absurd hcolon (by decide)
      · rw [hsplit, List.mem_cons, List.mem_singleton] at hpiece
        rcases hpiece with rfl | rfl
        · exact hnot hx hmem
        · exact hnot hy hmem
  · cases h

theorem groupText {x y : Nat} (hy : y < 65536) :
    ".".intercalate ([(x >>> 8) &&& 255, x &&& 255, (y >>> 8) &&& 255, y &&& 255].map toString)
      = ipv4Text (65536 * x + y) := by
  have hlow : ∀ n : Nat, n &&& 255 = n % 256 := fun n => Nat.and_two_pow_sub_one_eq_mod n 8
  have hbytes : (65536 * x + y) / 256 ^ 3 % 256 = x / 256 % 256 ∧
      (65536 * x + y) / 256 ^ 2 % 256 = x % 256 ∧ (65536 * x + y) / 256 ^ 1 % 256 = y / 256 % 256 ∧
      (65536 * x + y) / 256 ^ 0 % 256 = y % 256 := by
    omega
  obtain ⟨h3, h2, h1, h0⟩ := hbytes
  rw [hlow, hlow, hlow, hlow, Nat.shiftRight_eq_div_pow, Nat.shiftRight_eq_div_pow, ipv4Text]
  simp only [List.map_cons, List.map_nil, h3, h2, h1, h0]

theorem unmapped_of_mapped {x y : Nat} (hx : x < 65536) (hy : y < 65536) :
    unmapped (groupsValue [0, 0, 0, 0, 0, 0xFFFF, x, y]) = .v4 (65536 * x + y) := by
  have hvalue : groupsValue [0, 0, 0, 0, 0, 0xFFFF, x, y]
      = 0xFFFF * 4294967296 + (65536 * x + y) := by
    unfold groupsValue
    simp only [List.foldl_cons, List.foldl_nil]
    omega
  rw [hvalue, unmapped, if_pos (by omega), Address.v4.injEq]
  omega

/-- The address that is checked is the one that the text denotes. -/
theorem embeddedV4_some {addr v4 : String} (h : embeddedV4 addr = some v4) :
    ∃ n gs, n < 4294967296 ∧ v4 = ipv4Text n ∧ readV6 addr.toList = some (gs, []) ∧
      unmapped (groupsValue gs) = .v4 n := by
  obtain ⟨e, hafter, hv4⟩ := Option.bind_eq_some_iff.mp h
  obtain rfl := (after?_eq_some_iff _ _ _).mp hafter
  rw [String.toList_append]
  split at hv4
  · next hfour =>
    obtain ⟨n, hn⟩ := Option.isSome_iff_exists.mp ((Net.isIP_eq_four_iff e).mp hfour)
    obtain ⟨hlt, htext⟩ := (Net.readV4_iff _ n).mp hn
    have hcolon : ':' ∉ e.toList := Net.not_mem_of_readV4 hn (by decide) (by decide)
    have hzone : '%' ∉ e.toList := Net.not_mem_of_readV4 hn (by decide) (by decide)
    refine ⟨n, _, hlt, ?_, Net.readV6_mapped (x := n / 65536) (y := n % 65536) hzone ?_, ?_⟩
    · rw [← Option.some.inj hv4]
      exact String.toList_injective htext
    · rw [List.splitOn_eq_singleton hcolon, Net.readGroups, hn]
    · rw [unmapped_of_mapped (by omega) (by omega), Address.v4.injEq]
      omega
  · obtain ⟨pair, hpair, rfl⟩ := Option.map_eq_some_iff.mp hv4
    obtain ⟨hgroups, hzone, hx, hy⟩ := hexPair_some hpair
    exact ⟨65536 * pair.1 + pair.2, _, by omega, groupText hy, Net.readV6_mapped hzone hgroups,
      unmapped_of_mapped hx hy⟩

theorem embeddedV4_isSome_iff (addr : String) :
    (embeddedV4 addr).isSome = true ↔
      ∃ rest, addr = "::ffff:" ++ rest ∧ (isIP rest = 4 ∨ (hexPair rest).isSome = true) := by
  have hafter : ∀ rest, ((if isIP rest = 4 then some rest
      else (hexPair rest).map fun pair => ".".intercalate
        ([(pair.1 >>> 8) &&& 255, pair.1 &&& 255, (pair.2 >>> 8) &&& 255, pair.2 &&& 255].map
          toString)).isSome = true) ↔ (isIP rest = 4 ∨ (hexPair rest).isSome = true) := by
    intro rest
    split
    · next h => exact iff_of_true rfl (Or.inl h)
    · next h => rw [Option.isSome_map, or_iff_right h]
  unfold embeddedV4
  constructor
  · intro h
    obtain ⟨v4, hv4⟩ := Option.isSome_iff_exists.mp h
    obtain ⟨rest, hrest, hv4⟩ := Option.bind_eq_some_iff.mp hv4
    exact ⟨rest, (after?_eq_some_iff _ _ _).mp hrest, (hafter rest).mp (hv4 ▸ rfl)⟩
  · intro hgiven
    obtain ⟨rest, htext, h⟩ := hgiven
    rw [(after?_eq_some_iff _ _ rest).mpr htext, Option.bind_some]
    exact (hafter rest).mpr h

/-! ## The first group -/

/-- The beginning of the text against the group before its first colon. -/
theorem startsWith_iff {addr : String} {cs : List Char} (htext : addr.toList = cs) (lead : String) :
    startsWith lead addr = true ↔ ∃ more, cs = lead.toList ++ more := by
  unfold startsWith
  rw [Option.isSome_iff_exists]
  constructor
  · intro hgiven
    obtain ⟨more, h⟩ := hgiven
    refine ⟨more.toList, ?_⟩
    rw [← htext, (after?_eq_some_iff _ _ _).mp h, String.toList_append]
  · intro hgiven
    obtain ⟨more, h⟩ := hgiven
    refine ⟨String.ofList more, (after?_eq_some_iff _ _ _).mpr (String.toList_injective ?_)⟩
    rw [String.toList_append, String.toList_ofList, htext, h]

theorem colon_not_mem_lower {cs : List Char} (h : ':' ∉ cs) : ':' ∉ lower cs := by
  intro hmem
  obtain ⟨c, hc, hcolon⟩ := List.mem_map.mp hmem
  exact h ((Net.toLower_eq_iff ':' (by decide) c).mp hcolon ▸ hc)

theorem hexVal_digitChar {n : Nat} (h : n < 16) : hexVal (Nat.digitChar n) = some n := by
  have hall : ∀ n < 16, hexVal (Nat.digitChar n) = some n := by decide
  exact hall n h

/-- `fe80:` is the one group `0xfe80`. -/
theorem startsWith_fe80_iff {addr : String} {cs : List Char} {gs : List Nat} {zone : List Char}
    {g : Nat} (htext : addr.toList = lower cs) (h : readV6 cs = some (gs, zone))
    (hg : gs.head? = some g) : startsWith "fe80:" addr = true ↔ g = 0xFE80 := by
  obtain ⟨-, first, rest, rfl, hcolon, hfirst⟩ := Net.readV6_first h
  rw [startsWith_iff htext]
  have hlower : lower (first ++ ':' :: rest) = lower first ++ ':' :: lower rest := by
    rw [lower, List.map_append, List.map_cons]
    rfl
  rw [hlower]
  have hread : readGroup "fe80".toList = some 0xFE80 := by decide
  constructor
  · intro hgiven
    obtain ⟨more, hmore⟩ := hgiven
    -- both are cut at their first colon
    have hcut := congrArg (List.splitOn ':') hmore
    rw [show "fe80:".toList ++ more = "fe80".toList ++ ':' :: more from rfl,
      List.splitOn_append_cons_self_of_not_mem (colon_not_mem_lower hcolon),
      List.splitOn_append_cons_self_of_not_mem (by decide)] at hcut
    rcases hfirst with ⟨rfl, -⟩ | ⟨-, hfirst⟩
    · exact absurd (List.cons.inj hcut).1 (by decide)
    · rw [hg, ← Net.readGroup_lower, (List.cons.inj hcut).1, hread] at hfirst
      exact Option.some.inj hfirst
  · intro heq
    obtain rfl := heq
    rcases hfirst with ⟨-, hfirst⟩ | ⟨-, hfirst⟩
    · rw [hg] at hfirst
      exact absurd (Option.some.inj hfirst) (by decide)
    · rw [hg] at hfirst
      refine ⟨lower rest, ?_⟩
      rw [Net.lower_of_readGroup hfirst.symm (by decide)]
      rfl

/-- `fc` and `fd` are the beginnings of the groups of `fc00::/7`, and of shorter ones. -/
theorem startsWith_fc_fd {addr : String} {cs : List Char} {gs : List Nat} {zone : List Char}
    {g : Nat} (htext : addr.toList = lower cs) (h : readV6 cs = some (gs, zone))
    (hg : gs.head? = some g) :
    ((startsWith "fc" addr = true ∨ startsWith "fd" addr = true) → 0 < g) ∧
      (4096 ≤ g → ((startsWith "fc" addr = true ∨ startsWith "fd" addr = true) ↔
        0xFC00 ≤ g ∧ g ≤ 0xFDFF)) := by
  obtain ⟨⟨-, hlt⟩, first, rest, rfl, hcolon, hfirst⟩ := Net.readV6_first h
  have hlt : g < 65536 := hlt g (List.mem_of_head? hg)
  have hlower : lower (first ++ ':' :: rest) = lower first ++ ':' :: lower rest := by
    rw [lower, List.map_append, List.map_cons]
    rfl
  -- the two letters stand in the first group
  have hletters : (startsWith "fc" addr = true ∨ startsWith "fd" addr = true) ↔
      ∃ d more, (d = 'c' ∨ d = 'd') ∧ lower first = 'f' :: d :: more := by
    rw [startsWith_iff htext, startsWith_iff htext, hlower]
    constructor
    · intro hstart
      obtain ⟨d, more, hd, hmore⟩ : ∃ d more, (d = 'c' ∨ d = 'd') ∧
          lower first ++ ':' :: lower rest = 'f' :: d :: more := by
        rcases hstart with ⟨more, hmore⟩ | ⟨more, hmore⟩
        · exact ⟨'c', more, Or.inl rfl, hmore⟩
        · exact ⟨'d', more, Or.inr rfl, hmore⟩
      have hnot : d ≠ ':' := by
        rcases hd with rfl | rfl <;> decide
      rcases hcs : lower first with _ | ⟨a, _ | ⟨b, more'⟩⟩
      · rw [hcs] at hmore
        exact absurd (List.cons.inj hmore).1 (by decide)
      · rw [hcs] at hmore
        exact absurd (List.cons.inj (List.cons.inj hmore).2).1.symm hnot
      · rw [hcs] at hmore
        have ha := (List.cons.inj hmore).1
        have hb := (List.cons.inj (List.cons.inj hmore).2).1
        exact ⟨d, more', hd, by rw [ha, hb]⟩
    · intro hcases
      rcases hcases with ⟨d, more, rfl | rfl, hmore⟩
      · exact Or.inl ⟨more ++ ':' :: lower rest, by rw [hmore]; rfl⟩
      · exact Or.inr ⟨more ++ ':' :: lower rest, by rw [hmore]; rfl⟩
  rw [hletters]
  rcases hfirst with ⟨rfl, hfirst⟩ | ⟨-, hfirst⟩
  · -- nothing stands before the colon, and the group is zero
    rw [hg] at hfirst
    have hzero := Option.some.inj hfirst
    refine ⟨?_, fun hbig => absurd hbig (by omega)⟩
    intro hgiven
    obtain ⟨d, more, -, hmore⟩ := hgiven
    cases hmore
  · rw [hg, ← Net.readGroup_lower] at hfirst
    constructor
    · intro hgiven
      obtain ⟨d, more, -, hmore⟩ := hgiven
      rw [hmore] at hfirst
      have hfifteen : hexVal 'f' = some 15 := by decide
      have := Net.le_readGroup hfifteen hfirst.symm
      omega
    · intro hbig
      rw [Net.readGroup_lower] at hfirst
      rw [Net.lower_of_readGroup hfirst.symm hbig]
      have hone := hexVal_digitChar (n := g / 4096) (by omega)
      have htwo := hexVal_digitChar (n := g / 256 % 16) (by omega)
      constructor
      · intro hgiven
        obtain ⟨d, more, hd, hmore⟩ := hgiven
        obtain ⟨hf, hmore⟩ := List.cons.inj hmore
        rw [hf] at hone
        rw [(List.cons.inj hmore).1] at htwo
        have hf : 15 = g / 4096 := Option.some.inj hone
        have hd : 12 = g / 256 % 16 ∨ 13 = g / 256 % 16 := by
          rcases hd with rfl | rfl
          · exact Or.inl (Option.some.inj htwo)
          · exact Or.inr (Option.some.inj htwo)
        omega
      · intro hrange
        have hf : g / 4096 = 15 := by omega
        have hd : g / 256 % 16 = 12 ∨ g / 256 % 16 = 13 := by omega
        rw [hf]
        rcases hd with hd | hd
        · rw [hd]
          exact ⟨'c', _, Or.inl rfl, rfl⟩
        · rw [hd]
          exact ⟨'d', _, Or.inr rfl, rfl⟩

/-! ## The condition -/

/-- The ranges of 128 bits in terms of the first group. -/
theorem blockedV6_iff (blockPrivate : Bool) {g n : Nat} (hg : n / 2 ^ 112 = g) :
    BlockedAddress blockPrivate (.v6 n) ↔
      (0xFE80 ≤ g ∧ g ≤ 0xFEBF) ∨ n = 0 ∨
        (blockPrivate = true ∧ 0xFC00 ≤ g ∧ g ≤ 0xFDFF) := by
  have hlink : InRange 128 (0xFE80 * 2 ^ 112) 10 n ↔ 0xFE80 ≤ g ∧ g ≤ 0xFEBF := by
    unfold InRange
    rw [show 2 ^ (128 - 10) = 2 ^ 112 * 64 from by decide, ← Nat.div_div_eq_div_mul, hg]
    norm_num
    omega
  have hlocal : InRange 128 (0xFC00 * 2 ^ 112) 7 n ↔ 0xFC00 ≤ g ∧ g ≤ 0xFDFF := by
    unfold InRange
    rw [show 2 ^ (128 - 7) = 2 ^ 112 * 512 from by decide, ← Nat.div_div_eq_div_mul, hg]
    norm_num
    omega
  unfold BlockedAddress
  dsimp only
  rw [hlink, hlocal]

/-- The first group is the first 16 bits. -/
theorem groupsValue_div {gs : List Nat} {g : Nat} (hlen : gs.length = 8)
    (hlt : ∀ g ∈ gs, g < 65536) (hg : gs.head? = some g) : groupsValue gs / 2 ^ 112 = g := by
  match gs, hlen with
  | [g0, g1, g2, g3, g4, g5, g6, g7], _ =>
    simp only [List.mem_cons, List.not_mem_nil, or_false, forall_eq_or_imp, forall_eq] at hlt
    rw [List.head?_cons, Option.some.injEq] at hg
    unfold groupsValue
    simp only [List.foldl_cons, List.foldl_nil]
    omega

/-- A mapped address begins with zero, and is not unspecified. -/
theorem unmapped_v4 {v n : Nat} (h : unmapped v = .v4 n) : v / 2 ^ 112 = 0 ∧ v ≠ 0 := by
  unfold unmapped at h
  split at h
  · omega
  · exact nomatch h

/-- `::` and `::0` are the unspecified address. -/
theorem groupsValue_unspecified {addr : String} {gs : List Nat} {zone : List Char}
    (h : readV6 addr.toList = some (gs, zone)) (htext : addr = "::" ∨ addr = "::0") :
    groupsValue gs = 0 := by
  have hread : readV6 addr.toList = some (List.replicate 8 0, []) := by
    rcases htext with rfl | rfl <;> decide +kernel
  rw [hread] at h
  rw [← (Prod.mk.inj (Option.some.inj h)).1]
  decide

/-- What the guard decides for a text that is not an embedded address. -/
theorem isBlockedEgressIp_plain {text : String} {blockPrivate : Bool}
    (hfam : isIP (comparedText text) = 6) (hnone : embeddedV4 (comparedText text) = none) :
    isBlockedEgressIp text blockPrivate = true ↔
      (comparedText text = "::" ∨ comparedText text = "::0") ∨
        startsWith "fe80:" (comparedText text) = true ∨
        (blockPrivate = true ∧ (startsWith "fc" (comparedText text) = true ∨
          startsWith "fd" (comparedText text) = true)) := by
  unfold isBlockedEgressIp
  dsimp only
  rw [if_neg (by omega), if_pos hfam, hnone]
  simp only [Bool.or_eq_true, Bool.and_eq_true, decide_eq_true_eq, or_assoc]

/-- An IPv6 text is classified by its address exactly if its spelling is one that is read. -/
theorem blocked_v6_iff {text : String} {gs : List Nat} {zone : List Char}
    (hnot : readV4 text.toList = none) (h : readV6 text.toList = some (gs, zone))
    (blockPrivate : Bool) :
    (isBlockedEgressIp text blockPrivate = true ↔
        BlockedAddress blockPrivate (unmapped (groupsValue gs))) ↔
      SpellingFits text blockPrivate gs := by
  have haddress : readAddress text = some (unmapped (groupsValue gs), zone) := by
    rw [readAddress, hnot, h, Option.map_some]
  have htext := comparedText_toList haddress
  have hlower : readV6 (comparedText text).toList = some (gs, lower zone) := by
    rw [htext, Net.readV6_lower, h, Option.map_some]
  have hfour : readV4 (comparedText text).toList = none := by
    rw [htext, Net.readV4_lower, hnot]
  have hfam : isIP (comparedText text) = 6 := by
    rw [isIP, hfour, hlower]
    rfl
  obtain ⟨⟨hlen, hlt⟩, -⟩ := Net.readV6_first h
  obtain ⟨g, hg⟩ : ∃ g, gs.head? = some g := by
    cases gs with
    | nil => exact absurd hlen (by decide)
    | cons g gs => exact ⟨g, rfl⟩
  have hdiv := groupsValue_div hlen hlt hg
  have hlink := startsWith_fe80_iff htext h hg
  obtain ⟨hpos, hlocal⟩ := startsWith_fc_fd htext h hg
  have hfirst : ∀ {g'}, gs.head? = some g' → g' = g := by
    intro g' hg'
    rw [hg] at hg'
    exact (Option.some.inj hg').symm
  cases hembedded : embeddedV4 (comparedText text) with
  | some v4 =>
    -- the address itself is checked
    obtain ⟨n, gs', hn, rfl, hread, hv4⟩ := embeddedV4_some hembedded
    have hgs : gs' = gs := (Prod.mk.inj (Option.some.inj (hread.symm.trans hlower))).1
    rw [hgs] at hv4
    have hblocked : isBlockedEgressIp text blockPrivate = isBlockedV4 (ipv4Text n) blockPrivate := by
      unfold isBlockedEgressIp
      dsimp only
      rw [if_neg (by omega), if_pos hfam, hembedded]
    obtain ⟨hzero, hne⟩ := unmapped_v4 hv4
    rw [hblocked, isBlockedV4_ipv4Text hn, hv4]
    refine iff_of_true Iff.rfl ⟨fun h => absurd h hne, ?_, ?_, ?_⟩
    · intro g' hg' hge hle
      have := hfirst hg'
      omega
    · intro _ hstart
      have := hpos hstart
      omega
    · intro _ _ _
      exact (embeddedV4_isSome_iff _).mp (hembedded ▸ rfl)
  | none =>
    have hspelled : ¬∃ rest, comparedText text = "::ffff:" ++ rest ∧
        (isIP rest = 4 ∨ (hexPair rest).isSome = true) := by
      rw [← embeddedV4_isSome_iff, hembedded]
      exact Bool.false_ne_true
    have hunspecified := groupsValue_unspecified hlower
    rw [isBlockedEgressIp_plain hfam hembedded, hlink]
    cases hmapped : unmapped (groupsValue gs) with
    | v4 n =>
      -- nothing is checked, so the address must be none that is blocked
      obtain ⟨hzero, hne⟩ := unmapped_v4 hmapped
      have hallowed : ¬((comparedText text = "::" ∨ comparedText text = "::0") ∨ g = 0xFE80 ∨
          (blockPrivate = true ∧ (startsWith "fc" (comparedText text) = true ∨
            startsWith "fd" (comparedText text) = true))) := by
        intro hcases
        rcases hcases with htwo | hfe | ⟨-, hstart⟩
        · exact hne (hunspecified htwo)
        · omega
        · have := hpos hstart
          omega
      rw [iff_false_left hallowed]
      constructor
      · intro hnot
        refine ⟨fun h => absurd h hne, ?_, ?_, ?_⟩
        · intro g' hg' hge hle
          have := hfirst hg'
          omega
        · intro _ hstart
          have := hpos hstart
          omega
        · intro n' hn' hblocked
          rw [hmapped] at hn'
          exact absurd (hn' ▸ hblocked) hnot
      · intro hfits hblocked
        exact hspelled (hfits.mapped n hmapped hblocked)
    | v6 n =>
      have hn : n = groupsValue gs := by
        unfold unmapped at hmapped
        split at hmapped
        · exact nomatch hmapped
        · exact (Address.v6.inj hmapped).symm
      rw [blockedV6_iff blockPrivate (hn ▸ hdiv), hn]
      constructor
      · intro hsame
        refine ⟨?_, ?_, ?_, ?_⟩
        · intro hzero
          rcases hsame.mpr (Or.inr (Or.inl hzero)) with htwo | hfe | ⟨-, hstart⟩
          · exact htwo
          · omega
          · have := hpos hstart
            omega
        · intro g' hg' hge hle
          obtain rfl := hfirst hg'
          rcases hsame.mpr (Or.inl ⟨hge, hle⟩) with htwo | hfe | ⟨-, hstart⟩
          · have := hunspecified htwo
            omega
          · exact hfe
          · have := (hlocal (by omega)).mp hstart
            omega
        · intro hprivate hstart g' hg'
          obtain rfl := hfirst hg'
          have := hpos hstart
          rcases hsame.mp (Or.inr (Or.inr ⟨hprivate, hstart⟩)) with hfe | hzero | ⟨-, hrange⟩
          · omega
          · omega
          · omega
        · intro n' hn' _
          rw [hmapped] at hn'
          exact nomatch hn'
      · intro hfits
        constructor
        · intro hcases
          rcases hcases with htwo | hfe | ⟨hprivate, hstart⟩
          · exact Or.inr (Or.inl (hunspecified htwo))
          · exact Or.inl (by omega)
          · have hbig := hfits.uniqueLocal hprivate hstart g hg
            exact Or.inr (Or.inr ⟨hprivate, (hlocal hbig).mp hstart⟩)
        · intro hcases
          rcases hcases with ⟨hge, hle⟩ | hzero | ⟨hprivate, hrange⟩
          · exact Or.inr (Or.inl (hfits.linkLocal g hg hge hle))
          · exact Or.inl (hfits.unspecified hzero)
          · exact Or.inr (Or.inr ⟨hprivate, (hlocal (by omega)).mpr hrange⟩)

/-- The guard classifies an address as it is exactly if it is IPv4, or its spelling is one
that the guard reads. -/
theorem egress_guard_iff {text : String} (h : isIP text ≠ 0) (blockPrivate : Bool) :
    ∃ address zone, readAddress text = some (address, zone) ∧
      ((isBlockedEgressIp text blockPrivate = true ↔ BlockedAddress blockPrivate address) ↔
        ∀ gs zone', readV6 text.toList = some (gs, zone') → SpellingFits text blockPrivate gs) := by
  obtain ⟨⟨address, zone⟩, haddress⟩ :=
    Option.isSome_iff_exists.mp ((Net.isIP_ne_zero_iff text).mp h)
  refine ⟨address, zone, haddress, ?_⟩
  cases hread : readV4 text.toList with
  | some n =>
    obtain ⟨hn, htext⟩ := (Net.readV4_iff _ n).mp hread
    have hcompared : comparedText text = ipv4Text n := by
      apply String.toList_injective
      rw [comparedText_toList haddress, ← htext]
      have hdigits : readV4 (lower text.toList) = some n := (Net.readV4_lower _).trans hread
      rw [((Net.readV4_iff _ n).mp hdigits).2, htext]
    have hfam : isIP (comparedText text) = 4 := by
      rw [hcompared, Net.isIP_eq_four_iff, Net.readV4_ipv4Text hn]
      rfl
    have hblocked : isBlockedEgressIp text blockPrivate = isBlockedV4 (ipv4Text n) blockPrivate := by
      unfold isBlockedEgressIp
      dsimp only
      rw [if_pos hfam, hcompared]
    rw [readAddress, hread] at haddress
    obtain rfl := (Prod.mk.inj (Option.some.inj haddress)).1
    rw [hblocked]
    refine iff_of_true (isBlockedV4_ipv4Text hn blockPrivate) ?_
    -- a dotted text has no colon
    intro gs zone' hv6
    obtain ⟨-, first, rest, hcolon, -⟩ := Net.readV6_first hv6
    exact absurd (by rw [hcolon]; simp) (Net.not_mem_of_readV4 hread (by decide) (by decide) : ':' ∉ _)
  | none =>
    rw [readAddress, hread] at haddress
    obtain ⟨⟨gs, zone'⟩, hv6, heq⟩ := Option.map_eq_some_iff.mp haddress
    obtain rfl := (Prod.mk.inj heq).1
    rw [blocked_v6_iff hread hv6]
    constructor
    · intro hfits gs' zone' hv6'
      rw [hv6] at hv6'
      exact (Prod.mk.inj (Option.some.inj hv6')).1 ▸ hfits
    · intro hfits
      exact hfits gs zone' hv6

/-- A mapped metadata address in capitals and in hex is blocked. -/
theorem hex_metadata_blocked :
    ∃ address zone, readAddress "::FFFF:A9FE:A9FE" = some (address, zone) ∧
      ((isBlockedEgressIp "::FFFF:A9FE:A9FE" false = true ↔ BlockedAddress false address) ↔
        ∀ gs zone', readV6 "::FFFF:A9FE:A9FE".toList = some (gs, zone') →
          SpellingFits "::FFFF:A9FE:A9FE" false gs) :=
  egress_guard_iff (by decide +kernel) false

/-- The link-local `fe90::1` and a metadata address without `::` are let through, and with
`blockPrivate` the address `fd::1`, which is not in `fc00::/7`, is blocked. -/
theorem spellings_misjudged :
    (readAddress "fe90::1" = some (.v6 (0xFE90 * 2 ^ 112 + 1), []) ∧
      BlockedAddress false (.v6 (0xFE90 * 2 ^ 112 + 1)) ∧
      isBlockedEgressIp "fe90::1" false = false) ∧
    (readAddress "0:0:0:0:0:ffff:169.254.169.254" = some (.v4 0xA9FEA9FE, []) ∧
      BlockedAddress false (.v4 0xA9FEA9FE) ∧
      isBlockedEgressIp "0:0:0:0:0:ffff:169.254.169.254" false = false) ∧
    (readAddress "fd::1" = some (.v6 (0xFD * 2 ^ 112 + 1), []) ∧
      ¬BlockedAddress true (.v6 (0xFD * 2 ^ 112 + 1)) ∧ isBlockedEgressIp "fd::1" true = true) := by
  refine ⟨⟨by decide +kernel, Or.inl ?_, by decide +kernel⟩,
    ⟨by decide +kernel, Or.inl ?_, by decide +kernel⟩, by decide +kernel, ?_, by decide +kernel⟩
  · unfold InRange
    norm_num
  · unfold InRange
    norm_num
  · unfold BlockedAddress InRange
    norm_num

end Kovael.Chair
