import Kovael.Js.Replace
import Kovael.Supervisor.HubPaths
import Mathlib.Data.List.DropRight

/-!
# `redactSensitiveText`

A text is redacted in three passes: the values of the secrets are taken out, six regular
expressions replace what looks like a secret, and the text is cut at its length. A label is in
brackets, which no secret has, so what is taken out does not come back where a rule cuts. One
rule does more: what it matches begins with `bearer` in any spelling, and it writes `Bearer`. So
a secret that ends so can be made of a text in which it did not stand. Here are the rules, and
what holds of what they match; which secrets they bring back is said further on.

Mirroring notes vs the TS:
- The text is the message of the error, or the string of the value.
- The quantifiers are greedy. In the first three expressions what follows a class begins with a
  unit that is not in it, so nothing is ever given back; in the other three units are given
  back until a boundary is behind them.
- With the flag `i` only ASCII letters are alike, as the expressions have no flag `u`.
-/

namespace Kovael.Supervisor

open Js (Utf16)
open Js.Utf16 (ascii)
open Js.Replace

/-! ## Units -/

/-- A unit of `\w`. -/
def isWordUnit (c : UInt16) : Bool :=
  (97 ≤ c && c ≤ 122) || (65 ≤ c && c ≤ 90) || (48 ≤ c && c ≤ 57) || c = 95

/-- A unit of `\s`. -/
def isSpaceUnit (c : UInt16) : Bool :=
  (9 ≤ c && c ≤ 13) || c = 32 || c = 0xA0 || c = 0x1680 || (0x2000 ≤ c && c ≤ 0x200A) ||
    c = 0x2028 || c = 0x2029 || c = 0x202F || c = 0x205F || c = 0x3000 || c = 0xFEFF

/-- A unit of ``[^\s"'`]``. -/
def isBareUnit (c : UInt16) : Bool := !isSpaceUnit c && c ≠ 34 && c ≠ 39 && c ≠ 96

/-- A unit of `[-A-Za-z0-9._~+/]`. -/
def isBearerUnit (c : UInt16) : Bool := isSafeUnit c || c = 126 || c = 43 || c = 47

/-- A unit of `[A-Za-z0-9_-]`. -/
def isKeyUnit (c : UInt16) : Bool := isWordUnit c || c = 45

/-- A unit of `[A-Fa-f0-9]`. -/
def isHexUnit (c : UInt16) : Bool :=
  (97 ≤ c && c ≤ 102) || (65 ≤ c && c ≤ 70) || (48 ≤ c && c ≤ 57)

/-- A unit of `[A-Za-z0-9+/_-]`. -/
def isTokenUnit (c : UInt16) : Bool := isWordUnit c || c = 43 || c = 47 || c = 45

/-- A letter in lower case. -/
def lowerUnit (c : UInt16) : UInt16 := if 65 ≤ c && c ≤ 90 then c + 32 else c

/-- `\b` between a unit and the next. -/
def isBoundary (prev next : Option UInt16) : Bool := prev.any isWordUnit != next.any isWordUnit

/-! ## Expressions without backtracking -/

/-- A part of an expression. -/
inductive Piece where
  /-- A text in any case, given in lower case. -/
  | text (lower : Utf16)
  /-- As many units as there are, and at least so many. -/
  | run (least : Nat) (ok : UInt16 → Bool)

/-- How many units of a text the part matches. -/
def Piece.length? : Piece → Utf16 → Option Nat
  | text lower, cs => if lower.isPrefixOf (cs.map lowerUnit) then some lower.length else none
  | run least ok, cs =>
    let n := (cs.takeWhile ok).length
    if least ≤ n then some n else none

/-- How many units the parts match, one after the other. -/
def piecesLength? : List Piece → Utf16 → Option Nat
  | [], _ => some 0
  | piece :: pieces, cs =>
    -- the next piece begins with another unit, so a run gives nothing back
    (piece.length? cs).bind fun n => (piecesLength? pieces (cs.drop n)).map (n + ·)

def redacted : Utf16 := ascii "[REDACTED]"

/-- ``/\b(group)[^\s"'`]+/gi`` by `$1[REDACTED]`. -/
def labelled (group : List Piece) : Rule UInt16 := fun prev text =>
  if isBoundary prev text.head? then
    (piecesLength? group text).bind fun n =>
      ((Piece.run 1 isBareUnit).length? (text.drop n)).map fun m =>
        ⟨n + m, text.take n ++ redacted⟩
  else none

/-- ``/\b(KOVAEL_[A-Z0-9_]*\s*=\s*)[^\s"'`]+/gi``. -/
def assignmentRule : Rule UInt16 :=
  labelled [.text (ascii "kovael_"), .run 0 isWordUnit, .run 0 isSpaceUnit, .text (ascii "="),
    .run 0 isSpaceUnit]

/-- ``/\b(authorization:\s*bearer\s+)[^\s"'`]+/gi``. -/
def authorizationRule : Rule UInt16 :=
  labelled [.text (ascii "authorization:"), .run 0 isSpaceUnit, .text (ascii "bearer"),
    .run 1 isSpaceUnit]

/-- `/\bshape/g` by a label. -/
def atBoundary (shape : Utf16 → Option Nat) (label : Utf16) : Rule UInt16 := fun prev text =>
  if isBoundary prev text.head? then (shape text).map fun n => ⟨n, label⟩ else none

/-- `bearer\s+[-A-Za-z0-9._~+/]+=*`. -/
def bearerLength : Utf16 → Option Nat :=
  piecesLength? [.text (ascii "bearer"), .run 1 isSpaceUnit, .run 1 isBearerUnit, .run 0 (· = 61)]

/-- `/\bbearer\s+[-A-Za-z0-9._~+/]+=*/gi` by `Bearer [REDACTED]`. -/
def bearerRule : Rule UInt16 := atBoundary bearerLength (ascii "Bearer [REDACTED]")

/-! ## Expressions that end at a boundary -/

/-- The first of the results for so many, one less, and so on down to `least`. -/
def longest (f : Nat → Option Nat) (least : Nat) : Nat → Option Nat
  | 0 => if least = 0 then f 0 else none
  | n + 1 =>
    -- a greedy run gives back one unit after the other
    if n + 1 < least then none else (f (n + 1)).or (longest f least n)

/-- So many units of the text, if a boundary is behind them. -/
def boundaryAt (text : Utf16) (n : Nat) : Option Nat :=
  if isBoundary (behind none (text.take n)) (text.drop n).head? then some n else none

/-- `[ok]{least,}\b`. -/
def runToBoundary (least : Nat) (ok : UInt16 → Bool) (text : Utf16) : Option Nat :=
  longest (boundaryAt text) least (text.takeWhile ok).length

/-- `lead[A-Za-z0-9_-]{24,}\b`. -/
def keyAfter (lead text : Utf16) : Option Nat :=
  if lead.isPrefixOf text then
    (runToBoundary 24 isKeyUnit (text.drop lead.length)).map (lead.length + ·)
  else none

/-- `sk-(?:proj-)?[A-Za-z0-9_-]{24,}\b`. -/
def keyLength (text : Utf16) : Option Nat :=
  -- `proj-` is tried first, and is then part of the run
  (keyAfter (ascii "sk-proj-") text).or (keyAfter (ascii "sk-") text)

/-- `[A-Fa-f0-9]{48,}\b`. -/
def hexLength : Utf16 → Option Nat := runToBoundary 48 isHexUnit

/-- `={0,2}\b` behind so many units. -/
def paddingToBoundary (text : Utf16) (n : Nat) : Option Nat :=
  longest (fun m => boundaryAt text (n + m)) 0 (min 2 ((text.drop n).takeWhile (· = 61)).length)

/-- `[A-Za-z0-9+/_-]{64,}={0,2}\b`. -/
def tokenLength (text : Utf16) : Option Nat :=
  longest (paddingToBoundary text) 64 (text.takeWhile isTokenUnit).length

def keyRule : Rule UInt16 := atBoundary keyLength (ascii "sk-[REDACTED]")

def hexRule : Rule UInt16 := atBoundary hexLength (ascii "[REDACTED_HEX]")

def tokenRule : Rule UInt16 := atBoundary tokenLength (ascii "[REDACTED_TOKEN]")

/-! ## The redaction -/

/-- `env`: the variables that are set. -/
abbrev ProcessEnv := String → Option Utf16

def secretValueEnvNames : List String :=
  ["KOVAEL_CHAIR_DISPATCH_SECRET", "KOVAEL_AGENT_HUB_SECRET", "KOVAEL_API_TOKEN", "KOVAEL_TOKEN"]

/-- `text.split(v).join('[REDACTED]')`, if the value is set and is not short. -/
def removeValue (env : ProcessEnv) (text : Utf16) (name : String) : Utf16 :=
  match env name with
  | some v => if 8 ≤ v.length then replaceAll (literal v redacted) text else text
  | none => text

/-- The text without the values of the secrets. -/
def removeValues (env : ProcessEnv) (text : Utf16) : Utf16 :=
  secretValueEnvNames.foldl (removeValue env) text

/-- `redactSensitiveText(text, env)`. -/
def redactSensitiveText (text : Utf16) (env : ProcessEnv) : Utf16 :=
  let text := removeValues env text
  let text := replaceAll assignmentRule text
  let text := replaceAll authorizationRule text
  let text := replaceAll bearerRule text
  let text := replaceAll keyRule text
  let text := replaceAll hexRule text
  let text := replaceAll tokenRule text
  text.take 1000

/-! ## What the units are -/

theorem isWordUnit_lowerUnit (c : UInt16) : isWordUnit (lowerUnit c) = isWordUnit c := by
  rw [lowerUnit]
  split
  next h =>
    rw [Bool.and_eq_true, decide_eq_true_eq, decide_eq_true_eq, UInt16.le_iff_toNat_le,
      UInt16.le_iff_toNat_le] at h
    have hlower : (97 ≤ c + 32 && c + 32 ≤ 122) = true := by
      rw [Bool.and_eq_true, decide_eq_true_eq, decide_eq_true_eq, UInt16.le_iff_toNat_le,
        UInt16.le_iff_toNat_le, UInt16.toNat_add]
      have h65 : UInt16.toNat 65 = 65 := rfl
      have h90 : UInt16.toNat 90 = 90 := rfl
      have h97 : UInt16.toNat 97 = 97 := rfl
      have h122 : UInt16.toNat 122 = 122 := rfl
      have h32 : UInt16.toNat 32 = 32 := rfl
      omega
    have hupper : (65 ≤ c && c ≤ 90) = true := by
      rw [Bool.and_eq_true, decide_eq_true_eq, decide_eq_true_eq, UInt16.le_iff_toNat_le,
        UInt16.le_iff_toNat_le]
      exact h
    -- both are letters, one in lower and one in upper case
    rw [isWordUnit, isWordUnit, hlower, hupper, Bool.true_or, Bool.or_true]
    rfl
  next => rfl

/-- A unit that is no letter is alike to none but itself. -/
theorem eq_of_lowerUnit_eq {c x : UInt16} (hx : isWordUnit x = false) (h : lowerUnit c = x) :
    c = x := by
  have hc : isWordUnit c = false := by rw [← isWordUnit_lowerUnit, h, hx]
  rw [lowerUnit] at h
  split at h
  next hupper =>
    rw [isWordUnit, hupper, Bool.or_true] at hc
    cases hc
  next => exact h

/-! ## What is matched -/

theorem length?_text {lower cs : Utf16} {n : Nat} (h : (Piece.text lower).length? cs = some n) :
    ∃ word rest, cs = word ++ rest ∧ word.map lowerUnit = lower ∧ n = word.length := by
  rw [Piece.length?] at h
  split at h
  next hprefix =>
    obtain ⟨rest, hrest⟩ := List.isPrefixOf_iff_prefix.mp hprefix
    obtain ⟨word, more, hcs, hword, -⟩ := List.map_eq_append_iff.mp hrest.symm
    refine ⟨word, more, hcs, hword, ?_⟩
    rw [← Option.some.inj h, ← hword, List.length_map]
  next => cases h

theorem length?_run {least n : Nat} {ok : UInt16 → Bool} {cs : Utf16}
    (h : (Piece.run least ok).length? cs = some n) :
    least ≤ n ∧ ∃ units rest, cs = units ++ rest ∧ (∀ c ∈ units, ok c = true) ∧
      n = units.length := by
  rw [Piece.length?] at h
  split at h
  next hleast =>
    obtain rfl := Option.some.inj h
    exact ⟨hleast, cs.takeWhile ok, cs.dropWhile ok, List.takeWhile_append_dropWhile.symm,
      fun c hc => List.mem_takeWhile_imp hc, rfl⟩
  next => cases h

theorem piecesLength?_cons {piece : Piece} {pieces : List Piece} {cs : Utf16} {n : Nat}
    (h : piecesLength? (piece :: pieces) cs = some n) :
    ∃ m k, piece.length? cs = some m ∧ piecesLength? pieces (cs.drop m) = some k ∧ n = m + k := by
  rw [piecesLength?] at h
  obtain ⟨m, hm, hrest⟩ := Option.bind_eq_some_iff.mp h
  obtain ⟨k, hk, rfl⟩ := Option.map_eq_some_iff.mp hrest
  exact ⟨m, k, hm, hk, rfl⟩

/-- Every unit of the texts of an expression is in what it matches, in some case. -/
theorem exists_of_piecesLength? {pieces : List Piece} {cs lower : Utf16} {n : Nat} {x : UInt16}
    (h : piecesLength? pieces cs = some n) (hlower : Piece.text lower ∈ pieces) (hx : x ∈ lower) :
    ∃ c ∈ cs, lowerUnit c = x := by
  induction pieces generalizing cs n with
  | nil => cases hlower
  | cons piece pieces ih =>
    obtain ⟨m, k, hpiece, hpieces, rfl⟩ := piecesLength?_cons h
    rcases List.mem_cons.mp hlower with rfl | hlower
    · obtain ⟨word, rest, rfl, rfl, -⟩ := length?_text hpiece
      obtain ⟨c, hc, rfl⟩ := List.mem_map.mp hx
      exact ⟨c, List.mem_append_left rest hc, rfl⟩
    · obtain ⟨c, hc, rfl⟩ := ih hpieces hlower
      exact ⟨c, List.mem_of_mem_drop hc, rfl⟩

theorem longest_some {f : Nat → Option Nat} {least n m : Nat} (h : longest f least n = some m) :
    ∃ k, least ≤ k ∧ k ≤ n ∧ f k = some m := by
  induction n with
  | zero =>
    rw [longest] at h
    split at h
    next hleast => exact ⟨0, Nat.le_of_eq hleast, Nat.le_refl 0, h⟩
    next => cases h
  | succ n ih =>
    rw [longest] at h
    split at h
    next => cases h
    next hleast =>
      rcases Option.or_eq_some_iff.mp h with hfirst | ⟨-, hrest⟩
      · exact ⟨n + 1, Nat.not_lt.mp hleast, Nat.le_refl _, hfirst⟩
      · obtain ⟨k, hk, hkn, hf⟩ := ih hrest
        exact ⟨k, hk, Nat.le_succ_of_le hkn, hf⟩

theorem longest_congr {f g : Nat → Option Nat} {n : Nat} (least : Nat)
    (h : ∀ k ≤ n, f k = g k) : longest f least n = longest g least n := by
  induction n with
  | zero => rw [longest, longest, h 0 (Nat.le_refl 0)]
  | succ n ih =>
    rw [longest, longest, h (n + 1) (Nat.le_refl _), ih fun k hk => h k (Nat.le_succ_of_le hk)]

/-- A boundary is behind so many units. -/
def EndsAt (text : Utf16) (n : Nat) : Prop :=
  isBoundary (behind none (text.take n)) (text.drop n).head? = true

theorem boundaryAt_some {text : Utf16} {n m : Nat} (h : boundaryAt text n = some m) :
    m = n ∧ EndsAt text m := by
  rw [boundaryAt] at h
  split at h
  next hends =>
    obtain rfl := Option.some.inj h
    exact ⟨rfl, hends⟩
  next => cases h

theorem runToBoundary_some {least n : Nat} {ok : UInt16 → Bool} {text : Utf16}
    (h : runToBoundary least ok text = some n) : least ≤ n ∧ EndsAt text n := by
  obtain ⟨k, hk, -, hboundary⟩ := longest_some h
  obtain ⟨rfl, hends⟩ := boundaryAt_some hboundary
  exact ⟨hk, hends⟩

/-! ## What follows a space does not matter -/

section

variable {ok : UInt16 → Bool} {y : Utf16}

theorem takeWhile_before_space (hok : ok 32 = false) (y z : Utf16) :
    (y ++ 32 :: z).takeWhile ok = y.takeWhile ok := by
  rw [List.takeWhile_append]
  split
  next hall =>
    rw [List.takeWhile_cons_of_neg (by rw [hok]; exact Bool.false_ne_true), List.append_nil]
    exact (List.Sublist.eq_of_length (List.takeWhile_sublist ok) hall).symm
  next => rfl

theorem boundaryAt_before_space {n : Nat} (hn : n ≤ y.length) (z z' : Utf16) :
    boundaryAt (y ++ 32 :: z) n = boundaryAt (y ++ 32 :: z') n := by
  rw [boundaryAt, boundaryAt, List.take_append_of_le_length hn, List.take_append_of_le_length hn,
    List.drop_append_of_le_length hn, List.drop_append_of_le_length hn, List.head?_append,
    List.head?_append]
  rfl

theorem runToBoundary_before_space (hok : ok 32 = false) (least : Nat) (y z z' : Utf16) :
    runToBoundary least ok (y ++ 32 :: z) = runToBoundary least ok (y ++ 32 :: z') := by
  rw [runToBoundary, runToBoundary, takeWhile_before_space hok, takeWhile_before_space hok]
  refine longest_congr least fun k hk => ?_
  exact boundaryAt_before_space (Nat.le_trans hk (List.takeWhile_sublist ok).length_le) z z'

theorem isPrefixOf_before_space {lead : Utf16} (hlead : 32 ∉ lead) (y z : Utf16) :
    lead.isPrefixOf (y ++ 32 :: z) = lead.isPrefixOf y := by
  rw [Bool.eq_iff_iff, List.isPrefixOf_iff_prefix, List.isPrefixOf_iff_prefix]
  exact ⟨prefix_append_cons hlead, fun h => h.trans (List.prefix_append y _)⟩

end

/-! ## The shapes -/

/-- An expression that ends at a boundary, before the next space. -/
structure IsShape (shape : Utf16 → Option Nat) : Prop where
  positive : ∀ {text n}, shape text = some n → 0 < n
  ends : ∀ {text n}, shape text = some n → EndsAt text n
  before_space : ∀ y z z', shape (y ++ 32 :: z) = shape (y ++ 32 :: z')
  space : shape [32] = none

theorem isShape_hexLength : IsShape hexLength where
  positive h := Nat.lt_of_lt_of_le (by decide) (runToBoundary_some h).1
  ends h := (runToBoundary_some h).2
  before_space := runToBoundary_before_space rfl 48
  space := rfl

theorem keyAfter_some {lead text : Utf16} {n : Nat} (h : keyAfter lead text = some n) :
    lead <+: text ∧ 0 < n ∧ EndsAt text n := by
  rw [keyAfter] at h
  split at h
  next hlead =>
    obtain ⟨m, hm, rfl⟩ := Option.map_eq_some_iff.mp h
    obtain ⟨hleast, hends⟩ := runToBoundary_some hm
    refine ⟨List.isPrefixOf_iff_prefix.mp hlead, by omega, ?_⟩
    -- the boundary is behind the run, so what is before the run does not matter
    have htake : (text.drop lead.length).take m ≠ [] := by
      intro hnil
      rcases List.take_eq_nil_iff.mp hnil with hzero | hnil
      · omega
      · rw [hnil, EndsAt, List.take_nil, List.drop_nil] at hends
        cases hends
    rw [EndsAt, List.take_add, behind_append, behind_of_ne_nil _ none htake, ← List.drop_drop]
    exact hends
  next => cases h

theorem keyAfter_before_space {lead : Utf16} (hlead : 32 ∉ lead) (y z z' : Utf16) :
    keyAfter lead (y ++ 32 :: z) = keyAfter lead (y ++ 32 :: z') := by
  rw [keyAfter, keyAfter, isPrefixOf_before_space hlead, isPrefixOf_before_space hlead]
  split
  next hprefix =>
    have hle := (List.isPrefixOf_iff_prefix.mp hprefix).length_le
    rw [List.drop_append_of_le_length hle, List.drop_append_of_le_length hle,
      runToBoundary_before_space rfl]
  next => rfl

theorem keyLength_cases {text : Utf16} {n : Nat} (h : keyLength text = some n) :
    ∃ lead, ascii "sk-" <+: lead ∧ keyAfter lead text = some n := by
  rcases Option.or_eq_some_iff.mp h with hproj | ⟨-, hkey⟩
  · exact ⟨ascii "sk-proj-", by decide, hproj⟩
  · exact ⟨ascii "sk-", List.prefix_rfl, hkey⟩

theorem isShape_keyLength : IsShape keyLength where
  positive h := by
    obtain ⟨lead, -, hkey⟩ := keyLength_cases h
    exact (keyAfter_some hkey).2.1
  ends h := by
    obtain ⟨lead, -, hkey⟩ := keyLength_cases h
    exact (keyAfter_some hkey).2.2
  before_space y z z' := by
    rw [keyLength, keyLength, keyAfter_before_space (by decide) y z z',
      keyAfter_before_space (by decide) y z z']
  space := rfl

theorem tokenLength_some {text : Utf16} {n : Nat} (h : tokenLength text = some n) :
    0 < n ∧ EndsAt text n := by
  obtain ⟨k, hk, -, hpadding⟩ := longest_some h
  obtain ⟨m, -, -, hboundary⟩ := longest_some hpadding
  obtain ⟨rfl, hends⟩ := boundaryAt_some hboundary
  exact ⟨by omega, hends⟩

theorem paddingToBoundary_before_space {y : Utf16} {n : Nat} (hn : n ≤ y.length) (z z' : Utf16) :
    paddingToBoundary (y ++ 32 :: z) n = paddingToBoundary (y ++ 32 :: z') n := by
  rw [paddingToBoundary, paddingToBoundary, List.drop_append_of_le_length hn,
    List.drop_append_of_le_length hn, takeWhile_before_space rfl, takeWhile_before_space rfl]
  -- the padding ends before the space too
  refine longest_congr 0 fun k hk => boundaryAt_before_space ?_ z z'
  have hle := (List.takeWhile_sublist (l := y.drop n) fun c => decide (c = 61)).length_le
  rw [List.length_drop] at hle
  omega

theorem isShape_tokenLength : IsShape tokenLength where
  positive h := (tokenLength_some h).1
  ends h := (tokenLength_some h).2
  before_space y z z' := by
    rw [tokenLength, tokenLength, takeWhile_before_space rfl, takeWhile_before_space rfl]
    refine longest_congr 64 fun k hk => ?_
    exact paddingToBoundary_before_space
      (Nat.le_trans hk (List.takeWhile_sublist isTokenUnit).length_le) z z'
  space := rfl

/-! ## The rules -/

theorem atBoundary_some {shape : Utf16 → Option Nat} {label text : Utf16} {prev : Option UInt16}
    {hit : Hit UInt16} (h : atBoundary shape label prev text = some hit) :
    isBoundary prev text.head? = true ∧ shape text = some hit.length ∧ hit.text = label := by
  rw [atBoundary] at h
  split at h
  next hboundary =>
    obtain ⟨n, hn, rfl⟩ := Option.map_eq_some_iff.mp h
    exact ⟨hboundary, hn, rfl⟩
  next => cases h

/-- A unit that continues a word, or is in none. -/
theorem atBoundary_none (shape : Utf16 → Option Nat) (label : Utf16) {prev : Option UInt16}
    {c : UInt16} (cs : Utf16) (h : prev.any isWordUnit = isWordUnit c) :
    atBoundary shape label prev (c :: cs) = none := by
  refine if_neg ?_
  rw [isBoundary, List.head?_cons, Option.any_some, h, bne_self_eq_false]
  exact Bool.false_ne_true

theorem labelled_some {group : List Piece} {prev : Option UInt16} {text : Utf16}
    {hit : Hit UInt16} (h : labelled group prev text = some hit) :
    ∃ n, piecesLength? group text = some n ∧ n < hit.length ∧
      hit.text = text.take n ++ redacted := by
  rw [labelled] at h
  split at h
  next =>
    obtain ⟨n, hn, hrest⟩ := Option.bind_eq_some_iff.mp h
    obtain ⟨m, hm, rfl⟩ := Option.map_eq_some_iff.mp hrest
    have hpositive := (length?_run hm).1
    exact ⟨n, hn, Nat.lt_add_of_pos_right hpositive, rfl⟩
  next => cases h

theorem positive_labelled (group : List Piece) : Positive (labelled group) := by
  intro prev text hit h
  obtain ⟨n, -, hlength, -⟩ := labelled_some h
  exact Nat.zero_lt_of_lt hlength

theorem cuts_labelled (group : List Piece) :
    Cuts 91 93 32 (fun _ => True) (labelled group) := by
  intro prev text hit h
  obtain ⟨n, -, -, htext⟩ := labelled_some h
  exact ⟨text.take n, ascii "REDACTED", List.take_prefix n text, fun _ _ => trivial, htext,
    by decide⟩

theorem positive_atBoundary {shape : Utf16 → Option Nat} (hshape : IsShape shape) (label : Utf16) :
    Positive (atBoundary shape label) := by
  intro prev text hit h
  exact hshape.positive (atBoundary_some h).2.1

/-- A label that ends in brackets, behind what every match begins with. -/
theorem cuts_atBoundary {shape : Utf16 → Option Nat} {kept name : Utf16}
    (hkept : ∀ {text n}, shape text = some n → kept <+: text) (hname : name.length < 32) :
    Cuts 91 93 32 (· ∈ kept) (atBoundary shape (kept ++ marked 91 93 name)) := by
  intro prev text hit h
  obtain ⟨-, hlength, htext⟩ := atBoundary_some h
  exact ⟨kept, name, hkept hlength, fun _ hc => hc, htext, hname⟩

theorem cuts_keyRule : Cuts 91 93 32 (· ∈ ascii "sk-") keyRule :=
  @cuts_atBoundary keyLength (ascii "sk-") (ascii "REDACTED") (fun h => by
    obtain ⟨lead, hlead, hkey⟩ := keyLength_cases h
    exact hlead.trans (keyAfter_some hkey).1) (by decide)

theorem cuts_hexRule : Cuts 91 93 32 (· ∈ ([] : Utf16)) hexRule :=
  @cuts_atBoundary hexLength [] (ascii "REDACTED_HEX") (fun _ => List.nil_prefix) (by decide)

theorem cuts_tokenRule : Cuts 91 93 32 (· ∈ ([] : Utf16)) tokenRule :=
  @cuts_atBoundary tokenLength [] (ascii "REDACTED_TOKEN") (fun _ => List.nil_prefix) (by decide)

end Kovael.Supervisor
