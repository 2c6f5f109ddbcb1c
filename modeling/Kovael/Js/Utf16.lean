import Mathlib.Algebra.Ring.Nat

/-!
# Strings of UTF-16 units

A JavaScript string is a list of 16-bit units, in which a surrogate may stand alone: cutting a
string by its length can split a pair. Here are the two functions that look at the pairs, the
quoting of `JSON.stringify` and the byte length of `Buffer.byteLength`, and how the length of
a text follows from the lengths of its parts (`byteLength_append_of_text`,
`byteLength_append_of_rest`).
-/

namespace Js

/-- A string, unit by unit. -/
abbrev Utf16 := List UInt16

namespace Utf16

/-- A text of ASCII characters. -/
def ascii (text : String) : Utf16 := text.toList.map fun c => UInt16.ofNat c.toNat

def isHigh (c : UInt16) : Bool := 0xD800 ≤ c && c < 0xDC00

def isLow (c : UInt16) : Bool := 0xDC00 ≤ c && c < 0xE000

/-! ## `Buffer.byteLength` -/

/-- The bytes of a unit that is in no pair; an unpaired surrogate becomes U+FFFD. -/
def unitBytes (c : UInt16) : Nat := if c < 0x80 then 1 else if c < 0x800 then 2 else 3

/-- `Buffer.byteLength(text, 'utf8')`. -/
def byteLength : Utf16 → Nat
  | [] => 0
  | [c] => unitBytes c
  | c :: d :: rest =>
    if isHigh c && isLow d then 4 + byteLength rest else unitBytes c + byteLength (d :: rest)

/-! ## `JSON.stringify` of a string -/

/-- The digits of `\u` escapes. -/
def hexDigit (n : Nat) : UInt16 := (ascii "0123456789abcdef").getD n 0

/-- `\u` and the unit in hexadecimal. -/
def unicodeEscape (c : UInt16) : Utf16 :=
  ascii "\\u" ++
    [hexDigit (c.toNat / 4096), hexDigit (c.toNat / 256 % 16), hexDigit (c.toNat / 16 % 16),
      hexDigit (c.toNat % 16)]

/-- A unit that is in no pair, in a JSON string. -/
def escapeUnit (c : UInt16) : Utf16 :=
  if c = 8 then ascii "\\b"
  else if c = 9 then ascii "\\t"
  else if c = 10 then ascii "\\n"
  else if c = 12 then ascii "\\f"
  else if c = 13 then ascii "\\r"
  else if c = 34 then ascii "\\\""
  else if c = 92 then ascii "\\\\"
  else if c < 0x20 || isHigh c || isLow c then unicodeEscape c
  else [c]

def escapeUnits : Utf16 → Utf16
  | [] => []
  | [c] => escapeUnit c
  | c :: d :: rest =>
    if isHigh c && isLow d then c :: d :: escapeUnits rest
    else escapeUnit c ++ escapeUnits (d :: rest)

/-- `JSON.stringify(text)`. -/
def quote (text : Utf16) : Utf16 := 34 :: escapeUnits text ++ [34]

/-! ## The length of a text and of its parts -/

theorem byteLength_cons {c : UInt16} (h : isHigh c = false) (rest : Utf16) :
    byteLength (c :: rest) = unitBytes c + byteLength rest := by
  cases rest with
  | nil => rfl
  | cons d rest => rw [byteLength, h, Bool.false_and, if_neg Bool.false_ne_true]

theorem not_isHigh_of_all {text : Utf16} (h : (text.all fun c => !isHigh c) = true) :
    ∀ c ∈ text, isHigh c = false := by
  intro c hc
  have hnot := List.all_eq_true.mp h c hc
  rwa [Bool.not_eq_true'] at hnot

/-- No pair goes across the parts when the first has no high surrogate. -/
theorem byteLength_append_of_text {text : Utf16} (h : ∀ c ∈ text, isHigh c = false)
    (rest : Utf16) : byteLength (text ++ rest) = byteLength text + byteLength rest := by
  induction text with
  | nil => rw [List.nil_append, byteLength, Nat.zero_add]
  | cons c text ih =>
    have hc := h c (List.mem_cons_self ..)
    rw [List.cons_append, byteLength_cons hc, byteLength_cons hc,
      ih fun d hd => h d (List.mem_cons_of_mem _ hd), Nat.add_assoc]

/-- No pair goes across the parts when the second does not begin with a low surrogate. -/
theorem byteLength_append_of_rest (text : Utf16) {rest : Utf16}
    (h : ∀ c ∈ rest.head?, isLow c = false) :
    byteLength (text ++ rest) = byteLength text + byteLength rest := by
  induction text using byteLength.induct with
  | case1 => rw [List.nil_append, byteLength, Nat.zero_add]
  | case2 b =>
    cases rest with
    | nil => rfl
    | cons c rest =>
      show (if isHigh b && isLow c then 4 + byteLength rest
        else unitBytes b + byteLength (c :: rest)) = unitBytes b + byteLength (c :: rest)
      rw [h c rfl, Bool.and_false, if_neg Bool.false_ne_true]
  | case3 b d more hpair ih =>
    rw [List.cons_append, List.cons_append, byteLength, if_pos hpair, ih, byteLength,
      if_pos hpair, Nat.add_assoc]
  | case4 b d more hpair ih =>
    rw [List.cons_append] at ih
    rw [List.cons_append, List.cons_append, byteLength, if_neg hpair, ih, byteLength,
      if_neg hpair, Nat.add_assoc]

end Utf16

end Js
