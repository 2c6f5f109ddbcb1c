import Mathlib.Algebra.Ring.Nat

/-!
# JavaScript string methods

`trim`, `split(' ')`, `length` and `Buffer.from(s, 'hex')`, over Lean strings. A
JavaScript string is a list of UTF-16 units, a Lean string a list of code
points; only `length` and `slice` count units, and no other operation below can
cut a surrogate pair.
-/

namespace Js

/-- The white space and line terminators that `trim` removes. -/
def isWhitespace (c : Char) : Bool :=
  (0x09 ≤ c.toNat && c.toNat ≤ 0x0D) || c.toNat = 0x20 || c.toNat = 0xA0 ||
    c.toNat = 0x1680 || (0x2000 ≤ c.toNat && c.toNat ≤ 0x200A) || c.toNat = 0x2028 ||
    c.toNat = 0x2029 || c.toNat = 0x202F || c.toNat = 0x205F || c.toNat = 0x3000 ||
    c.toNat = 0xFEFF

/-- `s.trim()`. -/
def trim (s : String) : String :=
  String.ofList (((s.toList.dropWhile isWhitespace).reverse.dropWhile isWhitespace).reverse)

/-- `s.length`: code points beyond the first plane take two units. -/
def length (s : String) : Nat :=
  (s.toList.map fun c => if c.toNat < 0x10000 then 1 else 2).sum

/-- `s.split(' ')`. -/
def splitSpaces (s : String) : List String :=
  (s.toList.splitOn ' ').map String.ofList

/-- What follows `lead`, where `s` starts with it. -/
def after? (lead s : String) : Option String :=
  if lead.toList.isPrefixOf s.toList then some (String.ofList (s.toList.drop lead.toList.length))
  else none

/-- `part` stands somewhere in the characters. -/
def occursIn (part : List Char) : List Char → Bool
  | [] => part.isEmpty
  | c :: cs => part.isPrefixOf (c :: cs) || occursIn part cs

/-- `s.includes(part)`. -/
def includes (part s : String) : Bool := occursIn part.toList s.toList

/-- `s.split(',')`, each part trimmed, the empty ones left out. -/
def commaItems (s : String) : List String :=
  ((s.toList.splitOn ',').map fun part => trim (String.ofList part)).filter fun part => part ≠ ""

/-- The first `n` units; half of a pair that is cut reads as U+FFFD. -/
def takeUnits : Nat → List Char → List Char
  | 0, _ => []
  | _, [] => []
  | n + 1, c :: cs =>
    if c.toNat < 0x10000 then c :: takeUnits n cs
    else
      match n with
      | 0 => [Char.ofNat 0xFFFD]
      | n + 1 => c :: takeUnits n cs

/-- `s.slice(0, n)`. -/
def sliceStart (n : Nat) (s : String) : String := String.ofList (takeUnits n s.toList)

/-- `Number.parseInt(s, 10)`; `none` is `NaN`. -/
def parseInt (s : String) : Option Int :=
  let digits (cs : List Char) : Option Nat :=
    let ds := cs.takeWhile Char.isDigit
    if ds = [] then none else some (Nat.ofDigitChars 10 ds 0)
  match s.toList.dropWhile isWhitespace with
  | '-' :: cs => (digits cs).map fun n => -(n : Int)
  | '+' :: cs => (digits cs).map fun n => (n : Int)
  | cs => (digits cs).map fun n => (n : Int)

/-- The value of a hex digit. -/
def hexVal (c : Char) : Option Nat :=
  if '0'.toNat ≤ c.toNat ∧ c.toNat ≤ '9'.toNat then some (c.toNat - '0'.toNat)
  else if 'a'.toNat ≤ c.toNat ∧ c.toNat ≤ 'f'.toNat then some (c.toNat - 'a'.toNat + 10)
  else if 'A'.toNat ≤ c.toNat ∧ c.toNat ≤ 'F'.toNat then some (c.toNat - 'A'.toNat + 10)
  else none

/-- Decode pairs of digits up to the first that is none; a lone last digit is
dropped. -/
def hexPairs : List Char → List Nat
  | a :: b :: cs =>
    match hexVal a, hexVal b with
    | some x, some y => (16 * x + y) :: hexPairs cs
    | _, _ => []
  | _ => []

/-- `Buffer.from(s, 'hex')`. -/
def hexBytes (s : String) : List Nat := hexPairs s.toList

/-- A letter or digit of ASCII. -/
theorem isAlphanum_range {c : Char} (h : c.isAlphanum = true) :
    (48 ≤ c.toNat ∧ c.toNat ≤ 57) ∨ (65 ≤ c.toNat ∧ c.toNat ≤ 90) ∨
      (97 ≤ c.toNat ∧ c.toNat ≤ 122) := by
  have hclass : (c.isUpper || c.isLower || c.isDigit) = true := h
  rw [Bool.or_eq_true, Bool.or_eq_true] at hclass
  rcases hclass with (hupper | hlower) | hdigit
  · obtain ⟨hge, hle⟩ := of_decide_eq_true hupper
    exact Or.inr (Or.inl ⟨UInt32.le_iff_toNat_le.mp hge, UInt32.le_iff_toNat_le.mp hle⟩)
  · obtain ⟨hge, hle⟩ := Bool.and_eq_true_iff.mp hlower
    exact Or.inr (Or.inr ⟨UInt32.le_iff_toNat_le.mp (of_decide_eq_true hge),
      UInt32.le_iff_toNat_le.mp (of_decide_eq_true hle)⟩)
  · exact Or.inl (Char.isDigit_iff_toNat.mp hdigit)

/-- A text that was trimmed has nothing to trim. -/
theorem trim_trim (s : String) : trim (trim s) = trim s := by
  have hhead : ∀ (cs ds : List Char), ds <+: cs.dropWhile isWhitespace →
      ds.dropWhile isWhitespace = ds := by
    intro cs ds hprefix
    cases ds with
    | nil => rfl
    | cons d ds =>
      obtain ⟨rest, hrest⟩ := hprefix
      have hd : isWhitespace d = false := by
        have hne : cs.dropWhile isWhitespace ≠ [] := by
          rw [← hrest]
          exact List.cons_ne_nil _ _
        have hnot := List.head_dropWhile_not isWhitespace hne
        simp only [← hrest, List.cons_append, List.head_cons] at hnot
        simpa using hnot
      rw [List.dropWhile_cons, hd]
      rfl
  have hstart : ∀ cs : List Char,
      (((cs.dropWhile isWhitespace).reverse.dropWhile isWhitespace).reverse).dropWhile
        isWhitespace = ((cs.dropWhile isWhitespace).reverse.dropWhile isWhitespace).reverse := by
    intro cs
    refine hhead cs _ ?_
    rw [← List.reverse_suffix, List.reverse_reverse]
    exact List.dropWhile_suffix _
  unfold trim
  rw [String.toList_ofList, hstart s.toList]
  rw [List.reverse_reverse, hhead (s.toList.dropWhile isWhitespace).reverse _ List.prefix_rfl]

theorem occursIn_iff (part : List Char) : ∀ cs : List Char, occursIn part cs = true ↔ part <:+: cs
  | [] => by rw [occursIn, List.isEmpty_iff, List.infix_nil]
  | c :: cs => by
    rw [occursIn, Bool.or_eq_true, List.isPrefixOf_iff_prefix, occursIn_iff part cs,
      List.infix_cons_iff]

theorem after?_eq_some_iff (lead s rest : String) : after? lead s = some rest ↔ s = lead ++ rest := by
  unfold after?
  constructor
  · intro h
    split at h
    · next hlead =>
      obtain ⟨cs, hcs⟩ := List.isPrefixOf_iff_prefix.mp hlead
      rw [← hcs, List.drop_left, Option.some.injEq] at h
      rw [← String.ofList_toList (s := s), ← hcs, ← h, String.ofList_append, String.ofList_toList]
    · exact nomatch h
  · intro heq
    obtain rfl := heq
    rw [String.toList_append, if_pos (List.isPrefixOf_iff_prefix.mpr (List.prefix_append _ _)),
      List.drop_left, String.ofList_toList]

/-- Joining the words with spaces gives the string back. -/
theorem intercalate_splitSpaces (s : String) : " ".intercalate (splitSpaces s) = s := by
  apply String.toList_injective
  have hchars : (splitSpaces s).map String.toList = s.toList.splitOn ' ' := by
    rw [splitSpaces, List.map_map]
    simp [Function.comp_def]
  rw [String.toList_intercalate, hchars]
  exact List.intercalate_splitOn ' '

end Js
